import AraNotification.Connection
import AraNotification.Lib.Separator

/-! # Tenants, keys and names

A tenant scopes two kinds of strings by prefixing them with its identifier and a colon: the
keys of the offline queue (`tenantScopedKey`, with the user identifier) and the names of
channels (`TenantContext.namespaceChannel`).  The default tenant has no prefix in either.

Channel names are checked when a connection subscribes (`isValidChannelName`), tenant
identifiers when a request names one in its header (`isValidTenantId`, called by
`apiKeyAuth`); both exclude the colon.  User identifiers and the tenant claim of a token are
arbitrary strings.  The checks use the Unicode tables of the standard library, which are a
parameter here that agrees with the tables on ASCII.

Two pairs of a tenant and a user have the same queue key exactly when they are equal or
`Collide` (`key_eq_iff`).  A channel name that is `Unambiguous` for a tenant has a key that
no valid channel name of another tenant has (`tenant_eq_of_unambiguous`), and every other
name shares its key with one (`exists_foreign_of_ambiguous`). -/

namespace AraNotification

/-! ### Keys -/

/-- Default tenant ID when multi-tenancy is disabled or no tenant is given. -/
def defaultTenantId : String := "default"

/-- Queue key of a user: the default tenant has no prefix. -/
def tenantScopedKey (tenantId userId : String) : String :=
  if tenantId = defaultTenantId then userId else tenantId ++ ":" ++ userId

/-- The claims of a token that connection handling reads. -/
structure Claims where
  sub : String
  roles : List String
  tenantId : Option String
deriving DecidableEq, Repr

/-- `Claims::tenant_id`: the tenant claim, or the default tenant. -/
def Claims.getTenantId (c : Claims) : String := c.tenantId.getD defaultTenantId

/-- A tenant and a user. -/
structure Identity where
  tenantId : String
  userId : String
deriving DecidableEq, Repr

/-- The queue key of an identity. -/
def Identity.key (i : Identity) : String := tenantScopedKey i.tenantId i.userId

/-- The identity under which a connection with these claims is registered. -/
def Claims.identity (c : Claims) : Identity := ⟨c.getTenantId, c.sub⟩

/-- The identity of a registered connection. -/
def ConnectionHandle.identity (h : ConnectionHandle) : Identity := ⟨h.tenantId, h.userId⟩

/-! ### Tenant configuration and context -/

/-- The part of the multi-tenant configuration that request handling reads. -/
structure TenantConfig where
  enabled : Bool
deriving DecidableEq, Repr

/-- Context of a tenant; `isDefault` is fixed by the identifier. -/
structure TenantContext where
  tenantId : String
  isDefault : Bool
  isDefault_eq : isDefault = decide (tenantId = defaultTenantId)

namespace TenantContext

def new (tenantId : String) : TenantContext := ⟨tenantId, decide (tenantId = defaultTenantId), rfl⟩

/-- Context for the default tenant. -/
def defaultTenant : TenantContext := new defaultTenantId

/-- Namespace a channel name for the tenant. -/
def namespaceChannel (ctx : TenantContext) (channel : String) : String :=
  if ctx.isDefault then channel else ctx.tenantId ++ ":" ++ channel

end TenantContext

/-- `TenantManager::create_context`. -/
def TenantConfig.createContext (config : TenantConfig) (tenantId : String) : TenantContext :=
  if config.enabled then .new tenantId else .defaultTenant

/-! ### Valid names -/

/-- The Unicode properties that the name checks read. -/
structure UnicodeTables where
  isAlphanumeric : Char → Bool
  isWhitespace : Char → Bool
  isAlphanumeric_ascii : ∀ c : Char, c.toNat < 128 → isAlphanumeric c = c.isAlphanum
  isWhitespace_ascii : ∀ c : Char, c.toNat < 128 →
    isWhitespace c = (decide (9 ≤ c.toNat ∧ c.toNat ≤ 13) || c == ' ')

/-- The tables cut down to ASCII. -/
def UnicodeTables.ascii : UnicodeTables where
  isAlphanumeric c := c.isAlphanum
  isWhitespace c := decide (9 ≤ c.toNat ∧ c.toNat ≤ 13) || c == ' '
  isAlphanumeric_ascii _ _ := rfl
  isWhitespace_ascii _ _ := rfl

section names
variable (U : UnicodeTables)

/-- The characters allowed in channel names and tenant identifiers. -/
def isNameChar (c : Char) : Bool := U.isAlphanumeric c || c == '-' || c == '_' || c == '.'

/-- Validate a channel name; lengths are in bytes. -/
def isValidChannelName (name : String) : Bool :=
  if name.isEmpty || decide (name.utf8ByteSize > 64) then false
  else name.toList.all (isNameChar U)

/-- `str::trim`. -/
def trim (s : String) : String :=
  String.ofList (((s.toList.dropWhile U.isWhitespace).reverse.dropWhile U.isWhitespace).reverse)

/-- Validate a tenant identifier after trimming it. -/
def isValidTenantId (id : String) : Bool :=
  if (trim U id).isEmpty || decide ((trim U id).utf8ByteSize > 64) then false
  else (trim U id).toList.all (isNameChar U)

end names

/-! ### Authentication of requests -/

/-- `constant_time_eq` on byte strings. -/
def constantTimeEq (a b : List UInt8) : Bool :=
  if a.length ≠ b.length then false
  else ((a.zip b).foldl (fun acc p => acc ||| (p.1 ^^^ p.2)) 0) == 0

/-- The bytes of a string. -/
def asBytes (s : String) : List UInt8 := s.toUTF8.data.toList

/-- The settings that authentication reads. -/
structure ApiSettings where
  key : Option String
  isProduction : Bool
deriving DecidableEq, Repr

/-- The two headers of a request; a header that is missing or not visible ASCII is `none`. -/
structure RequestHeaders where
  apiKey : Option String
  tenantId : Option String
deriving DecidableEq, Repr

/-- The status codes with which a request is refused. -/
inductive AuthFailure where
  | serviceUnavailable
  | unauthorized
  | badRequest
deriving DecidableEq, Repr

/-- API key authentication; a request that passes carries the context of its tenant when
multi-tenancy is enabled. -/
def apiKeyAuth (U : UnicodeTables) (settings : ApiSettings) (config : TenantConfig)
    (headers : RequestHeaders) : Except AuthFailure (Option TenantContext) :=
  match settings.key with
  | none => if settings.isProduction then .error .serviceUnavailable else .ok none
  | some expectedKey =>
      match headers.apiKey with
      | none => .error .unauthorized
      | some key =>
          if constantTimeEq (asBytes key) (asBytes expectedKey) then
            if config.enabled then
              match headers.tenantId.map (trim U) with
              | some tid =>
                  if isValidTenantId U tid then .ok (some (config.createContext tid))
                  else .error .badRequest
              | none => .error .badRequest
            else .ok none
          else .error .unauthorized

/-- A request can pass authentication with the context of this tenant. -/
def Validated (U : UnicodeTables) (tenantId : String) : Prop :=
  ∃ settings headers, apiKeyAuth U settings ⟨true⟩ headers = .ok (some (.new tenantId))

/-! ### Strings joined by a colon -/

section colon
variable {a b x y s : String}

theorem toList_colon : (a ++ ":" ++ x).toList = a.toList ++ ':' :: x.toList := by simp

/-- The strings that begin with a string and a colon. -/
theorem isPrefixOf_colon_iff : (a ++ ":").toList.isPrefixOf s.toList = true ↔ ∃ x, s = a ++ ":" ++ x := by
  rw [List.isPrefixOf_iff_prefix]
  constructor
  · rintro ⟨x, hx⟩
    refine ⟨String.ofList x, ?_⟩
    rw [← String.toList_inj, ← hx]
    simp
  · rintro ⟨x, hx⟩
    exact ⟨x.toList, by rw [hx]; simp⟩

theorem colon_mem_toList : ':' ∈ (a ++ ":" ++ x).toList := by simp

/-- Two strings joined by a colon coincide when their parts do, or when a piece of one moves
across the colon of the other. -/
theorem colon_eq_colon_iff :
    a ++ ":" ++ x = b ++ ":" ++ y ↔
      (a = b ∧ x = y) ∨ (∃ d, b = a ++ ":" ++ d ∧ x = d ++ ":" ++ y) ∨
        (∃ d, a = b ++ ":" ++ d ∧ y = d ++ ":" ++ x) := by
  have lift : ∀ {u v w z : String},
      (∃ d, v.toList = u.toList ++ ':' :: d ∧ w.toList = d ++ ':' :: z.toList) ↔
        ∃ d, v = u ++ ":" ++ d ∧ w = d ++ ":" ++ z := by
    intro u v w z
    constructor
    · rintro ⟨d, hv, hw⟩
      refine ⟨String.ofList d, ?_, ?_⟩ <;> rw [← String.toList_inj, toList_colon] <;> simpa
    · rintro ⟨d, rfl, rfl⟩
      exact ⟨d.toList, toList_colon, toList_colon⟩
  rw [← String.toList_inj, toList_colon, toList_colon, Separator.join_eq_join_iff, lift, lift,
    String.toList_inj, String.toList_inj]

/-- The parts before and after the last colon (`rsplit_once(':')`). -/
def rsplitOnce (s : String) : Option (String × String) :=
  (Separator.splitLast ':' s.toList).map (fun p => (String.ofList p.1, String.ofList p.2))

theorem rsplitOnce_eq_some_iff :
    rsplitOnce s = some (a, x) ↔ s = a ++ ":" ++ x ∧ ':' ∉ x.toList := by
  rw [rsplitOnce, Option.map_eq_some_iff, ← String.toList_inj, toList_colon,
    ← Separator.splitLast_eq_some_iff]
  constructor
  · rintro ⟨⟨p, q⟩, h, heq⟩
    obtain ⟨rfl, rfl⟩ := Prod.mk.inj heq
    simpa using h
  · intro h
    exact ⟨_, h, by simp⟩

end colon

/-! ### Queue keys -/

/-- A colon inside `i`'s user name makes its key that of `j`. -/
def CollideLeft (i j : Identity) : Prop :=
  (i.tenantId = defaultTenantId ∧ j.tenantId ≠ defaultTenantId ∧
    i.userId = j.tenantId ++ ":" ++ j.userId) ∨
  (i.tenantId ≠ defaultTenantId ∧ ∃ part, j.tenantId = i.tenantId ++ ":" ++ part ∧
    i.userId = part ++ ":" ++ j.userId)

/-- Two different identities whose tenant and user strings run together. -/
def Collide (i j : Identity) : Prop := CollideLeft i j ∨ CollideLeft j i

theorem colon_ne_default (a x : String) : a ++ ":" ++ x ≠ defaultTenantId := by
  intro h
  have hm : ':' ∈ defaultTenantId.toList := h ▸ colon_mem_toList
  exact absurd hm (by decide)

theorem key_of_default {i : Identity} (h : i.tenantId = defaultTenantId) : i.key = i.userId := by
  rw [Identity.key, tenantScopedKey, if_pos h]

theorem key_of_ne_default {i : Identity} (h : i.tenantId ≠ defaultTenantId) :
    i.key = i.tenantId ++ ":" ++ i.userId := by
  rw [Identity.key, tenantScopedKey, if_neg h]

theorem CollideLeft.key_eq {i j : Identity} (h : CollideLeft i j) : i.key = j.key := by
  rcases h with ⟨hi, hj, hu⟩ | ⟨hi, part, hj, hu⟩
  · rw [key_of_default hi, key_of_ne_default hj, hu]
  · have hj' : j.tenantId ≠ defaultTenantId := hj ▸ colon_ne_default _ _
    rw [key_of_ne_default hi, key_of_ne_default hj', hj, hu]
    simp only [String.append_assoc]

/-- Two identities share a queue key exactly when they are equal or collide. -/
theorem key_eq_iff {i j : Identity} : i.key = j.key ↔ i = j ∨ Collide i j := by
  constructor
  · intro h
    by_cases hi : i.tenantId = defaultTenantId <;> by_cases hj : j.tenantId = defaultTenantId
    · rw [key_of_default hi, key_of_default hj] at h
      obtain ⟨t, u⟩ := i
      obtain ⟨t', u'⟩ := j
      simp_all
    · rw [key_of_default hi, key_of_ne_default hj] at h
      exact .inr (.inl (.inl ⟨hi, hj, h⟩))
    · rw [key_of_ne_default hi, key_of_default hj] at h
      exact .inr (.inr (.inl ⟨hj, hi, h.symm⟩))
    · rw [key_of_ne_default hi, key_of_ne_default hj, colon_eq_colon_iff] at h
      rcases h with ⟨ht, hu⟩ | ⟨d, ht, hu⟩ | ⟨d, ht, hu⟩
      · obtain ⟨t, u⟩ := i
        obtain ⟨t', u'⟩ := j
        simp_all
      · exact .inr (.inl (.inr ⟨hi, d, ht, hu⟩))
      · exact .inr (.inr (.inr ⟨hj, d, ht, hu⟩))
  · rintro (rfl | h | h)
    · rfl
    · exact h.key_eq
    · exact h.key_eq.symm

theorem Collide.ne {i j : Identity} (h : Collide i j) : i ≠ j := by
  have left : ∀ {i : Identity}, ¬ CollideLeft i i := by
    rintro i (⟨hi, hj, -⟩ | ⟨-, part, hj, -⟩)
    · exact hj hi
    · have hl := congrArg (fun s => s.toList.length) hj
      simp at hl
  rintro rfl
  exact h.elim left left

/-! ### Channel keys -/

section channels
variable {U : UnicodeTables} {name : String}

theorem isNameChar_colon : isNameChar U ':' = false := by
  rw [isNameChar, U.isAlphanumeric_ascii ':' (by decide)]
  decide

theorem colon_not_mem_of_valid (h : isValidChannelName U name = true) : ':' ∉ name.toList := by
  intro hm
  rw [isValidChannelName] at h
  split_ifs at h
  rw [List.all_eq_true] at h
  have hc := h ':' hm
  rw [isNameChar_colon] at hc
  exact absurd hc (by simp)

/-- Trimming removes nothing but white space. -/
theorem mem_trim {s : String} {c : Char} (hc : c ∈ s.toList) (hw : U.isWhitespace c = false) :
    c ∈ (trim U s).toList := by
  have hdrop : ∀ l : List Char, c ∈ l → c ∈ l.dropWhile U.isWhitespace := by
    intro l hl
    rw [← List.takeWhile_append_dropWhile (p := U.isWhitespace) (l := l), List.mem_append] at hl
    rcases hl with hl | hl
    · exact absurd (List.all_eq_true.mp List.all_takeWhile c hl) (by simp [hw])
    · exact hl
  rw [trim, String.toList_ofList, List.mem_reverse]
  exact hdrop _ (List.mem_reverse.mpr (hdrop _ hc))

/-- The context of a request has a tenant without a colon. -/
theorem colon_not_mem_of_validated {t : String} (h : Validated U t) : ':' ∉ t.toList := by
  obtain ⟨settings, headers, hauth⟩ := h
  intro hm
  have hspace : U.isWhitespace ':' = false := by
    rw [U.isWhitespace_ascii ':' (by decide)]
    decide
  unfold apiKeyAuth at hauth
  split at hauth
  · split_ifs at hauth
    cases hauth
  · split at hauth
    · cases hauth
    · split_ifs at hauth with hkey henabled
      · split at hauth
        · split_ifs at hauth with hvalid
          rename_i tid htid
          have ht : tid = t := congrArg TenantContext.tenantId (Option.some.inj (Except.ok.inj hauth))
          subst ht
          rw [isValidTenantId] at hvalid
          split_ifs at hvalid
          have hc := List.all_eq_true.mp hvalid ':' (mem_trim hm hspace)
          rw [isNameChar_colon] at hc
          cases hc
        · cases hauth
      · exact absurd rfl henabled

theorem namespaceChannel_new (t channel : String) :
    (TenantContext.new t).namespaceChannel channel =
      if t = defaultTenantId then channel else t ++ ":" ++ channel := by
  simp [TenantContext.namespaceChannel, TenantContext.new]

/-- What the last colon of a channel name leaves is no valid channel name, except that the
default tenant may write its own name in front. -/
def Unambiguous (U : UnicodeTables) (tenantId channel : String) : Prop :=
  ∀ p ∈ rsplitOnce channel, isValidChannelName U p.2 = true →
    tenantId = defaultTenantId ∧ p.1 = defaultTenantId

instance (U : UnicodeTables) (tenantId channel : String) : Decidable (Unambiguous U tenantId channel) :=
  inferInstanceAs (Decidable (∀ p ∈ rsplitOnce channel, _))

/-- The key of a valid channel name of tenant `t` is the key of `channel` for another tenant
only if `channel` is ambiguous there. -/
theorem tenant_eq_of_unambiguous {t t' channel : String} (hu : Unambiguous U t channel)
    (hn : isValidChannelName U name = true)
    (h : (TenantContext.new t').namespaceChannel name = (TenantContext.new t).namespaceChannel channel) :
    t' = t := by
  have hc := colon_not_mem_of_valid hn
  rw [namespaceChannel_new, namespaceChannel_new] at h
  split_ifs at h with ht' ht ht
  · rw [ht', ht]
  · exact absurd (h ▸ colon_mem_toList) hc
  · have hd := hu _ (rsplitOnce_eq_some_iff.mpr ⟨h.symm, hc⟩) hn
    exact absurd hd.2 ht'
  · rcases colon_eq_colon_iff.mp h with ⟨heq, -⟩ | ⟨d, -, rfl⟩ | ⟨d, -, hd⟩
    · exact heq
    · exact absurd colon_mem_toList hc
    · exact absurd (hu _ (rsplitOnce_eq_some_iff.mpr ⟨hd, hc⟩) hn).1 ht

theorem unambiguous_of_valid {t : String} (h : isValidChannelName U name = true) :
    Unambiguous U t name := by
  intro p hp
  obtain ⟨heq, -⟩ := rsplitOnce_eq_some_iff.mp hp
  have hcolon : ':' ∈ name.toList := heq ▸ colon_mem_toList
  exact absurd hcolon (colon_not_mem_of_valid h)

/-- A tenant gives different names different keys. -/
theorem namespaceChannel_right_inj {t x y : String} :
    (TenantContext.new t).namespaceChannel x = (TenantContext.new t).namespaceChannel y ↔ x = y := by
  rw [namespaceChannel_new, namespaceChannel_new]
  split_ifs with ht
  · rfl
  · rw [← String.toList_inj, toList_colon, toList_colon, List.append_cancel_left_eq,
      List.cons.injEq, String.toList_inj]
    simp

/-- An ambiguous channel name has the key of a valid channel name of another tenant. -/
theorem exists_foreign_of_ambiguous {t channel : String} (hu : ¬ Unambiguous U t channel) :
    ∃ t' name, t' ≠ t ∧ isValidChannelName U name = true ∧
      (TenantContext.new t').namespaceChannel name = (TenantContext.new t).namespaceChannel channel := by
  simp only [Unambiguous, not_forall] at hu
  obtain ⟨⟨a, b⟩, hp, hb, hnot⟩ := hu
  obtain ⟨rfl, -⟩ := rsplitOnce_eq_some_iff.mp hp
  by_cases ht : t = defaultTenantId
  · have ha : a ≠ defaultTenantId := fun ha => hnot ⟨ht, ha⟩
    refine ⟨a, b, fun he => ha (he.trans ht), hb, ?_⟩
    rw [namespaceChannel_new, namespaceChannel_new, if_neg ha, if_pos ht]
  · refine ⟨t ++ ":" ++ a, b, ?_, hb, ?_⟩
    · intro he
      have hl := congrArg (fun s => s.toList.length) he
      simp at hl
    · rw [namespaceChannel_new, namespaceChannel_new, if_neg (colon_ne_default t a), if_neg ht]
      simp only [String.append_assoc]

end channels

end AraNotification
