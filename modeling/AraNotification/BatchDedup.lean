import AraNotification.BatchResults
import AraNotification.Lib.Repetition
import Mathlib.Data.List.Sort

/-! # Duplicates in a batch

`dedup_key` joins the kind of a target and its payload by colons and commas, and the event type is
joined to it.  The key shows the kind, which has no colon, but an identifier, a channel name or an event
type may have colons and commas of its own.  `key_eq_iff` lists the ways in which two keys coincide: the
targets and types are the same, or the pair is `Ambiguous`.

An item is skipped exactly when one before it has the same key (`skipped_iff`), so the duplicates are
removed and nothing else, exactly when no two of the items that the loop comes to are ambiguous
(`dedupsExactly_iff`). -/

namespace AraNotification

open Http

/-! ### The key -/

namespace BatchTarget

/-- The kind of a target, with which its key begins. -/
def kind : BatchTarget → String
  | .user _ => "user"
  | .users _ => "users"
  | .broadcast => "broadcast"
  | .channel _ => "channel"
  | .channels _ => "channels"

/-- Identifiers in their order, joined by commas. -/
def joined (ids : List String) : String := ",".intercalate (ids.mergeSort (fun a b => decide (a ≤ b)))

/-- The payload of a target as its key shows it. -/
def payload : BatchTarget → Option String
  | .user id => some id
  | .users ids => some (joined ids)
  | .broadcast => none
  | .channel name => some name
  | .channels names => some (joined names)

/-- The same kind and the same payload; lists are compared up to their order. -/
def Same : BatchTarget → BatchTarget → Prop
  | .user a, .user b => a = b
  | .users as, .users bs => as.Perm bs
  | .broadcast, .broadcast => True
  | .channel a, .channel b => a = b
  | .channels as, .channels bs => as.Perm bs
  | _, _ => False

/-- The second payload goes on after a colon, with the beginning of the first event type. -/
def Shifted (x₁ y₁ x₂ y₂ : String) : Prop := ∃ piece, x₂ = x₁ ++ ":" ++ piece ∧ y₁ = piece ++ ":" ++ y₂

/-- Two different targets and event types of one kind that run together: a piece moves across the colon
between payload and event type, or the joined texts of two lists are equal. -/
def Ambiguous (t₁ : BatchTarget) (y₁ : String) (t₂ : BatchTarget) (y₂ : String) : Prop :=
  t₁.kind = t₂.kind ∧ ∃ x₁ x₂, t₁.payload = some x₁ ∧ t₂.payload = some x₂ ∧
    (Shifted x₁ y₁ x₂ y₂ ∨ Shifted x₂ y₂ x₁ y₁ ∨ (x₁ = x₂ ∧ y₁ = y₂ ∧ ¬t₁.Same t₂))

section key
variable {t t₁ t₂ t₃ : BatchTarget} {y y₁ y₂ a b x : String}

theorem Same.refl : t.Same t := by
  cases t with
  | user _ => exact rfl
  | users ids => exact List.Perm.refl ids
  | broadcast => exact trivial
  | channel _ => exact rfl
  | channels names => exact List.Perm.refl names

theorem Same.symm (h : t₁.Same t₂) : t₂.Same t₁ := by
  cases t₁ <;> cases t₂ <;> first | exact h.elim | exact trivial | exact Eq.symm h | exact List.Perm.symm h

theorem Same.trans (h : t₁.Same t₂) (h' : t₂.Same t₃) : t₁.Same t₃ := by
  cases t₁ <;> cases t₂ <;> first
    | exact h.elim
    | cases t₃ <;> first | exact h'.elim | exact trivial | exact Eq.trans h h' | exact List.Perm.trans h h'

theorem joined_perm {as bs : List String} (h : as.Perm bs) : joined as = joined bs := by
  unfold joined
  have hperm : (as.mergeSort (fun a b => decide (a ≤ b))).Perm (bs.mergeSort (fun a b => decide (a ≤ b))) :=
    ((List.mergeSort_perm as _).trans h).trans (List.mergeSort_perm bs _).symm
  rw [hperm.eq_of_pairwise' (List.pairwise_mergeSort' (· ≤ ·) as) (List.pairwise_mergeSort' (· ≤ ·) bs)]

theorem Same.kind_eq (h : t₁.Same t₂) : t₁.kind = t₂.kind := by
  cases t₁ <;> cases t₂ <;> first | exact h.elim | rfl

theorem Same.payload_eq (h : t₁.Same t₂) : t₁.payload = t₂.payload := by
  cases t₁ <;> cases t₂ <;> first
    | exact h.elim
    | rfl
    | exact congrArg some h
    | exact congrArg some (joined_perm h)

/-- Targets of one kind both have a payload, or are both the broadcast. -/
theorem payload_of_kind_eq (h : t₁.kind = t₂.kind) :
    (t₁ = .broadcast ∧ t₂ = .broadcast) ∨ ∃ x₁ x₂, t₁.payload = some x₁ ∧ t₂.payload = some x₂ := by
  cases t₁ <;> cases t₂ <;> first
    | exact .inl ⟨rfl, rfl⟩
    | exact .inr ⟨_, _, rfl, rfl⟩
    | exact absurd h (by simp [kind])

theorem colon_notMem_kind : ':' ∉ t.kind.toList := by
  cases t <;> simp only [kind] <;> decide

/-- What follows the kind in a key. -/
def rest (t : BatchTarget) (eventType : String) : String :=
  match t.payload with
  | some x => x ++ ":" ++ eventType
  | none => eventType

theorem key_eq_kind : dedupKey t ++ ":" ++ y = t.kind ++ ":" ++ t.rest y := by
  cases t <;> simp [dedupKey, kind, rest, payload, joined, ← String.append_assoc]

/-- Two strings with a colon are equal if the parts are, when the first parts have no colon. -/
theorem colon_inj_left (ha : ':' ∉ a.toList) (hb : ':' ∉ b.toList) :
    a ++ ":" ++ x = b ++ ":" ++ y ↔ a = b ∧ x = y := by
  rw [← String.toList_inj, toList_colon, toList_colon, Separator.join_inj_left ha hb, String.toList_inj,
    String.toList_inj]

/-- Two keys are equal when targets and event types are the same, or run together. -/
theorem key_eq_iff : dedupKey t₁ ++ ":" ++ y₁ = dedupKey t₂ ++ ":" ++ y₂ ↔
    (t₁.Same t₂ ∧ y₁ = y₂) ∨ Ambiguous t₁ y₁ t₂ y₂ := by
  rw [key_eq_kind, key_eq_kind, colon_inj_left colon_notMem_kind colon_notMem_kind]
  constructor
  · rintro ⟨hkind, hrest⟩
    by_cases hsame : t₁.Same t₂ ∧ y₁ = y₂
    · exact .inl hsame
    rcases payload_of_kind_eq hkind with ⟨rfl, rfl⟩ | ⟨x₁, x₂, h₁, h₂⟩
    · exact .inl ⟨trivial, hrest⟩
    · refine .inr ⟨hkind, x₁, x₂, h₁, h₂, ?_⟩
      simp only [rest, h₁, h₂] at hrest
      rcases colon_eq_colon_iff.mp hrest with ⟨hx, hy⟩ | hshift | hshift
      · exact .inr (.inr ⟨hx, hy, fun hs => hsame ⟨hs, hy⟩⟩)
      · exact .inl hshift
      · exact .inr (.inl hshift)
  · rintro (⟨hsame, rfl⟩ | ⟨hkind, x₁, x₂, h₁, h₂, hcase⟩)
    · exact ⟨hsame.kind_eq, by simp only [rest, hsame.payload_eq]⟩
    · refine ⟨hkind, ?_⟩
      simp only [rest, h₁, h₂]
      rcases hcase with hshift | hshift | ⟨rfl, rfl, -⟩
      · exact colon_eq_colon_iff.mpr (.inr (.inl hshift))
      · exact colon_eq_colon_iff.mpr (.inr (.inr hshift))
      · rfl

theorem not_shifted_self {x y₁ y₂ : String} : ¬Shifted x y₁ x y₂ := by
  rintro ⟨piece, hx, -⟩
  have hlength := congrArg String.length hx
  simp only [String.length_append] at hlength
  have hcolon : ":".length = 1 := rfl
  omega

/-- What is the same does not run together. -/
theorem Same.not_ambiguous (h : t₁.Same t₂) : ¬Ambiguous t₁ y₁ t₂ y₂ := by
  rintro ⟨-, x₁, x₂, h₁, h₂, hcase⟩
  obtain rfl : x₁ = x₂ := Option.some.inj (h₁.symm.trans (h.payload_eq.trans h₂))
  rcases hcase with hshift | hshift | ⟨-, -, hsame⟩
  · exact not_shifted_self hshift
  · exact not_shifted_self hshift
  · exact hsame h

theorem Shifted.colon_mem {x₁ x₂ : String} (h : Shifted x₁ y₁ x₂ y₂) : ':' ∈ x₂.toList := by
  obtain ⟨piece, rfl, -⟩ := h
  exact colon_mem_toList

/-- User identifiers without a colon do not run together with event types. -/
theorem not_ambiguous_user (ha : ':' ∉ a.toList) (hb : ':' ∉ b.toList) :
    ¬Ambiguous (.user a) y₁ (.user b) y₂ := by
  rintro ⟨-, x₁, x₂, h₁, h₂, hcase⟩
  obtain rfl := Option.some.inj h₁
  obtain rfl := Option.some.inj h₂
  rcases hcase with hshift | hshift | ⟨hx, -, hsame⟩
  · exact hb hshift.colon_mem
  · exact ha hshift.colon_mem
  · exact hsame hx

end key

end BatchTarget

namespace Http

/-! ### What the loop skips -/

section visited
variable (m : ConnectionManager) (store : TemplateStore) (ctx : Option TenantContext) (options : BatchOptions)
  (occasion : ℕ → Occasion)

/-- The items that the loop comes to after the given ones: with `stop_on_error`, up to the first one
that fails. -/
def visited (earlier : List BatchNotificationItem) : List BatchNotificationItem → List BatchNotificationItem
  | [] => []
  | item :: rest =>
      item :: if options.stopOnError && !succeeds m store ctx options occasion earlier item then []
        else visited (earlier ++ [item]) rest

/-- The contents of two items resolve, to the same event type for the same target. -/
def SameNotification (a b : BatchNotificationItem) : Prop :=
  ∃ ra rb, resolveItem store ctx a = .ok ra ∧ resolveItem store ctx b = .ok rb ∧
    a.target.Same b.target ∧ ra.eventType = rb.eventType

/-- The contents of two items resolve, and their targets and event types run together. -/
def RunTogether (a b : BatchNotificationItem) : Prop :=
  ∃ ra rb, resolveItem store ctx a = .ok ra ∧ resolveItem store ctx b = .ok rb ∧
    a.target.Ambiguous ra.eventType b.target rb.eventType

/-- Every item whose content resolves is skipped exactly when it repeats one before it. -/
def DedupsExactly (r : BatchSendRequest) (response : BatchSendResponse) : Prop :=
  ∀ earlier item rest, visited m store ctx r.options occasion [] r.notifications = earlier ++ item :: rest →
    ∀ resolved, resolveItem store ctx item = .ok resolved →
      ((∃ e, response.results[earlier.length]? = some e ∧ isSkipped e = true) ↔
        ∃ it ∈ earlier, SameNotification store ctx it item)

end visited

section dedup
variable {m : ConnectionManager} {store : TemplateStore} {ctx : Option TenantContext} {options : BatchOptions}
  {occasion : ℕ → Occasion} {earlier items : List BatchNotificationItem} {item a b c : BatchNotificationItem}
  {d : Dispatcher} {batchId : Uuid} {timestamp : DateTime} {r : BatchSendRequest} {s : BatchState}

/-- Two items whose contents resolve have the same key. -/
def SameKey (store : TemplateStore) (ctx : Option TenantContext) (a b : BatchNotificationItem) : Prop :=
  ∃ key, itemKey store ctx a = some key ∧ itemKey store ctx b = some key

theorem itemKey_of_ok {resolved : ResolvedContent} (h : resolveItem store ctx item = .ok resolved) :
    itemKey store ctx item = some (dedupKey item.target ++ ":" ++ resolved.eventType) := by
  simp [itemKey, h]

theorem resolves_of_itemKey {key : String} (h : itemKey store ctx item = some key) :
    ∃ resolved, resolveItem store ctx item = .ok resolved := by
  unfold itemKey at h
  split at h
  · exact ⟨_, ‹_›⟩
  · exact absurd h (by simp)

theorem sameKey_iff : SameKey store ctx a b ↔ SameNotification store ctx a b ∨ RunTogether store ctx a b := by
  constructor
  · rintro ⟨key, ha, hb⟩
    obtain ⟨ra, hra⟩ := resolves_of_itemKey ha
    obtain ⟨rb, hrb⟩ := resolves_of_itemKey hb
    have hkey : dedupKey a.target ++ ":" ++ ra.eventType = dedupKey b.target ++ ":" ++ rb.eventType := by
      rw [itemKey_of_ok hra] at ha
      rw [itemKey_of_ok hrb] at hb
      exact Option.some.inj (ha.trans hb.symm)
    rcases BatchTarget.key_eq_iff.mp hkey with ⟨hsame, hy⟩ | hamb
    · exact .inl ⟨ra, rb, hra, hrb, hsame, hy⟩
    · exact .inr ⟨ra, rb, hra, hrb, hamb⟩
  · rintro (⟨ra, rb, hra, hrb, hsame, hy⟩ | ⟨ra, rb, hra, hrb, hamb⟩)
    · refine ⟨_, itemKey_of_ok hra, ?_⟩
      rw [itemKey_of_ok hrb, BatchTarget.key_eq_iff.mpr (.inl ⟨hsame, hy⟩)]
    · refine ⟨_, itemKey_of_ok hra, ?_⟩
      rw [itemKey_of_ok hrb, BatchTarget.key_eq_iff.mpr (.inr hamb)]

theorem SameKey.symm (h : SameKey store ctx a b) : SameKey store ctx b a := by
  obtain ⟨key, ha, hb⟩ := h
  exact ⟨key, hb, ha⟩

theorem SameKey.trans (h : SameKey store ctx a b) (h' : SameKey store ctx b c) : SameKey store ctx a c := by
  obtain ⟨key, ha, hb⟩ := h
  obtain ⟨key', hb', hc⟩ := h'
  obtain rfl : key = key' := Option.some.inj (hb.symm.trans hb')
  exact ⟨key, ha, hc⟩

theorem SameNotification.symm (h : SameNotification store ctx a b) : SameNotification store ctx b a := by
  obtain ⟨ra, rb, hra, hrb, hsame, hy⟩ := h
  exact ⟨rb, ra, hrb, hra, hsame.symm, hy.symm⟩

theorem SameNotification.trans (h : SameNotification store ctx a b) (h' : SameNotification store ctx b c) :
    SameNotification store ctx a c := by
  obtain ⟨ra, rb, hra, hrb, hsame, hy⟩ := h
  obtain ⟨rb', rc, hrb', hrc, hsame', hy'⟩ := h'
  obtain rfl : rb = rb' := Except.ok.inj (hrb.symm.trans hrb')
  exact ⟨ra, rc, hra, hrc, hsame.trans hsame', hy.trans hy'⟩

/-- Alike items are the same exactly when they do not run together. -/
theorem same_of_sameKey_iff : (SameKey store ctx a b → SameNotification store ctx a b) ↔
    ¬RunTogether store ctx a b := by
  rw [sameKey_iff]
  constructor
  · rintro h hrun
    obtain ⟨ra, rb, hra, hrb, hsame, -⟩ := h (.inr hrun)
    obtain ⟨ra', rb', -, -, hamb⟩ := hrun
    exact hsame.not_ambiguous hamb
  · rintro h (hsame | hrun)
    · exact hsame
    · exact absurd hrun h

/-- An item whose content resolves is a duplicate when one before it has its key. -/
theorem isDuplicate_iff (hdedup : options.deduplicate = true) {resolved : ResolvedContent}
    (h : resolveItem store ctx item = .ok resolved) :
    isDuplicate store ctx options earlier item = true ↔ ∃ it ∈ earlier, SameKey store ctx it item := by
  have hkey := itemKey_of_ok h
  simp only [isDuplicate, hdedup, Bool.true_and, decide_eq_true_eq, List.mem_map, SameKey, hkey,
    Option.some.injEq, exists_eq_right']

theorem isSkipped_entry {resolved : ResolvedContent} (h : resolveItem store ctx item = .ok resolved) :
    isSkipped (entry m store ctx options occasion earlier item) = isDuplicate store ctx options earlier item := by
  simp only [entry, h]
  cases isDuplicate store ctx options earlier item <;> rfl

theorem getElem_entries (before after : List BatchNotificationItem) :
    (entries m store ctx options occasion earlier (before ++ item :: after))[before.length]? =
      some (entry m store ctx options occasion (earlier ++ before) item) := by
  induction before generalizing earlier with
  | nil => simp [entries]
  | cons first before ih => simp [entries, ih]

/-- Without a failed item, or without `stop_on_error`, the loop comes to all items. -/
theorem visited_append (h : options.stopOnError = true → AllSucceed m store ctx options occasion (earlier ++ items))
    (rest : List BatchNotificationItem) :
    visited m store ctx options occasion earlier (items ++ rest) =
      items ++ visited m store ctx options occasion (earlier ++ items) rest := by
  induction items generalizing earlier with
  | nil => simp
  | cons item items ih =>
      have hgo : (options.stopOnError && !succeeds m store ctx options occasion earlier item) = false := by
        cases hstop : options.stopOnError with
        | false => rfl
        | true => simp [h hstop earlier item items rfl]
      have htail : visited m store ctx options occasion (earlier ++ [item]) (items ++ rest) =
          items ++ visited m store ctx options occasion (earlier ++ [item] ++ items) rest := ih (by simpa using h)
      rw [List.cons_append, visited, hgo, if_neg Bool.false_ne_true, htail]
      simp

/-- The results begin with the entries of the items that the loop comes to. -/
theorem entries_visited (h : Ended m store ctx r.options occasion d r.notifications.length r.notifications s) :
    entries m store ctx r.options occasion [] (visited m store ctx r.options occasion [] r.notifications) <+:
      s.results := by
  have hstopped : ∀ {before after : List BatchNotificationItem} {item : BatchNotificationItem},
      r.notifications = before ++ item :: after → r.options.stopOnError = true →
      AllSucceed m store ctx r.options occasion before →
      succeeds m store ctx r.options occasion before item = false →
        visited m store ctx r.options occasion [] r.notifications = before ++ [item] := by
    intro before after item hitems hstop hall hfail
    rw [hitems, visited_append (fun _ => hall), List.nil_append, visited, hstop, hfail]
    rfl
  cases h with
  | all h hall =>
      have hvisited : visited m store ctx r.options occasion [] (r.notifications ++ []) =
          r.notifications ++ visited m store ctx r.options occasion ([] ++ r.notifications) [] :=
        visited_append (fun hstop => hall hstop) []
      rw [List.append_nil] at hvisited
      rw [hvisited, visited, List.append_nil, h.results]
  | unresolved before item after hitems hstop hall e he h =>
      rw [hstopped hitems hstop hall (succeeds_unresolved (fun resolved hr => by simp [he] at hr)), h.results]
  | undelivered before item after hitems hstop hall resolved hr hfail last h hlast =>
      rw [hstopped hitems hstop hall hfail, hlast, ← h.results]
      exact List.prefix_append _ _

/-- An item that the loop comes to is skipped when one before it has its key. -/
theorem skipped_iff (hdedup : r.options.deduplicate = true) {earlier rest : List BatchNotificationItem}
    (hitem : visited m store ctx r.options occasion [] r.notifications = earlier ++ item :: rest)
    {resolved : ResolvedContent} (hresolved : resolveItem store ctx item = .ok resolved) :
    (∃ e, ((batchEnd m store ctx occasion d r).respond batchId timestamp
        r.notifications.length).results[earlier.length]? = some e ∧ isSkipped e = true) ↔
      ∃ it ∈ earlier, SameKey store ctx it item := by
  have hended : Ended m store ctx r.options occasion d r.notifications.length r.notifications
      (batchEnd m store ctx occasion d r) := ended_batchEnd
  obtain ⟨tail, htail⟩ := entries_visited hended
  have hentry : (batchEnd m store ctx occasion d r).results[earlier.length]? =
      some (entry m store ctx r.options occasion earlier item) := by
    rw [← htail, hitem, List.getElem?_append_left (by rw [length_entries, List.length_append]; simp),
      getElem_entries, List.nil_append]
  have hskipped : isSkipped (entry m store ctx r.options occasion earlier item) =
      isDuplicate store ctx r.options earlier item := isSkipped_entry hresolved
  rw [← isDuplicate_iff hdedup hresolved, ← hskipped]
  constructor
  · rintro ⟨e, he, hskip⟩
    obtain rfl := Option.some.inj (hentry.symm.trans he)
    exact hskip
  · exact fun hskip => ⟨_, hentry, hskip⟩

/-- The items to be skipped are those whose repetition the keys find. -/
theorem dedups_respond_iff (hdedup : r.options.deduplicate = true) :
    DedupsExactly m store ctx occasion r
        ((batchEnd m store ctx occasion d r).respond batchId timestamp r.notifications.length) ↔
      Repetition.Finds (SameKey store ctx) (SameNotification store ctx)
        (visited m store ctx r.options occasion [] r.notifications) := by
  constructor
  · intro h earlier item rest hitem
    by_cases hresolves : ∃ resolved, resolveItem store ctx item = .ok resolved
    · obtain ⟨resolved, hresolved⟩ := hresolves
      exact (skipped_iff hdedup hitem hresolved).symm.trans (h earlier item rest hitem resolved hresolved)
    · refine iff_of_false ?_ ?_
      · rintro ⟨it, -, key, -, hkey⟩
        exact hresolves (resolves_of_itemKey hkey)
      · rintro ⟨it, -, ra, rb, -, hrb, -⟩
        exact hresolves ⟨rb, hrb⟩
  · intro h earlier item rest hitem resolved hresolved
    exact (skipped_iff hdedup hitem hresolved).trans (h earlier item rest hitem)

/-- The duplicates of an accepted batch, and no other items, are skipped exactly when no two items that
the loop comes to run together. -/
theorem dedupsExactly_iff (d : Dispatcher) (batchId : Uuid) (timestamp : DateTime) (r : BatchSendRequest)
    (hpos : 1 ≤ r.notifications.length) (hmax : r.notifications.length ≤ maxBatchSize)
    (hdedup : r.options.deduplicate = true) :
    ∃ response, (batchSend m store ctx d occasion batchId timestamp r).1 = .ok response ∧
      (DedupsExactly m store ctx occasion r response ↔
        (visited m store ctx r.options occasion [] r.notifications).Pairwise
          (fun a b => ¬RunTogether store ctx a b)) := by
  rw [batchSend_accepted hpos hmax]
  refine ⟨_, rfl, ?_⟩
  have hpairwise : Repetition.Finds (SameKey store ctx) (SameNotification store ctx)
        (visited m store ctx r.options occasion [] r.notifications) ↔
      (visited m store ctx r.options occasion [] r.notifications).Pairwise
        (fun a b => SameKey store ctx a b → SameNotification store ctx a b) :=
    Repetition.finds_iff (fun _ _ h => sameKey_iff.mpr (.inl h)) (fun _ _ h => h.symm)
      (fun _ _ _ h h' => h.trans h') (fun _ _ h => h.symm) (fun _ _ _ h h' => h.trans h')
  rw [dedups_respond_iff hdedup, hpairwise]
  simp only [same_of_sameKey_iff]

/-- A notification with content of its own. -/
def direct (target : BatchTarget) (eventType : String) : BatchNotificationItem :=
  ⟨⟨.direct eventType .null, none, none, none⟩, target⟩

/-- Two users that are told the same, the first of them twice. -/
def repeated : BatchSendRequest :=
  ⟨[direct (.user "alice") "paid", direct (.user "bob") "paid", direct (.user "alice") "paid"], ⟨false, true⟩⟩

/-- A user `a:b` and a user `a`, with event types that make up for the difference. -/
def shifted : BatchSendRequest :=
  ⟨[direct (.user "a:b") "c", direct (.user "a") "b:c"], ⟨false, true⟩⟩

/-- The second notification to `alice` is skipped. -/
theorem repeated_skipped :
    ∃ response, (batchSend (.withLimits .default) noTemplates none emptyQueue (fun i => ⟨i, 0, quiet, 0⟩) 1 0
        repeated).1 = .ok response ∧
      DedupsExactly (.withLimits .default) noTemplates none (fun i => ⟨i, 0, quiet, 0⟩) repeated response := by
  obtain ⟨response, hresponse, hdedups⟩ := @dedupsExactly_iff (.withLimits .default) noTemplates none
    (fun i => ⟨i, 0, quiet, 0⟩) emptyQueue 1 0 repeated (by decide) (by decide) rfl
  refine ⟨response, hresponse, hdedups.mpr (List.pairwise_of_forall_mem_list ?_)⟩
  have husers : ∀ item ∈ visited (.withLimits .default) noTemplates none repeated.options
      (fun i => ⟨i, 0, quiet, 0⟩) [] repeated.notifications,
      ∃ id, item.target = .user id ∧ ':' ∉ id.toList := by
    intro item hitem
    have hmem : item ∈ repeated.notifications := hitem
    rcases List.mem_cons.mp hmem with rfl | hmem
    · exact ⟨"alice", rfl, by decide⟩
    · rcases List.mem_cons.mp hmem with rfl | hmem
      · exact ⟨"bob", rfl, by decide⟩
      · obtain rfl := List.mem_singleton.mp hmem
        exact ⟨"alice", rfl, by decide⟩
  rintro a ha b hb ⟨ra, rb, -, -, hamb⟩
  obtain ⟨u, hu, hcolon⟩ := husers a ha
  obtain ⟨v, hv, hcolon'⟩ := husers b hb
  rw [hu, hv] at hamb
  exact BatchTarget.not_ambiguous_user hcolon hcolon' hamb

/-- The notification to `a` is taken for one to `a:b`. -/
theorem shifted_suppressed :
    ¬ ∀ (m : ConnectionManager) (store : TemplateStore) (ctx : Option TenantContext) (occasion : ℕ → Occasion)
      (d : Dispatcher) (batchId : Uuid) (timestamp : DateTime) (r : BatchSendRequest),
      1 ≤ r.notifications.length → r.notifications.length ≤ maxBatchSize → r.options.deduplicate = true →
        ∃ response, (batchSend m store ctx d occasion batchId timestamp r).1 = .ok response ∧
          DedupsExactly m store ctx occasion r response := by
  intro hall
  obtain ⟨response, hresponse, hdedups⟩ := hall (.withLimits .default) noTemplates none
    (fun i => ⟨i, 0, quiet, 0⟩) emptyQueue 1 0 shifted (by decide) (by decide) rfl
  cases hresponse
  have hsecond := (hdedups [direct (.user "a:b") "c"] (direct (.user "a") "b:c") [] rfl ⟨"b:c", .null, .normal, none⟩
    rfl).mp ⟨_, rfl, rfl⟩
  obtain ⟨it, hit, ra, rb, -, -, hsame, -⟩ := hsecond
  obtain rfl := List.mem_singleton.mp hit
  exact absurd (show "a:b" = "a" from hsame) (by decide)

end dedup

end Http

end AraNotification
