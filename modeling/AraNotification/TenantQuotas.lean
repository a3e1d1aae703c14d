import AraNotification.DispatchRecipients
import AraNotification.Settings

/-! # Quotas of tenants

`TenantManager::get_limits` computes the connection limits of a tenant, but `handle_socket` and
`sse_handler` register with `ConnectionManager::register`, that is with the limits of the service,
which count the connections of all tenants together.

`quotasIsolated_iff`: the quotas of a tenant hold in every reachable state, and its connects do not
depend on other tenants, exactly when the limits of the service imply both. -/

namespace AraNotification

/-! ### The limits of a tenant -/

/-- Per-tenant connection limits configuration. -/
structure TenantLimitsConfig where
  maxConnections : ℕ
  maxConnectionsPerUser : ℕ
  maxSubscriptionsPerConnection : ℕ
deriving DecidableEq, Repr

def defaultTenantLimits : TenantLimitsConfig := ⟨1000, 5, 50⟩

def TenantLimitsConfig.toLimits (config : TenantLimitsConfig) : ConnectionLimits :=
  ⟨config.maxConnections, config.maxConnectionsPerUser, config.maxSubscriptionsPerConnection⟩

/-- The configuration of the tenant manager. -/
structure TenantManager where
  config : TenantConfig
  defaultLimits : TenantLimitsConfig
  tenantOverrides : DashMap String TenantLimitsConfig

/-- Get connection limits for a tenant. -/
def TenantManager.getLimits (manager : TenantManager) (tenantId : String) : ConnectionLimits :=
  if !manager.config.enabled then .default
  else
    match manager.tenantOverrides.lookup tenantId with
    | some overrideConfig => overrideConfig.toLimits
    | none => manager.defaultLimits.toLimits

/-! ### Connects -/

namespace ConnectionManager
variable (m m' : ConnectionManager)

/-- The registration of `handle_socket` and `sse_handler`. -/
def connect (claims : Claims) (id : Uuid) (now : DateTime) :
    Except ConnectionError ConnectionHandle × ConnectionManager :=
  m.register id claims.sub claims.getTenantId claims.roles now

/-- The connect is accepted. -/
def Accepts (claims : Claims) (id : Uuid) (now : DateTime) : Prop := ∃ h, (m.connect claims id now).1 = .ok h

/-- Number of registered connections of a tenant. -/
def tenantCount (tenantId : String) : ℕ := m.connections.values.countP (fun h => h.tenantId = tenantId)

/-- Number of registered connections of a user of a tenant. -/
def identityCount (i : Identity) : ℕ := m.connections.values.countP (fun h => h.identity = i)

/-- The same connections of the tenant are registered. -/
def AgreeOn (tenantId : String) : Prop :=
  ∀ id h, h.tenantId = tenantId → (m.connections.lookup id = some h ↔ m'.connections.lookup id = some h)

end ConnectionManager

open ConnectionManager

/-- The quotas of a tenant hold, and its connects depend on its own connections only, as long as the
service has room. A limit of 0 is none. -/
structure QuotasIsolated (limits quota : ConnectionLimits) (tenantId : String) : Prop where
  tenant : quota.maxConnections ≠ 0 → ∀ m, Reachable limits m → m.tenantCount tenantId ≤ quota.maxConnections
  user : quota.maxConnectionsPerUser ≠ 0 → ∀ m, Reachable limits m →
    ∀ u, m.identityCount ⟨tenantId, u⟩ ≤ quota.maxConnectionsPerUser
  sameAnswer : ∀ m m', Reachable limits m → Reachable limits m' → m.AgreeOn m' tenantId →
    m.totalLimitReached limits = false → m'.totalLimitReached limits = false →
    ∀ claims : Claims, claims.getTenantId = tenantId →
    ∀ id now id' now', m.Accepts claims id now ↔ m'.Accepts claims id' now'

/-- Staying within the limit is staying within the quota. -/
def Covers (limit quota : ℕ) : Prop := quota = 0 ∨ (0 < limit ∧ limit ≤ quota)

instance (limit quota : ℕ) : Decidable (Covers limit quota) := inferInstanceAs (Decidable (_ ∨ _))

/-! ### Counts -/

section counts
variable {m : ConnectionManager} {limits : ConnectionLimits}

/-- The user index has as many identifiers as the user has connections. -/
theorem userConnectionCount_eq (hm : m.Indexed) (u : String) :
    m.userConnectionCount u = m.connections.values.countP (fun h => h.userId = u) := by
  have hlength : (m.handles (m.userIndex.ids u)).length = (m.userIndex.ids u).length := by
    refine List.filterMap_length_eq_length.mpr (fun id hid => ?_)
    obtain ⟨h, hl, -⟩ := (hm.user.mem_iff u id).mp hid
    exact Option.isSome_of_eq_some hl
  have hindex : m.Enumerates (fun h => h.userId = u) (m.handles (m.userIndex.ids u)) :=
    enumerates_handles hm hm.user u
  have hvalues := ((enumerates_getAllConnections hm).filter (fun h => h.userId = u)).congr
    (q := fun h => h.userId = u) (fun h => by simp)
  rw [userConnectionCount, ← hlength, (hindex.perm hvalues).length_eq, List.countP_eq_length_filter]
  rfl

theorem countP_le_len (p : ConnectionHandle → Bool) : m.connections.values.countP p ≤ m.connections.len := by
  rw [DashMap.len_eq_countP]
  exact List.countP_mono_left (fun _ _ _ => rfl)

theorem countP_le_total (hm : Reachable limits m) (hpos : 0 < limits.maxConnections)
    (p : ConnectionHandle → Bool) : m.connections.values.countP p ≤ limits.maxConnections := by
  have htotal := hm.withinLimits.total
  rw [hm.limits_eq] at htotal
  exact (countP_le_len p).trans (htotal (Nat.ne_of_gt hpos))

theorem identityCount_le (hm : m.Indexed) (i : Identity) :
    m.identityCount i ≤ m.userConnectionCount i.userId := by
  rw [userConnectionCount_eq hm]
  refine List.countP_mono_left (fun h _ hi => ?_)
  rw [decide_eq_true_eq] at hi ⊢
  rw [← hi]
  rfl

theorem accepts_iff (hm : Reachable limits m) (claims : Claims) (id : Uuid) (now : DateTime) :
    m.Accepts claims id now ↔
      m.totalLimitReached limits = false ∧ m.userLimitReached claims.sub limits = false := by
  unfold Accepts connect register registerWithLimits
  rw [hm.limits_eq]
  cases m.totalLimitReached limits <;> cases m.userLimitReached claims.sub limits <;> simp

end counts

/-! ### Filling a tenant -/

section filling
variable (limits : ConnectionLimits)

/-- Connections of one tenant, as many as the limits allow, with the users in the given order. -/
theorem exists_filled (T : String) (user : ℕ → String) (n : ℕ)
    (htotal : limits.maxConnections ≠ 0 → n ≤ limits.maxConnections)
    (huser : limits.maxConnectionsPerUser ≠ 0 →
      ∀ i < n, (List.range i).countP (fun j => user j = user i) < limits.maxConnectionsPerUser) :
    ∃ m, Reachable limits m ∧ (∀ id, n ≤ id → m.connections.lookup id = none) ∧
      ∀ p, m.connections.values.countP p =
        (List.range n).countP (fun i => p (ConnectionHandle.new i (user i) T [] 0)) := by
  induction n with
  | zero => exact ⟨_, .empty, fun _ _ => rfl, fun _ => rfl⟩
  | succ n ih =>
      obtain ⟨m, hm, hfree, hcount⟩ := ih (fun hne => Nat.le_of_succ_le (htotal hne))
        (fun hne i hi => huser hne i (Nat.lt_succ_of_lt hi))
      have hroom : m.totalLimitReached m.limits = false := by
        rw [hm.limits_eq, totalLimitReached_eq_false, DashMap.len_eq_countP, hcount]
        intro hne
        have hle := htotal hne
        simpa using hle
      have huserRoom : m.userLimitReached (user n) m.limits = false := by
        rw [hm.limits_eq, userLimitReached_eq_false]
        intro hne
        have hcountUser := userConnectionCount_eq hm.indexed (user n)
        rw [userConnectionCount, hcount] at hcountUser
        rw [hcountUser]
        exact huser hne n (Nat.lt_succ_self n)
      have hinsert : (m.call (.register n (user n) T [] 0)).2.connections =
          AList.insert n (.new n (user n) T [] 0) m.connections := by
        simp only [call, register, registerWithLimits, hroom, huserRoom, Bool.false_eq_true, if_false]
        rfl
      refine ⟨_, hm.call (.register n (user n) T [] 0) (hfree n le_rfl), fun id hid => ?_, fun p => ?_⟩
      · rw [hinsert, DashMap.lookup_insert, if_neg (Nat.ne_of_gt hid), hfree id (Nat.le_of_succ_le hid)]
      · rw [hinsert, DashMap.countP_insert _ (hfree n le_rfl), hcount, List.range_succ, List.countP_append,
          List.countP_singleton]

/-- A user name for each number. -/
def userName (i : ℕ) : String := String.ofList (List.replicate i 'a')

theorem userName_injective : userName.Injective := by
  intro i j heq
  have hlength := congrArg (fun s => s.toList.length) heq
  simpa [userName] using hlength

/-- A tenant can hold as many connections as the service has room for. -/
theorem exists_tenantCount (T : String) (n : ℕ)
    (htotal : limits.maxConnections ≠ 0 → n ≤ limits.maxConnections) :
    ∃ m, Reachable limits m ∧ m.tenantCount T = n := by
  obtain ⟨m, hm, -, hcount⟩ := exists_filled limits T userName n htotal (fun hne i _ => by
    have hnone : (List.range i).countP (fun j => userName j = userName i) = 0 := by
      refine List.countP_eq_zero.mpr (fun j hj heq => ?_)
      have hji := userName_injective (of_decide_eq_true heq)
      exact absurd (List.mem_range.mp hj) (by omega)
    omega)
  refine ⟨m, hm, ?_⟩
  rw [tenantCount, hcount]
  simp [ConnectionHandle.new]

/-- A user can hold as many connections as the service allows. -/
theorem exists_identityCount (i : Identity) (n : ℕ)
    (htotal : limits.maxConnections ≠ 0 → n ≤ limits.maxConnections)
    (huser : limits.maxConnectionsPerUser ≠ 0 → n ≤ limits.maxConnectionsPerUser) :
    ∃ m, Reachable limits m ∧ ∀ p, m.connections.values.countP p =
      (List.range n).countP (fun id => p (ConnectionHandle.new id i.userId i.tenantId [] 0)) := by
  obtain ⟨m, hm, -, hcount⟩ := exists_filled limits i.tenantId (fun _ => i.userId) n htotal (fun hne j hj => by
    have hle := huser hne
    simp only [decide_true, List.countP_true, List.length_range]
    omega)
  exact ⟨m, hm, hcount⟩

end filling

/-! ### The quotas and the answers -/

section quotas
variable {limits : ConnectionLimits}

theorem tenantQuota_iff (limits : ConnectionLimits) (quota : ℕ) (T : String) :
    (quota ≠ 0 → ∀ m, Reachable limits m → m.tenantCount T ≤ quota) ↔ Covers limits.maxConnections quota := by
  constructor
  · intro hbound
    by_contra hcovers
    obtain ⟨hquota, hlimit⟩ := not_or.mp hcovers
    obtain ⟨m, hm, hcount⟩ := exists_tenantCount limits T (quota + 1) (by omega)
    have hle := hbound hquota m hm
    omega
  · rintro (hzero | ⟨hpos, hle⟩) hquota m hm
    · exact absurd hzero hquota
    · exact (countP_le_total hm hpos _).trans hle

theorem userQuota_iff (limits : ConnectionLimits) (quota : ℕ) (T : String) :
    (quota ≠ 0 → ∀ m, Reachable limits m → ∀ u, m.identityCount ⟨T, u⟩ ≤ quota) ↔
      Covers limits.maxConnectionsPerUser quota ∨ Covers limits.maxConnections quota := by
  constructor
  · intro hbound
    by_contra hcovers
    obtain ⟨huser, htotal⟩ := not_or.mp hcovers
    obtain ⟨hquota, hlimit⟩ := not_or.mp huser
    have hroom := (not_or.mp htotal).2
    obtain ⟨m, hm, hcount⟩ := exists_identityCount limits ⟨T, "u"⟩ (quota + 1) (by omega) (by omega)
    have hle := hbound hquota m hm "u"
    rw [identityCount, hcount] at hle
    simp [ConnectionHandle.identity, ConnectionHandle.new] at hle
  · rintro hcovers hquota m hm u
    rcases hcovers with (hzero | ⟨hpos, hle⟩) | (hzero | ⟨hpos, hle⟩)
    · exact absurd hzero hquota
    · have huser := hm.withinLimits.perUser
      rw [hm.limits_eq] at huser
      exact ((identityCount_le hm.indexed ⟨T, u⟩).trans (huser (Nat.ne_of_gt hpos) u)).trans hle
    · exact absurd hzero hquota
    · exact (countP_le_total hm hpos _).trans hle

/-- Where the total leaves room the check of the user does not refuse. -/
theorem userLimitReached_of_covers (hcovers : Covers limits.maxConnections limits.maxConnectionsPerUser)
    {m : ConnectionManager} (hm : Reachable limits m) (hroom : m.totalLimitReached limits = false) (u : String) :
    m.userLimitReached u limits = false := by
  rw [userLimitReached_eq_false]
  intro hne
  rcases hcovers with hzero | ⟨hpos, hle⟩
  · exact absurd hzero hne
  · have hlen := totalLimitReached_eq_false.mp hroom (Nat.ne_of_gt hpos)
    have hcount := userConnectionCount_eq hm.indexed u
    have hall := countP_le_len (m := m) (fun h => h.userId = u)
    rw [userConnectionCount] at hcount
    omega

/-- A tenant whose connections are not those of the tenant. -/
theorem exists_other (T : String) : ∃ T' : String, T' ≠ T :=
  ⟨T ++ "a", fun heq => by simpa using congrArg (fun s => s.toList.length) heq⟩

/-- A user that has all its connections in another tenant is refused. -/
theorem exists_refused (hcovers : ¬ Covers limits.maxConnections limits.maxConnectionsPerUser) (T : String) :
    ∃ m, Reachable limits m ∧ m.AgreeOn (withLimits limits) T ∧ m.totalLimitReached limits = false ∧
      m.userLimitReached "u" limits = true := by
  obtain ⟨hne, hlimit⟩ := not_or.mp hcovers
  obtain ⟨T', hT'⟩ := exists_other T
  obtain ⟨m, hm, hcount⟩ := exists_identityCount limits ⟨T', "u"⟩ limits.maxConnectionsPerUser
    (by omega) (fun _ => le_rfl)
  refine ⟨m, hm, fun id h hh => ?_, ?_, ?_⟩
  · have hnone : m.tenantCount T = 0 := by
      rw [tenantCount, hcount]
      simp [ConnectionHandle.new, hT']
    refine iff_of_false (fun hl => ?_) (by simp [withLimits])
    exact absurd (decide_eq_true hh) (List.countP_eq_zero.mp hnone h (DashMap.mem_values.mpr ⟨id, hl⟩))
  · rw [totalLimitReached_eq_false, DashMap.len_eq_countP, hcount]
    intro htotal
    simp only [List.countP_true, List.length_range]
    omega
  · by_contra hfalse
    have hless := userLimitReached_eq_false.mp (Bool.eq_false_of_not_eq_true hfalse) hne
    have hcountUser := userConnectionCount_eq hm.indexed "u"
    rw [userConnectionCount, hcount] at hcountUser
    simp [ConnectionHandle.new] at hcountUser
    omega

theorem sameAnswer_iff (limits : ConnectionLimits) (T : String) :
    (∀ m m', Reachable limits m → Reachable limits m' → m.AgreeOn m' T →
      m.totalLimitReached limits = false → m'.totalLimitReached limits = false →
      ∀ claims : Claims, claims.getTenantId = T →
      ∀ id now id' now', m.Accepts claims id now ↔ m'.Accepts claims id' now') ↔
      Covers limits.maxConnections limits.maxConnectionsPerUser := by
  constructor
  · intro hsame
    by_contra hcovers
    obtain ⟨m, hm, hagree, hroom, hrefused⟩ := exists_refused hcovers T
    obtain ⟨hne, -⟩ := not_or.mp hcovers
    have hempty : (withLimits limits).totalLimitReached limits = false :=
      totalLimitReached_eq_false.mpr (fun hne => Nat.pos_of_ne_zero hne)
    have hanswer := hsame m (withLimits limits) hm .empty hagree hroom hempty ⟨"u", [], some T⟩ rfl 0 0 0 0
    rw [accepts_iff hm, accepts_iff .empty, hrefused] at hanswer
    have hcontra := hanswer.mpr ⟨hempty, userLimitReached_eq_false.mpr (fun hne => Nat.pos_of_ne_zero hne)⟩
    cases hcontra.2
  · intro hcovers m m' hm hm' _ hroom hroom' claims _ id now id' now'
    rw [accepts_iff hm, accepts_iff hm']
    exact iff_of_true ⟨hroom, userLimitReached_of_covers hcovers hm hroom _⟩
      ⟨hroom', userLimitReached_of_covers hcovers hm' hroom' _⟩

/-- **The quotas of a tenant hold and are its own exactly when the limits of the service imply
them, and the limit of the service for a user never refuses what its total allows.** -/
theorem quotasIsolated_iff (s : Settings) (manager : TenantManager) (T : String) :
    QuotasIsolated s.connectionLimits (manager.getLimits T) T ↔
      Covers s.websocket.maxConnections (manager.getLimits T).maxConnections ∧
      (Covers s.websocket.maxConnectionsPerUser (manager.getLimits T).maxConnectionsPerUser ∨
        Covers s.websocket.maxConnections (manager.getLimits T).maxConnectionsPerUser) ∧
      Covers s.websocket.maxConnections s.websocket.maxConnectionsPerUser := by
  have htenant := tenantQuota_iff s.connectionLimits (manager.getLimits T).maxConnections T
  have huser := userQuota_iff s.connectionLimits (manager.getLimits T).maxConnectionsPerUser T
  have hsame := sameAnswer_iff s.connectionLimits T
  exact ⟨fun h => ⟨htenant.mp h.tenant, huser.mp h.user, hsame.mp h.sameAnswer⟩,
    fun ⟨h, h', h''⟩ => ⟨htenant.mpr h, huser.mpr h', hsame.mpr h''⟩⟩

/-- With the default limits, the connections of a user of another tenant use up the five that a user
of tenant `acme` with the same name may have. -/
theorem refused_for_another_tenant :
    ¬ ∀ (s : Settings) (manager : TenantManager) (T : String), manager.config.enabled = true →
        QuotasIsolated s.connectionLimits (manager.getLimits T) T := by
  intro h
  have hisolated := h .withQueue ⟨⟨true⟩, defaultTenantLimits, ∅⟩ "acme" rfl
  have hcovers := (sameAnswer_iff _ "acme").mp hisolated.sameAnswer
  exact absurd hcovers (by decide)

end quotas

end AraNotification
