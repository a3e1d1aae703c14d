import AraNotification.ConnectionIndex
import AraNotification.Lib.Runs
import AraNotification.Service
import AraNotification.TenantQuotas

/-! # The statistics of tenants

The number of connections of a tenant is kept twice: the connection manager has its tenant
index, and the tenant manager counts what `record_connection` and `record_disconnection` tell
it.  The counters are right as long as they are told (`activeConnections_of_tally`), but
`handle_socket`, `sse_handler`, the clean-up guard of an SSE stream and the removal of stale
connections only call the connection manager, so that a step of the service changes no
counter.

In every reachable state the two components agree exactly when nobody is connected
(`statsAgree_iff_nobody`), and throughout a run exactly when it has no connect
(`statsAgree_run_iff`). -/

namespace AraNotification

/-! ### Counters -/

/-- Per-tenant statistics: four 64-bit counters. -/
structure TenantStats where
  activeConnections : ℕ
  totalConnections : ℕ
  messagesSent : ℕ
  messagesDelivered : ℕ
deriving DecidableEq, Repr

/-- Snapshot of tenant statistics. -/
structure TenantStatsSnapshot where
  activeConnections : ℕ
  totalConnections : ℕ
  messagesSent : ℕ
  messagesDelivered : ℕ
deriving DecidableEq, Repr

/-- Information about an active tenant. -/
structure TenantInfo where
  tenantId : String
  stats : TenantStatsSnapshot
deriving DecidableEq, Repr

def TenantStatsSnapshot.default : TenantStatsSnapshot := ⟨0, 0, 0, 0⟩

/-- `AtomicU64::fetch_add`. -/
def fetchAdd (counter n : ℕ) : ℕ := (counter + n) % 2 ^ 64

/-- `AtomicU64::fetch_sub` of one, which wraps at zero. -/
def fetchSubOne (counter : ℕ) : ℕ := (counter + (2 ^ 64 - 1)) % 2 ^ 64

namespace TenantStats

def new : TenantStats := ⟨0, 0, 0, 0⟩

variable (stats : TenantStats)

def recordConnection : TenantStats :=
  { stats with
    activeConnections := fetchAdd stats.activeConnections 1
    totalConnections := fetchAdd stats.totalConnections 1 }

def recordDisconnection : TenantStats :=
  { stats with activeConnections := fetchSubOne stats.activeConnections }

def recordMessageSent : TenantStats := { stats with messagesSent := fetchAdd stats.messagesSent 1 }

def recordMessageDelivered (count : ℕ) : TenantStats :=
  { stats with messagesDelivered := fetchAdd stats.messagesDelivered count }

def snapshot : TenantStatsSnapshot :=
  ⟨stats.activeConnections, stats.totalConnections, stats.messagesSent, stats.messagesDelivered⟩

end TenantStats

/-! ### The tenant manager -/

/-- The tenant manager with its statistics. -/
structure TenantManagerState extends TenantManager where
  stats : DashMap String TenantStats

/-- The calls that change the statistics. -/
inductive StatsCall where
  | recordConnection (tenantId : String)
  | recordDisconnection (tenantId : String)
  | recordMessageSent (tenantId : String)
  | recordMessageDelivered (tenantId : String) (count : ℕ)

namespace TenantManagerState

/-- `TenantManager::new`. -/
def new (config : TenantManager) : TenantManagerState := { config with stats := ∅ }

variable (manager : TenantManagerState)

def isEnabled : Bool := manager.config.enabled

/-- Stats for a tenant. -/
def getStats (tenantId : String) : TenantStatsSnapshot :=
  match manager.stats.lookup tenantId with
  | some stats => stats.snapshot
  | none => .default

/-- Update the stats of a tenant, which are created when it has none. -/
def update (tenantId : String) (f : TenantStats → TenantStats) : TenantManagerState :=
  { manager with stats := manager.stats.insert tenantId (f ((manager.stats.lookup tenantId).getD .new)) }

/-- Record a new connection for a tenant. -/
def recordConnection (tenantId : String) : TenantManagerState :=
  manager.update tenantId TenantStats.recordConnection

/-- Record a disconnection for a tenant. -/
def recordDisconnection (tenantId : String) : TenantManagerState :=
  { manager with stats := manager.stats.modify tenantId TenantStats.recordDisconnection }

/-- Record a message sent for a tenant. -/
def recordMessageSent (tenantId : String) : TenantManagerState :=
  manager.update tenantId TenantStats.recordMessageSent

/-- Record a message delivered for a tenant. -/
def recordMessageDelivered (tenantId : String) (count : ℕ) : TenantManagerState :=
  manager.update tenantId (·.recordMessageDelivered count)

/-- List all tenants with active connections. -/
def listActiveTenants : List TenantInfo :=
  (manager.stats.entries.filter (fun e => decide (0 < e.2.activeConnections))).map
    (fun e => ⟨e.1, e.2.snapshot⟩)

/-- The manager after a call. -/
def record : StatsCall → TenantManagerState
  | .recordConnection tenantId => manager.recordConnection tenantId
  | .recordDisconnection tenantId => manager.recordDisconnection tenantId
  | .recordMessageSent tenantId => manager.recordMessageSent tenantId
  | .recordMessageDelivered tenantId count => manager.recordMessageDelivered tenantId count

end TenantManagerState

/-- The number of open connections of a tenant after a further call; none when a disconnection has
no connection to end, or when there are more than a counter can hold. -/
def tally (tenantId : String) (n : ℕ) : StatsCall → Option ℕ
  | .recordConnection t => if t = tenantId then (if n + 1 < 2 ^ 64 then some (n + 1) else none) else some n
  | .recordDisconnection t => if t = tenantId then (if 0 < n then some (n - 1) else none) else some n
  | _ => some n

/-! ### The counters follow the calls -/

section records
variable {manager : TenantManagerState} {t t' : String} {n : ℕ}

theorem getStats_update (f : TenantStats → TenantStats) :
    (manager.update t f).getStats t' =
      if t' = t then (f ((manager.stats.lookup t).getD .new)).snapshot else manager.getStats t' := by
  simp only [TenantManagerState.getStats, TenantManagerState.update, DashMap.lookup_insert]
  split_ifs <;> rfl

theorem activeConnections_getD :
    ((manager.stats.lookup t).getD .new).activeConnections = (manager.getStats t).activeConnections := by
  unfold TenantManagerState.getStats
  cases manager.stats.lookup t <;> rfl

/-- An update that leaves the count alone leaves that of every tenant alone. -/
theorem activeConnections_update {f : TenantStats → TenantStats}
    (hf : ∀ stats, (f stats).activeConnections = stats.activeConnections) :
    ((manager.update t' f).getStats t).activeConnections = (manager.getStats t).activeConnections := by
  rw [getStats_update]
  split_ifs with ht
  · rw [ht]
    exact (hf _).trans activeConnections_getD
  · rfl

theorem getStats_recordDisconnection_of_ne (h : t' ≠ t) :
    (manager.recordDisconnection t).getStats t' = manager.getStats t' := by
  simp only [TenantManagerState.getStats, TenantManagerState.recordDisconnection, DashMap.lookup_modify,
    if_neg h]

theorem activeConnections_recordDisconnection (h : 0 < (manager.getStats t).activeConnections) :
    ((manager.recordDisconnection t).getStats t).activeConnections =
      fetchSubOne (manager.getStats t).activeConnections := by
  simp only [TenantManagerState.getStats, TenantManagerState.recordDisconnection, DashMap.lookup_modify,
    if_true] at h ⊢
  cases hl : manager.stats.lookup t with
  | none =>
      rw [hl] at h
      exact absurd h (Nat.lt_irrefl 0)
  | some stats => rfl

/-- **The counter of a tenant is the number of its open connections**, as long as every
disconnection is recorded after its connection. -/
theorem activeConnections_of_tally {calls : List StatsCall} {m : ℕ}
    (hstart : (manager.getStats t).activeConnections = n) (hn : n < 2 ^ 64)
    (h : calls.foldlM (tally t) n = some m) :
    ((calls.foldl TenantManagerState.record manager).getStats t).activeConnections = m := by
  induction calls generalizing manager n with
  | nil =>
      cases h
      exact hstart
  | cons call calls ih =>
      rw [List.foldlM_cons] at h
      obtain ⟨n', hone, hrest⟩ := Option.bind_eq_some_iff.mp h
      have hstep : ((manager.record call).getStats t).activeConnections = n' ∧ n' < 2 ^ 64 := by
        cases call with
        | recordConnection t' =>
            simp only [tally] at hone
            simp only [TenantManagerState.record, TenantManagerState.recordConnection, getStats_update]
            split_ifs at hone with ht hroom
            · cases hone
              rw [if_pos ht.symm, ht]
              refine ⟨?_, hroom⟩
              show fetchAdd ((manager.stats.lookup t).getD .new).activeConnections 1 = n + 1
              rw [activeConnections_getD, hstart]
              exact Nat.mod_eq_of_lt hroom
            · cases hone
              rw [if_neg (Ne.symm ht)]
              exact ⟨hstart, hn⟩
        | recordDisconnection t' =>
            simp only [tally] at hone
            simp only [TenantManagerState.record]
            split_ifs at hone with ht hpos
            · cases hone
              subst ht
              rw [activeConnections_recordDisconnection (by omega), hstart, fetchSubOne]
              omega
            · cases hone
              rw [getStats_recordDisconnection_of_ne (Ne.symm ht)]
              exact ⟨hstart, hn⟩
        | recordMessageSent t' =>
            cases hone
            have hkeep : ∀ stats : TenantStats, stats.recordMessageSent.activeConnections =
                stats.activeConnections := fun _ => rfl
            exact ⟨(activeConnections_update hkeep).trans hstart, hn⟩
        | recordMessageDelivered t' count =>
            cases hone
            have hkeep : ∀ stats : TenantStats, (stats.recordMessageDelivered count).activeConnections =
                stats.activeConnections := fun _ => rfl
            exact ⟨(activeConnections_update hkeep).trans hstart, hn⟩
      exact ih hstep.1 hstep.2 hrest

end records

/-! ### Connections of a tenant -/

namespace ConnectionManager

/-- Get connection count for a specific tenant. -/
def tenantConnectionCount (m : ConnectionManager) (tenantId : String) : ℕ := (m.tenantIndex.ids tenantId).length

/-- The tenant index counts the registered connections of the tenant. -/
theorem tenantConnectionCount_pos_iff {m : ConnectionManager} (hm : m.Indexed) (t : String) :
    0 < m.tenantConnectionCount t ↔ ∃ id, m.OfTenant t id := by
  unfold tenantConnectionCount
  rw [List.length_pos_iff_exists_mem]
  exact exists_congr (fun id => hm.tenant.mem_iff t id)

end ConnectionManager

/-! ### The service -/

/-- What the service does to its connections: a WebSocket or SSE connect, the end of a connection
(through its handler or its guard), the removal of stale connections, and a frame of a client. -/
inductive ServiceStep where
  | connect (transport : Transport) (claims : Claims) (id : Uuid) (now : DateTime)
  | disconnect (id : Uuid)
  | cleanup (now : DateTime) (order : List Uuid)
  | frame (id : Uuid) (now : DateTime)

def ServiceStep.IsConnect : ServiceStep → Prop
  | .connect _ _ _ _ => True
  | _ => False

instance (i : ServiceStep) : Decidable i.IsConnect := by
  unfold ServiceStep.IsConnect
  split <;> infer_instance

/-- The two components that count connections. -/
structure TenantService where
  connectionManager : ConnectionManager
  tenantManager : TenantManagerState

/-- The call of the connection manager that a step makes. -/
def ServiceStep.call (timeoutSecs : ℕ) : ServiceStep → ManagerCall
  | .connect _ claims id now => .register id claims.sub claims.getTenantId claims.roles now
  | .disconnect id => .unregister id
  | .cleanup now order => .cleanupStaleConnections now timeoutSecs order
  | .frame id now => .updateActivity id now

namespace TenantService

/-- `AppState::new`. -/
def new (limits : ConnectionLimits) (config : TenantManager) : TenantService :=
  ⟨.withLimits limits, .new config⟩

/-- One step.  None of the handlers calls the tenant manager. -/
def step (timeoutSecs : ℕ) (s : TenantService) (i : ServiceStep) : ManagerReply × TenantService :=
  let r := s.connectionManager.call (i.call timeoutSecs)
  (r.1, { s with connectionManager := r.2 })

/-- A connect draws an unused identifier, a clean-up visits exactly the stale connections. -/
def Legal (timeoutSecs : ℕ) (s : TenantService) (i : ServiceStep) : Prop :=
  s.connectionManager.Legal (i.call timeoutSecs)

/-- Number of active connections that the tenant manager reports. -/
def active (s : TenantService) (tenantId : String) : ℕ := (s.tenantManager.getStats tenantId).activeConnections

/-- The statistics agree with the connections. -/
structure StatsAgree (s : TenantService) : Prop where
  active : ∀ t, s.active t = s.connectionManager.tenantConnectionCount t
  listed : ∀ t, (∃ info ∈ s.tenantManager.listActiveTenants, info.tenantId = t) ↔
    ∃ id, s.connectionManager.OfTenant t id

/-- The step wraps no counter: from zero it would go to the largest value. -/
def Unwrapped (e : Runs.Entry TenantService ServiceStep ManagerReply) : Prop :=
  ∀ t, e.after.active t ≤ e.before.active t + 1

/-- The statistics agree and wrap nowhere in a run from the start. -/
def AgreesThroughout (limits : ConnectionLimits) (config : TenantManager) (timeoutSecs : ℕ)
    (run : List ServiceStep) : Prop :=
  ∀ e ∈ Runs.trace (step timeoutSecs) (new limits config) run, e.after.StatsAgree ∧ Unwrapped e

/-- A run that the service can have from the start. -/
def LegalRun (limits : ConnectionLimits) (config : TenantManager) (timeoutSecs : ℕ)
    (run : List ServiceStep) : Prop :=
  Runs.Admissible (step timeoutSecs) (Legal timeoutSecs) (new limits config) run

/-! ### The statistics in a reachable state -/

section reachable
variable {limits : ConnectionLimits} {config : TenantManager} {timeoutSecs : ℕ} {s : TenantService}
  {run : List ServiceStep}

/-- What holds in every reachable state: the connection manager is one that calls produce, and no
statistics have been recorded. -/
structure Reached (limits : ConnectionLimits) (s : TenantService) : Prop where
  manager : ConnectionManager.Reachable limits s.connectionManager
  stats : s.tenantManager.stats = ∅

theorem reached_new (limits : ConnectionLimits) (config : TenantManager) : Reached limits (new limits config) :=
  ⟨.empty, rfl⟩

theorem Reached.step (h : Reached limits s) {i : ServiceStep} (hl : Legal timeoutSecs s i) :
    Reached limits (s.step timeoutSecs i).2 :=
  ⟨h.manager.call _ hl, h.stats⟩

theorem Reached.active_eq (h : Reached limits s) (t : String) : s.active t = 0 := by
  unfold active TenantManagerState.getStats
  rw [h.stats]
  rfl

theorem Reached.listActiveTenants_eq (h : Reached limits s) : s.tenantManager.listActiveTenants = [] := by
  unfold TenantManagerState.listActiveTenants
  rw [h.stats]
  rfl

/-- **The statistics agree with the connections exactly while nobody is connected.** -/
theorem statsAgree_iff_nobody (h : Reached limits s) :
    s.StatsAgree ↔ ∀ id, s.connectionManager.connections.lookup id = none := by
  have hindexed := h.manager.indexed
  constructor
  · intro hs id
    cases hl : s.connectionManager.connections.lookup id with
    | none => rfl
    | some c =>
        obtain ⟨info, hinfo, -⟩ := (hs.listed c.tenantId).mpr ⟨id, c, hl, rfl⟩
        rw [h.listActiveTenants_eq] at hinfo
        cases hinfo
  · intro hnobody
    have hnone : ∀ t id, ¬ s.connectionManager.OfTenant t id :=
      fun t id => DashMap.not_sat_of_lookup_none (hnobody id)
    refine ⟨?_, ?_⟩
    · intro t
      rw [h.active_eq]
      by_contra hne
      obtain ⟨id, hid⟩ := (ConnectionManager.tenantConnectionCount_pos_iff hindexed t).mp (by omega)
      exact hnone t id hid
    · intro t
      rw [h.listActiveTenants_eq]
      simp [hnone]

end reachable

/-! ### The tenant endpoints -/

end TenantService

structure TenantListResponse where
  enabled : Bool
  tenants : List TenantInfo
  total : ℕ
deriving DecidableEq, Repr

structure TenantConnectionStatsResponse where
  totalConnections : ℕ
  uniqueUsers : ℕ
deriving DecidableEq, Repr

structure TenantStatsResponse where
  tenantId : String
  stats : TenantStatsSnapshot
  connectionStats : TenantConnectionStatsResponse
deriving DecidableEq, Repr

/-- The refusals of `get_tenant_stats`, with status codes 403 and 404. -/
inductive TenantStatsError where
  | accessDenied
  | notFound (tenantId : String)
deriving DecidableEq, Repr

def TenantStatsError.code : TenantStatsError → String
  | accessDenied => "TENANT_ACCESS_DENIED"
  | notFound _ => "TENANT_NOT_FOUND"

def TenantStatsError.message : TenantStatsError → String
  | accessDenied => "Cannot access another tenant's stats"
  | notFound tenantId => "Tenant '" ++ tenantId ++ "' has no recorded activity"

/-- `ConnectionManager::tenant_stats`. -/
def ConnectionManager.tenantStats (m : ConnectionManager) (tenantId : String) : TenantConnectionStatsResponse :=
  let connections := m.getTenantConnections tenantId
  ⟨connections.length, (connections.map (·.userId)).dedup.length⟩

namespace TenantService

/-- List active tenants, for a caller with a tenant only its own. -/
def listTenants (s : TenantService) (tenantCtx : Option TenantContext) : TenantListResponse :=
  let allTenants := s.tenantManager.listActiveTenants
  let tenants :=
    match tenantCtx with
    | some t => allTenants.filter (fun info => info.tenantId = t.tenantId)
    | none => allTenants
  ⟨s.tenantManager.isEnabled, tenants, tenants.length⟩

/-- Get tenant stats, for a caller with a tenant only its own. -/
def getTenantStats (s : TenantService) (tenantCtx : Option TenantContext) (tenantId : String) :
    Except TenantStatsError TenantStatsResponse :=
  if tenantCtx.any (fun t => t.tenantId ≠ tenantId) then .error .accessDenied
  else
    let stats := s.tenantManager.getStats tenantId
    let connStats := s.connectionManager.tenantStats tenantId
    if stats.totalConnections = 0 ∧ connStats.totalConnections = 0 then .error (.notFound tenantId)
    else .ok ⟨tenantId, stats, connStats⟩

section endpoints
variable {limits : ConnectionLimits} {s : TenantService}

/-- The answer for a tenant with a connection has no active connections beside the registered
ones. -/
theorem getTenantStats_of_connected (h : Reached limits s) {t : String} {id : Uuid}
    (hid : s.connectionManager.OfTenant t id) {tenantCtx : Option TenantContext}
    (hctx : ∀ c ∈ tenantCtx, c.tenantId = t) :
    ∃ r, s.getTenantStats tenantCtx t = .ok r ∧ r.stats.activeConnections = 0 ∧
      0 < r.connectionStats.totalConnections := by
  have hallowed : tenantCtx.any (fun c => c.tenantId ≠ t) = false := by
    cases tenantCtx with
    | none => rfl
    | some c => simpa using hctx c rfl
  have hcount : 0 < (s.connectionManager.tenantStats t).totalConnections := by
    have hlisted := (h.manager.indexed.tenant.mem_iff t id).mpr hid
    obtain ⟨c, hl, -⟩ := hid
    have hmem : c ∈ s.connectionManager.getTenantConnections t := List.mem_filterMap.mpr ⟨id, hlisted, hl⟩
    exact List.length_pos_of_mem hmem
  refine ⟨⟨t, s.tenantManager.getStats t, s.connectionManager.tenantStats t⟩, ?_, h.active_eq t, hcount⟩
  have hknown : ¬ ((s.tenantManager.getStats t).totalConnections = 0 ∧
      (s.connectionManager.tenantStats t).totalConnections = 0) := fun hnot => Nat.ne_of_gt hcount hnot.2
  simp only [getTenantStats, hallowed, Bool.false_eq_true, if_false, if_neg hknown]

/-- No tenant is ever listed. -/
theorem listTenants_eq_nil (h : Reached limits s) (tenantCtx : Option TenantContext) :
    (s.listTenants tenantCtx).tenants = [] := by
  unfold listTenants
  rw [h.listActiveTenants_eq]
  cases tenantCtx <;> rfl

end endpoints

/-! ### Runs -/

section runs
variable {limits : ConnectionLimits} {config : TenantManager} {timeoutSecs : ℕ} {run : List ServiceStep}

/-- Without connections only a connect changes anything. -/
theorem step_new {i : ServiceStep} (hl : Legal timeoutSecs (new limits config) i) (hi : ¬ i.IsConnect) :
    ((new limits config).step timeoutSecs i).2 = new limits config := by
  cases i with
  | connect transport claims id now => exact absurd trivial hi
  | disconnect id => rfl
  | frame id now => rfl
  | cleanup now order =>
      simp only [step, ServiceStep.call, ConnectionManager.call]
      split
      · rfl
      · rename_i stale hstale
        have hnone : stale = [] := by
          obtain ⟨timeout, -, rfl⟩ := Option.map_eq_some_iff.mp hstale
          rfl
        obtain rfl : order = [] := List.perm_nil.mp (hnone ▸ hl stale hstale)
        rfl

/-- The first connect registers a connection. -/
theorem lookup_step_connect (transport : Transport) (claims : Claims) (id : Uuid) (now : DateTime) :
    let s := ((new limits config).step timeoutSecs (.connect transport claims id now)).2
    s.connectionManager.connections.lookup id ≠ none := by
  simp only [step, ServiceStep.call, ConnectionManager.call, new, ConnectionManager.register_withLimits,
    ConnectionManager.insertHandle]
  exact Option.ne_none_iff_exists'.mpr ⟨_, AList.lookup_insert _⟩

/-- **The statistics agree with the connections throughout a run exactly when it has no
connect.** -/
theorem statsAgree_run_iff (h : LegalRun limits config timeoutSecs run) :
    AgreesThroughout limits config timeoutSecs run ↔ ∀ i ∈ run, ¬ i.IsConnect := by
  have hreached := reached_new limits config
  induction run with
  | nil => simp [AgreesThroughout, Runs.trace]
  | cons i run ih =>
      obtain ⟨hl, hrest⟩ := h
      simp only [AgreesThroughout, Runs.trace, List.forall_mem_cons, Runs.entry]
      by_cases hi : i.IsConnect
      · refine iff_of_false (fun hall => ?_) (fun hall => hall.1 hi)
        have hnobody := (statsAgree_iff_nobody (hreached.step hl)).mp hall.1.1
        cases i with
        | connect transport claims id now => exact lookup_step_connect transport claims id now (hnobody id)
        | _ => exact hi.elim
      · have hsame := step_new hl hi
        rw [hsame] at hrest
        have hagree : (new limits config).StatsAgree :=
          (statsAgree_iff_nobody hreached).mpr (fun id => rfl)
        rw [hsame]
        constructor
        · intro hall
          exact ⟨hi, (ih hrest).mp hall.2⟩
        · intro hall
          exact ⟨⟨hagree, fun t => Nat.le_succ _⟩, (ih hrest).mpr hall.2⟩

/-- A run with a clean-up and the end of an unknown connection. -/
theorem statsAgree_run_quiet :
    LegalRun .default ⟨⟨true⟩, defaultTenantLimits, ∅⟩ 120 [.cleanup 0 [], .disconnect 3] ∧
      AgreesThroughout .default ⟨⟨true⟩, defaultTenantLimits, ∅⟩ 120 [.cleanup 0 [], .disconnect 3] := by
  have hlegal : LegalRun .default ⟨⟨true⟩, defaultTenantLimits, ∅⟩ 120 [.cleanup 0 [], .disconnect 3] := by
    refine ⟨?_, trivial, trivial⟩
    intro stale hstale
    obtain ⟨timeout, -, rfl⟩ := Option.map_eq_some_iff.mp hstale
    exact .nil
  exact ⟨hlegal, (statsAgree_run_iff hlegal).mpr (by decide)⟩

/-- One connect of `alice` at `acme`: the tenant index has the connection, the statistics have
none. -/
theorem unrecorded_connect :
    ¬ ∀ run, LegalRun .default ⟨⟨true⟩, defaultTenantLimits, ∅⟩ 120 run →
      AgreesThroughout .default ⟨⟨true⟩, defaultTenantLimits, ∅⟩ 120 run := by
  intro hall
  have hagree := hall [.connect .webSocket ⟨"alice", [], some "acme"⟩ 1 0] ⟨rfl, trivial⟩
  have hactive := (hagree _ List.mem_cons_self).1.active "acme"
  revert hactive
  decide

end runs

end TenantService

end AraNotification
