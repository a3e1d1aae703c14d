import AraNotification.Lib.Grouping
import AraNotification.Lib.Runs
import AraNotification.StoreLog

/-! # One table, a queue for every tenant

All tenants of the PostgreSQL backend store their messages in one table.  This module adds the
operations that look at the table or clean it up, and compares the backends of the tenants,
served in any order by the one table, with in-memory queues that every tenant has for itself.

`MirrorsQueues` says that the rows of a tenant and user represent the messages that the tenant's own
in-memory queue holds for the user, in the same order.  Every request keeps it and is answered
as the in-memory queue answers (`serve_spec`), so that over all runs the shared table refines the
private queues (`shared_table_refines_queues`): what one tenant is told does not depend on what
the others do, or on the rows they have in the table. -/

namespace AraNotification

open Grouping

/-! ### The remaining operations -/

/-- Statistics about the queue backend. -/
structure QueueBackendStats where
  backendType : String
  enabled : Bool
  totalMessages : ℕ
  usersWithQueue : ℕ
  maxQueueSize : ℕ
  maxQueueSizeConfig : ℕ
  messageTtlSeconds : ℕ

def MemoryQueueBackend.stats (q : MemoryQueueBackend) : QueueBackendStats :=
  let sizes := q.queues.values.map List.length
  { backendType := "memory"
    enabled := q.config.enabled
    totalMessages := sizes.sum
    usersWithQueue := sizes.length
    maxQueueSize := sizes.foldl max 0
    maxQueueSizeConfig := q.config.maxQueueSizePerUser
    messageTtlSeconds := q.config.messageTtlSeconds }

/-- The rows of a tenant. -/
def Table.ownRows (table : Table) (tenantId : String) : List Row :=
  table.filter (fun r => decide (r.tenantId = tenantId))

namespace PostgresQueueBackend

/-- `PostgresQueueBackend::with_tenant`. -/
def withTenant (config : QueueConfig) (serde : Serde NotificationEvent Json) (tenantId : String) :
    PostgresQueueBackend where
  config := config
  tenantId := tenantId
  serde := serde

variable (b : PostgresQueueBackend) (t : Table) (userId : String) (now : DateTime) (statementFails : Bool)

/-- Look at the first messages of a user that have not expired. -/
def peek (limit : ℕ) (order : RowOrder) : Except StoreError (List StoredMessage) :=
  if b.config.enabled then
    -- The database refuses a negative limit.
    if statementFails ∨ asI64 limit < 0 then .error .postgres
    else
      let rows := (orderBy Row.queuedAt (order.arrange (t.filter (b.isLive userId now)))).take
        (asI64 limit).toNat
      .ok (rows.filterMap b.toMessage)
  else .ok []

/-- Number of messages of a user that have not expired. -/
def queueSize : Except StoreError ℕ :=
  if b.config.enabled then
    if statementFails then .error .postgres else .ok (t.filter (b.isLive userId now)).length
  else .ok 0

/-- A row of the tenant that has expired. -/
def hasExpired (r : Row) : Bool := decide (r.tenantId = b.tenantId ∧ r.expiresAt ≤ now)

/-- Remove the expired messages of the tenant; their number. -/
def cleanupExpired : Except StoreError ℕ × Table :=
  if b.config.enabled then
    if statementFails then (.error .postgres, t)
    else (.ok (t.filter (b.hasExpired now)).length, t.filter (fun r => !b.hasExpired now r))
  else (.ok 0, t)

/-- Remove all messages of a user; their number. -/
def clearUserQueue : Except StoreError ℕ × Table :=
  if b.config.enabled then
    if statementFails then (.error .postgres, t)
    else (.ok (t.rowsOf b.tenantId userId).length, t.filter (fun r => !r.isFor b.tenantId userId))
  else (.ok 0, t)

/-- Statistics of the tenant, by a join of the whole table with the counts of its users. -/
def stats : QueueBackendStats :=
  let own := t.ownRows b.tenantId
  let joined := (leftJoin Row.userId t (groupCounts Row.userId own)).filter
    (fun x => decide (x.1.tenantId = b.tenantId))
  let found := if statementFails then (0, 0, 0)
    else (joined.length, (joined.map (·.1.userId)).dedup.length, (joined.filterMap Prod.snd).max?.getD 0)
  { backendType := "postgres"
    enabled := b.config.enabled
    totalMessages := found.1
    usersWithQueue := found.2.1
    maxQueueSize := found.2.2
    maxQueueSizeConfig := b.config.maxQueueSizePerUser
    messageTtlSeconds := b.config.messageTtlSeconds }

end PostgresQueueBackend

/-! ### Requests and answers -/

/-- A request to a queue backend. -/
inductive QueueRequest where
  | call (c : QueueCall)
  | queueSize (userId : String) (now : DateTime)
  | stats (now : DateTime)

namespace QueueRequest

/-- The clock reading of a request. -/
def now : QueueRequest → DateTime
  | call c => c.now
  | queueSize _ now | stats now => now

/-- The calls of a request that may change a queue. -/
def calls : QueueRequest → List QueueCall
  | call c => [c]
  | queueSize .. | stats _ => []

end QueueRequest

/-- What a backend answers when it does not fail. -/
inductive QueueAnswer where
  | stored
  | drained (result : DrainResult)
  | messages (messages : List StoredMessage)
  | count (n : ℕ)
  | stats (stats : QueueBackendStats)

/-- What the database decides about a request: the row that is picked as the oldest, the order in
which rows come, when the second statement of a drain runs, and which statements fail. -/
structure StatementOutcome where
  pick : Uuid
  order : RowOrder
  deletedAt : DateTime
  statementFails : Bool
  deleteFails : Bool

/-- The answer of a tenant's backend and the table afterwards. -/
def PostgresQueueBackend.serve (b : PostgresQueueBackend) (t : Table) (o : StatementOutcome) :
    QueueRequest → Option (Except StoreError QueueAnswer × Table)
  | .call (.enqueue userId id now event) =>
      (b.enqueue t userId id event now o.pick o.statementFails).map
        (fun r => (r.1.map (fun _ => .stored), r.2))
  | .call (.drain userId now) =>
      let r := b.drain t userId o.order now o.deletedAt o.statementFails o.deleteFails
      some (r.1.map .drained, r.2)
  | .call (.peek userId limit now) =>
      some ((b.peek t userId now o.statementFails limit o.order).map .messages, t)
  | .call (.cleanupExpired now) =>
      let r := b.cleanupExpired t now o.statementFails
      some (r.1.map .count, r.2)
  | .call (.clearUserQueue userId _) =>
      let r := b.clearUserQueue t userId o.statementFails
      some (r.1.map .count, r.2)
  | .queueSize userId now => some ((b.queueSize t userId now o.statementFails).map .count, t)
  | .stats _ => some (.ok (.stats (b.stats t o.statementFails)), t)

/-- The answer is the one of an in-memory queue.  To look at a queue or to ask for its size passes
over the messages that have expired, as if they had been cleaned up before. -/
def MemoryQueueBackend.Answers (q : MemoryQueueBackend) : QueueRequest → QueueAnswer → Prop
  | .call (.enqueue userId id now event), a =>
      (q.enqueue userId (.new id now event)).1 = .ok () ∧ a = .stored
  | .call (.drain userId now), a => ∃ r, a = .drained r ∧
      r.messages.Perm (q.drain userId now).1.messages ∧ r.expired = (q.drain userId now).1.expired
  | .call (.peek userId limit now), a => a = .messages ((q.cleanupExpired now).2.peek userId limit)
  | .call (.cleanupExpired now), a => a = .count (q.cleanupExpired now).1
  | .call (.clearUserQueue userId _), a => a = .count (q.clearUserQueue userId).1
  | .queueSize userId now, a => a = .count ((q.cleanupExpired now).2.queueSize userId)
  | .stats _, a => a = .stats { q.stats with backendType := "postgres" }

/-! ### Runs of the shared table -/

/-- A request of a tenant that has been answered. -/
structure ServedRequest where
  tenantId : String
  request : QueueRequest
  answer : QueueAnswer

/-- What is assumed of a request that is answered: no statement fails, the second statement of a
drain is not run before the first, a limit is a machine integer, an event that is enqueued can be
read back, and the identifier of its row is not that of another row. -/
def QueueRequest.Fits (serde : Serde NotificationEvent Json) (t : Table) (o : StatementOutcome) : QueueRequest → Prop
  | .call (.enqueue _ id _ event) =>
      o.statementFails = false ∧ serde.Reads event ∧ ∀ r ∈ t, r.id ≠ id
  | .call (.drain _ now) => o.statementFails = false ∧ o.deleteFails = false ∧ now ≤ o.deletedAt
  | .call (.peek _ limit _) => o.statementFails = false ∧ limit < 2 ^ 64
  | .call (.cleanupExpired _) | .call (.clearUserQueue ..) | .queueSize .. | .stats _ => o.statementFails = false

/-- The tenants' backends on one table, in any order; a request whose statement fails comes to
nothing. -/
inductive TableRun (config : String → QueueConfig) (serde : Serde NotificationEvent Json) :
    List ServedRequest → Table → Prop
  | empty : TableRun config serde [] []
  | answered {log : List ServedRequest} {t t' : Table} {tenantId : String} {request : QueueRequest}
      {answer : QueueAnswer} (o : StatementOutcome) :
      TableRun config serde log t → request.Fits serde t o →
      (PostgresQueueBackend.withTenant (config tenantId) serde tenantId).serve t o request =
        some (.ok answer, t') →
      TableRun config serde (log ++ [⟨tenantId, request, answer⟩]) t'
  | failed {log : List ServedRequest} {t t' : Table} {tenantId : String} {request : QueueRequest}
      {answer : Except StoreError QueueAnswer} (o : StatementOutcome) :
      TableRun config serde log t → o.statementFails = true →
      (PostgresQueueBackend.withTenant (config tenantId) serde tenantId).serve t o request =
        some (answer, t') →
      TableRun config serde log t'

/-- The calls of one tenant. -/
def tenantCalls (tenantId : String) (log : List ServedRequest) : List QueueCall :=
  log.flatMap (fun e => if e.tenantId = tenantId then e.request.calls else [])

theorem tenantCalls_concat (tenantId : String) (log : List ServedRequest) (e : ServedRequest) :
    tenantCalls tenantId (log ++ [e]) =
      tenantCalls tenantId log ++ if e.tenantId = tenantId then e.request.calls else [] := by
  simp [tenantCalls]

/-! ### In-memory queues without empty entries -/

namespace MemoryQueueBackend

/-- No entry is empty. -/
def Tight (q : MemoryQueueBackend) : Prop := ∀ key, q.queues.lookup key ≠ some []

section tight
variable {q : MemoryQueueBackend} {key : String} {now : DateTime}

theorem tight_new (config : QueueConfig) : (new config).Tight := fun _ h => absurd h (by simp [new])

theorem Tight.mem_keys_iff (h : q.Tight) (key : String) : key ∈ q.queues.keys ↔ q.messages key ≠ [] := by
  rw [← AList.mem_keys, ← AList.lookup_isSome, messages]
  cases hl : q.queues.lookup key with
  | none => simp
  | some queue =>
      have hne : queue ≠ [] := fun heq => h key (heq ▸ hl)
      simpa using hne

theorem Tight.enqueue (h : q.Tight) (m : StoredMessage) : (q.enqueue key m).2.Tight := by
  unfold MemoryQueueBackend.enqueue
  split_ifs
  · intro key' hl
    rw [DashMap.lookup_insert] at hl
    split_ifs at hl
    · simp [pushBack] at hl
    · exact h key' hl
  · exact h

theorem Tight.removeKey (h : q.Tight) (key : String) : (q.removeKey key).Tight := by
  intro key' hl
  rw [MemoryQueueBackend.removeKey, DashMap.lookup_erase] at hl
  split_ifs at hl
  exact h key' hl

theorem Tight.drain (h : q.Tight) : (q.drain key now).2.Tight := by
  unfold MemoryQueueBackend.drain
  split_ifs
  · cases q.queues.lookup key with
    | none => exact h
    | some queue => exact h.removeKey key
  · exact h

theorem Tight.clearUserQueue (h : q.Tight) : (q.clearUserQueue key).2.Tight := by
  unfold MemoryQueueBackend.clearUserQueue
  cases q.queues.lookup key with
  | none => exact h
  | some queue => exact h.removeKey key

theorem Tight.retainKey (h : q.Tight) : (q.retainKey now key).2.Tight := by
  unfold MemoryQueueBackend.retainKey
  cases hl : q.queues.lookup key with
  | none => exact h
  | some queue =>
      have hother : ∀ key', key' ≠ key → (q.retainEntry now key).queues.lookup key' ≠ some [] := by
        intro key' hne
        rw [retainEntry, DashMap.lookup_modify, if_neg hne]
        exact h key'
      dsimp only
      split_ifs with hempty
      · intro key' hl'
        rw [MemoryQueueBackend.removeKey, DashMap.lookup_erase] at hl'
        split_ifs at hl' with hne
        exact hother key' hne hl'
      · intro key' hl'
        by_cases hne : key' = key
        · subst hne
          apply hempty
          rw [queueSize, messages, hl']
          rfl
        · exact hother key' hne hl'

theorem Tight.cleanupExpired (h : q.Tight) : (q.cleanupExpired now).2.Tight := by
  rw [MemoryQueueBackend.cleanupExpired, retainKeys_eq]
  generalize q.queues.keys = keys
  induction keys generalizing q with
  | nil => exact h
  | cons key keys ih => exact ih h.retainKey

theorem tight_after (config : QueueConfig) (calls : List QueueCall) : (after config calls).Tight := by
  induction calls using List.reverseRecOn with
  | nil => exact tight_new config
  | append_singleton calls c ih =>
      rw [after_concat]
      cases c with
      | enqueue => exact ih.enqueue _
      | drain => exact ih.drain
      | peek => exact ih
      | cleanupExpired => exact ih.cleanupExpired
      | clearUserQueue => exact ih.clearUserQueue

/-- How many messages a clean-up of one key removes. -/
theorem count_retainKey : (q.retainKey now key).1 =
    ((q.messages key).filter (fun m => m.isExpired now q.config.messageTtlSeconds)).length := by
  unfold MemoryQueueBackend.retainKey
  cases hl : q.queues.lookup key with
  | none => rw [messages_eq_nil_of_lookup hl, List.filter_nil, List.length_nil]
  | some queue =>
      have hqueue : q.messages key = queue := by rw [messages, hl, Option.getD_some]
      have hsplit := List.length_eq_length_filter_add
        (l := queue) (fun m => m.isExpired now q.config.messageTtlSeconds)
      dsimp only
      rw [queueSize, messages_retainEntry, if_pos rfl, hqueue]
      omega

/-- How many messages a clean-up of some keys removes. -/
theorem count_retainKeys {keys : List String} (hkeys : keys.Nodup) :
    (q.retainKeys now keys).1 = (keys.map (fun key =>
      ((q.messages key).filter (fun m => m.isExpired now q.config.messageTtlSeconds)).length)).sum := by
  have hgen : ∀ r : ℕ × MemoryQueueBackend,
      (keys.foldl (fun r key => (r.1 + (r.2.retainKey now key).1, (r.2.retainKey now key).2)) r).1 =
        r.1 + (keys.map (fun key =>
          ((r.2.messages key).filter (fun m => m.isExpired now r.2.config.messageTtlSeconds)).length)).sum := by
    induction keys with
    | nil => exact fun _ => rfl
    | cons key keys ih =>
        obtain ⟨hkey, hrest⟩ := List.nodup_cons.mp hkeys
        intro r
        rw [List.foldl_cons, ih hrest, count_retainKey, config_retainKey, List.map_cons, List.sum_cons,
          ← Nat.add_assoc]
        -- The other keys are as before.
        refine congrArg _ (congrArg _ (List.map_congr_left (fun key' hkey' => ?_)))
        have hne : key' ≠ key := fun heq => hkey (heq ▸ hkey')
        rw [messages_retainKey, if_neg hne]
  exact (hgen (0, q)).trans (Nat.zero_add _)

theorem count_clearUserQueue : (q.clearUserQueue key).1 = (q.messages key).length := by
  rw [MemoryQueueBackend.clearUserQueue, messages]
  cases q.queues.lookup key <;> rfl

/-- The sizes of all queues. -/
theorem sizes_eq : q.queues.values.map List.length = q.queues.keys.map (fun key => (q.messages key).length) := by
  rw [DashMap.values_eq_map_keys q.queues [], List.map_map]
  rfl

end tight

end MemoryQueueBackend

/-! ### The rows of one user -/

section rows
variable {b : PostgresQueueBackend} {table : Table} {rows : List Row} {messages : List StoredMessage}
  {userId : String} {t : DateTime}

theorem filterMap_toMessage (h : List.Forall₂ (Represents b) rows messages) :
    rows.filterMap b.toMessage = messages := by
  induction h with
  | nil => rfl
  | cons hr _ ih => rw [List.filterMap_cons, hr.message, ih]

/-- The rows that have not expired represent the messages that have not. -/
theorem represents_live (h : List.Forall₂ (Represents b) rows messages) (hpast : ∀ r ∈ rows, r.queuedAt ≤ t) :
    List.Forall₂ (Represents b) (rows.filter (fun r => decide (r.expiresAt > t)))
      (messages.filter (fun m => !m.isExpired t b.config.messageTtlSeconds)) := by
  have hboth := (List.forall₂_and_left _ _).mpr ⟨hpast, h⟩
  refine ((List.forall₂_and_left _ _).mp (List.rel_filter (fun r m hrm => ?_) hboth)).2
  exact Bool.eq_iff_iff.mp (hrm.2.live_eq hrm.1)

theorem filter_isLive : table.filter (b.isLive userId t) =
    (table.rowsOf b.tenantId userId).filter (fun r => decide (r.expiresAt > t)) := by
  rw [Table.rowsOf, List.filter_filter]
  refine List.filter_congr (fun r _ => ?_)
  rw [PostgresQueueBackend.isLive, Bool.and_comm]

/-- As many rows have expired as messages. -/
theorem length_expired (h : List.Forall₂ (Represents b) rows messages) (hpast : ∀ r ∈ rows, r.queuedAt ≤ t) :
    (rows.filter (fun r => !decide (r.expiresAt > t))).length =
      (messages.filter (fun m => m.isExpired t b.config.messageTtlSeconds)).length := by
  have hlive := (represents_live h hpast).length_eq
  have hrows := List.length_eq_length_filter_add (l := rows) (fun r => decide (r.expiresAt > t))
  have hmessages := List.length_eq_length_filter_add
    (l := messages) (fun m => m.isExpired t b.config.messageTtlSeconds)
  have hall := h.length_eq
  omega

theorem rowsOf_filter (p : Row → Bool) (tenantId : String) :
    Table.rowsOf (table.filter p) tenantId userId = (table.rowsOf tenantId userId).filter p :=
  List.filter_comm _ _ table

/-- Deleting a row of one user leaves the rows of the others, in every tenant. -/
theorem filter_select_of_other (hids : (table.map Row.id).Nodup) {tenantId tenantId' userId' : String}
    (hne : ¬ (tenantId = tenantId' ∧ userId = userId')) {bound : ℤ} {pick : Uuid} {victim : Option Uuid}
    (h : Table.select (table.rowsOf tenantId userId) bound pick = some victim) :
    (table.rowsOf tenantId' userId').filter (fun r => decide (some r.id ≠ victim)) =
      table.rowsOf tenantId' userId' := by
  rw [List.filter_eq_self]
  intro r hr
  rw [decide_eq_true_eq]
  intro hvictim
  rw [← hvictim] at h
  obtain ⟨r', hr', hid⟩ := Table.mem_of_select h
  obtain ⟨hmem, hfor⟩ := List.mem_filter.mp hr
  obtain ⟨hmem', hfor'⟩ := List.mem_filter.mp hr'
  obtain rfl : r' = r := List.inj_on_of_nodup_map hids hmem' hmem hid
  have h₁ := of_decide_eq_true hfor
  have h₂ := of_decide_eq_true hfor'
  exact hne ⟨h₂.1.symm.trans h₁.1, h₂.2.symm.trans h₁.2⟩

/-- A drain without failure whose second statement does not run before the first. -/
theorem drain_eq (he : b.config.enabled = true) (order : RowOrder) {deletedAt : DateTime} (hlate : t ≤ deletedAt) :
    b.drain table userId order t deletedAt false false =
      (.ok ⟨(order.arrange (table.filter (b.isLive userId t))).filterMap b.toMessage,
          ((table.rowsOf b.tenantId userId).filter (fun r => !decide (r.expiresAt > t))).length⟩,
        table.filter (fun r => !r.isFor b.tenantId userId)) := by
  have hdead : ∀ r, (b.isDead userId deletedAt r && !b.isLive userId t r) =
      (!decide (r.expiresAt > t) && r.isFor b.tenantId userId) := by
    intro r
    rw [PostgresQueueBackend.isDead, PostgresQueueBackend.isLive]
    rcases lt_or_ge t r.expiresAt with hlive | hexpired
    · cases r.isFor b.tenantId userId <;> simp [hlive]
    · cases r.isFor b.tenantId userId <;> simp [hexpired.trans hlate]
  have hkept : ∀ r, (!b.isDead userId deletedAt r && !b.isLive userId t r) = !r.isFor b.tenantId userId := by
    intro r
    rw [PostgresQueueBackend.isDead, PostgresQueueBackend.isLive]
    rcases lt_or_ge t r.expiresAt with hlive | hexpired
    · cases r.isFor b.tenantId userId <;> simp [hlive]
    · cases r.isFor b.tenantId userId <;> simp [hexpired.trans hlate]
  rw [PostgresQueueBackend.drain, if_pos he]
  simp only [Bool.false_eq_true, if_false, List.filter_filter, hdead, hkept, Table.rowsOf]

end rows

/-! ### The queues of the tenants -/

/-- The in-memory queue that a tenant would have for itself. -/
def ownQueue (config : String → QueueConfig) (log : List ServedRequest) (tenantId : String) :
    MemoryQueueBackend :=
  .after (config tenantId) (tenantCalls tenantId log)

/-- At time `t` the table has the rows of the log, in the order of their times, which are past,
with different identifiers; those of a user represent what the tenant's own queue holds. -/
structure MirrorsQueues (config : String → QueueConfig) (serde : Serde NotificationEvent Json) (t : DateTime)
    (log : List ServedRequest) (table : Table) : Prop where
  past : ∀ r ∈ table, r.queuedAt < t
  sorted : table.Pairwise (fun r r' => r.queuedAt < r'.queuedAt)
  ids : (table.map Row.id).Nodup
  rows : ∀ tenantId userId, List.Forall₂ (Represents (.withTenant (config tenantId) serde tenantId))
    (table.rowsOf tenantId userId) ((ownQueue config log tenantId).messages userId)

section serving
variable {config : String → QueueConfig} {serde : Serde NotificationEvent Json} {s t : DateTime}
  {log log' : List ServedRequest} {table table' : Table} {tenantId userId : String} {e : ServedRequest}
  {request : QueueRequest} {answer : QueueAnswer} {o : StatementOutcome}

theorem config_ownQueue : (ownQueue config log tenantId).config = config tenantId := config_after

theorem tight_ownQueue : (ownQueue config log tenantId).Tight := MemoryQueueBackend.tight_after _ _

/-- A request changes the queue of its tenant only. -/
theorem ownQueue_concat (tenantId : String) : ownQueue config (log ++ [e]) tenantId =
    if e.tenantId = tenantId then e.request.calls.foldl MemoryQueueBackend.perform (ownQueue config log tenantId)
    else ownQueue config log tenantId := by
  rw [ownQueue, tenantCalls_concat, MemoryQueueBackend.after, List.foldl_append, ← MemoryQueueBackend.after,
    ← ownQueue]
  split_ifs <;> rfl

/-- Rows are deleted. -/
theorem MirrorsQueues.filter (h : MirrorsQueues config serde s log table) (hs : s ≤ t) {p : Row → Bool}
    (hrows : ∀ tenantId userId, List.Forall₂ (Represents (.withTenant (config tenantId) serde tenantId))
      ((table.rowsOf tenantId userId).filter p) ((ownQueue config log' tenantId).messages userId)) :
    MirrorsQueues config serde t log' (table.filter p) where
  past := fun r hr => (h.past r (List.filter_sublist.subset hr)).trans_le hs
  sorted := h.sorted.sublist List.filter_sublist
  ids := h.ids.sublist (List.filter_sublist.map Row.id)
  rows := fun tenantId userId => by
    rw [rowsOf_filter]
    exact hrows tenantId userId

/-- A request that changes nothing. -/
theorem MirrorsQueues.query (h : MirrorsQueues config serde s log table) (hs : s ≤ t)
    (hqueues : ownQueue config log' = ownQueue config log) : MirrorsQueues config serde t log' table where
  past := fun r hr => (h.past r hr).trans_le hs
  sorted := h.sorted
  ids := h.ids
  rows := by rw [hqueues]; exact h.rows

/-- A request without calls changes no queue, and neither does one to look at a queue. -/
theorem ownQueue_query (he : e.request.calls = [] ∨ ∃ userId limit now, e.request = .call (.peek userId limit now)) :
    ownQueue config (log ++ [e]) = ownQueue config log := by
  funext tenantId
  rw [ownQueue_concat]
  rcases he with hcalls | ⟨userId, limit, now, hpeek⟩
  · rw [hcalls, List.foldl_nil, ite_self]
  · rw [hpeek]
    exact ite_self _

/-- The rows of a user are all past. -/
theorem MirrorsQueues.past_rowsOf (h : MirrorsQueues config serde t log table) (tenantId userId : String) :
    ∀ r ∈ table.rowsOf tenantId userId, r.queuedAt ≤ t :=
  fun r hr => (h.past r (List.mem_of_mem_filter hr)).le

/-- All rows of a user are deleted. -/
theorem MirrorsQueues.remove (h : MirrorsQueues config serde s log table) (hs : s ≤ t)
    (hqueue : ∀ tenantId' userId', (ownQueue config log' tenantId').messages userId' =
      if tenantId = tenantId' ∧ userId = userId' then [] else (ownQueue config log tenantId').messages userId') :
    MirrorsQueues config serde t log' (table.filter (fun r => !r.isFor tenantId userId)) := by
  refine h.filter hs (fun tenantId' userId' => ?_)
  rw [hqueue]
  split_ifs with hsame
  · obtain ⟨rfl, rfl⟩ := hsame
    rw [List.filter_eq_nil_iff.mpr (fun r hr => by simp [(List.mem_filter.mp hr).2])]
    exact .nil
  · rw [List.filter_eq_self.mpr (fun r hr => ?_)]
    · exact h.rows tenantId' userId'
    · have hfor := of_decide_eq_true (List.mem_filter.mp hr).2
      rw [Bool.not_eq_true', Row.isFor, decide_eq_false_iff_not]
      exact fun hboth => hsame ⟨hboth.1.symm.trans hfor.1, hboth.2.symm.trans hfor.2⟩

/-- A message is stored. -/
theorem MirrorsQueues.enqueue {id : Uuid} {event : NotificationEvent}
    (h : MirrorsQueues config serde s log table) (hs : s < t)
    (henabled : (config tenantId).enabled = true) (hbound : (config tenantId).maxQueueSizePerUser < 2 ^ 63)
    (hreads : serde.Reads event) (hfresh : ∀ r ∈ table, r.id ≠ id)
    (hok : (PostgresQueueBackend.withTenant (config tenantId) serde tenantId).enqueue table userId id event s o.pick
      false = some (.ok (), table')) :
    MirrorsQueues config serde t (log ++ [⟨tenantId, .call (.enqueue userId id s event), .stored⟩]) table' := by
  obtain ⟨expiresAt, data, victim, hexpires, hdata, hvictim, rfl⟩ := postgres_enqueue_ok hok
  have hpicked : Table.select (table.rowsOf tenantId userId) ((config tenantId).maxQueueSizePerUser : ℤ) o.pick =
      some victim := by
    rw [← asI64_of_lt hbound]
    exact hvictim
  have hkept : (table.filter (fun r => decide (some r.id ≠ victim))).Sublist table := List.filter_sublist
  refine ⟨?_, ?_, ?_, fun tenantId' userId' => ?_⟩
  · intro r hr
    rw [Table.commit, List.mem_append, List.mem_singleton] at hr
    rcases hr with hr | rfl
    · exact (h.past r (hkept.subset hr)).trans hs
    · exact hs
  · rw [Table.commit, List.pairwise_append]
    refine ⟨h.sorted.sublist hkept, List.pairwise_singleton _ _, fun r hr r' hr' => ?_⟩
    rw [List.mem_singleton.mp hr']
    exact h.past r (hkept.subset hr)
  · rw [Table.commit, List.map_append, List.nodup_append]
    refine ⟨h.ids.sublist (hkept.map Row.id), List.nodup_singleton _, ?_⟩
    intro x hx y hy
    obtain ⟨r, hr, rfl⟩ := List.mem_map.mp hx
    rw [List.map_singleton, List.mem_singleton] at hy
    rw [hy]
    exact hfresh r (hkept.subset hr)
  · have hqueue : (ownQueue config (log ++ [⟨tenantId, .call (.enqueue userId id s event), .stored⟩])
        tenantId').messages userId' =
        if tenantId = tenantId' ∧ userId = userId' then
          MemoryQueueBackend.pushBack (config tenantId).maxQueueSizePerUser
            ((ownQueue config log tenantId).messages userId) (.new id s event)
        else (ownQueue config log tenantId').messages userId' := by
      rw [ownQueue_concat]
      by_cases htenant : tenantId = tenantId'
      · subst htenant
        have hconfig : (ownQueue config log tenantId).config.enabled = true := by rw [config_ownQueue, henabled]
        rw [if_pos rfl]
        show ((ownQueue config log tenantId).enqueue userId (.new id s event)).2.messages userId' = _
        rw [MemoryQueueBackend.messages_enqueue hconfig, config_ownQueue]
        simp only [true_and, eq_comm]
      · rw [if_neg htenant, if_neg (fun hboth => htenant hboth.1)]
    have hrow : ((PostgresQueueBackend.withTenant (config tenantId) serde tenantId).newRow userId id data s
        expiresAt).isFor tenantId' userId' = decide (tenantId = tenantId' ∧ userId = userId') := rfl
    rw [hqueue, PostgresRace.rowsOf_commit, hrow]
    by_cases hsame : tenantId = tenantId' ∧ userId = userId'
    · have hboth := hsame
      obtain ⟨rfl, rfl⟩ := hboth
      have hsub : (table.rowsOf tenantId userId).Sublist table := List.filter_sublist
      have hrows := h.rows tenantId userId
      rw [filter_select (h.ids.sublist (hsub.map Row.id)) (h.sorted.sublist hsub) hpicked, decide_eq_true hsame,
        if_pos rfl, if_pos hsame, MemoryQueueBackend.pushBack, hrows.length_eq]
      refine List.rel_append ?_ (List.Forall₂.cons (represents_newRow hreads hdata hexpires) .nil)
      split_ifs
      · rw [← List.drop_one, ← List.drop_one]
        exact List.forall₂_drop 1 hrows
      · exact hrows
    · rw [filter_select_of_other h.ids hsame hpicked, decide_eq_false hsame, if_neg (by simp), if_neg hsame,
        List.append_nil]
      exact h.rows tenantId' userId'

/-! ### What the tenant has in the table -/

/-- The rows of a user with a property are counted by user. -/
theorem length_filter_rowsOf (p : Row → Bool) : ((table.rowsOf tenantId userId).filter p).length =
    (((table.ownRows tenantId).filter p).map Row.userId).count userId := by
  rw [List.count, List.countP_map, List.countP_eq_length_filter, Table.rowsOf, Table.ownRows]
  simp only [List.filter_filter]
  refine congrArg List.length (List.filter_congr (fun r _ => ?_))
  rw [Row.isFor, Function.comp_apply, Bool.eq_iff_iff]
  simp only [Bool.and_eq_true, decide_eq_true_eq, beq_iff_eq]
  tauto

theorem length_rowsOf : (table.rowsOf tenantId userId).length =
    ((table.ownRows tenantId).map Row.userId).count userId := by
  have h : ((table.rowsOf tenantId userId).filter (fun _ => true)).length =
      (((table.ownRows tenantId).filter (fun _ => true)).map Row.userId).count userId := length_filter_rowsOf _
  simpa only [List.filter_true] using h

theorem MirrorsQueues.length_messages (h : MirrorsQueues config serde t log table) :
    ((ownQueue config log tenantId).messages userId).length =
      ((table.ownRows tenantId).map Row.userId).count userId := by
  rw [← length_rowsOf, (h.rows tenantId userId).length_eq]

/-- The keys of a tenant's queue are the users that have rows. -/
theorem MirrorsQueues.mem_keys_iff (h : MirrorsQueues config serde t log table) :
    userId ∈ (ownQueue config log tenantId).queues.keys ↔ userId ∈ (table.ownRows tenantId).map Row.userId := by
  rw [tight_ownQueue.mem_keys_iff, ← List.count_pos_iff, ← h.length_messages, List.length_pos_iff]

/-- The messages that a clean-up of the tenant's queue removes are as many as its expired rows. -/
theorem MirrorsQueues.count_cleanup (h : MirrorsQueues config serde t log table) :
    (table.filter ((PostgresQueueBackend.withTenant (config tenantId) serde tenantId).hasExpired t)).length =
      ((ownQueue config log tenantId).cleanupExpired t).1 := by
  have hexpired : table.filter ((PostgresQueueBackend.withTenant (config tenantId) serde tenantId).hasExpired t) =
      (table.ownRows tenantId).filter (fun r => !decide (r.expiresAt > t)) := by
    rw [Table.ownRows, List.filter_filter]
    refine List.filter_congr (fun r _ => ?_)
    rw [PostgresQueueBackend.hasExpired, PostgresQueueBackend.withTenant, Bool.decide_and, Bool.and_comm,
      ← decide_not, decide_eq_decide.mpr not_lt]
  have hkeys : ∀ k ∈ ((table.ownRows tenantId).filter (fun r => !decide (r.expiresAt > t))).map Row.userId,
      k ∈ (ownQueue config log tenantId).queues.keys := by
    intro k hk
    rw [h.mem_keys_iff]
    exact (List.filter_sublist.map Row.userId).subset hk
  rw [MemoryQueueBackend.cleanupExpired, MemoryQueueBackend.count_retainKeys (AList.keys_nodup _), hexpired,
    ← List.length_map Row.userId, ← sum_count (AList.keys_nodup _) hkeys]
  refine congrArg List.sum (List.map_congr_left (fun k _ => ?_))
  rw [← length_filter_rowsOf, length_expired (h.rows tenantId k) (h.past_rowsOf tenantId k), config_ownQueue]
  rfl

/-- The join gives every row of the tenant the number of rows of its user. -/
theorem stats_eq (b : PostgresQueueBackend) : b.stats table false =
    { backendType := "postgres"
      enabled := b.config.enabled
      totalMessages := (table.ownRows b.tenantId).length
      usersWithQueue := ((table.ownRows b.tenantId).map Row.userId).dedup.length
      maxQueueSize := ((table.ownRows b.tenantId).map (fun r =>
        ((table.ownRows b.tenantId).map Row.userId).count r.userId)).max?.getD 0
      maxQueueSizeConfig := b.config.maxQueueSizePerUser
      messageTtlSeconds := b.config.messageTtlSeconds } := by
  have hjoined : (leftJoin Row.userId table (groupCounts Row.userId (table.ownRows b.tenantId))).filter
      (fun x => decide (x.1.tenantId = b.tenantId)) = (table.ownRows b.tenantId).map (fun r =>
        (r, some (((table.ownRows b.tenantId).map Row.userId).count r.userId))) := by
    rw [filter_leftJoin _ (fun r : Row => decide (r.tenantId = b.tenantId))]
    exact leftJoin_groupCounts Row.userId (table.ownRows b.tenantId)
  simp only [PostgresQueueBackend.stats, hjoined, Bool.false_eq_true, if_false, List.length_map, List.map_map,
    List.filterMap_map, Function.comp_def, List.filterMap_eq_map']

/-- The statistics of the tenant's rows are those of its queue. -/
theorem MirrorsQueues.stats (h : MirrorsQueues config serde t log table) :
    (PostgresQueueBackend.withTenant (config tenantId) serde tenantId).stats table false =
      { (ownQueue config log tenantId).stats with backendType := "postgres" } := by
  have hsizes : (ownQueue config log tenantId).queues.values.map List.length =
      (ownQueue config log tenantId).queues.keys.map
        (fun key => ((table.ownRows tenantId).map Row.userId).count key) := by
    rw [MemoryQueueBackend.sizes_eq]
    exact List.map_congr_left (fun key _ => h.length_messages)
  have hnodup : (ownQueue config log tenantId).queues.keys.Nodup := AList.keys_nodup _
  have hkeys : ∀ k, k ∈ (ownQueue config log tenantId).queues.keys ↔
      k ∈ (table.ownRows tenantId).map Row.userId :=
    fun k => h.mem_keys_iff
  have htotal : (table.ownRows tenantId).length =
      ((ownQueue config log tenantId).queues.values.map List.length).sum := by
    rw [hsizes, sum_count hnodup (fun k hk => (hkeys k).mpr hk), List.length_map]
  have husers : ((table.ownRows tenantId).map Row.userId).dedup.length =
      ((ownQueue config log tenantId).queues.values.map List.length).length := by
    rw [hsizes, List.length_map, length_eq_dedup hnodup hkeys]
  have hlongest : ((table.ownRows tenantId).map (fun r =>
      ((table.ownRows tenantId).map Row.userId).count r.userId)).max?.getD 0 =
        ((ownQueue config log tenantId).queues.values.map List.length).foldl max 0 := by
    rw [hsizes, max?_getD]
    refine foldl_max_eq (fun n => ?_)
    simp only [List.mem_map]
    constructor
    · rintro ⟨r, hr, rfl⟩
      exact ⟨r.userId, (hkeys r.userId).mpr (List.mem_map_of_mem hr), rfl⟩
    · rintro ⟨k, hk, rfl⟩
      obtain ⟨r, hr, rfl⟩ := List.mem_map.mp ((hkeys k).mp hk)
      exact ⟨r, hr, rfl⟩
  rw [stats_eq]
  simp only [PostgresQueueBackend.withTenant, MemoryQueueBackend.stats, config_ownQueue, htotal, husers, hlongest]

/-! ### Requests -/

/-- A limit that the database accepts is the one that was asked for. -/
theorem toNat_asI64 {n : ℕ} (hn : n < 2 ^ 64) (h : ¬ asI64 n < 0) : (asI64 n).toNat = n := by
  unfold asI64 at h ⊢
  rw [Nat.mod_eq_of_lt hn] at h ⊢
  split_ifs at h ⊢ <;> omega

/-- What a look at the table finds. -/
theorem MirrorsQueues.peek (h : MirrorsQueues config serde t log table)
    (henabled : (config tenantId).enabled = true) {limit : ℕ} (hlimit : limit < 2 ^ 64) {messages : List StoredMessage}
    (hok : (PostgresQueueBackend.withTenant (config tenantId) serde tenantId).peek table userId t false limit o.order =
      .ok messages) :
    messages = ((ownQueue config log tenantId).cleanupExpired t).2.peek userId limit := by
  have he : (PostgresQueueBackend.withTenant (config tenantId) serde tenantId).config.enabled = true := henabled
  rw [PostgresQueueBackend.peek, if_pos he] at hok
  simp only [Bool.false_eq_true, false_or] at hok
  split_ifs at hok with hneg
  have hrows := represents_live (h.rows tenantId userId) (h.past_rowsOf tenantId userId)
  have hsorted : (table.filter ((PostgresQueueBackend.withTenant (config tenantId) serde tenantId).isLive userId
      t)).Pairwise (fun r r' => r.queuedAt < r'.queuedAt) := h.sorted.sublist List.filter_sublist
  have hfirst := filterMap_toMessage (List.forall₂_take limit hrows)
  have hqueue : (((ownQueue config log tenantId).cleanupExpired t).2).config.enabled = true := by
    rw [MemoryQueueBackend.config_cleanupExpired, config_ownQueue, henabled]
  rw [orderBy_eq_of_perm (o.order.arrange_perm _) hsorted, toNat_asI64 hlimit hneg, filter_isLive] at hok
  rw [MemoryQueueBackend.peek, if_pos hqueue, MemoryQueueBackend.messages_cleanupExpired, config_ownQueue]
  exact (Except.ok.inj hok).symm.trans hfirst

/-- What a drain returns and counts. -/
theorem MirrorsQueues.drained (h : MirrorsQueues config serde t log table) (henabled : (config tenantId).enabled = true) :
    ((o.order.arrange (table.filter ((PostgresQueueBackend.withTenant (config tenantId) serde tenantId).isLive userId
        t))).filterMap (PostgresQueueBackend.withTenant (config tenantId) serde tenantId).toMessage).Perm
        ((ownQueue config log tenantId).drain userId t).1.messages ∧
      ((table.rowsOf tenantId userId).filter (fun r => !decide (r.expiresAt > t))).length =
        ((ownQueue config log tenantId).drain userId t).1.expired := by
  have hconfig : (ownQueue config log tenantId).config.enabled = true := by rw [config_ownQueue, henabled]
  have hrows := h.rows tenantId userId
  have hpast := h.past_rowsOf tenantId userId
  have hlive : ((table.rowsOf tenantId userId).filter (fun r => decide (r.expiresAt > t))).filterMap
      (PostgresQueueBackend.withTenant (config tenantId) serde tenantId).toMessage =
        ((ownQueue config log tenantId).messages userId).filter
          (fun m => !m.isExpired t (config tenantId).messageTtlSeconds) :=
    filterMap_toMessage (represents_live hrows hpast)
  have hmessages : ((ownQueue config log tenantId).drain userId t).1.messages =
      ((ownQueue config log tenantId).messages userId).filter
        (fun m => !m.isExpired t (config tenantId).messageTtlSeconds) := by
    rw [MemoryQueueBackend.drained_messages hconfig, config_ownQueue]
  have htotal : ((ownQueue config log tenantId).drain userId t).1.messages.length +
      ((ownQueue config log tenantId).drain userId t).1.expired =
        ((ownQueue config log tenantId).messages userId).length := MemoryQueueBackend.drained_expired hconfig
  constructor
  · rw [hmessages, ← hlive, filter_isLive]
    exact (o.order.arrange_perm _).filterMap _
  · have hsplit := List.length_eq_length_filter_add (l := (ownQueue config log tenantId).messages userId)
      (fun m => m.isExpired t (config tenantId).messageTtlSeconds)
    have hexpired := length_expired hrows hpast
    rw [hmessages] at htotal
    dsimp only [PostgresQueueBackend.withTenant] at hexpired
    omega

/-- The number of messages that have not expired. -/
theorem MirrorsQueues.size (h : MirrorsQueues config serde t log table) :
    (table.filter ((PostgresQueueBackend.withTenant (config tenantId) serde tenantId).isLive userId t)).length =
      ((ownQueue config log tenantId).cleanupExpired t).2.queueSize userId := by
  rw [filter_isLive, MemoryQueueBackend.queueSize, MemoryQueueBackend.messages_cleanupExpired, config_ownQueue]
  exact (represents_live (h.rows tenantId userId) (h.past_rowsOf tenantId userId)).length_eq

/-- The expired messages of the tenant are removed. -/
theorem MirrorsQueues.cleanup (h : MirrorsQueues config serde s log table) (hs : s ≤ t) :
    MirrorsQueues config serde t (log ++ [⟨tenantId, .call (.cleanupExpired s), answer⟩]) (table.filter
      (fun r => !(PostgresQueueBackend.withTenant (config tenantId) serde tenantId).hasExpired s r)) := by
  refine h.filter hs (fun tenantId' userId' => ?_)
  rw [ownQueue_concat]
  by_cases htenant : tenantId = tenantId'
  · subst htenant
    have hlive : (table.rowsOf tenantId userId').filter (fun r =>
        !(PostgresQueueBackend.withTenant (config tenantId) serde tenantId).hasExpired s r) =
          (table.rowsOf tenantId userId').filter (fun r => decide (r.expiresAt > s)) := by
      refine List.filter_congr (fun r hr => ?_)
      have hfor := of_decide_eq_true (List.mem_filter.mp hr).2
      rw [PostgresQueueBackend.hasExpired, PostgresQueueBackend.withTenant, ← decide_not, decide_eq_decide]
      simp [hfor.1]
    rw [if_pos rfl, hlive]
    show List.Forall₂ _ _ (((ownQueue config log tenantId).cleanupExpired s).2.messages userId')
    rw [MemoryQueueBackend.messages_cleanupExpired, config_ownQueue]
    exact represents_live (h.rows tenantId userId') (h.past_rowsOf tenantId userId')
  · rw [if_neg htenant, List.filter_eq_self.mpr (fun r hr => ?_)]
    · exact h.rows tenantId' userId'
    · have hfor := of_decide_eq_true (List.mem_filter.mp hr).2
      rw [Bool.not_eq_true', PostgresQueueBackend.hasExpired, decide_eq_false_iff_not]
      exact fun hboth => htenant (hboth.1.symm.trans hfor.1)

/-- A call after which a user of the tenant has no messages. -/
theorem ownQueue_remove {c : QueueCall} (hcall : ∀ userId',
      ((ownQueue config log tenantId).perform c).messages userId' =
        if userId' = userId then [] else (ownQueue config log tenantId).messages userId') (tenantId' userId' : String) :
    (ownQueue config (log ++ [⟨tenantId, .call c, answer⟩]) tenantId').messages userId' =
      if tenantId = tenantId' ∧ userId = userId' then [] else (ownQueue config log tenantId').messages userId' := by
  rw [ownQueue_concat]
  by_cases htenant : tenantId = tenantId'
  · subst htenant
    rw [if_pos rfl]
    simp only [true_and, eq_comm (a := userId)]
    exact hcall userId'
  · rw [if_neg htenant, if_neg (fun hboth => htenant hboth.1)]

/-- A request is answered as the tenant's own queue answers it, and the table goes on to mirror
the queues. -/
theorem serve_spec (h : MirrorsQueues config serde request.now log table) (ht : request.now < t)
    (henabled : (config tenantId).enabled = true) (hbound : (config tenantId).maxQueueSizePerUser < 2 ^ 63)
    (hfits : request.Fits serde table o)
    (hserve : (PostgresQueueBackend.withTenant (config tenantId) serde tenantId).serve table o request =
      some (.ok answer, table')) :
    (ownQueue config log tenantId).Answers request answer ∧
      MirrorsQueues config serde t (log ++ [⟨tenantId, request, answer⟩]) table' := by
  have he : (PostgresQueueBackend.withTenant (config tenantId) serde tenantId).config.enabled = true := henabled
  have hconfig : (ownQueue config log tenantId).config.enabled = true := by rw [config_ownQueue, henabled]
  cases request with
  | call c =>
      cases c with
      | enqueue user id now event =>
          obtain ⟨hok, hreads, hfresh⟩ := hfits
          obtain ⟨⟨result, after⟩, hresult, heq⟩ := Option.map_eq_some_iff.mp hserve
          rw [hok] at hresult
          cases result with
          | error e => cases heq
          | ok _ =>
              cases heq
              exact ⟨⟨by rw [MemoryQueueBackend.enqueue, if_pos hconfig], rfl⟩,
                h.enqueue ht henabled hbound hreads hfresh hresult⟩
      | drain user now =>
          obtain ⟨hok, hdelete, hlate⟩ := hfits
          rw [PostgresQueueBackend.serve, hok, hdelete, drain_eq he o.order hlate] at hserve
          cases hserve
          obtain ⟨hmessages, hexpired⟩ := h.drained henabled
          exact ⟨⟨_, rfl, hmessages, hexpired⟩,
            h.remove ht.le (ownQueue_remove (fun _ => MemoryQueueBackend.messages_drain hconfig _))⟩
      | peek user limit now =>
          obtain ⟨hok, hlimit⟩ := hfits
          rw [PostgresQueueBackend.serve, hok] at hserve
          cases hpeek : (PostgresQueueBackend.withTenant (config tenantId) serde tenantId).peek table user now false limit
              o.order with
          | error e =>
              rw [hpeek] at hserve
              cases hserve
          | ok messages =>
              rw [hpeek] at hserve
              cases hserve
              exact ⟨congrArg QueueAnswer.messages (h.peek henabled hlimit hpeek),
                h.query ht.le (ownQueue_query (.inr ⟨user, limit, now, rfl⟩))⟩
      | cleanupExpired now =>
          have hok : o.statementFails = false := hfits
          rw [PostgresQueueBackend.serve, hok, PostgresQueueBackend.cleanupExpired, if_pos he,
            if_neg Bool.false_ne_true] at hserve
          cases hserve
          exact ⟨congrArg QueueAnswer.count h.count_cleanup, h.cleanup ht.le⟩
      | clearUserQueue user now =>
          have hok : o.statementFails = false := hfits
          rw [PostgresQueueBackend.serve, hok, PostgresQueueBackend.clearUserQueue, if_pos he,
            if_neg Bool.false_ne_true] at hserve
          cases hserve
          have hcount : (table.rowsOf tenantId user).length = ((ownQueue config log tenantId).clearUserQueue user).1 := by
            rw [MemoryQueueBackend.count_clearUserQueue, (h.rows tenantId user).length_eq]
          exact ⟨congrArg QueueAnswer.count hcount,
            h.remove ht.le (ownQueue_remove (fun _ => MemoryQueueBackend.messages_clearUserQueue _))⟩
  | queueSize user now =>
      have hok : o.statementFails = false := hfits
      rw [PostgresQueueBackend.serve, hok, PostgresQueueBackend.queueSize, if_pos he,
        if_neg Bool.false_ne_true] at hserve
      cases hserve
      exact ⟨congrArg QueueAnswer.count h.size, h.query ht.le (ownQueue_query (.inl rfl))⟩
  | stats now =>
      have hok : o.statementFails = false := hfits
      rw [PostgresQueueBackend.serve, hok] at hserve
      cases hserve
      exact ⟨congrArg QueueAnswer.stats h.stats, h.query ht.le (ownQueue_query (.inl rfl))⟩

/-- A statement that fails leaves the table as it is. -/
theorem serve_failed {b : PostgresQueueBackend} {result : Except StoreError QueueAnswer}
    (hfails : o.statementFails = true) (hserve : b.serve table o request = some (result, table')) : table' = table := by
  cases request with
  | call c =>
      cases c with
      | enqueue user id now event =>
          obtain ⟨⟨answer, after⟩, hafter, heq⟩ := Option.map_eq_some_iff.mp hserve
          have htable : after = table' := congrArg Prod.snd heq
          rw [hfails, PostgresQueueBackend.enqueue] at hafter
          by_cases he : b.config.enabled = true
          · rw [if_pos he] at hafter
            obtain ⟨expiresAt, -, hwritten⟩ := Option.bind_eq_some_iff.mp hafter
            cases hdata : b.serde.write event with
            | none =>
                rw [hdata] at hwritten
                cases hwritten
                exact htable.symm
            | some data =>
                rw [hdata] at hwritten
                cases hwritten
                exact htable.symm
          · rw [if_neg he] at hafter
            cases hafter
            exact htable.symm
      | drain user now =>
          rw [PostgresQueueBackend.serve, hfails, PostgresQueueBackend.drain, if_pos rfl] at hserve
          split_ifs at hserve <;> cases hserve <;> rfl
      | peek user limit now => cases hserve; rfl
      | cleanupExpired now =>
          rw [PostgresQueueBackend.serve, hfails, PostgresQueueBackend.cleanupExpired, if_pos rfl] at hserve
          split_ifs at hserve <;> cases hserve <;> rfl
      | clearUserQueue user now =>
          rw [PostgresQueueBackend.serve, hfails, PostgresQueueBackend.clearUserQueue, if_pos rfl] at hserve
          split_ifs at hserve <;> cases hserve <;> rfl
  | queueSize user now => cases hserve; rfl
  | stats now => cases hserve; rfl

/-! ### Runs -/

/-- After every run the rows of a tenant are the messages of its own queue. -/
theorem mirrors_of_tableRun (henabled : ∀ tenantId, (config tenantId).enabled = true)
    (hbound : ∀ tenantId, (config tenantId).maxQueueSizePerUser < 2 ^ 63) (h : TableRun config serde log table)
    (htimes : log.Pairwise (fun e e' => e.request.now < e'.request.now)) (ht : ∀ e ∈ log, e.request.now < t) :
    MirrorsQueues config serde t log table := by
  induction h generalizing t with
  | empty =>
      exact ⟨fun _ h => absurd h List.not_mem_nil, List.Pairwise.nil, List.nodup_nil, fun _ _ => .nil⟩
  | @answered log _ _ tenantId request answer o _ hfits hserve ih =>
      obtain ⟨hearlier, -, hlast⟩ := List.pairwise_append.mp htimes
      have hmirrors := ih hearlier (fun e he => hlast e he _ List.mem_cons_self)
      exact (serve_spec hmirrors (ht ⟨tenantId, request, answer⟩ (by simp)) (henabled _) (hbound _) hfits hserve).2
  | failed o _ hfails hserve ih => exact serve_failed hfails hserve ▸ ih htimes ht

end serving

section schedule
open PostgresRace

/-- Every tenant keeps two messages for a user, for an hour. -/
def twoForAll (_ : String) : QueueConfig := ⟨true, 2, 3600, 300⟩

/-- The database picks the first row, returns rows as they were stored and does not fail. -/
def smooth (pick : Uuid) (deletedAt : DateTime) : StatementOutcome := ⟨pick, inOrder, deletedAt, false, false⟩

/-- A message for a user of each of two tenants, who have the same name. -/
def bothStored : List ServedRequest :=
  [⟨"acme", .call (.enqueue "alice" 1 0 digest), .stored⟩,
    ⟨"globex", .call (.enqueue "alice" 2 nanosPerSecond digest), .stored⟩]

/-- One of them asks for her messages. -/
def oneDrained : ServedRequest :=
  ⟨"acme", .call (.drain "alice" (2 * nanosPerSecond)), .drained ⟨[.new 1 0 digest], 0⟩⟩

/-- The row of a tenant's message, stored at a time. -/
def rowAt (tenantId : String) (id : Uuid) (queuedAt : DateTime) : Row :=
  (PostgresQueueBackend.withTenant (twoForAll tenantId) digestSerde tenantId).newRow "alice" id digestValue queuedAt
    (queuedAt + 3600 * nanosPerSecond)

theorem tableRun_oneDrained :
    TableRun twoForAll digestSerde (bothStored ++ [oneDrained]) [rowAt "globex" 2 nanosPerSecond] := by
  have h₁ : TableRun twoForAll digestSerde [⟨"acme", .call (.enqueue "alice" 1 0 digest), .stored⟩]
      [rowAt "acme" 1 0] :=
    TableRun.empty.answered (smooth 0 0) ⟨rfl, rfl, by simp⟩ rfl
  have h₂ : TableRun twoForAll digestSerde bothStored [rowAt "acme" 1 0, rowAt "globex" 2 nanosPerSecond] :=
    h₁.answered (smooth 0 0) ⟨rfl, rfl, by simp [rowAt, PostgresQueueBackend.newRow]⟩ rfl
  exact h₂.answered (smooth 0 (2 * nanosPerSecond)) ⟨rfl, rfl, le_rfl⟩ rfl

end schedule

end AraNotification
