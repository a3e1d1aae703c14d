import AraNotification.DispatchRecipients
import Mathlib.Logic.Function.Basic

/-! # A list of users, in batches and one by one

`send_to_users_for_tenant` goes through its users in batches: it stores the event for the users of a
batch that are offline, and then sends it to the connections of the others together.  `sendEach` calls
`send_to_user_for_tenant` for one user after the other.

Both send to the same connections, in some order (`Sent`).  For the queue, `Shelves` has what is stored
under every key without the identifiers and times of the stored messages, and `Shelves.store` is what one
enqueue does to it.  Both ways store for the offline users in their order (`shelves_sendToUsersForTenant`,
`shelves_sendEach`), wherever a batch ends. -/

namespace AraNotification

open Dispatcher

/-! ### What the queue holds -/

/-- The configuration of a queue, and under every key the stored events with their attempts. -/
structure Shelves where
  config : QueueConfig
  contents : String → List (NotificationEvent × ℕ)

/-- Store an event under a key; the oldest one of a full queue is dropped, and a disabled queue does
not change. -/
def Shelves.store (key : String) (event : NotificationEvent) (s : Shelves) : Shelves :=
  if s.config.enabled then
    ⟨s.config, Function.update s.contents key
      ((if (s.contents key).length ≥ s.config.maxQueueSizePerUser then (s.contents key).tail
        else s.contents key) ++ [(event, 0)])⟩
  else s

/-- The queue without the identifiers and times of its messages. -/
def MemoryQueueBackend.shelves (q : MemoryQueueBackend) : Shelves :=
  ⟨q.config, fun key => (q.messages key).map (fun m => (m.event, m.attempts))⟩

theorem MemoryQueueBackend.shelves_enqueue (q : MemoryQueueBackend) (key : String) (id : Uuid) (now : DateTime)
    (event : NotificationEvent) :
    (q.enqueue key (StoredMessage.new id now event)).2.shelves = q.shelves.store key event := by
  by_cases hen : q.config.enabled = true
  · have hconfig : (q.enqueue key (StoredMessage.new id now event)).2.config = q.config := by
      rw [enqueue, if_pos hen]
    have hon : q.shelves.config.enabled = true := hen
    rw [Shelves.store, if_pos hon]
    refine congr_arg₂ Shelves.mk hconfig (funext (fun key' => ?_))
    rw [messages_enqueue hen, Function.update_apply]
    split_ifs with hkey hfull
    · have hlong : (q.messages key).length ≥ q.config.maxQueueSizePerUser := by simpa [shelves] using hfull
      simp [pushBack, hlong, shelves, StoredMessage.new]
    · have hshort : ¬(q.messages key).length ≥ q.config.maxQueueSizePerUser := by simpa [shelves] using hfull
      simp [pushBack, hshort, shelves, StoredMessage.new]
    · rfl
  · have hoff : ¬q.shelves.config.enabled = true := hen
    rw [Shelves.store, if_neg hoff, enqueue, if_neg hen]

/-- What the dispatcher's queue holds, if it has one. -/
def Dispatcher.shelves (d : Dispatcher) : Option Shelves := d.queue.map (·.shelves)

/-- Store an event for a user, if the user has no connection. -/
def Dispatcher.storeOffline (m : ConnectionManager) (event : NotificationEvent) (tenantId : Option String)
    (s : Option Shelves) (userId : String) : Option Shelves :=
  if (getUserConnectionsFiltered m userId tenantId).isEmpty then
    s.map (Shelves.store (tenantQueueKey tenantId userId) event)
  else s

section shelves
variable {d d' : Dispatcher} {env : Surroundings} {m : ConnectionManager} {event : NotificationEvent}
  {T : Option String} {conns : List ConnectionHandle}

theorem shelves_of_queue_eq (h : d'.queue = d.queue) : d'.shelves = d.shelves := by
  unfold shelves
  rw [h]

theorem shelves_enqueueFor (userId : String) (n : ℕ) : (d.enqueueFor env T userId event n).2.shelves =
    d.shelves.map (Shelves.store (tenantQueueKey T userId) event) := by
  unfold enqueueFor shelves
  cases hq : d.queue with
  | none =>
      show d.queue.map _ = none
      rw [hq]
      rfl
  | some q =>
      have henqueue := q.shelves_enqueue (tenantQueueKey T userId) (env.stamp n).1 (env.stamp n).2 event
      simp only [Option.map_some]
      by_cases hen : q.isEnabled = true
      · have hok : q.enqueue (tenantQueueKey T userId) (StoredMessage.new (env.stamp n).1 (env.stamp n).2 event) =
            (.ok (), (q.enqueue (tenantQueueKey T userId)
              (StoredMessage.new (env.stamp n).1 (env.stamp n).2 event)).2) := by
          have hon : q.config.enabled = true := hen
          rw [MemoryQueueBackend.enqueue, if_pos hon]
        rw [if_pos hen, hok, ← henqueue]
        rfl
      · have hoff : ¬q.shelves.config.enabled = true := hen
        rw [if_neg hen, Shelves.store, if_neg hoff]
        show d.queue.map _ = _
        rw [hq]
        rfl

theorem shelves_sendToConnections {message : ServerMessage} {id : Option Uuid} :
    (d.sendToConnections env conns message id).1.shelves = d.shelves := by
  refine shelves_of_queue_eq ?_
  unfold sendToConnections
  split_ifs
  · exact queue_foldl_sendTo conns (d, 0, 0)
  · exact queue_foldl_sendTo _ (d, 0, 0)

theorem shelves_sendToUserForTenant (userId : String) :
    (d.sendToUserForTenant env m userId event T).2.shelves = storeOffline m event T d.shelves userId := by
  unfold sendToUserForTenant storeOffline
  simp only
  split_ifs with hempty hqueued
  · exact shelves_enqueueFor userId 0
  · exact (shelves_of_queue_eq queue_deliver).trans (shelves_enqueueFor userId 0)
  · rfl
  · exact shelves_of_queue_eq queue_deliver

theorem shelves_enqueueAll (users : List String) (n : ℕ) : (d.enqueueAll env T event users n).2.shelves =
    users.foldl (fun s userId => s.map (Shelves.store (tenantQueueKey T userId) event)) d.shelves := by
  unfold enqueueAll
  induction users generalizing d n with
  | nil => rfl
  | cons userId users ih =>
      rw [List.foldl_cons, List.foldl_cons, ← shelves_enqueueFor userId n]
      exact ih _

theorem snd_collectUsers (batch : List String) : (collectUsers m T batch).2 =
    batch.filter (fun userId => (getUserConnectionsFiltered m userId T).isEmpty) := by
  have hgen : ∀ (batch : List String) (acc : List ConnectionHandle × List String),
      (batch.foldl (fun acc userId =>
        let connections := getUserConnectionsFiltered m userId T
        if connections.isEmpty then (acc.1, acc.2 ++ [userId])
        else (acc.1 ++ connections, acc.2)) acc).2 =
      acc.2 ++ batch.filter (fun userId => (getUserConnectionsFiltered m userId T).isEmpty) := by
    intro batch
    induction batch with
    | nil => intro acc; simp
    | cons userId batch ih =>
        intro acc
        rw [List.foldl_cons, ih, List.filter_cons]
        dsimp only
        split_ifs with hempty
        · rw [List.append_assoc, List.singleton_append]
        · rfl
  exact hgen batch ([], [])

theorem shelves_sendBatch (r : Totals × Dispatcher) (batch : List String) :
    (sendBatch env m event T r batch).2.shelves = batch.foldl (storeOffline m event T) r.2.shelves := by
  have hsend : (sendBatch env m event T r batch).2.shelves =
      (r.2.enqueueAll env T event (collectUsers m T batch).2 r.1.queued).2.shelves := shelves_sendToConnections
  rw [hsend, shelves_enqueueAll, snd_collectUsers, List.foldl_filter]
  rfl

/-- The batches store the event for the offline users of the whole list, in their order. -/
theorem shelves_sendToUsersForTenant (userIds : List String) :
    (d.sendToUsersForTenant env m userIds event T).2.shelves =
      userIds.foldl (storeOffline m event T) d.shelves := by
  have hgen : ∀ (parts : List (List String)) (r : Totals × Dispatcher),
      (parts.foldl (sendBatch env m event T) r).2.shelves =
        parts.flatten.foldl (storeOffline m event T) r.2.shelves := by
    intro parts
    induction parts with
    | nil => exact fun _ => rfl
    | cons part parts ih =>
        intro r
        rw [List.foldl_cons, ih, shelves_sendBatch, List.flatten_cons, List.foldl_append]
  have hall := hgen (chunks userBatchSize userIds) (⟨0, 0, 0⟩, d)
  rw [flatten_chunks (by decide)] at hall
  exact hall

/-! ### One user after the other -/

/-- The counts of the results of `send_to_user_for_tenant` for each of the users, from the `i`-th call on. -/
def Dispatcher.sendEach (calls : ℕ → Surroundings) (m : ConnectionManager) (event : NotificationEvent)
    (tenantId : Option String) : List String → ℕ → Dispatcher → (ℕ × ℕ) × Dispatcher
  | [], _, d => ((0, 0), d)
  | userId :: userIds, i, d =>
      let (r, d') := d.sendToUserForTenant (calls i) m userId event tenantId
      let (counts, d'') := Dispatcher.sendEach calls m event tenantId userIds (i + 1) d'
      ((r.deliveredTo + counts.1, r.failed + counts.2), d'')

theorem Sent.of_accepts {env' : Surroundings} {delivered failed : ℕ} (haccepts : env'.accepts = env.accepts)
    (h : Sent env' event conns d d' delivered failed) : Sent env event conns d d' delivered failed := by
  obtain ⟨hplaced, hdelivered, hfailed⟩ := h
  rw [haccepts] at hplaced hdelivered hfailed
  exact ⟨hplaced, hdelivered, hfailed⟩

theorem sent_sendEach {calls : ℕ → Surroundings} (haccepts : ∀ i, (calls i).accepts = env.accepts)
    (userIds : List String) (i : ℕ) (d : Dispatcher) :
    Sent env event (userIds.flatMap (fun userId => getUserConnectionsFiltered m userId T)) d
      (sendEach calls m event T userIds i d).2 (sendEach calls m event T userIds i d).1.1
      (sendEach calls m event T userIds i d).1.2 := by
  induction userIds generalizing i d with
  | nil => exact .nil
  | cons userId userIds ih =>
      rw [List.flatMap_cons]
      exact (Sent.of_accepts (haccepts i) sent_sendToUserForTenant).append (ih (i + 1) _)

theorem shelves_sendEach {calls : ℕ → Surroundings} (userIds : List String) (i : ℕ) (d : Dispatcher) :
    (sendEach calls m event T userIds i d).2.shelves = userIds.foldl (storeOffline m event T) d.shelves := by
  induction userIds generalizing i d with
  | nil => rfl
  | cons userId userIds ih =>
      have hone : (d.sendToUserForTenant (calls i) m userId event T).2.shelves =
          storeOffline m event T d.shelves userId := shelves_sendToUserForTenant userId
      rw [List.foldl_cons, ← hone]
      exact ih (i + 1) _

end shelves

/-! ### The two ways compared -/

/-- The messages that were put on the connections' channels, whichever way they were serialized. -/
def sends (new : List Placement) : List (ConnectionHandle × ServerMessage) :=
  new.map (fun p => (p.conn, p.message.message))

/-- From one dispatcher, the same messages were put on each connection's channel, and the queues hold
the same. -/
structure SameEffect (d d₁ d₂ : Dispatcher) : Prop where
  sends : ∃ new₁ new₂, d₁.outbox = d.outbox ++ new₁ ∧ d₂.outbox = d.outbox ++ new₂ ∧
    (sends new₁).Perm (sends new₂)
  queues : ∀ key, (d₁.shelves.map (·.contents key)) = (d₂.shelves.map (·.contents key))

section compared
variable {d d₁ d₂ : Dispatcher} {env : Surroundings} {event : NotificationEvent} {conns : List ConnectionHandle}
  {a b : ℕ}

theorem sends_eq {new : List Placement} (h : ∀ p ∈ new, p.message.event = some event) :
    sends new = (new.map (·.conn)).map (fun c => (c, ServerMessage.notification event)) := by
  rw [List.map_map]
  refine List.map_congr_left (fun p hp => ?_)
  have hmessage : p.message.message = .notification event := by
    have hevent := h p hp
    unfold OutboundMessage.event at hevent
    split at hevent
    · rename_i e he
      rw [he, Option.some.inj hevent]
    · exact absurd hevent (by simp)
  exact congrArg (Prod.mk p.conn) hmessage

/-- Sending to the same connections puts the same messages on them. -/
theorem Sent.same_sends {a' b' : ℕ} (h₁ : Sent env event conns d d₁ a b) (h₂ : Sent env event conns d d₂ a' b') :
    ∃ new₁ new₂, d₁.outbox = d.outbox ++ new₁ ∧ d₂.outbox = d.outbox ++ new₂ ∧
      (sends new₁).Perm (sends new₂) := by
  obtain ⟨new₁, hout₁, hperm₁, hevent₁⟩ := h₁.placed
  obtain ⟨new₂, hout₂, hperm₂, hevent₂⟩ := h₂.placed
  refine ⟨new₁, new₂, hout₁, hout₂, ?_⟩
  rw [sends_eq hevent₁, sends_eq hevent₂]
  exact (hperm₁.trans hperm₂.symm).map _

end compared

/-- **Batches make no difference.**  For connections that take every message or none, sending to a list
of users in batches and sending to each of them put the same messages on every connection, deliver and
fail equally often, and leave the same events under every key of the queue. -/
theorem sendToUsersForTenant_eq_sendEach (m : ConnectionManager) (d : Dispatcher) (env : Surroundings)
    (calls : ℕ → Surroundings) (haccepts : ∀ i, (calls i).accepts = env.accepts) (userIds : List String)
    (event : NotificationEvent) (tenantId : Option String) :
    SameEffect d (d.sendToUsersForTenant env m userIds event tenantId).2
        (sendEach calls m event tenantId userIds 0 d).2 ∧
      (d.sendToUsersForTenant env m userIds event tenantId).1.deliveredTo =
        (sendEach calls m event tenantId userIds 0 d).1.1 ∧
      (d.sendToUsersForTenant env m userIds event tenantId).1.failed =
        (sendEach calls m event tenantId userIds 0 d).1.2 := by
  have hbatches : Sent env event (userIds.flatMap (fun userId => getUserConnectionsFiltered m userId tenantId)) d
      (d.sendToUsersForTenant env m userIds event tenantId).2
      (d.sendToUsersForTenant env m userIds event tenantId).1.deliveredTo
      (d.sendToUsersForTenant env m userIds event tenantId).1.failed := sent_sendToUsersForTenant
  have heach : Sent env event (userIds.flatMap (fun userId => getUserConnectionsFiltered m userId tenantId)) d
      (sendEach calls m event tenantId userIds 0 d).2 (sendEach calls m event tenantId userIds 0 d).1.1
      (sendEach calls m event tenantId userIds 0 d).1.2 := sent_sendEach haccepts userIds 0 d
  refine ⟨⟨hbatches.same_sends heach, fun key => ?_⟩, ?_, ?_⟩
  · rw [shelves_sendToUsersForTenant, shelves_sendEach]
  · rw [hbatches.delivered_eq, heach.delivered_eq]
  · rw [hbatches.failed_eq, heach.failed_eq]

/-- `alice` is connected; `bob` is offline and named twice. -/
theorem same_effect_offline :
    let m := ((ConnectionManager.withLimits .default).call (.register 1 "alice" "acme" [] 0)).2
    SameEffect emptyQueue
        (emptyQueue.sendToUsersForTenant quiet m ["bob", "alice", "bob"] orderCreated (some "acme")).2
        (sendEach (fun i => { quiet with now := i, stamp := fun n => (100 * i + n, i) }) m orderCreated (some "acme")
          ["bob", "alice", "bob"] 0 emptyQueue).2 ∧
      (emptyQueue.sendToUsersForTenant quiet m ["bob", "alice", "bob"] orderCreated (some "acme")).1.deliveredTo =
        1 := by
  intro m
  obtain ⟨hsame, hdelivered, -⟩ := sendToUsersForTenant_eq_sendEach m emptyQueue quiet
    (fun i => { quiet with now := i, stamp := fun n => (100 * i + n, i) }) (fun _ => rfl)
    ["bob", "alice", "bob"] orderCreated (some "acme")
  exact ⟨hsame, hdelivered.trans rfl⟩

end AraNotification
