import AraNotification.Ack
import AraNotification.ConnectionIndex
import AraNotification.Queue
import AraNotification.Tenant

/-! # The dispatcher

`NotificationDispatcher` finds the connections of a target in the connection manager and puts
the notification on their outbound channels; a user without connections gets it queued.  The
definitions follow `domain/notification/dispatcher.rs`, one function per method, and run a
call to its end over one state of the manager.

`Surroundings` is what a call meets outside the dispatcher: the clock, which connections take
a message, the identifiers and times of stored messages, and the order in which concurrent
sends complete.  `outbox` records what has been put on the outbound channels.

The specification of the module is in terms of recipients: what a call puts in the outbox
goes to the connections that its target names (`dispatchForTenant_placed`). -/

namespace AraNotification

/-- Maximum number of concurrent message sends. -/
def maxConcurrentSends : ℕ := 100

/-- Threshold above which messages are serialized once and sent concurrently. -/
def preserializationThreshold : ℕ := 4

/-- Batch size for processing multiple users. -/
def userBatchSize : ℕ := 100

/-- Result of a notification delivery attempt. -/
structure DeliveryResult where
  notificationId : Uuid
  deliveredTo : ℕ
  failed : ℕ
  success : Bool
deriving DecidableEq, Repr

def DeliveryResult.new (notificationId : Uuid) (delivered failed : ℕ) : DeliveryResult :=
  ⟨notificationId, delivered, failed, decide (delivered > 0)⟩

/-- Statistics for the notification dispatcher. -/
structure DispatcherStats where
  totalSent : ℕ
  totalDelivered : ℕ
  totalFailed : ℕ
  userNotifications : ℕ
  broadcastNotifications : ℕ
  channelNotifications : ℕ
deriving DecidableEq, Repr

/-- A message that a connection's outbound channel has taken. -/
structure Placement where
  conn : ConnectionHandle
  message : OutboundMessage

/-- The dispatcher's backends and statistics, and what it has put on outbound channels. -/
structure Dispatcher where
  queue : Option MemoryQueueBackend
  ack : Option MemoryAckBackend
  stats : DispatcherStats
  outbox : List Placement

/-- What one dispatch meets outside the dispatcher. -/
structure Surroundings where
  now : DateTime
  accepts : Uuid → Bool
  stamp : ℕ → Uuid × DateTime
  completion : List ConnectionHandle → List ConnectionHandle
  completion_perm : ∀ conns, (completion conns).Perm conns

/-- Consecutive parts of `n` elements (`slice::chunks`). -/
def chunks {α : Type} (n : ℕ) (l : List α) : List (List α) :=
  (List.range ((l.length + n - 1) / n)).map (fun i => (l.drop (i * n)).take n)

theorem mem_of_mem_chunks {α : Type} {n : ℕ} {l part : List α} {a : α} (hp : part ∈ chunks n l)
    (ha : a ∈ part) : a ∈ l := by
  obtain ⟨i, -, rfl⟩ := List.mem_map.mp hp
  exact List.mem_of_mem_drop (List.mem_of_mem_take ha)

/-! ### Lookups -/

/-- Queue key of a user; no tenant means the default tenant. -/
def tenantQueueKey (tenantId : Option String) (userId : String) : String :=
  tenantScopedKey (tenantId.getD defaultTenantId) userId

/-- Get user connections, filtered by tenant when one is given. -/
def getUserConnectionsFiltered (m : ConnectionManager) (userId : String) (tenantId : Option String) :
    List ConnectionHandle :=
  match tenantId with
  | some tid => (m.getUserConnections userId).filter (fun c => c.tenantId = tid)
  | none => m.getUserConnections userId

/-- The connections of a broadcast. -/
def getBroadcastConnections (m : ConnectionManager) (tenantId : Option String) :
    List ConnectionHandle :=
  match tenantId with
  | some tid => m.getTenantConnections tid
  | none => m.getAllConnections

/-- Append the connections that have not been seen yet. -/
def addUnseen (all conns : List ConnectionHandle) : List ConnectionHandle :=
  conns.foldl (fun acc c => if acc.any (fun d => d.id == c.id) then acc else acc ++ [c]) all

/-- Unique connections from all channels. -/
def collectChannels (m : ConnectionManager) (channels : List String) : List ConnectionHandle :=
  channels.foldl (fun all channel => addUnseen all (m.getChannelConnections channel)) []

/-- The connections of the online users of a batch, and its offline users. -/
def collectUsers (m : ConnectionManager) (tenantId : Option String) (batch : List String) :
    List ConnectionHandle × List String :=
  batch.foldl (fun acc userId =>
    let connections := getUserConnectionsFiltered m userId tenantId
    if connections.isEmpty then (acc.1, acc.2 ++ [userId]) else (acc.1 ++ connections, acc.2)) ([], [])

namespace Dispatcher
variable (d : Dispatcher) (env : Surroundings)

/-! ### Sending -/

/-- The dispatcher after a connection has taken a message. -/
def place (conn : ConnectionHandle) (message : OutboundMessage) (notificationId : Option Uuid) :
    Dispatcher :=
  { d with
    outbox := d.outbox ++ [⟨conn, message⟩]
    ack := match notificationId with
      | some id => d.ack.map (fun b => b.track id conn.userId conn.id env.now)
      | none => d.ack }

/-- Send a message to one connection and count the outcome. -/
def sendTo (message : OutboundMessage) (notificationId : Option Uuid) (r : Dispatcher × ℕ × ℕ)
    (conn : ConnectionHandle) : Dispatcher × ℕ × ℕ :=
  if env.accepts conn.id then (r.1.place env conn message notificationId, r.2.1 + 1, r.2.2)
  else (r.1, r.2.1, r.2.2 + 1)

/-- Send a message to a list of connections: one after the other up to three, concurrently and
serialized once above. -/
def sendToConnections (connections : List ConnectionHandle) (message : ServerMessage)
    (notificationId : Option Uuid) : Dispatcher × ℕ × ℕ :=
  if connections.length < preserializationThreshold then
    connections.foldl (sendTo env (.raw message) notificationId) (d, 0, 0)
  else
    (env.completion connections).foldl (sendTo env (.preserialized message) notificationId) (d, 0, 0)

/-- Which counter of the statistics a kind of target has. -/
inductive Kind where
  | user
  | broadcast
  | channel

/-- Count one notification. -/
def record (kind : Kind) (delivered failed : ℕ) : Dispatcher :=
  { d with
    stats :=
      { totalSent := d.stats.totalSent + 1
        totalDelivered := d.stats.totalDelivered + delivered
        totalFailed := d.stats.totalFailed + failed
        userNotifications := d.stats.userNotifications + (match kind with | .user => 1 | _ => 0)
        broadcastNotifications :=
          d.stats.broadcastNotifications + (match kind with | .broadcast => 1 | _ => 0)
        channelNotifications :=
          d.stats.channelNotifications + (match kind with | .channel => 1 | _ => 0) } }

/-- Send an event to the connections found for a target and count it. -/
def deliver (kind : Kind) (connections : List ConnectionHandle) (event : NotificationEvent) :
    DeliveryResult × Dispatcher :=
  let (d', delivered, failed) := d.sendToConnections env connections (.notification event) (some event.id)
  (.new event.id delivered failed, d'.record kind delivered failed)

/-! ### Targets -/

/-- Store an event for an offline user; the result says whether the queue took it. -/
def enqueueFor (tenantId : Option String) (userId : String) (event : NotificationEvent) (n : ℕ) :
    Bool × Dispatcher :=
  match d.queue with
  | some q =>
      if q.isEnabled then
        match q.enqueue (tenantQueueKey tenantId userId)
            (StoredMessage.new (env.stamp n).1 (env.stamp n).2 event) with
        | (.ok (), q') => (true, { d with queue := some q' })
        | (.error _, q') => (false, { d with queue := some q' })
      else (false, d)
  | none => (false, d)

/-- Send notification to a specific user, filtered by tenant; an offline user's is queued. -/
def sendToUserForTenant (m : ConnectionManager) (userId : String) (event : NotificationEvent)
    (tenantId : Option String) : DeliveryResult × Dispatcher :=
  let connections := getUserConnectionsFiltered m userId tenantId
  let (queued, d') :=
    if connections.isEmpty then d.enqueueFor env tenantId userId event 0 else (false, d)
  if queued then (.new event.id 0 0, d'.record .user 0 0)
  else d'.deliver env .user connections event

/-- Queue an event for each offline user of a batch; `n` events were queued before. -/
def enqueueAll (tenantId : Option String) (event : NotificationEvent) (users : List String)
    (n : ℕ) : ℕ × Dispatcher :=
  users.foldl (fun r userId =>
    let (queued, d') := r.2.enqueueFor env tenantId userId event r.1
    (if queued then r.1 + 1 else r.1, d')) (n, d)

/-- The totals of a send to several users. -/
structure Totals where
  delivered : ℕ
  failed : ℕ
  queued : ℕ

/-- One batch of users: queue for the offline ones, then send to the connections found. -/
def sendBatch (m : ConnectionManager) (event : NotificationEvent) (tenantId : Option String)
    (r : Totals × Dispatcher) (batch : List String) : Totals × Dispatcher :=
  let (connections, offline) := collectUsers m tenantId batch
  let (queued, d₁) := r.2.enqueueAll env tenantId event offline r.1.queued
  let (d₂, delivered, failed) :=
    d₁.sendToConnections env connections (.notification event) (some event.id)
  (⟨r.1.delivered + delivered, r.1.failed + failed, queued⟩, d₂)

/-- Send notification to multiple users, filtered by tenant. -/
def sendToUsersForTenant (m : ConnectionManager) (userIds : List String) (event : NotificationEvent)
    (tenantId : Option String) : DeliveryResult × Dispatcher :=
  let (totals, d') :=
    (chunks userBatchSize userIds).foldl (sendBatch env m event tenantId) (⟨0, 0, 0⟩, d)
  (.new event.id totals.delivered totals.failed, d'.record .user totals.delivered totals.failed)

/-- Broadcast notification filtered by tenant. -/
def broadcastForTenant (m : ConnectionManager) (event : NotificationEvent)
    (tenantId : Option String) : DeliveryResult × Dispatcher :=
  d.deliver env .broadcast (getBroadcastConnections m tenantId) event

/-- Send notification to a specific channel. -/
def sendToChannel (m : ConnectionManager) (channel : String) (event : NotificationEvent) :
    DeliveryResult × Dispatcher :=
  d.deliver env .channel (m.getChannelConnections channel) event

/-- Send notification to multiple channels. -/
def sendToChannels (m : ConnectionManager) (channels : List String) (event : NotificationEvent) :
    DeliveryResult × Dispatcher :=
  d.deliver env .channel (collectChannels m channels) event

/-- Dispatch a notification scoped to a specific tenant; expired notifications are skipped. -/
def dispatchForTenant (m : ConnectionManager) (target : NotificationTarget)
    (event : NotificationEvent) (tenantId : Option String) : DeliveryResult × Dispatcher :=
  if event.isExpired env.now then (.new event.id 0 0, d)
  else
    match target with
    | .user userId => d.sendToUserForTenant env m userId event tenantId
    | .users userIds => d.sendToUsersForTenant env m userIds event tenantId
    | .broadcast => d.broadcastForTenant env m event tenantId
    | .channel channel => d.sendToChannel env m channel event
    | .channels channels => d.sendToChannels env m channels event

/-! ### Who receives what -/

/-- The connections that a target names, with the tenant filter that applies to it. -/
def recipients (m : ConnectionManager) (tenantId : Option String) :
    NotificationTarget → List ConnectionHandle
  | .user userId => getUserConnectionsFiltered m userId tenantId
  | .users userIds => userIds.flatMap (fun userId => getUserConnectionsFiltered m userId tenantId)
  | .broadcast => getBroadcastConnections m tenantId
  | .channel channel => m.getChannelConnections channel
  | .channels channels => channels.flatMap m.getChannelConnections

/-- `d'` has put on outbound channels only what `d` had and `event` for connections of `conns`. -/
def Placed (d d' : Dispatcher) (conns : List ConnectionHandle) (event : NotificationEvent) : Prop :=
  ∀ p ∈ d'.outbox, p ∈ d.outbox ∨ (p.conn ∈ conns ∧ p.message.event = some event)

section placed
variable {d d₁ d₂ : Dispatcher} {env : Surroundings} {m : ConnectionManager}
  {conns conns' : List ConnectionHandle} {event : NotificationEvent} {tenantId : Option String}

theorem Placed.refl : Placed d d conns event := fun _ hp => .inl hp

theorem Placed.of_outbox_eq (h : d₁.outbox = d.outbox) : Placed d d₁ conns event := by
  intro p hp
  rw [h] at hp
  exact .inl hp

theorem Placed.trans (h₁ : Placed d d₁ conns event) (h₂ : Placed d₁ d₂ conns event) :
    Placed d d₂ conns event := by
  intro p hp
  rcases h₂ p hp with hp | hp
  · exact h₁ p hp
  · exact .inr hp

theorem Placed.mono (h : Placed d d₁ conns event) (hs : ∀ c ∈ conns, c ∈ conns') :
    Placed d d₁ conns' event := by
  intro p hp
  rcases h p hp with hp | ⟨hc, he⟩
  · exact .inl hp
  · exact .inr ⟨hs _ hc, he⟩

theorem placed_sendTo {message : OutboundMessage} {id : Option Uuid} {r : Dispatcher × ℕ × ℕ}
    {conn : ConnectionHandle} (hc : conn ∈ conns) (hm : message.event = some event) :
    Placed r.1 (sendTo env message id r conn).1 conns event := by
  unfold sendTo
  split_ifs
  · intro p hp
    rcases List.mem_append.mp hp with hp | hp
    · exact .inl hp
    · rw [List.mem_singleton] at hp
      subst hp
      exact .inr ⟨hc, hm⟩
  · exact .refl

theorem placed_foldl_sendTo {message : OutboundMessage} {id : Option Uuid} {r : Dispatcher × ℕ × ℕ}
    {todo : List ConnectionHandle} (hs : ∀ c ∈ todo, c ∈ conns) (hm : message.event = some event) :
    Placed r.1 (todo.foldl (sendTo env message id) r).1 conns event := by
  induction todo generalizing r with
  | nil => exact .refl
  | cons c todo ih =>
      have hhead : Placed r.1 (sendTo env message id r c).1 conns event :=
        placed_sendTo (hs c List.mem_cons_self) hm
      exact hhead.trans (ih (fun c' hc' => hs c' (List.mem_cons_of_mem c hc')))

theorem placed_sendToConnections {id : Option Uuid} :
    Placed d (d.sendToConnections env conns (.notification event) id).1 conns event := by
  unfold sendToConnections
  split_ifs
  · exact placed_foldl_sendTo (r := (d, 0, 0)) (fun _ hc => hc) rfl
  · exact placed_foldl_sendTo (r := (d, 0, 0))
      (fun _ hc => (env.completion_perm conns).mem_iff.mp hc) rfl

theorem placed_deliver {kind : Kind} : Placed d (d.deliver env kind conns event).2 conns event := by
  unfold deliver record
  exact placed_sendToConnections

theorem outbox_enqueueFor {userId : String} {n : ℕ} :
    (d.enqueueFor env tenantId userId event n).2.outbox = d.outbox := by
  unfold enqueueFor
  split
  · split_ifs
    · split <;> rfl
    · rfl
  · rfl

theorem outbox_enqueueAll {users : List String} {n : ℕ} :
    (d.enqueueAll env tenantId event users n).2.outbox = d.outbox := by
  unfold enqueueAll
  induction users generalizing d n with
  | nil => rfl
  | cons u users ih => exact ih.trans outbox_enqueueFor

theorem placed_sendToUserForTenant {userId : String} :
    Placed d (d.sendToUserForTenant env m userId event tenantId).2
      (getUserConnectionsFiltered m userId tenantId) event := by
  unfold sendToUserForTenant
  simp only
  split_ifs
  · exact .of_outbox_eq outbox_enqueueFor
  · exact (Placed.of_outbox_eq outbox_enqueueFor).trans placed_deliver
  · exact .refl
  · exact placed_deliver

theorem mem_collectUsers {batch : List String} {c : ConnectionHandle}
    (hc : c ∈ (collectUsers m tenantId batch).1) :
    ∃ userId ∈ batch, c ∈ getUserConnectionsFiltered m userId tenantId := by
  have hgen : ∀ (batch : List String) (acc : List ConnectionHandle × List String),
      c ∈ (batch.foldl (fun acc userId =>
        let connections := getUserConnectionsFiltered m userId tenantId
        if connections.isEmpty then (acc.1, acc.2 ++ [userId])
        else (acc.1 ++ connections, acc.2)) acc).1 →
      c ∈ acc.1 ∨ ∃ userId ∈ batch, c ∈ getUserConnectionsFiltered m userId tenantId := by
    intro batch
    induction batch with
    | nil => exact fun acc h => .inl h
    | cons u batch ih =>
        intro acc h
        rcases ih _ h with h | ⟨u', hu', hc'⟩
        · simp only at h
          split_ifs at h
          · exact .inl h
          · rcases List.mem_append.mp h with h | h
            · exact .inl h
            · exact .inr ⟨u, List.mem_cons_self, h⟩
        · exact .inr ⟨u', List.mem_cons_of_mem u hu', hc'⟩
  rcases hgen batch ([], []) hc with h | h
  · exact absurd h List.not_mem_nil
  · exact h

theorem placed_sendBatch {r : Totals × Dispatcher} {batch : List String} :
    Placed r.2 (sendBatch env m event tenantId r batch).2
      (recipients m tenantId (.users batch)) event := by
  unfold sendBatch
  have hq : Placed r.2 (r.2.enqueueAll env tenantId event (collectUsers m tenantId batch).2 r.1.queued).2
      (recipients m tenantId (.users batch)) event := .of_outbox_eq outbox_enqueueAll
  refine hq.trans (placed_sendToConnections.mono ?_)
  intro c hc
  obtain ⟨u, hu, hcu⟩ := mem_collectUsers hc
  exact List.mem_flatMap.mpr ⟨u, hu, hcu⟩

theorem placed_sendToUsersForTenant {userIds : List String} :
    Placed d (d.sendToUsersForTenant env m userIds event tenantId).2
      (recipients m tenantId (.users userIds)) event := by
  have hgen : ∀ (parts : List (List String)) (r : Totals × Dispatcher),
      (∀ part ∈ parts, ∀ u ∈ part, u ∈ userIds) →
      Placed r.2 (parts.foldl (sendBatch env m event tenantId) r).2
        (recipients m tenantId (.users userIds)) event := by
    intro parts
    induction parts with
    | nil => exact fun r _ => .refl
    | cons part parts ih =>
        intro r hsub
        refine Placed.trans (placed_sendBatch.mono ?_)
          (ih _ (fun p hp => hsub p (List.mem_cons_of_mem part hp)))
        intro c hc
        obtain ⟨u, hu, hcu⟩ := List.mem_flatMap.mp hc
        exact List.mem_flatMap.mpr ⟨u, hsub part List.mem_cons_self u hu, hcu⟩
  exact hgen (chunks userBatchSize userIds) (⟨0, 0, 0⟩, d) (fun _ hp _ hu => mem_of_mem_chunks hp hu)

theorem mem_addUnseen {all : List ConnectionHandle} {c : ConnectionHandle}
    (hc : c ∈ addUnseen all conns) : c ∈ all ∨ c ∈ conns := by
  unfold addUnseen at hc
  induction conns generalizing all with
  | nil => exact .inl hc
  | cons e conns ih =>
      rcases ih hc with h | h
      · dsimp only at h
        split_ifs at h
        · exact .inl h
        · rcases List.mem_append.mp h with h | h
          · exact .inl h
          · exact .inr (List.mem_singleton.mp h ▸ List.mem_cons_self)
      · exact .inr (List.mem_cons_of_mem e h)

theorem mem_collectChannels {channels : List String} {c : ConnectionHandle}
    (hc : c ∈ collectChannels m channels) : c ∈ recipients m tenantId (.channels channels) := by
  have hgen : ∀ (channels : List String) (all : List ConnectionHandle),
      c ∈ channels.foldl (fun all channel => addUnseen all (m.getChannelConnections channel)) all →
      c ∈ all ∨ c ∈ channels.flatMap m.getChannelConnections := by
    intro channels
    induction channels with
    | nil => exact fun all h => .inl h
    | cons ch channels ih =>
        intro all h
        rw [List.flatMap_cons, List.mem_append]
        rcases ih _ h with h | h
        · rcases mem_addUnseen h with h | h
          · exact .inl h
          · exact .inr (.inl h)
        · exact .inr (.inr h)
  rcases hgen channels [] hc with h | h
  · exact absurd h List.not_mem_nil
  · exact h

/-- A dispatch puts its event only on the connections that its target names. -/
theorem dispatchForTenant_placed {target : NotificationTarget} :
    Placed d (d.dispatchForTenant env m target event tenantId).2 (recipients m tenantId target) event := by
  unfold dispatchForTenant
  split_ifs
  · exact .refl
  · cases target with
    | user userId => exact placed_sendToUserForTenant
    | users userIds => exact placed_sendToUsersForTenant
    | broadcast => exact placed_deliver
    | channel channel => exact placed_deliver
    | channels channels => exact placed_deliver.mono (fun _ hc => mem_collectChannels hc)

end placed

end Dispatcher

end AraNotification
