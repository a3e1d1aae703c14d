import AraNotification.Dispatcher
import AraNotification.Lib.Interleaving
import AraNotification.Settings
import AraNotification.WebSocket

/-! # The running service

Dispatches, connection handlers and the heartbeat task run concurrently over the connection
manager, the queue, the acknowledgement tracker and the outbound channels.  `system` gives
each of them as a program of atomic steps:

* a dispatch (`dispatch_for_tenant`, or `send_to_channel(s)` called directly by the channel
  endpoints) reads the clock, looks up connections, queues for offline users, and sends to
  the connections it has found, one at a time or concurrently when there are four or more;
* a connection handler (`handle_socket`, `sse_handler`) registers, drains the queue of its
  identity, replays what it has drained and then serves: the WebSocket's send and receive
  tasks run side by side until one of them ends, the SSE stream until it is dropped;
* the heartbeat task sends heartbeats and removes stale connections, at any time.

Calls on the manager, the queue and the tracker are atomic here; `ConnectionRace.lean` looks
inside those of the manager.  An outbound channel holds at most `channelBufferSize`
messages.  A send through the handle of a connection gives up when the channel stays full or
its receiver is gone; the replay sends without a timeout and waits for room.

Every step performs one `Action` on the shared state, and the state keeps the actions
performed so far.  What the environment decides is in the `Input` of a step.  The cluster
session store, the rate limiter and the shutdown sequence are not part of this machine, and
a handler runs until it has unregistered its connection. -/

namespace AraNotification

open Interleaving

/-- `CHANNEL_BUFFER_SIZE`: the capacity of an outbound channel. -/
def channelBufferSize : ℕ := 32

/-- Maximum concurrent heartbeat sends. -/
def maxConcurrentHeartbeats : ℕ := 1000

/-! ### The shared state -/

/-- An outbound channel: what it holds, and whether its receiver still exists. -/
structure Channel where
  buffer : List OutboundMessage
  receiver : Bool

/-- The two kinds of connections. -/
inductive Transport where
  | webSocket
  | sse
deriving DecidableEq, Repr

/-- Who put a message on a channel; a replayed message is named by its identifier. -/
inductive Origin where
  | direct
  | replay (messageId : Uuid)
  | reply
  | heartbeat
deriving DecidableEq, Repr

/-- What a step does to the shared state. -/
inductive Action where
  | silent
  | began (event : NotificationEvent)
  | returned (result : DeliveryResult)
  | register (transport : Transport) (h : ConnectionHandle)
  | unregister (id : Uuid)
  | updateActivity (id : Uuid) (now : DateTime)
  | subscribe (id : Uuid) (key : String)
  | unsubscribe (id : Uuid) (key : String)
  | enqueue (identity : Identity) (message : StoredMessage)
  | drain (key : String) (now : DateTime)
  | place (id : Uuid) (message : OutboundMessage) (now : DateTime) (origin : Origin)
  | deliver (id : Uuid)
  | sendEnded (id : Uuid)
  | recvEnded (id : Uuid)
  | track (notificationId : Uuid) (userId : String) (id : Uuid) (now : DateTime)
  | acknowledge (notificationId : Uuid) (userId : String) (now : DateTime)

/-- The shared state, with the actions performed so far. -/
structure Service where
  manager : ConnectionManager
  queue : MemoryQueueBackend
  ack : MemoryAckBackend
  channels : DashMap Uuid Channel
  history : List Action

namespace Service
variable (s : Service)

/-- Keep an action. -/
def log (a : Action) : Service := { s with history := s.history ++ [a] }

/-- The state after an action. -/
def apply : Action → Service
  | a@(.register _ h) =>
      { s.log a with
        manager := s.manager.insertHandle h
        channels := s.channels.insert h.id ⟨[], true⟩ }
  | a@(.unregister id) => { s.log a with manager := s.manager.unregister id }
  | a@(.updateActivity id now) => { s.log a with manager := s.manager.updateActivity id now }
  | a@(.subscribe id key) => { s.log a with manager := (s.manager.subscribeToChannel id key).2 }
  | a@(.unsubscribe id key) => { s.log a with manager := s.manager.unsubscribeFromChannel id key }
  | a@(.enqueue identity message) =>
      { s.log a with queue := (s.queue.enqueue identity.key message).2 }
  | a@(.drain key now) => { s.log a with queue := (s.queue.drain key now).2 }
  | a@(.place id message _ _) =>
      { s.log a with channels := s.channels.modify id (fun ch => { ch with buffer := ch.buffer ++ [message] }) }
  | a@(.deliver id) =>
      { s.log a with channels := s.channels.modify id (fun ch => { ch with buffer := ch.buffer.tail }) }
  | a@(.sendEnded id) =>
      { s.log a with channels := s.channels.modify id (fun ch => { ch with receiver := false }) }
  | a@(.track notificationId userId id now) => { s.log a with ack := s.ack.track notificationId userId id now }
  | a@(.acknowledge notificationId userId now) =>
      { s.log a with ack := (s.ack.acknowledge notificationId userId now).2 }
  | a => s.log a

/-- The messages that a channel holds. -/
def buffer (id : Uuid) : List OutboundMessage := ((s.channels.lookup id).map (·.buffer)).getD []

/-- The receiver of a channel exists. -/
def isOpen (id : Uuid) : Bool := (s.channels.lookup id).any (·.receiver)

/-- A message can be put on the channel now. -/
def hasRoom (id : Uuid) : Bool := s.isOpen id && decide ((s.buffer id).length < channelBufferSize)

end Service

/-! ### Programs -/

/-- A call of the dispatcher; `checked` when it goes through `dispatch_for_tenant`. -/
structure DispatchCall where
  event : NotificationEvent
  target : NotificationTarget
  tenantId : Option String
  checked : Bool

/-- A running dispatch: its event and tenant, when it began, and its counts. -/
structure Dispatch where
  event : NotificationEvent
  tenantId : Option String
  start : DateTime
  delivered : ℕ
  failed : ℕ

/-- The calls. -/
inductive ServiceCall where
  | dispatch (call : DispatchCall)
  | connect (transport : Transport) (claims : Claims)
  | heartbeat
  | cleanup

/-- Where the receive task of a WebSocket stands. -/
inductive Receiving where
  | idle
  | subscribing (todo : List String) (progress : SubscribeProgress)
  | unsubscribing (todo all : List String)
  | acking (notificationId : Uuid)
  | replying (todo : List ServerMessage)

/-- A WebSocket being served: which of its tasks still run, and whether the handler still has to
unregister it. -/
structure Socket where
  handle : ConnectionHandle
  sendTask : Bool
  recvTask : Option Receiving
  registered : Bool

/-- Program counters, named after what comes next. -/
inductive Pc where
  | begin (call : DispatchCall)
  | userLookup (d : Dispatch) (userId : String)
  | userEnqueue (d : Dispatch) (userId : String)
  | usersLookup (d : Dispatch) (batch : List String) (found : List ConnectionHandle)
      (offline rest : List String)
  | usersEnqueue (d : Dispatch) (offline : List String) (found : List ConnectionHandle)
      (rest : List String)
  | broadcastLookup (d : Dispatch)
  | channelLookup (d : Dispatch) (channel : String)
  | channelsLookup (d : Dispatch) (channels : List String) (found : List ConnectionHandle)
  | send (d : Dispatch) (concurrent : Bool) (todo : List ConnectionHandle) (rest : List String)
  | track (d : Dispatch) (concurrent : Bool) (conn : ConnectionHandle)
      (todo : List ConnectionHandle) (rest : List String)
  | ret (d : Dispatch)
  | connect (transport : Transport) (claims : Claims)
  | drain (transport : Transport) (h : ConnectionHandle)
  | replay (transport : Transport) (h : ConnectionHandle) (start : DateTime)
      (backlog : List StoredMessage)
  | socket (sock : Socket)
  | stream (h : ConnectionHandle)
  | closeStream (h : ConnectionHandle)
  | heartbeat
  | heartbeatSend (batch rest : List ConnectionHandle)
  | cleanup
  | cleanupRemove (stale : List Uuid)

/-- Which task of a WebSocket takes a step. -/
inductive SocketTask where
  | main
  | send
  | recv
deriving DecidableEq, Repr

/-- What the environment decides in a step: the clock, a new identifier, which of several
pending operations completes, whether a send or a socket write succeeds, which task of a
socket runs, and the next frame (none when the stream has ended). -/
structure Input where
  now : DateTime
  fresh : Uuid
  pick : ℕ
  ok : Bool
  task : SocketTask
  frame : Option Frame

/-- The first program counter of a call. -/
def start : ServiceCall → Pc
  | .dispatch call => .begin call
  | .connect transport claims => .connect transport claims
  | .heartbeat => .heartbeat
  | .cleanup => .cleanup

/-- Go on with the next batch of users, or return. -/
def nextBatch (d : Dispatch) (rest : List String) : Pc :=
  if rest.isEmpty then .ret d
  else .usersLookup d (rest.take userBatchSize) [] [] (rest.drop userBatchSize)

/-- Send to the connections found. -/
def startSend (d : Dispatch) (found : List ConnectionHandle) (rest : List String) : Pc :=
  if found.isEmpty then nextBatch d rest
  else .send d (decide (found.length ≥ preserializationThreshold)) found rest

/-- The first lookup of a dispatch. -/
def firstLookup (d : Dispatch) : NotificationTarget → Pc
  | .user userId => .userLookup d userId
  | .users userIds => nextBatch d userIds
  | .broadcast => .broadcastLookup d
  | .channel channel => .channelLookup d channel
  | .channels channels => .channelsLookup d channels []

/-- The form in which a message is sent. -/
def outbound (concurrent : Bool) (message : ServerMessage) : OutboundMessage :=
  if concurrent then .preserialized message else .raw message

/-- Start serving a connection. -/
def serve : Transport → ConnectionHandle → Pc
  | .webSocket, h => .socket ⟨h, true, some .idle, true⟩
  | .sse, h => .stream h

/-- The identity for which a dispatch queues. -/
def queueIdentity (d : Dispatch) (userId : String) : Identity :=
  ⟨d.tenantId.getD defaultTenantId, userId⟩

section steps
variable (U : UnicodeTables) (settings : Settings) (inp : Input) (s : Service)

/-- One completed send of a dispatch: taken by the channel, or given up because the channel is
full or has no receiver. -/
def sendStep (d : Dispatch) (concurrent : Bool) (todo : List ConnectionHandle) (rest : List String) :
    Option (Action × Option Pc) :=
  let i := if concurrent then inp.pick else 0
  if maxConcurrentSends ≤ i then none
  else
    match todo[i]? with
    | none => none
    | some conn =>
        if inp.ok then
          if s.hasRoom conn.id then
            some (.place conn.id (outbound concurrent (.notification d.event)) inp.now .direct,
              some (.track { d with delivered := d.delivered + 1 } concurrent conn (todo.eraseIdx i) rest))
          else none
        else if s.hasRoom conn.id then none
        else some (.silent, some (.send { d with failed := d.failed + 1 } concurrent (todo.eraseIdx i) rest))

/-- `process_message`: the action of a frame and what the receive task does next. -/
def receiveFrame (h : ConnectionHandle) : Option Frame → Action × Option Receiving
  | none | some .close => (.recvEnded h.id, none)
  | some .ping | some .pong => (.updateActivity h.id inp.now, some .idle)
  | some .binary =>
      (.silent, some (.replying [.error "UNSUPPORTED_FORMAT" "Binary messages are not supported"]))
  | some (.text (.error e)) =>
      (.updateActivity h.id inp.now, some (.replying [.error "INVALID_MESSAGE" e]))
  | some (.text (.ok (.subscribe channels))) =>
      (.updateActivity h.id inp.now, some (.subscribing channels ⟨[], []⟩))
  | some (.text (.ok (.unsubscribe channels))) =>
      (.updateActivity h.id inp.now, some (.unsubscribing channels channels))
  | some (.text (.ok .ping)) => (.updateActivity h.id inp.now, some (.replying [.pong]))
  | some (.text (.ok (.ack notificationId))) => (.updateActivity h.id inp.now, some (.acking notificationId))

/-- One step of the receive task. -/
def receiveStep (h : ConnectionHandle) : Receiving → Option (Action × Option Receiving)
  | .idle => some (receiveFrame inp h inp.frame)
  | .subscribing [] progress => some (.silent, some (.replying progress.replies))
  | .subscribing (channel :: todo) progress =>
      some (if isValidChannelName U channel then .subscribe h.id (channelKey settings.tenant h channel) else .silent,
        some (.subscribing todo (subscribeOne U settings.tenant h s.manager progress channel).2))
  | .unsubscribing [] all => some (.silent, some (.replying (unsubscribeReplies all)))
  | .unsubscribing (channel :: todo) all =>
      some (.unsubscribe h.id (channelKey settings.tenant h channel), some (.unsubscribing todo all))
  | .acking notificationId =>
      some (if s.ack.config.enabled then .acknowledge notificationId h.userId inp.now else .silent,
        some (.replying (handleAck h s.ack notificationId inp.now).2))
  | .replying [] => some (.silent, some .idle)
  | .replying (message :: todo) =>
      if inp.ok then
        if s.hasRoom h.id then some (.place h.id (.raw message) inp.now .reply, some (.replying todo)) else none
      else if s.hasRoom h.id then none else some (.silent, some (.replying todo))

/-- One step of a served WebSocket.  The handler unregisters the connection after one of the two
tasks has ended; the other one goes on by itself. -/
def socketStep (sock : Socket) : Option (Action × Option Pc) :=
  match inp.task with
  | .send =>
      if sock.sendTask then
        if inp.ok then
          if (s.buffer sock.handle.id).isEmpty then none
          else some (.deliver sock.handle.id, some (.socket sock))
        else if (s.buffer sock.handle.id).isEmpty && sock.registered then none
        else some (.sendEnded sock.handle.id, some (.socket { sock with sendTask := false }))
      else none
  | .recv =>
      match sock.recvTask with
      | none => none
      | some r =>
          (receiveStep U settings inp s sock.handle r).map (fun out =>
            (out.1, some (.socket { sock with recvTask := out.2 })))
  | .main =>
      if sock.registered then
        if sock.sendTask && sock.recvTask.isSome then none
        else some (.unregister sock.handle.id, some (.socket { sock with registered := false }))
      else some (.silent, none)

/-- One step of a program: its action and its next program counter. -/
def step : Pc → Option (Action × Option Pc)
  | .begin call =>
      let d : Dispatch := ⟨call.event, call.tenantId, inp.now, 0, 0⟩
      if call.checked && call.event.isExpired inp.now then some (.began call.event, some (.ret d))
      else some (.began call.event, some (firstLookup d call.target))
  | .userLookup d userId =>
      let connections := getUserConnectionsFiltered s.manager userId d.tenantId
      if connections.isEmpty && s.queue.isEnabled then some (.silent, some (.userEnqueue d userId))
      else some (.silent, some (startSend d connections []))
  | .userEnqueue d userId =>
      some (.enqueue (queueIdentity d userId) (.new inp.fresh inp.now d.event), some (.ret d))
  | .usersLookup d [] found offline rest =>
      if !offline.isEmpty && s.queue.isEnabled then some (.silent, some (.usersEnqueue d offline found rest))
      else some (.silent, some (startSend d found rest))
  | .usersLookup d (userId :: batch) found offline rest =>
      let connections := getUserConnectionsFiltered s.manager userId d.tenantId
      if connections.isEmpty then some (.silent, some (.usersLookup d batch found (offline ++ [userId]) rest))
      else some (.silent, some (.usersLookup d batch (found ++ connections) offline rest))
  | .usersEnqueue d [] found rest => some (.silent, some (startSend d found rest))
  | .usersEnqueue d (userId :: offline) found rest =>
      some (.enqueue (queueIdentity d userId) (.new inp.fresh inp.now d.event),
        some (.usersEnqueue d offline found rest))
  | .broadcastLookup d => some (.silent, some (startSend d (getBroadcastConnections s.manager d.tenantId) []))
  | .channelLookup d channel => some (.silent, some (startSend d (s.manager.getChannelConnections channel) []))
  | .channelsLookup d [] found => some (.silent, some (startSend d found []))
  | .channelsLookup d (channel :: channels) found =>
      some (.silent,
        some (.channelsLookup d channels (addUnseen found (s.manager.getChannelConnections channel))))
  | .send d _ [] rest => some (.silent, some (nextBatch d rest))
  | .send d concurrent (conn :: todo) rest => sendStep inp s d concurrent (conn :: todo) rest
  | .track d concurrent conn todo rest =>
      some (.track d.event.id conn.userId conn.id inp.now, some (.send d concurrent todo rest))
  | .ret d => some (.returned (.new d.event.id d.delivered d.failed), none)
  | .connect transport claims =>
      match (s.manager.register inp.fresh claims.sub claims.getTenantId claims.roles inp.now).1 with
      | .error _ => some (.silent, none)
      | .ok h =>
          some (.register transport h, some (if s.queue.isEnabled then .drain transport h else serve transport h))
  | .drain transport h =>
      some (.drain h.identity.key inp.now,
        some (.replay transport h inp.now (s.queue.drain h.identity.key inp.now).1.messages))
  | .replay transport h _ [] => some (.silent, some (serve transport h))
  | .replay transport h start (m :: backlog) =>
      if s.isOpen h.id then
        if s.hasRoom h.id then
          some (.place h.id (.raw (.notification m.event)) inp.now (.replay m.id),
            some (.replay transport h start backlog))
        else none
      else some (.silent, some (.replay transport h start backlog))
  | .socket sock => socketStep U settings inp s sock
  | .stream h =>
      if inp.ok then
        if (s.buffer h.id).isEmpty then none else some (.deliver h.id, some (.stream h))
      else some (.sendEnded h.id, some (.closeStream h))
  | .closeStream h => some (.unregister h.id, none)
  | .heartbeat =>
      some (.silent, some (.heartbeatSend (s.manager.getAllConnections.take maxConcurrentHeartbeats)
        (s.manager.getAllConnections.drop maxConcurrentHeartbeats)))
  | .heartbeatSend [] rest =>
      if rest.isEmpty then some (.silent, none)
      else some (.silent, some (.heartbeatSend (rest.take maxConcurrentHeartbeats) (rest.drop maxConcurrentHeartbeats)))
  | .heartbeatSend (conn :: batch) rest =>
      match (conn :: batch)[inp.pick]? with
      | none => none
      | some c =>
          if inp.ok then
            if s.hasRoom c.id then
              some (.place c.id (.preserialized .heartbeat) inp.now .heartbeat,
                some (.heartbeatSend ((conn :: batch).eraseIdx inp.pick) rest))
            else none
          else if s.hasRoom c.id then none
          else some (.silent, some (.heartbeatSend ((conn :: batch).eraseIdx inp.pick) rest))
  | .cleanup =>
      match s.manager.findStaleConnections inp.now settings.websocket.connectionTimeout with
      | none => some (.silent, none)
      | some stale => some (.silent, some (.cleanupRemove stale))
  | .cleanupRemove [] => some (.silent, none)
  | .cleanupRemove (id :: stale) =>
      match (id :: stale)[inp.pick]? with
      | none => none
      | some c => some (.unregister c, some (.cleanupRemove ((id :: stale).eraseIdx inp.pick)))

end steps

/-- The service as a system of concurrent programs. -/
def system (U : UnicodeTables) (settings : Settings) : System Service ServiceCall Input Pc where
  start := start
  step inp s p := (step U settings inp s p).map (fun r => (s.apply r.1, r.2))

/-- No connection, nothing queued. -/
def initial (settings : Settings) : Config Service Pc where
  shared :=
    { manager := .withLimits settings.connectionLimits
      queue := .new settings.queueConfig
      ack := .new settings.ackConfig
      channels := ∅
      history := [] }
  threads := []

/-! ### Identifiers in the history -/

namespace Action

/-- The event with which a dispatch begins. -/
def beganId : Action → Option Uuid
  | .began e => some e.id
  | _ => none

/-- The event whose dispatch returns. -/
def returnedId : Action → Option Uuid
  | .returned r => some r.notificationId
  | _ => none

/-- The connection that is registered. -/
def registeredId : Action → Option Uuid
  | .register _ h => some h.id
  | _ => none

/-- The message that is stored. -/
def enqueuedId : Action → Option Uuid
  | .enqueue _ m => some m.id
  | _ => none

end Action

namespace Service
variable (s : Service)

/-- The events whose dispatch has begun. -/
def beganIds : List Uuid := s.history.filterMap Action.beganId

/-- The events whose dispatch has returned. -/
def returnedIds : List Uuid := s.history.filterMap Action.returnedId

/-- The connections registered at some time. -/
def registeredIds : List Uuid := s.history.filterMap Action.registeredId

/-- The messages stored at some time. -/
def enqueuedIds : List Uuid := s.history.filterMap Action.enqueuedId

end Service

/-- The event of a dispatch that has been called and has not begun. -/
def Pc.waitingId : Pc → Option Uuid
  | .begin call => some call.event.id
  | _ => none

/-- The program counter registers a connection. -/
def Pc.registers : Pc → Bool
  | .connect _ _ => true
  | _ => false

/-- The program counter stores a message. -/
def Pc.enqueues : Pc → Bool
  | .userEnqueue _ _ => true
  | .usersEnqueue _ (_ :: _) _ _ => true
  | _ => false

/-- New identifiers are new: each event is dispatched once, and the identifiers drawn for
connections and stored messages have not been drawn before. -/
def Legal (c : Config Service Pc) : Event ServiceCall Input → Prop
  | .call (.dispatch call) =>
      call.event.id ∉ c.shared.beganIds ∧ call.event.id ∉ c.threads.filterMap Pc.waitingId
  | .call _ => True
  | .run i inp => ∀ p ∈ c.threads[i]?,
      (p.registers = true → inp.fresh ∉ c.shared.registeredIds) ∧
        (p.enqueues = true → inp.fresh ∉ c.shared.enqueuedIds)

instance (c : Config Service Pc) (e : Event ServiceCall Input) : Decidable (Legal c e) :=
  match e with
  | .call (.dispatch call) => inferInstanceAs (Decidable (call.event.id ∉ c.shared.beganIds ∧
      call.event.id ∉ c.threads.filterMap Pc.waitingId))
  | .call (.connect _ _) => isTrue trivial
  | .call .heartbeat => isTrue trivial
  | .call .cleanup => isTrue trivial
  | .run i inp => inferInstanceAs (Decidable (∀ p ∈ c.threads[i]?,
      (p.registers = true → inp.fresh ∉ c.shared.registeredIds) ∧
        (p.enqueues = true → inp.fresh ∉ c.shared.enqueuedIds)))

end AraNotification
