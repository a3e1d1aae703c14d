import AraNotification.DispatchRecipients
import AraNotification.PersistentQueue
import AraNotification.Lib.Worklist

/-! # Routing between the servers of a cluster

`ClusterRouter::route_to_user` sends a message to the local connections of an identity and
publishes it on the channel of every other server that has a connection of the user;
`RoutedMessageSubscriber` receives it there and sends it to the connections of that server.

The messages between the servers are pieces of work in any order (`Lib/Worklist.lean`): a call or a
handler that is running, with the actions that it has still to do, and a published message that has
not arrived at one of the subscribers of its channel.  `serde_json` is a parameter.

`route_delivers_once`: every connection of the identity that is open and has room gets the message
once, on every server and in every order; and at most once where messages are lost. -/

namespace AraNotification

/-- Errors of the session store, without their texts. -/
inductive SessionStoreError where
  | redisError
  | serializationError
  | disabled
deriving DecidableEq, Repr

/-- Message to be routed to another server instance. -/
structure RoutedMessage where
  userId : String
  tenantId : String
  connectionId : Option Uuid
  payload : String
  fromServer : String
  toServer : Option String
deriving DecidableEq, Repr

/-- `serde_json` on what the servers exchange. -/
structure RoutingSerde where
  message : Serde ServerMessage String
  routed : Serde RoutedMessage String

/-- What a server does with a connection or in Redis. -/
inductive RouteAction where
  | send (conn : ConnectionHandle) (message : OutboundMessage)
  | publish (channel payload : String)

/-- Result of routing a message. -/
structure RouteResult where
  localDelivered : ℕ
  routedToServers : ℕ
deriving DecidableEq, Repr

/-- A server: its configuration, its connections, which of them are open, and which have room in
their channel before the send times out. -/
structure ClusterServer where
  enabled : Bool
  serverId : String
  routingChannel : String
  manager : ConnectionManager
  isOpen : Uuid → Bool
  hasRoom : Uuid → Bool

namespace ClusterServer

variable (serde : RoutingSerde) (server : ClusterServer)

/-! ### The router -/

/-- `send_preserialized`: it fails when the receiver is gone and when it times out. -/
def sendPreserialized (conn : ConnectionHandle) : Bool := server.isOpen conn.id && server.hasRoom conn.id

/-- Send a message to the connections of an identity; how many have taken it, and the actions. -/
def sendLocally (userId tenantId : String) (message : ServerMessage) : ℕ × List RouteAction :=
  let connections := getUserConnectionsFiltered server.manager userId (some tenantId)
  (connections.countP server.sendPreserialized, connections.map (fun conn => .send conn (.raw message)))

/-- `publish_routed_message`. -/
def publishRoutedMessage (message : RoutedMessage) : Except SessionStoreError RouteAction :=
  match serde.routed.write message with
  | none => .error .serializationError
  | some json =>
      match message.toServer with
      | some target => .ok (.publish (server.routingChannel ++ ":" ++ target) json)
      | none => .ok (.publish server.routingChannel json)

/-- The message for one of the other servers. -/
def routedMessage (userId tenantId payload target : String) : RoutedMessage :=
  ⟨userId, tenantId, none, payload, server.serverId, some target⟩

/-- `route_to_user` with the answer of `find_user_servers`. -/
def routeToUser (userServers : Except SessionStoreError (List String)) (userId tenantId : String)
    (message : ServerMessage) : Except SessionStoreError RouteResult × List RouteAction :=
  let (localDelivered, sends) := server.sendLocally userId tenantId message
  if server.enabled then
    match userServers with
    | .error _ => (.ok ⟨localDelivered, 0⟩, sends)
    | .ok servers =>
        let otherServers := servers.filter (fun s => s ≠ server.serverId)
        if otherServers.isEmpty then (.ok ⟨localDelivered, 0⟩, sends)
        else
          match serde.message.write message with
          | none => (.error .serializationError, sends)
          | some payload =>
              let publishes := otherServers.flatMap (fun target =>
                (server.publishRoutedMessage serde
                  (server.routedMessage userId tenantId payload target)).toOption.toList)
              (.ok ⟨localDelivered, otherServers.length⟩, sends ++ publishes)
  else (.ok ⟨localDelivered, 0⟩, sends)

/-- `ClusterRouter::handle_routed_message`. -/
def handleRoutedMessage (message : RoutedMessage) : ℕ × List RouteAction :=
  if message.toServer.any (fun target => target ≠ server.serverId) then (0, [])
  else
    match serde.message.read message.payload with
    | none => (0, [])
    | some serverMessage => server.sendLocally message.userId message.tenantId serverMessage

/-! ### The subscriber -/

/-- The channels of `run_subscription_loop`. -/
def subscriptions : List String :=
  if server.enabled then [server.routingChannel ++ ":" ++ server.serverId, server.routingChannel] else []

/-- `RoutedMessageSubscriber::handle_routed_message`. -/
def receive (payload : String) : List RouteAction :=
  match serde.routed.read payload with
  | none => []
  | some message =>
      if message.fromServer = server.serverId then []
      else if message.toServer.any (fun target => target ≠ server.serverId) then []
      else (server.handleRoutedMessage serde message).2

/-- The connection is one of the identity, open, and has room. -/
def receives (userId tenantId : String) (connectionId : Uuid) : Bool :=
  (server.manager.connections.lookup connectionId).any (fun h =>
    decide (h.userId = userId ∧ h.tenantId = tenantId) && server.sendPreserialized h)

/-- The connection is one of the identity and open. -/
def openFor (userId tenantId : String) (connectionId : Uuid) : Bool :=
  (server.manager.connections.lookup connectionId).any (fun h =>
    decide (h.userId = userId ∧ h.tenantId = tenantId) && server.isOpen h.id)

/-- A connection of the user is registered. -/
def HasUser (userId : String) : Prop :=
  ∃ id h, server.manager.connections.lookup id = some h ∧ h.userId = userId

end ClusterServer

/-! ### The cluster -/

/-- The servers of a cluster by their identifiers: each runs the subscriber on the same routing
channel, and its connections are those of some run of calls. -/
structure Cluster where
  ids : Finset String
  server : String → ClusterServer
  routingChannel : String
  named : ∀ id ∈ ids, (server id).serverId = id
  enabled : ∀ id ∈ ids, (server id).enabled = true
  routed : ∀ id ∈ ids, (server id).routingChannel = routingChannel
  reachable : ∀ id ∈ ids, ∃ limits, ConnectionManager.Reachable limits (server id).manager

/-- A call or handler with the actions that it has still to do, and a message that has not arrived
yet. -/
inductive Cluster.Work where
  | running (serverId : String) (actions : List RouteAction)
  | arriving (serverId payload : String)

/-- What is seen: a copy on a connection's channel, and a published message. -/
inductive Cluster.Output where
  | copy (serverId : String) (connectionId : Uuid) (message : OutboundMessage)
  | published (channel payload : String)

/-- A message may be lost on its way. -/
def Cluster.Work.IsMessage : Cluster.Work → Prop
  | running _ _ => False
  | arriving _ _ => True

namespace Cluster

variable (C : Cluster) (serde : RoutingSerde)

/-- The servers that have subscribed to a channel. -/
def subscribers (channel : String) : Finset String :=
  C.ids.filter (fun id => channel ∈ (C.server id).subscriptions)

/-- The next action of a call, or the beginning of a handler. -/
def process : Work → Multiset Output × Multiset Work
  | .running _ [] => (0, 0)
  | .running id (.send conn message :: actions) =>
      (if (C.server id).sendPreserialized conn then {.copy id conn.id message} else 0, {.running id actions})
  | .running id (.publish channel payload :: actions) =>
      ({.published channel payload},
        .running id actions ::ₘ (C.subscribers channel).val.map (fun id => .arriving id payload))
  | .arriving id payload => (0, {.running id ((C.server id).receive serde payload)})

def system : Worklist.System Work Output := ⟨C.process serde⟩

/-- One call of `route_to_user` on a server. -/
def call (origin : String) (userServers : Except SessionStoreError (List String)) (userId tenantId : String)
    (message : ServerMessage) : Worklist.Config Work Output :=
  ⟨{.running origin ((C.server origin).routeToUser serde userServers userId tenantId message).2}, 0⟩

/-- `find_user_servers` returns the servers that hold a connection of the user. -/
def Accurate (userServers : Except SessionStoreError (List String)) (userId : String) : Prop :=
  ∃ servers, userServers = .ok servers ∧ servers.Nodup ∧
    ∀ id, id ∈ servers ↔ id ∈ C.ids ∧ (C.server id).HasUser userId

end Cluster

/-- The message and what a server writes for the others are read back. -/
structure RoutingSerde.Carries (serde : RoutingSerde) (server : ClusterServer) (targets : Finset String)
    (userId tenantId : String) (message : ServerMessage) : Prop where
  reads : serde.message.Reads message
  routed : ∀ payload, serde.message.write message = some payload → ∀ target ∈ targets,
    serde.routed.Reads (server.routedMessage userId tenantId payload target)

namespace Cluster.Output

/-- The copies on one connection. -/
def copiesOn (serverId : String) (connectionId : Uuid) : Multiset Output →+ Multiset OutboundMessage where
  toFun outputs := outputs.filterMap (fun
    | .copy s id message => if s = serverId ∧ id = connectionId then some message else none
    | .published _ _ => none)
  map_zero' := Multiset.filterMap_zero _
  map_add' := Multiset.filterMap_add _

/-- The published messages. -/
def publishedIn : Multiset Output →+ Multiset (String × String) where
  toFun outputs := outputs.filterMap (fun
    | .copy _ _ _ => none
    | .published channel payload => some (channel, payload))
  map_zero' := Multiset.filterMap_zero _
  map_add' := Multiset.filterMap_add _

section projections
variable {s s' channel payload : String} {id id' : Uuid} {message : OutboundMessage}
  {outputs outputs' : Multiset Output}

theorem copiesOn_copy : copiesOn s id {.copy s' id' message} = if s' = s ∧ id' = id then {message} else 0 := by
  show Multiset.filterMap _ ((Output.copy s' id' message) ::ₘ 0) = _
  rw [Multiset.filterMap_cons]
  split_ifs with h <;> simp [h]

theorem copiesOn_published : copiesOn s id {.published channel payload} = 0 := rfl

theorem copiesOn_mono (h : outputs ≤ outputs') : copiesOn s id outputs ≤ copiesOn s id outputs' :=
  Multiset.filterMap_le_filterMap _ h

theorem publishedIn_mono (h : outputs ≤ outputs') : publishedIn outputs ≤ publishedIn outputs' :=
  Multiset.filterMap_le_filterMap _ h

end projections

end Cluster.Output

/-- The messages that a list of actions publishes. -/
def RouteAction.publishes (actions : List RouteAction) : Multiset (String × String) :=
  actions.filterMap (fun
    | .send _ _ => none
    | .publish channel payload => some (channel, payload))

/-! ### What work leads to -/

section values
open Cluster

/-- What an action shows at once. -/
def ClusterServer.output (server : ClusterServer) (id : String) : RouteAction → Multiset Output
  | .send conn message => if server.sendPreserialized conn then {.copy id conn.id message} else 0
  | .publish channel payload => {.published channel payload}

theorem ClusterServer.output_send (server : ClusterServer) (id : String) (conn : ConnectionHandle)
    (message : OutboundMessage) : server.output id (.send conn message) =
      if server.sendPreserialized conn then {.copy id conn.id message} else 0 := rfl

theorem ClusterServer.publishedIn_output_send (server : ClusterServer) (id : String) (conn : ConnectionHandle)
    (message : OutboundMessage) : Output.publishedIn (server.output id (.send conn message)) = 0 := by
  rw [output_send]
  split_ifs <;> rfl

theorem ClusterServer.copiesOn_output_send (server : ClusterServer) (id sid : String) (cid : Uuid)
    (conn : ConnectionHandle) (message : OutboundMessage) :
    Output.copiesOn sid cid (server.output id (.send conn message)) =
      if id = sid ∧ conn.id = cid ∧ server.sendPreserialized conn = true then {message} else 0 := by
  rw [output_send]
  split_ifs with haccepts h h
  · rw [Output.copiesOn_copy, if_pos ⟨h.1, h.2.1⟩]
  · rw [Output.copiesOn_copy, if_neg (fun h' => h ⟨h'.1, h'.2, haccepts⟩)]
  · exact absurd h.2.2 haccepts
  · exact map_zero _

namespace Cluster
variable (C : Cluster) (serde : RoutingSerde)

/-- The copies that a message makes at a server. -/
def received (id payload : String) : Multiset Output :=
  (((C.server id).receive serde payload).map ((C.server id).output id)).sum

/-- An action with the copies that its message makes at the subscribers. -/
def actionValue (id : String) : RouteAction → Multiset Output
  | .send conn message => (C.server id).output id (.send conn message)
  | .publish channel payload =>
      {.published channel payload} + ∑ target ∈ C.subscribers channel, C.received serde target payload

def value : Work → Multiset Output
  | .running id actions => (actions.map (C.actionValue serde id)).sum
  | .arriving id payload => C.received serde id payload

def actionSize : RouteAction → ℕ
  | .send _ _ => 1
  | .publish channel payload =>
      1 + ∑ target ∈ C.subscribers channel, (2 + ((C.server target).receive serde payload).length)

def size : Work → ℕ
  | .running _ actions => 1 + (actions.map (C.actionSize serde)).sum
  | .arriving id payload => 2 + ((C.server id).receive serde payload).length

end Cluster

theorem ClusterServer.mem_sendLocally {server : ClusterServer} {u t : String} {m : ServerMessage}
    {a : RouteAction} (h : a ∈ (server.sendLocally u t m).2) : ∃ conn, a = .send conn (.raw m) := by
  obtain ⟨conn, -, rfl⟩ := List.mem_map.mp h
  exact ⟨conn, rfl⟩

/-- A handler only sends: it publishes nothing. -/
theorem ClusterServer.mem_receive {server : ClusterServer} {serde : RoutingSerde} {payload : String}
    {a : RouteAction} (h : a ∈ server.receive serde payload) : ∃ conn message, a = .send conn message := by
  unfold ClusterServer.receive at h
  split at h
  · cases h
  · unfold ClusterServer.handleRoutedMessage at h
    split_ifs at h
    · cases h
    · cases h
    · split at h
      · cases h
      · obtain ⟨conn, rfl⟩ := ClusterServer.mem_sendLocally h
        exact ⟨conn, _, rfl⟩

namespace Cluster
variable {C : Cluster} {serde : RoutingSerde}

theorem value_receive (id payload : String) :
    C.value serde (.running id ((C.server id).receive serde payload)) = C.received serde id payload := by
  rw [value, received]
  congr 1
  refine List.map_congr_left (fun a ha => ?_)
  obtain ⟨conn, message, rfl⟩ := ClusterServer.mem_receive ha
  rfl

theorem size_receive (id payload : String) :
    C.size serde (.running id ((C.server id).receive serde payload)) =
      1 + ((C.server id).receive serde payload).length := by
  have hone : ∀ a ∈ (C.server id).receive serde payload, C.actionSize serde a = 1 := by
    intro a ha
    obtain ⟨conn, message, rfl⟩ := ClusterServer.mem_receive ha
    rfl
  rw [size, List.map_congr_left hone, List.map_const', List.sum_replicate, smul_eq_mul, Nat.mul_one]

theorem valued_system : Worklist.Valued (C.system serde) (C.value serde) := by
  intro w
  cases w with
  | running id actions =>
      cases actions with
      | nil => rfl
      | cons a actions =>
          cases a with
          | send conn message =>
              simp only [system, process, value, List.map_cons, List.sum_cons, Multiset.map_singleton,
                Multiset.sum_singleton]
              rfl
          | publish channel payload =>
              simp only [system, process, value, List.map_cons, List.sum_cons, Multiset.map_cons,
                Multiset.sum_cons, Multiset.map_map, actionValue]
              rw [add_assoc, add_comm (List.sum _)]
              rfl
  | arriving id payload =>
      simp only [system, process, Multiset.map_singleton, Multiset.sum_singleton, value_receive, zero_add]
      rfl

theorem shrinks_system : Worklist.Shrinks (C.system serde) (C.size serde) := by
  intro w
  cases w with
  | running id actions =>
      cases actions with
      | nil => exact Nat.one_pos
      | cons a actions =>
          cases a with
          | send conn message =>
              simp only [system, process, size, List.map_cons, List.sum_cons, Multiset.map_singleton,
                Multiset.sum_singleton, actionSize]
              omega
          | publish channel payload =>
              simp only [system, process, size, List.map_cons, List.sum_cons, Multiset.map_cons,
                Multiset.sum_cons, Multiset.map_map, actionSize, Function.comp_def, Finset.sum]
              omega
  | arriving id payload =>
      simp only [system, process, Multiset.map_singleton, Multiset.sum_singleton, size_receive]
      rw [size]
      omega

/-- What work publishes is what its actions publish. -/
theorem publishedIn_running (id : String) (actions : List RouteAction) :
    Output.publishedIn (C.value serde (.running id actions)) = RouteAction.publishes actions := by
  have hreceived : ∀ target payload, Output.publishedIn (C.received serde target payload) = 0 := by
    intro target payload
    rw [received, map_list_sum, List.map_map]
    refine List.sum_eq_zero (fun x hx => ?_)
    obtain ⟨a, ha, rfl⟩ := List.mem_map.mp hx
    obtain ⟨conn, message, rfl⟩ := ClusterServer.mem_receive ha
    exact (C.server target).publishedIn_output_send target conn message
  induction actions with
  | nil => rfl
  | cons a actions ih =>
      rw [value] at ih ⊢
      rw [List.map_cons, List.sum_cons, map_add, ih]
      cases a with
      | send conn message =>
          rw [actionValue, ClusterServer.publishedIn_output_send, zero_add]
          rfl
      | publish channel payload =>
          have hnone : ∑ target ∈ C.subscribers channel,
              Output.publishedIn (C.received serde target payload) = 0 :=
            Finset.sum_eq_zero (fun target _ => hreceived target payload)
          rw [actionValue, map_add, map_sum, hnone, add_zero]
          rfl

end Cluster

/-! ### The copies of a call -/

namespace Cluster
variable {C : Cluster} {serde : RoutingSerde} {u t : String} {m : ServerMessage} {origin target sid : String}
  {cid : Uuid}

/-- A local send makes one copy on every connection that receives it. -/
theorem copiesOn_sendLocally (hid : target ∈ C.ids) :
    Output.copiesOn sid cid
        ((((C.server target).sendLocally u t m).2.map ((C.server target).output target)).sum) =
      if target = sid ∧ (C.server target).receives u t cid = true then {.raw m} else 0 := by
  obtain ⟨limits, hreach⟩ := C.reachable target hid
  have henum := enumerates_getUserConnectionsFiltered hreach.indexed (some t) u
  rw [ClusterServer.sendLocally, List.map_map, map_list_sum, List.map_map]
  simp only [Function.comp_def, ClusterServer.copiesOn_output_send]
  split_ifs with h
  · -- the identifiers are distinct, so that one connection has the copy
    obtain ⟨rfl, hreceives⟩ := h
    obtain ⟨conn, hl, hconn⟩ := (Option.any_eq_true _ _).mp hreceives
    rw [Bool.and_eq_true, decide_eq_true_eq] at hconn
    have hid : conn.id = cid := (hreach.indexed.keyed cid conn hl).1
    have hmem := (henum.mem_iff conn).mpr ⟨by rwa [hid], hconn.1.1, decide_eq_true hconn.1.2⟩
    rw [List.sum_map_eq_nsmul_single conn, henum.nodup.of_map.count, if_pos hmem, one_smul,
      if_pos ⟨rfl, hid, hconn.2⟩]
    intro conn' hne hmem'
    refine if_neg (fun h' => hne ?_)
    have hl' := ((henum.mem_iff conn').mp hmem').1
    rw [h'.2.1, hl] at hl'
    exact (Option.some.inj hl').symm
  · refine List.sum_eq_zero (fun x hx => ?_)
    obtain ⟨conn, hconn, rfl⟩ := List.mem_map.mp hx
    obtain ⟨hl, hu, ht⟩ := (henum.mem_iff conn).mp hconn
    refine if_neg ?_
    rintro ⟨rfl, rfl, haccepts⟩
    refine h ⟨rfl, (Option.any_eq_true _ _).mpr ⟨conn, hl, ?_⟩⟩
    rw [Bool.and_eq_true]
    exact ⟨decide_eq_true ⟨hu, of_decide_eq_true ht⟩, haccepts⟩

/-- Only the server itself listens to its channel. -/
theorem subscribers_eq (hid : target ∈ C.ids) :
    C.subscribers (C.routingChannel ++ ":" ++ target) = {target} := by
  ext id
  rw [subscribers, Finset.mem_filter, Finset.mem_singleton]
  constructor
  · rintro ⟨hmem, hchannel⟩
    rw [ClusterServer.subscriptions, if_pos (C.enabled id hmem), C.routed id hmem, C.named id hmem] at hchannel
    rcases List.mem_cons.mp hchannel with heq | hchannel
    · exact (String.append_right_inj _).mp heq.symm
    · have heq := congrArg (fun s => s.toList.length) (List.mem_singleton.mp hchannel)
      simp at heq
  · rintro rfl
    rw [ClusterServer.subscriptions, if_pos (C.enabled id hid), C.routed id hid, C.named id hid]
    exact ⟨hid, List.mem_cons_self⟩

/-- A routed message is sent to the local connections of its target. -/
theorem receive_routed {json payload : String} (htarget : target ∈ C.ids) (horigin : origin ∈ C.ids)
    (hne : target ≠ origin)
    (hjson : serde.routed.read json = some ((C.server origin).routedMessage u t payload target))
    (hpayload : serde.message.read payload = some m) :
    (C.server target).receive serde json = ((C.server target).sendLocally u t m).2 := by
  have hself : ¬ (C.server origin).serverId = (C.server target).serverId := by
    rw [C.named origin horigin, C.named target htarget]
    exact fun h => hne h.symm
  have hto : (some target).any (fun s => decide (s ≠ (C.server target).serverId)) = false := by
    rw [C.named target htarget]
    simp
  simp only [ClusterServer.receive, hjson, ClusterServer.routedMessage, if_neg hself, hto,
    ClusterServer.handleRoutedMessage, hpayload, Bool.false_eq_true, if_false]

/-- The message for another server makes its copies there. -/
theorem copiesOn_routed {payload : String}
    (hserde : serde.routed.Reads ((C.server origin).routedMessage u t payload target))
    (htarget : target ∈ C.ids) (horigin : origin ∈ C.ids) (hne : target ≠ origin)
    (hpayload : serde.message.read payload = some m) :
    Output.copiesOn sid cid ((((C.server origin).publishRoutedMessage serde
        ((C.server origin).routedMessage u t payload target)).toOption.toList.map
          (C.actionValue serde origin)).sum) =
      if target = sid ∧ (C.server target).receives u t cid = true then {.raw m} else 0 := by
  obtain ⟨json, hwrite, hread⟩ := Option.bind_eq_some_iff.mp hserde
  have hpublish : (C.server origin).publishRoutedMessage serde
      ((C.server origin).routedMessage u t payload target) =
      .ok (.publish (C.routingChannel ++ ":" ++ target) json) := by
    simp only [ClusterServer.publishRoutedMessage, hwrite, C.routed origin horigin]
    rfl
  rw [hpublish]
  show Output.copiesOn sid cid (C.actionValue serde origin _ + 0) = _
  rw [add_zero, actionValue, map_add, Output.copiesOn_published, zero_add, subscribers_eq htarget,
    Finset.sum_singleton, received, receive_routed htarget horigin hne hread hpayload,
    copiesOn_sendLocally htarget]

/-- What a call does: its local sends, and a message to every other server of the user. -/
theorem actions_routeToUser {servers : List String} {payload : String} (horigin : origin ∈ C.ids)
    (hwrite : serde.message.write m = some payload) :
    ((C.server origin).routeToUser serde (.ok servers) u t m).2 =
      ((C.server origin).sendLocally u t m).2 ++
        (servers.filter (fun s => s ≠ origin)).flatMap (fun target =>
          ((C.server origin).publishRoutedMessage serde
            ((C.server origin).routedMessage u t payload target)).toOption.toList) := by
  simp only [ClusterServer.routeToUser, C.enabled origin horigin, if_true, hwrite, C.named origin horigin]
  split_ifs with hempty
  · rw [List.isEmpty_iff.mp hempty]
    exact (List.append_nil _).symm
  · rfl

theorem total_call (C : Cluster) (serde : RoutingSerde) (origin : String)
    (userServers : Except SessionStoreError (List String)) (u t : String) (m : ServerMessage) :
    (C.call serde origin userServers u t m).total (C.value serde) =
      C.value serde (.running origin ((C.server origin).routeToUser serde userServers u t m).2) := by
  rw [call, Worklist.Config.total, Multiset.map_singleton, Multiset.sum_singleton, zero_add]

/-- A call leads to one copy on every connection that receives it, on whichever server. -/
theorem copiesOn_call {userServers : Except SessionStoreError (List String)} (hfind : C.Accurate userServers u)
    (hserde : serde.Carries (C.server origin) C.ids u t m) (horigin : origin ∈ C.ids) :
    Output.copiesOn sid cid
        (C.value serde (.running origin ((C.server origin).routeToUser serde userServers u t m).2)) =
      if sid ∈ C.ids ∧ (C.server sid).receives u t cid = true then {.raw m} else 0 := by
  obtain ⟨servers, rfl, hnodup, hservers⟩ := hfind
  obtain ⟨payload, hwrite, hread⟩ := Option.bind_eq_some_iff.mp hserde.reads
  have hothers : ∀ target ∈ servers.filter (fun s => s ≠ origin), target ∈ C.ids ∧ target ≠ origin := by
    intro target htarget
    obtain ⟨hmem, hne⟩ := List.mem_filter.mp htarget
    exact ⟨((hservers target).mp hmem).1, of_decide_eq_true hne⟩
  have hsends : (((C.server origin).sendLocally u t m).2.map (C.actionValue serde origin)) =
      ((C.server origin).sendLocally u t m).2.map ((C.server origin).output origin) := by
    refine List.map_congr_left (fun a ha => ?_)
    obtain ⟨conn, rfl⟩ := ClusterServer.mem_sendLocally ha
    rfl
  have hrouted : ∀ target ∈ servers.filter (fun s => s ≠ origin),
      (Output.copiesOn sid cid ∘ List.sum ∘ fun target => ((C.server origin).publishRoutedMessage serde
        ((C.server origin).routedMessage u t payload target)).toOption.toList.map (C.actionValue serde origin))
          target = if target = sid ∧ (C.server target).receives u t cid = true then {.raw m} else 0 :=
    fun target htarget =>
      have hid := (hothers target htarget).1
      copiesOn_routed (hserde.routed payload hwrite target hid) hid horigin (hothers target htarget).2 hread
  rw [value, actions_routeToUser horigin hwrite, List.map_append, List.sum_append, map_add, hsends,
    copiesOn_sendLocally horigin, List.map_flatMap, List.flatMap_def, List.sum_flatten, List.map_map,
    map_list_sum, List.map_map, List.map_congr_left hrouted,
    List.sum_map_eq_nsmul_single sid _ (fun target hne _ => if_neg (fun h => hne h.1)),
    (hnodup.filter _).count]
  -- a server that holds a receiving connection is the origin or has been found
  have hfound : sid ∈ C.ids → (C.server sid).receives u t cid = true → sid ∈ servers := by
    intro hsid hreceives
    obtain ⟨conn, hl, hconn⟩ := (Option.any_eq_true _ _).mp hreceives
    rw [Bool.and_eq_true, decide_eq_true_eq] at hconn
    exact (hservers sid).mpr ⟨hsid, cid, conn, hl, hconn.1.1⟩
  by_cases heq : origin = sid
  · subst heq
    simp [horigin]
  · rw [if_neg (fun h => heq h.1), zero_add]
    by_cases hreceives : sid ∈ C.ids ∧ (C.server sid).receives u t cid = true
    · have hother : sid ∈ servers.filter (fun s => s ≠ origin) :=
        List.mem_filter.mpr ⟨hfound hreceives.1 hreceives.2, decide_eq_true (fun h => heq h.symm)⟩
      rw [if_pos hother, one_smul, if_pos ⟨rfl, hreceives.2⟩, if_pos hreceives]
    · rw [if_neg hreceives]
      split_ifs with hother hself
      · exact absurd ⟨(hothers sid hother).1, hself.2⟩ hreceives
      · exact smul_zero _
      · exact zero_smul _ _
      · exact zero_smul _ _

end Cluster

end values

/-! ### One call -/

section calls
open Cluster Worklist

/-- **One call delivers once.**  When all messages have been handled, in whatever order, every
connection of the identity that is open and has room has one copy, no other connection has any,
and nothing has been published but the messages of the call itself.  With losses there are no more
copies, and every run comes to an end. -/
theorem route_delivers_once (C : Cluster) (serde : RoutingSerde) {origin u t : String} {m : ServerMessage}
    (horigin : origin ∈ C.ids) {userServers : Except SessionStoreError (List String)}
    (hfind : C.Accurate userServers u) (hserde : serde.Carries (C.server origin) C.ids u t m) :
    (∀ c, Reaches (C.system serde) (fun _ => False) (C.call serde origin userServers u t m) c → c.Finished →
      (∀ sid cid, Output.copiesOn sid cid c.done =
        if sid ∈ C.ids ∧ (C.server sid).receives u t cid = true then {.raw m} else 0) ∧
      Output.publishedIn c.done =
        RouteAction.publishes ((C.server origin).routeToUser serde userServers u t m).2) ∧
    (∀ c, Reaches (C.system serde) Work.IsMessage (C.call serde origin userServers u t m) c →
      (∀ sid cid, Output.copiesOn sid cid c.done ≤
        if sid ∈ C.ids ∧ (C.server sid).receives u t cid = true then {.raw m} else 0) ∧
      Output.publishedIn c.done ≤
        RouteAction.publishes ((C.server origin).routeToUser serde userServers u t m).2) ∧
    (∀ mayDrop, WellFounded (fun c' c : Config Work Output => Step (C.system serde) mayDrop c c')) := by
  have htotal := C.total_call serde origin userServers u t m
  refine ⟨fun c hreach hfin => ?_, fun c hreach => ?_, fun mayDrop => wellFounded_step shrinks_system mayDrop⟩
  · rw [hreach.done_eq valued_system hfin, htotal]
    exact ⟨fun sid cid => copiesOn_call hfind hserde horigin, publishedIn_running _ _⟩
  · have hle := hreach.done_le valued_system
    rw [htotal] at hle
    refine ⟨fun sid cid => ?_, ?_⟩
    · rw [← copiesOn_call hfind hserde horigin]
      exact Output.copiesOn_mono hle
    · rw [← publishedIn_running]
      exact Output.publishedIn_mono hle

/-! ### Two servers -/

/-- A JSON string. -/
def jsonString (s : String) : String :=
  "\"" ++ String.join (s.toList.map (fun c => if c = '"' then "\\\"" else c.toString)) ++ "\""

/-- The JSON of a routed message without a connection. -/
def routedJson (r : RoutedMessage) : String :=
  "\x7b\"user_id\":" ++ jsonString r.userId ++ ",\"tenant_id\":" ++ jsonString r.tenantId ++
    ",\"connection_id\":null,\"payload\":" ++ jsonString r.payload ++ ",\"from_server\":" ++
    jsonString r.fromServer ++ ",\"to_server\":" ++ (r.toServer.map jsonString).getD "null" ++ "\x7d"

def heartbeatJson : String := "\x7b\"type\":\"heartbeat\"\x7d"

/-- The messages that the first of the two servers may write. -/
def routedHeartbeats : List RoutedMessage :=
  ["ara-1", "ara-2"].map (fun target => ⟨"alice", "acme", none, heartbeatJson, "ara-1", some target⟩)

/-- The heartbeat and the routed messages with it. -/
def heartbeatSerde : RoutingSerde where
  message :=
    { write := fun | .heartbeat => some heartbeatJson | _ => none
      read := fun json => if json = heartbeatJson then some .heartbeat else none }
  routed :=
    { write := fun r => some (routedJson r)
      read := fun json => routedHeartbeats.find? (fun r => routedJson r == json) }

/-- Two servers with a connection of alice each. -/
def twoServers (hasRoom : Bool) : Cluster where
  ids := {"ara-1", "ara-2"}
  server id :=
    { enabled := true
      serverId := id
      routingChannel := "ara:cluster:route"
      manager := ((ConnectionManager.withLimits .default).register (if id = "ara-1" then 1 else 2)
        "alice" "acme" [] 0).2
      isOpen := fun _ => true
      hasRoom := fun _ => hasRoom }
  routingChannel := "ara:cluster:route"
  named _ _ := rfl
  enabled _ _ := rfl
  routed _ _ := rfl
  reachable _ _ := ⟨.default, ConnectionManager.Reachable.empty.call (.register _ "alice" "acme" [] 0) rfl⟩

theorem heartbeatSerde_reads : ∀ r ∈ routedHeartbeats, heartbeatSerde.routed.Reads r := by
  unfold Serde.Reads
  decide +kernel

theorem heartbeatSerde_carries (hasRoom : Bool) :
    heartbeatSerde.Carries ((twoServers hasRoom).server "ara-1") (twoServers hasRoom).ids "alice" "acme"
      .heartbeat where
  reads := rfl
  routed payload hpayload target htarget := by
    obtain rfl : heartbeatJson = payload := Option.some.inj hpayload
    refine heartbeatSerde_reads _ (List.mem_map.mpr ⟨target, ?_, rfl⟩)
    simpa [twoServers] using htarget

theorem twoServers_accurate (hasRoom : Bool) :
    (twoServers hasRoom).Accurate (.ok ["ara-2", "ara-1"]) "alice" := by
  refine ⟨_, rfl, by decide, fun id => ?_⟩
  have huser : ((twoServers hasRoom).server id).HasUser "alice" :=
    ⟨_, .new (if id = "ara-1" then 1 else 2) "alice" "acme" [] 0, AList.lookup_insert _, rfl⟩
  rw [and_iff_left huser]
  simp [twoServers, or_comm]

/-- Both connections get the heartbeat of the first server. -/
theorem route_delivers_once_twoServers :
    ∃ c, Reaches ((twoServers true).system heartbeatSerde) (fun _ => False)
        ((twoServers true).call heartbeatSerde "ara-1" (.ok ["ara-2", "ara-1"]) "alice" "acme" .heartbeat) c ∧
      c.Finished ∧ Output.copiesOn "ara-1" 1 c.done = {.raw .heartbeat} ∧
      Output.copiesOn "ara-2" 2 c.done = {.raw .heartbeat} := by
  obtain ⟨c, hreach, hfin⟩ := exists_finished
    (M := (twoServers true).system heartbeatSerde) shrinks_system (fun _ => False)
    ((twoServers true).call heartbeatSerde "ara-1" (.ok ["ara-2", "ara-1"]) "alice" "acme" .heartbeat)
  obtain ⟨hcopies, -⟩ := (route_delivers_once (twoServers true) heartbeatSerde (by decide)
    (twoServers_accurate true) (heartbeatSerde_carries true)).1 c hreach hfin
  exact ⟨c, hreach, hfin, (hcopies "ara-1" 1).trans (if_pos ⟨by decide, by decide +kernel⟩),
    (hcopies "ara-2" 2).trans (if_pos ⟨by decide, by decide +kernel⟩)⟩

/-- An open connection without room in its channel gets no copy: the send times out. -/
theorem open_without_room :
    ¬ ∀ (C : Cluster) (serde : RoutingSerde) (origin u t : String) (m : ServerMessage)
      (userServers : Except SessionStoreError (List String)), origin ∈ C.ids → C.Accurate userServers u →
      serde.Carries (C.server origin) C.ids u t m →
      ∀ c, Reaches (C.system serde) (fun _ => False) (C.call serde origin userServers u t m) c → c.Finished →
      ∀ sid cid, Output.copiesOn sid cid c.done =
        if sid ∈ C.ids ∧ (C.server sid).openFor u t cid = true then {.raw m} else 0 := by
  intro h
  obtain ⟨c, hreach, hfin⟩ := exists_finished
    (M := (twoServers false).system heartbeatSerde) shrinks_system (fun _ => False)
    ((twoServers false).call heartbeatSerde "ara-1" (.ok ["ara-2", "ara-1"]) "alice" "acme" .heartbeat)
  have hclaimed := h (twoServers false) heartbeatSerde "ara-1" "alice" "acme" .heartbeat _ (by decide)
    (twoServers_accurate false) (heartbeatSerde_carries false) c hreach hfin "ara-1" 1
  have hdone : Output.copiesOn "ara-1" 1 c.done = 0 := by
    rw [hreach.done_eq valued_system hfin, total_call,
      copiesOn_call (twoServers_accurate false) (heartbeatSerde_carries false) (by decide)]
    exact if_neg (fun h => absurd h.2 (by decide +kernel))
  rw [hdone, if_pos ⟨by decide, by decide +kernel⟩] at hclaimed
  exact Multiset.singleton_ne_zero _ hclaimed.symm

end calls

end AraNotification
