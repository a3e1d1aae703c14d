import AraNotification.Ack
import AraNotification.Notification
import AraNotification.Tenant

/-! # Messages from a WebSocket client

What the receive task of a connection does with a frame, after
`domain/realtime/websocket/handler.rs`.  A text frame is given by the result of parsing it.
Every handler returns the replies it sends to its own connection, in order.

A subscription goes through the requested channels one by one (`subscribeOne`): a name is
checked, namespaced for the tenant of the connection and given to the connection manager.
An unsubscription does not check the names. -/

namespace AraNotification

/-- A received WebSocket frame; a text frame carries the parsed message or the parse error. -/
inductive Frame where
  | text (parsed : Except String ClientMessage)
  | binary
  | ping
  | pong
  | close

/-- The channels subscribed to and the errors collected so far by one subscription. -/
structure SubscribeProgress where
  subscribed : List String
  errors : List String
deriving DecidableEq, Repr

section handlers
variable (U : UnicodeTables) (config : TenantConfig)

/-- The key under which a connection's channel is filed. -/
def channelKey (h : ConnectionHandle) (channel : String) : String :=
  (config.createContext h.tenantId).namespaceChannel channel

/-- One channel of a `Subscribe` message. -/
def subscribeOne (h : ConnectionHandle) (m : ConnectionManager) (p : SubscribeProgress)
    (channel : String) : ConnectionManager × SubscribeProgress :=
  if isValidChannelName U channel then
    match m.subscribeToChannel h.id (channelKey config h channel) with
    | (.ok (), m') => (m', { p with subscribed := p.subscribed ++ [channel] })
    | (.error e, m') => (m', { p with errors := p.errors ++ [e] })
  else (m, { p with errors := p.errors ++ ["Invalid channel name: " ++ channel] })

/-- The replies to a `Subscribe` message. -/
def SubscribeProgress.replies (p : SubscribeProgress) : List ServerMessage :=
  (if p.subscribed.isEmpty then [] else [.subscribed p.subscribed]) ++
    (if p.errors.isEmpty then [] else [.error "SUBSCRIPTION_ERROR" ("; ".intercalate p.errors)])

/-- Handle channel subscription. -/
def handleSubscribe (h : ConnectionHandle) (m : ConnectionManager) (channels : List String) :
    ConnectionManager × List ServerMessage :=
  let r := channels.foldl (fun r channel => subscribeOne U config h r.1 r.2 channel) (m, ⟨[], []⟩)
  (r.1, r.2.replies)

/-- One channel of an `Unsubscribe` message. -/
def unsubscribeOne (h : ConnectionHandle) (m : ConnectionManager) (channel : String) :
    ConnectionManager :=
  m.unsubscribeFromChannel h.id (channelKey config h channel)

/-- The replies to an `Unsubscribe` message. -/
def unsubscribeReplies (channels : List String) : List ServerMessage :=
  if channels.isEmpty then [] else [.unsubscribed channels]

/-- Handle channel unsubscription. -/
def handleUnsubscribe (h : ConnectionHandle) (m : ConnectionManager) (channels : List String) :
    ConnectionManager × List ServerMessage :=
  (channels.foldl (unsubscribeOne config h) m, unsubscribeReplies channels)

/-- Handle notification acknowledgment. -/
def handleAck (h : ConnectionHandle) (b : MemoryAckBackend) (notificationId : Uuid) (now : DateTime) :
    MemoryAckBackend × List ServerMessage :=
  if b.config.enabled then
    match b.acknowledge notificationId h.userId now with
    | (true, b') => (b', [.acked notificationId])
    | (false, b') =>
        (b', [.error "INVALID_ACK" ("Unknown or invalid notification: " ++ toString notificationId)])
  else (b, [])

end handlers

end AraNotification
