import AraNotification.Basic

/-! # Notifications and the messages of a connection

The event that is sent to clients, its target, and the messages exchanged over a connection,
after `domain/notification/types.rs` and `domain/realtime/websocket/message.rs`.  Payloads
are JSON values; a float is kept as its bit pattern.

A pre-serialized outbound message is represented by the message whose text it shares, so
that what a channel holds can be read off either form. -/

namespace AraNotification

/-- A JSON value (`serde_json::Value`). -/
inductive Json where
  | null
  | bool (b : Bool)
  | int (n : ℤ)
  | float (bits : ℕ)
  | string (s : String)
  | array (xs : List Json)
  | object (fields : List (String × Json))
deriving Repr

/-! ### Events -/

/-- Priority levels for notifications. -/
inductive Priority where
  | low
  | normal
  | high
  | critical
deriving DecidableEq, Repr

/-- Target audience for notifications. -/
inductive Audience where
  | all
  | roles (roles : List String)
  | users (users : List String)
  | channels (channels : List String)
deriving DecidableEq, Repr

/-- Metadata associated with a notification; `ttl` is in seconds. -/
structure NotificationMetadata where
  source : String
  priority : Priority
  ttl : Option ℕ
  audience : Option Audience
  correlationId : Option String
deriving DecidableEq, Repr

/-- Notification event that gets sent to clients. -/
structure NotificationEvent where
  id : Uuid
  occurredAt : DateTime
  eventType : String
  payload : Json
  metadata : NotificationMetadata
deriving Repr

namespace NotificationEvent

/-- The last moment at which an event with a TTL may still be delivered. -/
def expiry (e : NotificationEvent) : Option DateTime :=
  e.metadata.ttl.map (fun ttl => e.occurredAt + ttl * nanosPerSecond)

/-- Check if the notification has expired based on its TTL. -/
def isExpired (e : NotificationEvent) (now : DateTime) : Bool :=
  match e.expiry with
  | some expiry => decide (now > expiry)
  | none => false

/-- Check if the notification should be delivered to a user with the given roles. -/
def shouldDeliverToRoles (e : NotificationEvent) (userRoles : List String) : Bool :=
  match e.metadata.audience with
  | none => true
  | some .all => true
  | some (.roles requiredRoles) => requiredRoles.any (fun r => userRoles.contains r)
  | some (.users _) => true
  | some (.channels _) => true

end NotificationEvent

/-- Builder for creating notification events. -/
structure NotificationBuilder where
  eventType : String
  payload : Json
  source : String
  priority : Priority
  ttl : Option ℕ
  audience : Option Audience
  correlationId : Option String

namespace NotificationBuilder

def new (eventType source : String) : NotificationBuilder where
  eventType := eventType
  payload := .null
  source := source
  priority := .normal
  ttl := none
  audience := none
  correlationId := none

/-- Build the event, with the identifier and the clock reading it draws. -/
def build (b : NotificationBuilder) (id : Uuid) (now : DateTime) : NotificationEvent where
  id := id
  occurredAt := now
  eventType := b.eventType
  payload := b.payload
  metadata :=
    { source := b.source, priority := b.priority, ttl := b.ttl, audience := b.audience,
      correlationId := b.correlationId }

end NotificationBuilder

/-- Notification target specification. -/
inductive NotificationTarget where
  | user (userId : String)
  | users (userIds : List String)
  | broadcast
  | channel (channel : String)
  | channels (channels : List String)
deriving DecidableEq, Repr

/-! ### Messages of a connection -/

/-- Messages sent from client to server. -/
inductive ClientMessage where
  | subscribe (channels : List String)
  | unsubscribe (channels : List String)
  | ping
  | ack (notificationId : Uuid)
deriving DecidableEq, Repr

/-- Messages sent from server to client. -/
inductive ServerMessage where
  | notification (event : NotificationEvent)
  | subscribed (channels : List String)
  | unsubscribed (channels : List String)
  | pong
  | heartbeat
  | acked (notificationId : Uuid)
  | error (code message : String)
  | shutdown (reason : String) (reconnectAfterSeconds : Option ℕ)
deriving Repr

/-- Outbound message wrapper: to be serialized when sent, or serialized already. -/
inductive OutboundMessage where
  | raw (message : ServerMessage)
  | serialized (message : ServerMessage)
deriving Repr

namespace OutboundMessage

/-- `OutboundMessage::preserialized`. -/
def preserialized (message : ServerMessage) : OutboundMessage := .serialized message

/-- The message that the client will read. -/
def message : OutboundMessage → ServerMessage
  | raw m => m
  | serialized m => m

/-- The event of a notification. -/
def event (m : OutboundMessage) : Option NotificationEvent :=
  match m.message with
  | .notification e => some e
  | _ => none

end OutboundMessage

end AraNotification
