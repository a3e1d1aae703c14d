import AraNotification.Http

/-! # The Redis trigger

A message from Redis Pub/Sub names a target, an event and possibly a tenant, after
`domain/notification/triggers/redis.rs`.  `parseTarget` turns the type and the target of a
message into a target of the dispatcher, with channels namespaced by a rule of its own
(`RedisSubscriber.namespaceChannel`), and `handleMessage` builds the event and dispatches it.
A payload is given by the result of parsing it. -/

namespace AraNotification

/-- Target specification in a Redis message. -/
inductive RedisTarget where
  | single (value : String)
  | multiple (values : List String)
deriving DecidableEq, Repr

/-- Event data in a Redis message. -/
structure RedisEventData where
  eventType : String
  payload : Json
  priority : Priority
  ttl : Option ℕ
  correlationId : Option String

/-- Message format received from Redis Pub/Sub. -/
structure RedisNotificationMessage where
  targetType : String
  target : Option RedisTarget
  event : RedisEventData
  tenantId : Option String

namespace RedisSubscriber

/-- Apply the tenant's prefix to a channel name; channels of the default tenant stay as they
are. -/
def namespaceChannel (channel : String) (tenantId : Option String) : String :=
  match tenantId with
  | some tid => if tid ≠ defaultTenantId then tid ++ ":" ++ channel else channel
  | none => channel

/-- Parse the target of a message, with namespaced channels. -/
def parseTarget (message : RedisNotificationMessage) (tenantId : Option String) :
    Option NotificationTarget :=
  match message.targetType with
  | "user" =>
      match message.target with
      | some (.single id) => some (.user id)
      | _ => none
  | "users" =>
      match message.target with
      | some (.multiple ids) => some (.users ids)
      | some (.single id) => some (.users [id])
      | none => none
  | "broadcast" => some .broadcast
  | "channel" =>
      match message.target with
      | some (.single ch) => some (.channel (namespaceChannel ch tenantId))
      | _ => none
  | "channels" =>
      match message.target with
      | some (.multiple chs) => some (.channels (chs.map (namespaceChannel · tenantId)))
      | some (.single ch) => some (.channels [namespaceChannel ch tenantId])
      | none => none
  | _ => none

/-- The event of a message. -/
def buildEvent (channel : String) (event : RedisEventData) (o : Occasion) : NotificationEvent :=
  { NotificationBuilder.new event.eventType ("redis:" ++ channel) with
    payload := event.payload
    priority := event.priority
    ttl := event.ttl
    correlationId := event.correlationId }.build o.id o.occurredAt

/-- Handle a received message; what cannot be parsed is dropped. -/
def handleMessage (m : ConnectionManager) (d : Dispatcher) (o : Occasion) (channel : String)
    (payload : Except String RedisNotificationMessage) : Dispatcher :=
  match payload with
  | .error _ => d
  | .ok message =>
      match parseTarget message message.tenantId with
      | none => d
      | some target =>
          (d.dispatchForTenant o.env m target (buildEvent channel message.event o) message.tenantId).2

end RedisSubscriber

/-- The channel names that a Redis message contains. -/
def RedisNotificationMessage.channelNames (message : RedisNotificationMessage) : List String :=
  match message.target with
  | some (.single ch) => [ch]
  | some (.multiple chs) => chs
  | none => []

/-- The channel keys that a target is dispatched to. -/
def NotificationTarget.channelKeys : NotificationTarget → List String
  | .channel key => [key]
  | .channels keys => keys
  | _ => []

namespace RedisSubscriber

variable {message : RedisNotificationMessage} {target : NotificationTarget} {T : Option String}

/-- A message that is dispatched to channels gives each of its names the key of its tenant. -/
theorem channelKeys_parseTarget (h : parseTarget message T = some target) :
    target.channelKeys = [] ∨
      target.channelKeys = message.channelNames.map (namespaceChannel · T) := by
  unfold parseTarget at h
  unfold RedisNotificationMessage.channelNames
  split at h
  · split at h
    · cases h; exact .inl rfl
    · cases h
  · split at h <;> cases h <;> exact .inl rfl
  · cases h; exact .inl rfl
  · split at h
    · next ch htarget =>
        cases h
        rw [htarget]
        exact .inr rfl
    · cases h
  · split at h
    · next chs htarget =>
        cases h
        rw [htarget]
        exact .inr rfl
    · next ch htarget =>
        cases h
        rw [htarget]
        exact .inr rfl
    · cases h
  · cases h

/-- A message puts its event only on connections that its target names. -/
theorem handleMessage_placed {m : ConnectionManager} {d : Dispatcher} {o : Occasion} {channel : String}
    {payload : Except String RedisNotificationMessage} {p : Placement}
    (hp : p ∈ (handleMessage m d o channel payload).outbox) :
    p ∈ d.outbox ∨ ∃ message target, payload = .ok message ∧
      parseTarget message message.tenantId = some target ∧
      p.conn ∈ Dispatcher.recipients m message.tenantId target := by
  cases payload with
  | error e => exact .inl hp
  | ok message =>
      simp only [handleMessage] at hp
      split at hp
      · exact .inl hp
      · next target htarget =>
          rcases Dispatcher.dispatchForTenant_placed p hp with hp | ⟨hc, -⟩
          · exact .inl hp
          · exact .inr ⟨message, target, rfl, htarget, hc⟩

end RedisSubscriber

end AraNotification
