import AraNotification.ClusterRouting
import AraNotification.Lib.Digits
import AraNotification.Lib.Fields
import AraNotification.SessionStore
import Mathlib.Logic.Equiv.Nat

/-! # Wire formats

What the server exchanges with clients, with Redis and with other servers is written and read as JSON by
derived serializers, and their attributes decide on the form: a tag beside the fields of a variant
(`internallyTagged`) or beside its content (`adjacentlyTagged`), the fields of an event among those of
its message, fields under another name, optional fields that are left out.  `toJson` and `ofJson` follow
the attributes of each type.  Objects are read field by field; the arrays that a derived reader takes for
a structure as well are left out, since nothing writes them.

The texts of identifiers and times are a parameter (`TextForms`), and so is the text of a JSON value
(`JsonText`).  A number is read only in the range of its type, in which it is whenever it was written
(`Representable`).  What is written is read again (`wire_round_trips`), also through the text in the
payload of a routed message. -/

namespace AraNotification

open Fields

/-- The texts of identifiers and times. -/
structure TextForms where
  uuid : Uuid → String
  parseUuid : String → Option Uuid
  dateTime : DateTime → String
  parseDateTime : String → Option DateTime

/-- The texts of identifiers and times are read as they were written. -/
structure TextForms.RoundTrip (F : TextForms) : Prop where
  uuid : ∀ u, F.parseUuid (F.uuid u) = some u
  dateTime : ∀ t, F.parseDateTime (F.dateTime t) = some t

/-! ### Values of the basic types -/

namespace Json
variable {α : Type}

/-- Read a string. -/
def asString : Json → Option String
  | .string s => some s
  | _ => none

/-- Write a list of strings. -/
def strings (xs : List String) : Json := .array (xs.map .string)

/-- Read a list of strings. -/
def asStrings : Json → Option (List String)
  | .array xs => xs.mapM asString
  | _ => none

/-- Write an unsigned number. -/
def nat (n : ℕ) : Json := .int n

/-- Read an unsigned number of so many bits. -/
def asUnsigned (bits : ℕ) : Json → Option ℕ
  | .int n => if 0 ≤ n ∧ n < 2 ^ bits then some n.toNat else none
  | _ => none

/-- Read an `i64`. -/
def asI64 : Json → Option ℤ
  | .int n => if -2 ^ 63 ≤ n ∧ n < 2 ^ 63 then some n else none
  | _ => none

/-- Write a value that may be missing as `null`. -/
def orNull : Option Json → Json
  | some v => v
  | none => .null

/-- Read a value that may be `null`. -/
def asOption (decode : Json → Option α) : Json → Option (Option α)
  | .null => some none
  | v => (decode v).map some

/-- Read an identifier. -/
def asUuid (F : TextForms) : Json → Option Uuid
  | .string s => F.parseUuid s
  | _ => none

/-- Read a time. -/
def asDateTime (F : TextForms) : Json → Option DateTime
  | .string s => F.parseDateTime s
  | _ => none

/-- Read the fields of an object. -/
def asObject (decode : List (String × Json) → Option α) : Json → Option α
  | .object fs => decode fs
  | _ => none

/-- Read a variant whose tag stands among its fields. -/
def internallyTagged (tag : String) (decode : String → List (String × Json) → Option α) : Json → Option α
  | .object fs => (required tag asString fs).bind (fun name => decode name (without tag fs))
  | _ => none

/-- Read a variant whose tag stands beside its content; a unit variant may have none. -/
def adjacentlyTagged (tag content : String) (decode : String → Option Json → Option α) : Json → Option α
  | .object fs =>
      (required tag asString fs).bind (fun name =>
        match values content fs with
        | [] => decode name none
        | [v] => decode name (some v)
        | _ => none)
  | _ => none

end Json

/-! ### Events -/

section events
variable (F : TextForms)

def Priority.toJson : Priority → Json
  | .low => .string "Low"
  | .normal => .string "Normal"
  | .high => .string "High"
  | .critical => .string "Critical"

def Priority.ofName : String → Option Priority
  | "Low" => some .low
  | "Normal" => some .normal
  | "High" => some .high
  | "Critical" => some .critical
  | _ => none

/-- A unit variant is its name, or an object with the name and no content. -/
def Priority.ofJson : Json → Option Priority
  | .string name => ofName name
  | .object [(name, .null)] => ofName name
  | _ => none

def Audience.toJson : Audience → Json
  | .all => .object [("type", .string "All")]
  | .roles rs => .object [("type", .string "Roles"), ("value", .strings rs)]
  | .users us => .object [("type", .string "Users"), ("value", .strings us)]
  | .channels cs => .object [("type", .string "Channels"), ("value", .strings cs)]

def Audience.ofJson : Json → Option Audience :=
  Json.adjacentlyTagged "type" "value" (fun name content =>
    match name, content with
    | "All", none => some .all
    | "All", some .null => some .all
    | "Roles", some v => v.asStrings.map .roles
    | "Users", some v => v.asStrings.map .users
    | "Channels", some v => v.asStrings.map .channels
    | _, _ => none)

def NotificationMetadata.toJson (m : NotificationMetadata) : Json :=
  .object ([("source", .string m.source), ("priority", m.priority.toJson)] ++
    skipNone "ttl" (m.ttl.map Json.nat) ++
    skipNone "audience" (m.audience.map Audience.toJson) ++
    skipNone "correlation_id" (m.correlationId.map Json.string))

def NotificationMetadata.ofJson : Json → Option NotificationMetadata :=
  Json.asObject (fun fs => do
    let source ← required "source" Json.asString fs
    let priority ← required "priority" Priority.ofJson fs
    let ttl ← omittable "ttl" (Json.asOption (Json.asUnsigned 32)) fs
    let audience ← omittable "audience" (Json.asOption Audience.ofJson) fs
    let correlationId ← omittable "correlation_id" (Json.asOption Json.asString) fs
    some ⟨source, priority, ttl, audience, correlationId⟩)

/-- The fields of an event, which a message with the event has among its own. -/
def NotificationEvent.fields (e : NotificationEvent) : List (String × Json) :=
  [("id", .string (F.uuid e.id)), ("occurred_at", .string (F.dateTime e.occurredAt)),
    ("event_type", .string e.eventType), ("payload", e.payload), ("metadata", e.metadata.toJson)]

def NotificationEvent.ofFields (fs : List (String × Json)) : Option NotificationEvent := do
  let id ← required "id" (Json.asUuid F) fs
  let occurredAt ← required "occurred_at" (Json.asDateTime F) fs
  let eventType ← required "event_type" Json.asString fs
  let payload ← required "payload" some fs
  let metadata ← required "metadata" NotificationMetadata.ofJson fs
  some ⟨id, occurredAt, eventType, payload, metadata⟩

def NotificationEvent.toJson (e : NotificationEvent) : Json := .object (e.fields F)

def NotificationEvent.ofJson : Json → Option NotificationEvent := Json.asObject (ofFields F)

end events

/-! ### Messages of a connection -/

section messages
variable (F : TextForms)

def ClientMessage.toJson : ClientMessage → Json
  | .subscribe channels =>
      .object [("type", .string "Subscribe"), ("payload", .object [("channels", .strings channels)])]
  | .unsubscribe channels =>
      .object [("type", .string "Unsubscribe"), ("payload", .object [("channels", .strings channels)])]
  | .ping => .object [("type", .string "Ping")]
  | .ack notificationId =>
      .object [("type", .string "Ack"),
        ("payload", .object [("notification_id", .string (F.uuid notificationId))])]

def ClientMessage.ofJson : Json → Option ClientMessage :=
  Json.adjacentlyTagged "type" "payload" (fun name content =>
    match name, content with
    | "Subscribe", some v => (v.asObject (required "channels" Json.asStrings)).map .subscribe
    | "Unsubscribe", some v => (v.asObject (required "channels" Json.asStrings)).map .unsubscribe
    | "Ping", none => some .ping
    | "Ping", some .null => some .ping
    | "Ack", some v => (v.asObject (required "notification_id" (Json.asUuid F))).map .ack
    | _, _ => none)

/-- The tag of a message. -/
def ServerMessage.tag : ServerMessage → String
  | .notification _ => "notification"
  | .subscribed _ => "subscribed"
  | .unsubscribed _ => "unsubscribed"
  | .pong => "pong"
  | .heartbeat => "heartbeat"
  | .acked _ => "acked"
  | .error _ _ => "error"
  | .shutdown _ _ => "shutdown"

/-- The fields of a message beside its tag. -/
def ServerMessage.fields : ServerMessage → List (String × Json)
  | .notification event => event.fields F
  | .subscribed channels => [("payload", .strings channels)]
  | .unsubscribed channels => [("payload", .strings channels)]
  | .pong => []
  | .heartbeat => []
  | .acked notificationId => [("notification_id", .string (F.uuid notificationId))]
  | .error code message => [("code", .string code), ("message", .string message)]
  | .shutdown reason reconnectAfterSeconds =>
      ("reason", .string reason) :: skipNone "reconnect_after_seconds" (reconnectAfterSeconds.map Json.nat)

def ServerMessage.toJson (m : ServerMessage) : Json := .object (("type", .string m.tag) :: m.fields F)

/-- Read the variant with the given tag from the other fields. -/
def ServerMessage.ofFields (name : String) (fs : List (String × Json)) : Option ServerMessage :=
  match name with
  | "notification" => (NotificationEvent.ofFields F fs).map .notification
  | "subscribed" => (required "payload" Json.asStrings fs).map .subscribed
  | "unsubscribed" => (required "payload" Json.asStrings fs).map .unsubscribed
  | "pong" => some .pong
  | "heartbeat" => some .heartbeat
  | "acked" => (required "notification_id" (Json.asUuid F) fs).map .acked
  | "error" => do
      let code ← required "code" Json.asString fs
      let message ← required "message" Json.asString fs
      some (.error code message)
  | "shutdown" => do
      let reason ← required "reason" Json.asString fs
      let seconds ← omittable "reconnect_after_seconds" (Json.asOption (Json.asUnsigned 64)) fs
      some (.shutdown reason seconds)
  | _ => none

def ServerMessage.ofJson : Json → Option ServerMessage := Json.internallyTagged "type" (ofFields F)

end messages

/-! ### Records -/

section records
variable (F : TextForms)

/-- `StoredMessage` with the identifier in the stream, which only the Redis backend sets. -/
structure StoredRecord extends StoredMessage where
  streamId : Option String

def StoredRecord.toJson (m : StoredRecord) : Json :=
  .object ([("id", .string (F.uuid m.id)), ("event", m.event.toJson F),
    ("queued_at", .string (F.dateTime m.queuedAt)), ("attempts", .nat m.attempts)] ++
    skipNone "stream_id" (m.streamId.map Json.string))

def StoredRecord.ofJson : Json → Option StoredRecord :=
  Json.asObject (fun fs => do
    let id ← required "id" (Json.asUuid F) fs
    let event ← required "event" (NotificationEvent.ofJson F) fs
    let queuedAt ← required "queued_at" (Json.asDateTime F) fs
    let attempts ← required "attempts" (Json.asUnsigned 32) fs
    let streamId ← omittable "stream_id" (Json.asOption Json.asString) fs
    some ⟨⟨id, event, queuedAt, attempts⟩, streamId⟩)

def RoutedMessage.toJson (m : RoutedMessage) : Json :=
  .object [("user_id", .string m.userId), ("tenant_id", .string m.tenantId),
    ("connection_id", .orNull (m.connectionId.map (fun u => .string (F.uuid u)))), ("payload", .string m.payload),
    ("from_server", .string m.fromServer), ("to_server", .orNull (m.toServer.map .string))]

def RoutedMessage.ofJson : Json → Option RoutedMessage :=
  Json.asObject (fun fs => do
    let userId ← required "user_id" Json.asString fs
    let tenantId ← required "tenant_id" Json.asString fs
    let connectionId ← omittable "connection_id" (Json.asOption (Json.asUuid F)) fs
    let payload ← required "payload" Json.asString fs
    let fromServer ← required "from_server" Json.asString fs
    let toServer ← omittable "to_server" (Json.asOption Json.asString) fs
    some ⟨userId, tenantId, connectionId, payload, fromServer, toServer⟩)

def SessionInfo.toJson (s : SessionInfo) : Json :=
  .object [("connection_id", .string (F.uuid s.connectionId)), ("user_id", .string s.userId),
    ("tenant_id", .string s.tenantId), ("server_id", .string s.serverId), ("connected_at", .int s.connectedAt),
    ("channels", .strings s.channels)]

def SessionInfo.ofJson : Json → Option SessionInfo :=
  Json.asObject (fun fs => do
    let connectionId ← required "connection_id" (Json.asUuid F) fs
    let userId ← required "user_id" Json.asString fs
    let tenantId ← required "tenant_id" Json.asString fs
    let serverId ← required "server_id" Json.asString fs
    let connectedAt ← required "connected_at" Json.asI64 fs
    let channels ← required "channels" Json.asStrings fs
    some ⟨connectionId, userId, tenantId, serverId, connectedAt, channels⟩)

def PendingAckInfo.toJson (p : PendingAckInfo) : Json :=
  .object [("notification_id", .string (F.uuid p.notificationId)), ("user_id", .string p.userId),
    ("connection_id", .string (F.uuid p.connectionId)), ("sent_at", .string (F.dateTime p.sentAt))]

def PendingAckInfo.ofJson : Json → Option PendingAckInfo :=
  Json.asObject (fun fs => do
    let notificationId ← required "notification_id" (Json.asUuid F) fs
    let userId ← required "user_id" Json.asString fs
    let connectionId ← required "connection_id" (Json.asUuid F) fs
    let sentAt ← required "sent_at" (Json.asDateTime F) fs
    some ⟨notificationId, userId, connectionId, sentAt⟩)

end records

/-! ### What is written is read -/

/-- The numbers of an event are in the range of their types. -/
def NotificationMetadata.Representable (m : NotificationMetadata) : Prop := ∀ ttl ∈ m.ttl, ttl < 2 ^ 32

/-- The numbers of a message are in the range of their types. -/
def ServerMessage.Representable : ServerMessage → Prop
  | .notification event => event.metadata.Representable
  | .shutdown _ reconnectAfterSeconds => ∀ seconds ∈ reconnectAfterSeconds, seconds < 2 ^ 64
  | _ => True

/-- The numbers of a stored message are in the range of their types. -/
structure StoredRecord.Representable (m : StoredRecord) : Prop where
  event : m.event.metadata.Representable
  attempts : m.attempts < 2 ^ 32

/-- The time of a session is in the range of its type. -/
def SessionInfo.Representable (s : SessionInfo) : Prop := -2 ^ 63 ≤ s.connectedAt ∧ s.connectedAt < 2 ^ 63

section reading
variable {F : TextForms} {α : Type}

namespace Json

@[simp] theorem asString_string (s : String) : asString (.string s) = some s := rfl

@[simp] theorem asStrings_strings (xs : List String) : asStrings (strings xs) = some xs := by
  show (xs.map Json.string).mapM asString = some xs
  induction xs with
  | nil => rfl
  | cons x xs ih => simp [ih]

theorem asUnsigned_nat {bits n : ℕ} (h : n < 2 ^ bits) : asUnsigned bits (nat n) = some n := by
  have hrange : (0 : ℤ) ≤ n ∧ (n : ℤ) < 2 ^ bits := ⟨Int.natCast_nonneg n, by exact_mod_cast h⟩
  rw [nat, asUnsigned, if_pos hrange, Int.toNat_natCast]

theorem asOption_ne_null {decode : Json → Option α} {v : Json} (h : v ≠ .null) :
    asOption decode v = (decode v).map some := by
  cases v <;> first | exact absurd rfl h | rfl

theorem asUuid_text (hF : F.RoundTrip) (u : Uuid) : asUuid F (.string (F.uuid u)) = some u := hF.uuid u

theorem asDateTime_text (hF : F.RoundTrip) (t : DateTime) : asDateTime F (.string (F.dateTime t)) = some t :=
  hF.dateTime t

/-- A value that may be missing is read as it was written, also as `null`. -/
theorem omittable_orNull {k : String} {decode : Json → Option α} {o : Option α} {encode : α → Json}
    {fs : List (String × Json)} (h : values k fs = [orNull (o.map encode)])
    (hread : ∀ a ∈ o, asOption decode (encode a) = some (some a)) :
    omittable k (asOption decode) fs = some o := by
  rw [omittable, h]
  cases o with
  | none => rfl
  | some a => exact hread a rfl

end Json

@[simp] theorem Priority.ofJson_toJson (p : Priority) : Priority.ofJson p.toJson = some p := by
  cases p <;> rfl

@[simp] theorem Audience.ofJson_toJson (a : Audience) : Audience.ofJson a.toJson = some a := by
  cases a <;> simp [Audience.ofJson, Audience.toJson, Json.adjacentlyTagged, required]

theorem NotificationMetadata.ofJson_toJson {m : NotificationMetadata} (h : m.Representable) :
    NotificationMetadata.ofJson m.toJson = some m := by
  have httl : ∀ t ∈ m.ttl, Json.asOption (Json.asUnsigned 32) (Json.nat t) = some (some t) := fun t ht => by
    rw [Json.asOption_ne_null (by simp [Json.nat]), Json.asUnsigned_nat (h t ht)]
    rfl
  have haudience : ∀ a ∈ m.audience, Json.asOption Audience.ofJson a.toJson = some (some a) := fun a _ => by
    rw [Json.asOption_ne_null (by cases a <;> simp [Audience.toJson]), Audience.ofJson_toJson]
    rfl
  have hcorrelation : ∀ c ∈ m.correlationId, Json.asOption Json.asString (.string c) = some (some c) := fun _ _ => rfl
  simp only [NotificationMetadata.ofJson, NotificationMetadata.toJson, Json.asObject]
  rw [required_eq (v := .string m.source) (by simp), required_eq (v := m.priority.toJson) (by simp),
    omittable_eq (o := m.ttl) (by simp) httl, omittable_eq (o := m.audience) (by simp) haudience,
    omittable_eq (o := m.correlationId) (by simp) hcorrelation]
  simp

/-- The fields of an event are read among others, if these have other names. -/
theorem NotificationEvent.ofFields_eq (hF : F.RoundTrip) {e : NotificationEvent} (h : e.metadata.Representable)
    {fs : List (String × Json)}
    (hfs : ∀ k ∈ ["id", "occurred_at", "event_type", "payload", "metadata"], values k fs = values k (e.fields F)) :
    NotificationEvent.ofFields F fs = some e := by
  unfold NotificationEvent.ofFields
  rw [required_eq (v := .string (F.uuid e.id)) ((hfs "id" (by simp)).trans (by simp [fields])),
    required_eq (v := .string (F.dateTime e.occurredAt)) ((hfs "occurred_at" (by simp)).trans (by simp [fields])),
    required_eq (v := .string e.eventType) ((hfs "event_type" (by simp)).trans (by simp [fields])),
    required_eq (v := e.payload) ((hfs "payload" (by simp)).trans (by simp [fields])),
    required_eq (v := e.metadata.toJson) ((hfs "metadata" (by simp)).trans (by simp [fields])),
    Json.asUuid_text hF, Json.asDateTime_text hF, NotificationMetadata.ofJson_toJson h]
  rfl

theorem NotificationEvent.ofJson_toJson (hF : F.RoundTrip) {e : NotificationEvent} (h : e.metadata.Representable) :
    NotificationEvent.ofJson F (e.toJson F) = some e :=
  ofFields_eq hF h (fun _ _ => rfl)

theorem ClientMessage.ofJson_toJson (hF : F.RoundTrip) (m : ClientMessage) :
    ClientMessage.ofJson F (m.toJson F) = some m := by
  cases m <;>
    simp [ClientMessage.ofJson, ClientMessage.toJson, Json.adjacentlyTagged, Json.asObject, required,
      Json.asUuid_text hF]

theorem ServerMessage.ofFields_eq (hF : F.RoundTrip) {m : ServerMessage} (h : m.Representable) :
    ServerMessage.ofFields F m.tag (without "type" (("type", .string m.tag) :: m.fields F)) = some m := by
  cases m with
  | notification event =>
      have hevent : NotificationEvent.ofFields F
          (without "type" (("type", .string "notification") :: event.fields F)) = some event :=
        NotificationEvent.ofFields_eq hF h (fun k hk => by
          fin_cases hk <;> simp [NotificationEvent.fields])
      simp only [ServerMessage.ofFields, ServerMessage.tag, ServerMessage.fields, hevent, Option.map_some]
  | shutdown reason seconds =>
      have hseconds : ∀ n ∈ seconds, Json.asOption (Json.asUnsigned 64) (Json.nat n) = some (some n) := fun n hn => by
        rw [Json.asOption_ne_null (by simp [Json.nat]), Json.asUnsigned_nat (h n hn)]
        rfl
      simp only [ServerMessage.ofFields, ServerMessage.tag, ServerMessage.fields]
      rw [required_eq (v := .string reason) (by simp), omittable_eq (o := seconds) (by simp) hseconds]
      rfl
  | _ => simp [ServerMessage.ofFields, ServerMessage.tag, ServerMessage.fields, required, Json.asUuid_text hF]

theorem ServerMessage.ofJson_toJson (hF : F.RoundTrip) {m : ServerMessage} (h : m.Representable) :
    ServerMessage.ofJson F (m.toJson F) = some m := by
  simp only [ServerMessage.ofJson, ServerMessage.toJson, Json.internallyTagged]
  rw [required_eq (v := .string m.tag)]
  · exact ofFields_eq hF h
  · cases m <;> simp [ServerMessage.fields, NotificationEvent.fields]

/-- A variant is read only for its own tag. -/
theorem ServerMessage.tag_of_ofFields {name : String} {fs : List (String × Json)} {m : ServerMessage}
    (h : ServerMessage.ofFields F name fs = some m) : m.tag = name := by
  unfold ServerMessage.ofFields at h
  split at h
  · obtain ⟨event, -, rfl⟩ := Option.map_eq_some_iff.mp h
    rfl
  · obtain ⟨channels, -, rfl⟩ := Option.map_eq_some_iff.mp h
    rfl
  · obtain ⟨channels, -, rfl⟩ := Option.map_eq_some_iff.mp h
    rfl
  · obtain rfl := Option.some.inj h
    rfl
  · obtain rfl := Option.some.inj h
    rfl
  · obtain ⟨notificationId, -, rfl⟩ := Option.map_eq_some_iff.mp h
    rfl
  · obtain ⟨code, -, h⟩ := Option.bind_eq_some_iff.mp h
    obtain ⟨message, -, h⟩ := Option.bind_eq_some_iff.mp h
    obtain rfl := Option.some.inj h
    rfl
  · obtain ⟨reason, -, h⟩ := Option.bind_eq_some_iff.mp h
    obtain ⟨seconds, -, h⟩ := Option.bind_eq_some_iff.mp h
    obtain rfl := Option.some.inj h
    rfl
  · exact absurd h (by simp)

/-- What a message is written to is read as a message of the same variant, if at all. -/
theorem ServerMessage.tag_of_ofJson {m m' : ServerMessage} (h : ServerMessage.ofJson F (m.toJson F) = some m') :
    m'.tag = m.tag := by
  simp only [ServerMessage.ofJson, ServerMessage.toJson, Json.internallyTagged] at h
  rw [required_eq (v := .string m.tag)] at h
  · exact tag_of_ofFields h
  · cases m <;> simp [ServerMessage.fields, NotificationEvent.fields]

theorem StoredRecord.ofJson_toJson (hF : F.RoundTrip) {m : StoredRecord} (h : m.Representable) :
    StoredRecord.ofJson F (m.toJson F) = some m := by
  have hstream : ∀ i ∈ m.streamId, Json.asOption Json.asString (.string i) = some (some i) := fun _ _ => rfl
  simp only [StoredRecord.ofJson, StoredRecord.toJson, Json.asObject]
  rw [required_eq (v := .string (F.uuid m.id)) (by simp), required_eq (v := m.event.toJson F) (by simp),
    required_eq (v := .string (F.dateTime m.queuedAt)) (by simp), required_eq (v := .nat m.attempts) (by simp),
    omittable_eq (o := m.streamId) (by simp) hstream, Json.asUuid_text hF, Json.asDateTime_text hF,
    NotificationEvent.ofJson_toJson hF h.event, Json.asUnsigned_nat h.attempts]
  rfl

theorem RoutedMessage.ofJson_toJson (hF : F.RoundTrip) (m : RoutedMessage) :
    RoutedMessage.ofJson F (m.toJson F) = some m := by
  have hconnection : ∀ u ∈ m.connectionId, Json.asOption (Json.asUuid F) (.string (F.uuid u)) = some (some u) :=
    fun u _ => by
      rw [Json.asOption_ne_null (by simp), Json.asUuid_text hF]
      rfl
  have hserver : ∀ i ∈ m.toServer, Json.asOption Json.asString (.string i) = some (some i) := fun _ _ => rfl
  simp only [RoutedMessage.ofJson, RoutedMessage.toJson, Json.asObject]
  rw [required_eq (v := .string m.userId) (by simp), required_eq (v := .string m.tenantId) (by simp),
    Json.omittable_orNull (o := m.connectionId) (by simp) hconnection,
    required_eq (v := .string m.payload) (by simp), required_eq (v := .string m.fromServer) (by simp),
    Json.omittable_orNull (o := m.toServer) (by simp) hserver]
  rfl

theorem SessionInfo.ofJson_toJson (hF : F.RoundTrip) {s : SessionInfo} (h : s.Representable) :
    SessionInfo.ofJson F (s.toJson F) = some s := by
  have hconnected : Json.asI64 (.int s.connectedAt) = some s.connectedAt := by
    have hrange : -2 ^ 63 ≤ s.connectedAt ∧ s.connectedAt < 2 ^ 63 := h
    rw [Json.asI64, if_pos hrange]
  simp only [SessionInfo.ofJson, SessionInfo.toJson, Json.asObject]
  rw [required_eq (v := .string (F.uuid s.connectionId)) (by simp), required_eq (v := .string s.userId) (by simp),
    required_eq (v := .string s.tenantId) (by simp), required_eq (v := .string s.serverId) (by simp),
    required_eq (v := .int s.connectedAt) (by simp), required_eq (v := .strings s.channels) (by simp),
    Json.asUuid_text hF, Json.asStrings_strings, hconnected]
  rfl

theorem PendingAckInfo.ofJson_toJson (hF : F.RoundTrip) (p : PendingAckInfo) :
    PendingAckInfo.ofJson F (p.toJson F) = some p := by
  simp only [PendingAckInfo.ofJson, PendingAckInfo.toJson, Json.asObject]
  rw [required_eq (v := .string (F.uuid p.notificationId)) (by simp), required_eq (v := .string p.userId) (by simp),
    required_eq (v := .string (F.uuid p.connectionId)) (by simp),
    required_eq (v := .string (F.dateTime p.sentAt)) (by simp), Json.asUuid_text hF, Json.asUuid_text hF,
    Json.asDateTime_text hF]
  rfl

end reading

/-! ### Texts -/

/-- The text of a JSON value. -/
structure JsonText where
  render : Json → String
  parse : String → Option Json

/-- A value is read from its text. -/
def JsonText.Preserves (T : JsonText) (v : Json) : Prop := T.parse (T.render v) = some v

/-- `serde_json` on a type, with these texts. -/
def JsonText.serde {α : Type} (T : JsonText) (toJson : α → Json) (ofJson : Json → Option α) : Serde α String where
  write a := some (T.render (toJson a))
  read text := (T.parse text).bind ofJson

/-- `serde_json` on what the servers exchange. -/
def JsonText.routing (T : JsonText) (F : TextForms) : RoutingSerde where
  message := T.serde (ServerMessage.toJson F) (ServerMessage.ofJson F)
  routed := T.serde (RoutedMessage.toJson F) (RoutedMessage.ofJson F)

section texts
variable {F : TextForms} {T : JsonText} {α : Type}

theorem JsonText.reads {toJson : α → Json} {ofJson : Json → Option α} {a : α} (hT : T.Preserves (toJson a))
    (h : ofJson (toJson a) = some a) : (T.serde toJson ofJson).Reads a := by
  show ((T.parse (T.render (toJson a))).bind ofJson) = some a
  rw [hT, Option.bind_some, h]

/-- A message in the payload of a routed message is read again. -/
def RoutingSerde.Nested (S : RoutingSerde) (m : ServerMessage) (r : RoutedMessage) : Prop :=
  ∃ payload text, S.message.write m = some payload ∧ S.routed.write { r with payload := payload } = some text ∧
    (S.routed.read text).bind (fun r' => S.message.read r'.payload) = some m

theorem JsonText.nested (hF : F.RoundTrip) {m : ServerMessage} (h : m.Representable) (r : RoutedMessage)
    (hT : T.Preserves (m.toJson F))
    (hT' : T.Preserves (({ r with payload := T.render (m.toJson F) } : RoutedMessage).toJson F)) :
    (T.routing F).Nested m r := by
  refine ⟨_, _, rfl, rfl, ?_⟩
  have hrouted : (T.routing F).routed.Reads { r with payload := T.render (m.toJson F) } :=
    JsonText.reads hT' (RoutedMessage.ofJson_toJson hF _)
  have hmessage : (T.routing F).message.Reads m := JsonText.reads hT (ServerMessage.ofJson_toJson hF h)
  have hread : (T.routing F).routed.read (T.render (({ r with payload := T.render (m.toJson F) } :
      RoutedMessage).toJson F)) = some { r with payload := T.render (m.toJson F) } := hrouted
  rw [hread]
  exact hmessage

end texts

/-- **Wire formats round-trip.**  Every message, record and request in the range of its types is read as it
was written; a message is never read as one of another variant; and a message in the payload of a routed
message is read again, when their texts are those of the values. -/
theorem wire_round_trips (F : TextForms) (hF : F.RoundTrip) :
    (∀ m : ServerMessage, m.Representable → ServerMessage.ofJson F (m.toJson F) = some m) ∧
    (∀ m m' : ServerMessage, ServerMessage.ofJson F (m.toJson F) = some m' → m'.tag = m.tag) ∧
    (∀ m : ClientMessage, ClientMessage.ofJson F (m.toJson F) = some m) ∧
    (∀ m : RoutedMessage, RoutedMessage.ofJson F (m.toJson F) = some m) ∧
    (∀ m : StoredRecord, m.Representable → StoredRecord.ofJson F (m.toJson F) = some m) ∧
    (∀ s : SessionInfo, s.Representable → SessionInfo.ofJson F (s.toJson F) = some s) ∧
    (∀ p : PendingAckInfo, PendingAckInfo.ofJson F (p.toJson F) = some p) ∧
    ∀ (T : JsonText) (m : ServerMessage) (r : RoutedMessage), m.Representable → T.Preserves (m.toJson F) →
      T.Preserves (({ r with payload := T.render (m.toJson F) } : RoutedMessage).toJson F) →
        (T.routing F).Nested m r :=
  ⟨fun _ h => ServerMessage.ofJson_toJson hF h, fun _ _ h => ServerMessage.tag_of_ofJson h,
    fun m => ClientMessage.ofJson_toJson hF m, fun m => RoutedMessage.ofJson_toJson hF m,
    fun _ h => StoredRecord.ofJson_toJson hF h, fun _ h => SessionInfo.ofJson_toJson hF h,
    fun p => PendingAckInfo.ofJson_toJson hF p, fun _ _ r h hT hT' => JsonText.nested hF h r hT hT'⟩

/-- A number in decimal digits. -/
def decimal (n : ℕ) : String := String.ofList (Nat.toDigits 10 n)

/-- The number that a text has as its digits. -/
def readDecimal (s : String) : ℕ := Nat.ofDigitChars 10 s.toList 0

theorem readDecimal_decimal (n : ℕ) : readDecimal (decimal n) = n := by
  simp [readDecimal, decimal]

theorem decimal_ne {s : String} (h : '-' ∈ s.toList) (n : ℕ) : decimal n ≠ s := by
  rintro rfl
  have hdigit : '-' ∈ Nat.toDigits 10 n := by simpa [decimal] using h
  exact Digits.not_mem_toDigits (by decide) (by decide) n hdigit

/-- The texts of the identifier 7 and of the epoch; for others a number is enough. -/
def sampleForms : TextForms where
  uuid u := if u = 7 then "00000000-0000-0000-0000-000000000007" else decimal u
  parseUuid s := if s = "00000000-0000-0000-0000-000000000007" then some 7 else some (readDecimal s)
  dateTime t := if t = 0 then "1970-01-01T00:00:00Z" else decimal (Equiv.intEquivNat t)
  parseDateTime s :=
    if s = "1970-01-01T00:00:00Z" then some 0 else some (Equiv.intEquivNat.symm (readDecimal s))

theorem sampleForms_roundTrip : sampleForms.RoundTrip where
  uuid u := by
    by_cases hu : u = 7
    · subst hu
      rfl
    · have hother := decimal_ne (s := "00000000-0000-0000-0000-000000000007") (by decide) u
      simp [sampleForms, hu, hother, readDecimal_decimal]
  dateTime t := by
    by_cases ht : t = 0
    · subst ht
      rfl
    · have hother := decimal_ne (s := "1970-01-01T00:00:00Z") (by decide) (Equiv.intEquivNat t)
      simp [sampleForms, ht, hother, readDecimal_decimal]

/-- A heartbeat for a connection of `alice` on another server. -/
def routedHeartbeat : RoutedMessage := ⟨"alice", "acme", none, heartbeatJson, "ara-1", some "ara-2"⟩

/-- The texts of the heartbeat and of the routed message with it. -/
def sampleText : JsonText where
  render
    | .object (("type", _) :: _) => heartbeatJson
    | _ => routedJson routedHeartbeat
  parse text :=
    if text = heartbeatJson then some (ServerMessage.heartbeat.toJson sampleForms)
    else if text = routedJson routedHeartbeat then some (routedHeartbeat.toJson sampleForms)
    else none

/-- An event for administrators within a minute. -/
def diskFull : NotificationEvent :=
  ⟨7, 0, "disk.full", .object [("type", .string "disk")], ⟨"http-api", .high, some 60, some (.roles ["admin"]), none⟩⟩

/-- The event is read by a client as it was sent, and the heartbeat by the other server. -/
theorem wire_round_trips_sample :
    ServerMessage.ofJson sampleForms ((ServerMessage.notification diskFull).toJson sampleForms) =
        some (.notification diskFull) ∧
      (sampleText.routing sampleForms).Nested .heartbeat routedHeartbeat := by
  obtain ⟨hmessage, -, -, -, -, -, -, hnested⟩ := wire_round_trips sampleForms sampleForms_roundTrip
  refine ⟨hmessage _ ?_, hnested sampleText .heartbeat routedHeartbeat trivial rfl ?_⟩
  · intro ttl httl
    obtain rfl := Option.some.inj httl
    decide
  · show sampleText.parse (routedJson routedHeartbeat) = some (routedHeartbeat.toJson sampleForms)
    have hother : routedJson routedHeartbeat ≠ heartbeatJson := by decide +kernel
    simp only [sampleText, if_neg hother, if_true]

end AraNotification
