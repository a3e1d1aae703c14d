import AraNotification.ConcurrentSend
import AraNotification.WireFormat

/-! # The frames of an event stream

`create_sse_stream` turns each outbound message of a connection into a frame, whose event type comes from
the kind of the message and whose data is its text (`domain/realtime/sse/handler.rs`).  A pre-serialized
message has no kind any more, and its frame is always a `notification`.

So the data of a frame is the same on all ways (`toJson_outboundFor`), but its event type is not: the two
forms of a message have the same frame exactly when the message is a notification, or cannot be
serialized and thus has no second form (`sameFrames_iff`).  What the dispatcher sends are notifications,
and the heartbeat task pre-serializes what is none. -/

namespace AraNotification

/-- A server-sent event. -/
structure SseFrame where
  event : String
  data : String
deriving DecidableEq, Repr

/-- The event type of a message. -/
def WireMessage.eventType : WireMessage → String
  | .raw (.notification _) => "notification"
  | .raw .heartbeat => "heartbeat"
  | .raw (.error _ _) => "error"
  | .raw _ => "message"
  | .serialized _ => "notification"

/-- The message is a notification. -/
def ServerMessage.isNotification : ServerMessage → Bool
  | .notification _ => true
  | _ => false

namespace SseFrame
variable {ε : Type} (serialize : ServerMessage → Except ε String) (display : ε → String)

/-- The frame of a message; a message that cannot be serialized is an error for the client. -/
def ofMessage (msg : WireMessage) : SseFrame :=
  match msg.toJson serialize with
  | .ok json => ⟨msg.eventType, json⟩
  | .error e => ⟨"error", "\x7b\"code\":\"SERIALIZATION_ERROR\",\"message\":\"" ++ display e ++ "\"\x7d"⟩

/-- The frames of a connection: the `connected` event, and then one for each message. -/
def createSseStream (connectedJson : String) (messages : List WireMessage) : List SseFrame :=
  ⟨"connected", connectedJson⟩ :: messages.map (ofMessage serialize display)

/-- A form in which a message is sent. -/
def Form (message : ServerMessage) (msg : WireMessage) : Prop :=
  msg = .raw message ∨ WireMessage.preserialized serialize message = .ok msg

/-- A message has the same frame in both forms, and for every number of connections it is sent to. -/
structure SameFrames (message : ServerMessage) : Prop where
  preserialized : ∀ msg, WireMessage.preserialized serialize message = .ok msg →
    ofMessage serialize display msg = ofMessage serialize display (.raw message)
  fanOut : ∀ n n', ofMessage serialize display (outboundFor serialize n message) =
    ofMessage serialize display (outboundFor serialize n' message)

/-- The message is a notification, or it has only one form. -/
def Named (message : ServerMessage) : Prop :=
  message.isNotification = true ∨ ∃ e, serialize message = .error e

variable {serialize display} {message : ServerMessage} {msg : WireMessage}

/-- The event type of a raw message is that of a pre-serialized one exactly for notifications. -/
theorem eventType_raw_eq_iff : (WireMessage.raw message).eventType = "notification" ↔ message.isNotification = true := by
  cases message <;> simp [WireMessage.eventType, ServerMessage.isNotification]

theorem preserialized_eq_ok_iff : WireMessage.preserialized serialize message = .ok msg ↔
    ∃ json, serialize message = .ok json ∧ msg = .serialized json := by
  unfold WireMessage.preserialized
  cases serialize message with
  | ok json => simp [Except.map, eq_comm]
  | error e => simp [Except.map]

/-- Every form of a message has a frame with the text of the message. -/
theorem Form.toJson (h : Form serialize message msg) : msg.toJson serialize = serialize message := by
  rcases h with rfl | h
  · rfl
  · obtain ⟨json, hjson, rfl⟩ := preserialized_eq_ok_iff.mp h
    exact hjson.symm

/-- The frame of a form does not depend on the form for a message that keeps its event type. -/
theorem ofMessage_of_named (hnamed : Named serialize message) (h : Form serialize message msg) :
    ofMessage serialize display msg = ofMessage serialize display (.raw message) := by
  rcases h with rfl | h
  · rfl
  obtain ⟨json, hjson, rfl⟩ := preserialized_eq_ok_iff.mp h
  rcases hnamed with hnotification | ⟨e, he⟩
  · have htype := eventType_raw_eq_iff.mpr hnotification
    simp only [ofMessage, WireMessage.toJson, hjson, htype]
    rfl
  · rw [he] at hjson
    cases hjson

/-- A message that can be serialized and is not a notification has two frames. -/
theorem named_of_ofMessage_eq (h : ∀ msg, WireMessage.preserialized serialize message = .ok msg →
    ofMessage serialize display msg = ofMessage serialize display (.raw message)) : Named serialize message := by
  cases hjson : serialize message with
  | error e => exact .inr ⟨e, hjson⟩
  | ok json =>
      have hframe := h _ (preserialized_eq_ok_iff.mpr ⟨json, hjson, rfl⟩)
      simp only [ofMessage, WireMessage.toJson, hjson, SseFrame.mk.injEq, and_true] at hframe
      exact .inl (eventType_raw_eq_iff.mp hframe.symm)

/-- What the dispatcher sends to a connection is a form of the message. -/
theorem form_outboundFor (n : ℕ) : Form serialize message (outboundFor serialize n message) := by
  unfold outboundFor WireMessage.shared
  split_ifs
  · exact .inl rfl
  · split
    · exact .inr ‹_›
    · exact .inl rfl
  · exact .inl rfl

/-- **Pre-serialization does not change the frame of a message if and only if the message is a
notification, or cannot be serialized.** -/
theorem sameFrames_iff : SameFrames serialize display message ↔ Named serialize message := by
  refine ⟨fun h => named_of_ofMessage_eq h.preserialized, fun h => ⟨?_, ?_⟩⟩
  · exact fun msg hmsg => ofMessage_of_named h (.inr hmsg)
  · intro n n'
    rw [ofMessage_of_named h (form_outboundFor n), ofMessage_of_named h (form_outboundFor n')]

/-- The heartbeat of the heartbeat task is a notification for the client. -/
theorem not_sameFrames_heartbeat : ¬ ∀ message,
    SameFrames (fun m => (.ok (sampleText.render (m.toJson sampleForms)) : Except String String)) id message := by
  intro hall
  have hframe := (hall .heartbeat).preserialized (.serialized heartbeatJson) rfl
  exact absurd (congrArg SseFrame.event hframe) (by decide)

/-- A stream does not depend on the forms in which its messages are sent exactly when this holds of each
of them. -/
theorem createSseStream_eq_iff (connectedJson : String) (messages : List ServerMessage) :
    (∀ sent, List.Forall₂ (Form serialize) messages sent →
      createSseStream serialize display connectedJson sent =
        createSseStream serialize display connectedJson (messages.map .raw)) ↔
      ∀ m ∈ messages, Named serialize m := by
  simp only [createSseStream, List.cons.injEq, true_and]
  induction messages with
  | nil => simp
  | cons m messages ih =>
      rw [List.forall_mem_cons, ← ih]
      constructor
      · intro h
        have hraw : List.Forall₂ (Form serialize) messages (messages.map .raw) :=
          List.forall₂_map_right_iff.mpr (List.forall₂_same.mpr (fun m _ => .inl rfl))
        have hframe : ∀ msg, WireMessage.preserialized serialize m = .ok msg →
            ofMessage serialize display msg = ofMessage serialize display (.raw m) :=
          fun msg hmsg => (List.cons.inj (h (msg :: messages.map .raw) (.cons (.inr hmsg) hraw))).1
        refine ⟨named_of_ofMessage_eq hframe, fun sent hsent => ?_⟩
        exact (List.cons.inj (h (.raw m :: sent) (.cons (.inl rfl) hsent))).2
      · rintro ⟨hnamed, h⟩ _ (_ | ⟨hform, hsent⟩)
        simp only [List.map_cons, ofMessage_of_named hnamed hform, h _ hsent]

end SseFrame

end AraNotification
