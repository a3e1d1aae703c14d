import AraNotification.Dispatcher
import AraNotification.Lib.BoundedPool

/-! # Sending with bounded parallelism

`send_to_connections` sends to up to three connections one after the other.  For more it serializes the
message once and puts a future for each connection into a set, which it keeps small by a counter of its
own; the futures complete in any order, and the bookkeeping of a send follows when its future completes.

The set with its counter is a pool of bounded width (`Lib/BoundedPool.lean`), in which every future makes
one send.  `sendToConnections_accounted` says that every connection of the list is accounted for, and
`reaches_sendToConnections` that such a run does to the dispatcher what `Dispatcher.sendToConnections`
does for the order in which the futures complete.  The text that is written is the same on all ways
(`toJson_outboundFor`). -/

namespace AraNotification

open Dispatcher BoundedPool

/-! ### The text of a message -/

/-- Outbound message with the text that it carries. -/
inductive WireMessage where
  | raw (message : ServerMessage)
  | serialized (json : String)

section wire
variable {ε : Type} (serialize : ServerMessage → Except ε String)

/-- Create a pre-serialized message. -/
def WireMessage.preserialized (message : ServerMessage) : Except ε WireMessage :=
  (serialize message).map .serialized

/-- Convert to a JSON string: the pre-serialized one, or by serializing the raw message. -/
def WireMessage.toJson : WireMessage → Except ε String
  | .raw message => serialize message
  | .serialized json => .ok json

/-- Serialize once; if that fails, every connection serializes for itself. -/
def WireMessage.shared (message : ServerMessage) : WireMessage :=
  match WireMessage.preserialized serialize message with
  | .ok msg => msg
  | .error _ => .raw message

/-- What each of `n` connections is sent. -/
def outboundFor (n : ℕ) (message : ServerMessage) : WireMessage :=
  if n ≤ 3 then .raw message
  else if n ≥ preserializationThreshold then .shared serialize message
  else .raw message

/-- The outbound messages of the dispatcher model with their texts. -/
def OutboundMessage.wire : OutboundMessage → WireMessage
  | .raw message => .raw message
  | .serialized message => .shared serialize message

variable {serialize} {message : ServerMessage}

theorem toJson_shared : (WireMessage.shared serialize message).toJson serialize = serialize message := by
  unfold WireMessage.shared WireMessage.preserialized
  cases hs : serialize message with
  | ok json => rfl
  | error e => exact hs

/-- The text does not depend on the number of connections. -/
theorem toJson_outboundFor (n : ℕ) :
    (outboundFor serialize n message).toJson serialize = serialize message := by
  unfold outboundFor
  split_ifs
  · rfl
  · exact toJson_shared
  · rfl

theorem toJson_wire (m : OutboundMessage) : (m.wire serialize).toJson serialize = serialize m.message := by
  cases m with
  | raw message => rfl
  | serialized message => exact toJson_shared

end wire

/-! ### The bookkeeping of a send -/

/-- A send to a connection and whether it succeeds. -/
structure Send where
  conn : ConnectionHandle
  accepted : Bool
deriving DecidableEq, Repr

/-- The counters and the calls of `track`, with the arguments of each. -/
structure SendCounts where
  delivered : ℕ
  failed : ℕ
  tracked : List (Uuid × String × Uuid)
deriving DecidableEq, Repr

section sends
variable (notificationId : Option Uuid) (tracking : Bool)

/-- The call of `track` for a delivered notification, if acknowledgements are tracked. -/
def trackCall (conn : ConnectionHandle) : List (Uuid × String × Uuid) :=
  match notificationId, tracking with
  | some id, true => [(id, conn.userId, conn.id)]
  | _, _ => []

/-- What is done when a send has succeeded or failed. -/
def finishSend (r : SendCounts) (s : Send) : SendCounts :=
  if s.accepted then
    { r with
      delivered := r.delivered + 1
      tracked := r.tracked ++ trackCall notificationId tracking s.conn }
  else { r with failed := r.failed + 1 }

/-- One step of the concurrent sends. -/
abbrev SendStep : Pool Send SendCounts → Pool Send SendCounts → Prop :=
  Step maxConcurrentSends (finishSend notificationId tracking)

/-- A run of the concurrent sends. -/
abbrev SendReaches : Pool Send SendCounts → Pool Send SendCounts → Prop :=
  Reaches maxConcurrentSends (finishSend notificationId tracking)

/-- The state of the concurrent sends before the first one. -/
def startSends (sends : List Send) : Pool Send SendCounts := start sends ⟨0, 0, []⟩

/-- `send_to_connections` attempts these sends, in this order, and returns with these counts. -/
inductive Returns (sends : List Send) : List Send → SendCounts → Prop
  | empty (h : sends = []) : Returns sends [] ⟨0, 0, []⟩
  | sequential (hne : sends ≠ []) (hfew : sends.length ≤ 3) :
      Returns sends sends (sends.foldl (finishSend notificationId tracking) ⟨0, 0, []⟩)
  | concurrent (hmany : 3 < sends.length) (s : Pool Send SendCounts)
      (hrun : SendReaches notificationId tracking (startSends sends) s) (hdone : s.control = .done) :
      Returns sends s.finished s.acc

/-- Every send has been attempted once and counted, and the successful ones have been tracked. -/
structure SendsAccounted (sends attempted : List Send) (r : SendCounts) : Prop where
  attempted : attempted.Perm sends
  delivered : r.delivered = (sends.filter (·.accepted)).length
  failed : r.failed = (sends.filter (fun s => !s.accepted)).length
  sum : r.delivered + r.failed = sends.length
  tracked : r.tracked.Perm
    ((sends.filter (·.accepted)).flatMap (fun s => trackCall notificationId tracking s.conn))

variable {notificationId tracking} {sends attempted : List Send} {r : SendCounts}

theorem foldl_finishSend (attempted : List Send) (r : SendCounts) :
    attempted.foldl (finishSend notificationId tracking) r =
      ⟨r.delivered + (attempted.filter (·.accepted)).length,
        r.failed + (attempted.filter (fun s => !s.accepted)).length,
        r.tracked ++ (attempted.filter (·.accepted)).flatMap (fun s => trackCall notificationId tracking s.conn)⟩ := by
  induction attempted generalizing r with
  | nil => simp
  | cons s attempted ih =>
      rw [List.foldl_cons, ih]
      cases ha : s.accepted with
      | true => simp [finishSend, ha, Nat.add_comm 1, Nat.add_assoc]
      | false => simp [finishSend, ha, Nat.add_comm 1, Nat.add_assoc]

/-- The bookkeeping of all sends accounts for them, in whichever order it is done. -/
theorem accounted_of_perm (hperm : attempted.Perm sends) : SendsAccounted notificationId tracking sends attempted
    (attempted.foldl (finishSend notificationId tracking) ⟨0, 0, []⟩) := by
  rw [foldl_finishSend]
  simp only [Nat.zero_add, List.nil_append]
  refine ⟨hperm, (hperm.filter _).length_eq, (hperm.filter _).length_eq, ?_, (hperm.filter _).flatMap_right _⟩
  have hsplit := List.length_eq_length_filter_add (l := attempted) (·.accepted)
  rw [← hperm.length_eq]
  exact hsplit.symm

theorem Returns.accounted (h : Returns notificationId tracking sends attempted r) :
    SendsAccounted notificationId tracking sends attempted r := by
  cases h with
  | empty h =>
      subst h
      exact accounted_of_perm (List.Perm.refl [])
  | sequential _ _ => exact accounted_of_perm (List.Perm.refl sends)
  | concurrent _ s hrun hdone =>
      obtain ⟨hperm, hacc⟩ := hrun.ends (by decide) hdone
      exact hacc ▸ accounted_of_perm hperm

theorem exists_returns (sends : List Send) : ∃ attempted r, Returns notificationId tracking sends attempted r := by
  by_cases hne : sends = []
  · exact ⟨_, _, .empty hne⟩
  · by_cases hfew : sends.length ≤ 3
    · exact ⟨_, _, .sequential hne hfew⟩
    · obtain ⟨s, hrun, hdone⟩ := exists_done maxConcurrentSends (finishSend notificationId tracking) (startSends sends)
      exact ⟨_, _, .concurrent (Nat.lt_of_not_le hfew) s hrun hdone⟩

end sends

/-- **Every connection is accounted for.**  For every list of sends with their outcomes: in every state of
the concurrent sends, no more futures than the limit are pending and the counter is right until the last
future is in the set; every run goes on until it is done, and ends.  Whichever way `send_to_connections`
returns, it has attempted every send once, counted it, and tracked the successful ones; and the text of
a message does not depend on the number of connections. -/
theorem sendToConnections_accounted (notificationId : Option Uuid) (tracking : Bool) (sends : List Send) :
    (∀ s, SendReaches notificationId tracking (startSends sends) s →
      Multiset.card s.inFlight ≤ maxConcurrentSends ∧
        (s.control = .push ∨ s.control = .wait → s.pending = Multiset.card s.inFlight) ∧
        (s.control ≠ .done → ∃ s', SendStep notificationId tracking s s')) ∧
    (∀ run : ℕ → Pool Send SendCounts, run 0 = startSends sends →
      ∃ n, ¬SendStep notificationId tracking (run n) (run (n + 1))) ∧
    (∃ attempted r, Returns notificationId tracking sends attempted r) ∧
    (∀ attempted r, Returns notificationId tracking sends attempted r →
      SendsAccounted notificationId tracking sends attempted r) ∧
    ∀ (ε : Type) (serialize : ServerMessage → Except ε String) (message : ServerMessage) (n n' : ℕ),
      (outboundFor serialize n message).toJson serialize = (outboundFor serialize n' message).toJson serialize := by
  refine ⟨fun s hs => ?_, fun run _ => ?_, exists_returns sends, fun _ _ h => h.accounted, ?_⟩
  · have hsound := hs.sound (by decide)
    exact ⟨hsound.bounded, hsound.counted, fun hdone => exists_step _ _ hdone⟩
  · by_contra hall
    have hstep : ∀ n, SendStep notificationId tracking (run n) (run (n + 1)) := by simpa using hall
    exact (wellFounded_iff_isEmpty_descending_chain.mp
      (wellFounded_step maxConcurrentSends (finishSend notificationId tracking))).false ⟨run, hstep⟩
  · intro ε serialize message n n'
    rw [toJson_outboundFor, toJson_outboundFor]

/-- Four sends to one user, of which one fails. -/
def fourSends : List Send :=
  [⟨.new 1 "alice" "acme" [] 0, true⟩, ⟨.new 2 "alice" "acme" [] 0, false⟩, ⟨.new 1 "alice" "acme" [] 0, true⟩,
    ⟨.new 3 "alice" "acme" [] 0, true⟩]

/-- They return with three deliveries and one failure. -/
theorem accounted_fourSends :
    ∃ attempted r, Returns (some 7) true fourSends attempted r ∧ r.delivered = 3 ∧ r.failed = 1 := by
  obtain ⟨-, -, ⟨attempted, r, hreturns⟩, haccounted, -⟩ := sendToConnections_accounted (some 7) true fourSends
  have hr := haccounted attempted r hreturns
  exact ⟨attempted, r, hreturns, hr.delivered, hr.failed⟩

/-! ### The dispatcher -/

section dispatcher
variable {d : Dispatcher} {env : Surroundings} {message : ServerMessage} {notificationId : Option Uuid}
  {conns : List ConnectionHandle}

/-- A run of the concurrent sends does to the dispatcher what the dispatcher model does for the order in
which the futures complete. -/
theorem reaches_sendToConnections (hmany : preserializationThreshold ≤ conns.length)
    {s : Pool ConnectionHandle (Dispatcher × ℕ × ℕ)}
    (hrun : Reaches maxConcurrentSends (sendTo env (.preserialized message) notificationId)
      (start conns (d, 0, 0)) s) (hdone : s.control = .done) :
    ∃ env' : Surroundings, env'.now = env.now ∧ env'.accepts = env.accepts ∧ env'.stamp = env.stamp ∧
      s.acc = d.sendToConnections env' conns message notificationId := by
  obtain ⟨hperm, hacc⟩ := hrun.ends (by decide) hdone
  have horder : ∀ l, (if l = conns then s.finished else l).Perm l := by
    intro l
    split_ifs with hl
    · exact hl ▸ hperm
    · exact List.Perm.refl l
  refine ⟨{ env with completion := fun l => if l = conns then s.finished else l, completion_perm := horder },
    rfl, rfl, rfl, ?_⟩
  rw [sendToConnections, if_neg (Nat.not_lt.mpr hmany)]
  show s.acc = (if conns = conns then s.finished else conns).foldl _ _
  rw [if_pos rfl, hacc]
  rfl

end dispatcher

end AraNotification
