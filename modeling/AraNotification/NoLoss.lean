import AraNotification.QueueIdentity
import AraNotification.Recipients

/-! # Where the notifications of a user go

A dispatch to a user either sends to the connections it has found or, when it finds none,
stores the event.  It does not store an event that none of the connections it has found has
taken: if the receiver of the only connection is gone and the connection is not unregistered
yet, the event is lost (`lost_to_dropped_receiver`).

`LastChance` is the condition that excludes this: when a dispatch comes to the last of the
connections that it has found and no channel has taken its event, the channel of this
connection takes it.  The replay side loses nothing.  A handler replays before anything
could close the channel of its connection (`open_of_reaches`), so that every message that has
been stored is in the queue, was removed from it, is on a channel, or is still in the backlog
of a handler (`covered_messages`).  When no dispatch and no connect is in progress, every
event whose dispatch has returned is therefore accounted for (`never_lost`). -/

namespace AraNotification

open Interleaving

/-! ### The three places -/

/-- The event was taken by the channel of a connection of the identity. -/
def Accepted (s : Service) (i : Identity) (e : NotificationEvent) : Prop :=
  ∃ id m now origin transport h, .place id m now origin ∈ s.history ∧ m.event = some e ∧
    .register transport h ∈ s.history ∧ h.id = id ∧ h.identity = i

/-- The state after a history. -/
def Service.after (settings : Settings) (history : List Action) : Service :=
  history.foldl Service.apply (initial settings).shared

/-- The action takes the message out of a queue without handing it on: the queue is full and the
message the oldest in it, or a drain finds the message expired. -/
def Action.Removes (s : Service) (key : String) (x : StoredMessage) : Action → Prop
  | .enqueue i _ => i.key = key ∧ (s.queue.messages key).head? = some x ∧
      s.queue.config.maxQueueSizePerUser ≤ (s.queue.messages key).length
  | .drain key' now => key' = key ∧ x ∈ s.queue.messages key ∧
      x.isExpired now s.queue.config.messageTtlSeconds = true
  | _ => False

/-- The message was removed from the queue by its capacity or its TTL. -/
def Removed (settings : Settings) (history : List Action) (key : String) (x : StoredMessage) : Prop :=
  ∃ l₁ a l₂, history = l₁ ++ a :: l₂ ∧ a.Removes (Service.after settings l₁) key x

/-- The message is in the queue, was removed from it, or its event was taken by a channel. -/
def Safe (settings : Settings) (i : Identity) (s : Service) (x : StoredMessage) : Prop :=
  x ∈ s.queue.messages i.key ∨ Removed settings s.history i.key x ∨ Accepted s i x.event

/-- The event was stored for the identity. -/
def Enqueued (s : Service) (i : Identity) (e : NotificationEvent) : Prop :=
  ∃ x, .enqueue i x ∈ s.history ∧ x.event = e

/-- The event is in one of the three places. -/
def Accounted (settings : Settings) (i : Identity) (s : Service) (e : NotificationEvent) : Prop :=
  Accepted s i e ∨ (∃ x ∈ s.queue.messages i.key, x.event = e) ∨
    ∃ x, Removed settings s.history i.key x ∧ x.event = e

/-! ### The runs -/

/-- Dispatches are made to one user of a tenant, only this user connects, and the clock has not
passed `T`. -/
def Between (T : DateTime) (i : Identity) : Event ServiceCall Input → Prop
  | .call (.dispatch call) => call.target = .user i.userId ∧ call.tenantId = some i.tenantId
  | .call (.connect _ claims) => claims.identity = i
  | .run _ inp => inp.now ≤ T
  | _ => True

instance (T : DateTime) (i : Identity) (e : Event ServiceCall Input) : Decidable (Between T i e) := by
  obtain ⟨⟨⟩⟩ | _ := e <;> dsimp only [Between] <;> infer_instance

/-- The event that a dispatch puts on a channel. -/
def Action.sentId : Action → Option Uuid
  | .place _ m _ .direct => m.event.map (·.id)
  | _ => none

/-- The events that dispatches have put on channels. -/
def Service.sentIds (s : Service) : List Uuid := s.history.filterMap Action.sentId

/-- A dispatch whose event has not been sent takes the step at the last connection that it has
found only if the channel has a receiver and room. -/
def LastChance (c : Config Service Pc) : Event ServiceCall Input → Prop
  | .call _ => True
  | .run i _ =>
      match c.threads[i]? with
      | some (.send d _ [conn] _) => d.event.id ∉ c.shared.sentIds → c.shared.hasRoom conn.id = true
      | _ => True

instance (c : Config Service Pc) (e : Event ServiceCall Input) : Decidable (LastChance c e) := by
  obtain _ | ⟨i, _⟩ := e <;> dsimp only [LastChance]
  · infer_instance
  · obtain _ | ⟨⟨⟩⟩ := c.threads[i]?
    case some.send conns _ => obtain _ | ⟨conn, _ | _⟩ := conns <;> dsimp only <;> infer_instance
    all_goals dsimp only; infer_instance

/-! ### Channels stay open until their connection is served -/

/-- The connection that a handler has registered and does not serve yet. -/
def Role.unserved : Role → Option Uuid
  | .registered _ h | .replaying _ h _ _ => some h.id
  | _ => none

section channels
variable {U : UnicodeTables} {settings : Settings} {c : Config Service Pc} {inp : Input} {s : Service}
  {a : Action} {r : Role} {q : Option Role} {id : Uuid}
  {ok : Config Service Pc → Event ServiceCall Input → Prop}

theorem Role.connection_of_unserved (h : id ∈ r.unserved) : id ∈ r.connection := by
  cases r with
  | registered | replaying => exact h
  | _ => cases h

/-- A handler that does not serve yet has just registered, or leaves its channel open. -/
theorem Move.unserved {r' : Role} (h : Move settings inp s r a (some r')) (hid : id ∈ r'.unserved) :
    (∃ transport h', a = .register transport h' ∧ h'.id = id) ∨
      (id ∈ r.unserved ∧ a.registeredId = none ∧ a ≠ .deliver id ∧ a ≠ .sendEnded id) := by
  cases h with
  | register hfresh hr =>
      rename_i transport h'
      left
      rcases hr with rfl | ⟨-, rfl⟩
      · exact ⟨transport, h', rfl, Option.some.inj hid⟩
      · cases hid
  | quiet ha =>
      right
      cases a with
      | silent | updateActivity | subscribe | unsubscribe | track | acknowledge =>
          exact ⟨hid, rfl, by simp, by simp⟩
      | _ => exact ha.elim
  | drain | replay | skip => exact .inr ⟨hid, rfl, by simp, by simp⟩
  | unregister hr =>
      rcases hr with heq | heq
      · cases heq
        cases hid
      · cases heq
  | _ => cases hid

theorem isOpen_register {transport : Transport} {h : ConnectionHandle} :
    (s.apply (.register transport h)).isOpen h.id = true := by
  simp [Service.isOpen, Service.apply]

/-- The channel of a connection that is not served yet is open. -/
theorem open_of_reaches (hok : ∀ c e, ok c e → Legal c e)
    (h : Reaches (system U settings) ok (initial settings) c) :
    Holds (fun s p => ∀ id ∈ p.role.unserved, s.isOpen id = true) c := by
  refine h.invariant (by simp [Holds, initial]) ?_
  intro c e c' hr hc he hn
  refine hc.next hn ?_ ?_
  · rintro op rfl id hid
    cases op <;> cases hid
  · rintro i inp p s q l₁ l₂ rfl hp hl hs
    obtain ⟨a, -, rfl, hmove⟩ := system_move hs
    refine ⟨?_, fun p' hp' ho id hid => ?_⟩
    · rintro p' hp' id hid
      obtain rfl : q = some p' := hp'
      rcases hmove.unserved hid with ⟨transport, h', rfl, rfl⟩ | ⟨hold, hreg, hdel, hend⟩
      · exact isOpen_register
      · have ho := hc p (List.mem_of_getElem? hp) id hold
        exact (channel_kept (by rw [hreg]; simp) hdel hend ho).1
    · exact (channel_kept_by_other hok hr he hp hl hp' hmove (Role.connection_of_unserved hid) (ho id hid)).1

end channels

/-! ### Stored messages -/

/-- What a handler has drained and not replayed. -/
def Role.backlog : Role → List StoredMessage
  | .replaying _ _ _ backlog => backlog
  | _ => []

section messages
variable {U : UnicodeTables} {settings : Settings} {c : Config Service Pc} {inp : Input} {s : Service}
  {a : Action} {i : Identity} {x : StoredMessage} {e : NotificationEvent}
  {ok : Config Service Pc → Event ServiceCall Input → Prop}

theorem Accepted.apply (h : Accepted s i e) : Accepted (s.apply a) i e := by
  obtain ⟨id, m, now, origin, transport, h', hplace, hm, hreg, hid, hi⟩ := h
  exact ⟨id, m, now, origin, transport, h', Service.mem_history_of_mem hplace, hm,
    Service.mem_history_of_mem hreg, hid, hi⟩

theorem Removed.append {history : List Action} {key : String} (h : Removed settings history key x) :
    Removed settings (history ++ [a]) key x := by
  obtain ⟨l₁, b, l₂, rfl, hb⟩ := h
  exact ⟨l₁, b, l₂ ++ [a], by simp, hb⟩

theorem after_append (settings : Settings) (history : List Action) (a : Action) :
    Service.after settings (history ++ [a]) = (Service.after settings history).apply a := by
  rw [Service.after, List.foldl_append]
  rfl

/-- The state is determined by its history. -/
theorem shared_eq_after (h : Reaches (system U settings) ok (initial settings) c) :
    c.shared = Service.after settings c.shared.history := by
  refine service_invariant (P := fun s => s = Service.after settings s.history) h rfl ?_
  intro c i inp p a q _ hc _ _ _ _
  rw [Service.history_apply, after_append, ← hc]

/-- A bounded append drops at most the oldest message, and only from a full queue. -/
theorem mem_pushBack_or_dropped {bound : ℕ} {queue : List StoredMessage} {y : StoredMessage}
    (hx : x ∈ queue) :
    x ∈ MemoryQueueBackend.pushBack bound queue y ∨ (queue.head? = some x ∧ bound ≤ queue.length) := by
  unfold MemoryQueueBackend.pushBack
  split_ifs with hfull
  · cases queue with
    | nil => cases hx
    | cons first queue =>
        rcases List.mem_cons.mp hx with rfl | hx
        · exact .inr ⟨rfl, hfull⟩
        · exact .inl (List.mem_append_left _ hx)
  · exact .inl (List.mem_append_left _ hx)

/-- A message leaves the queue by being removed or by a drain that returns it. -/
theorem mem_queue_apply (henabled : s.queue.config.enabled = true) {key : String}
    (hx : x ∈ s.queue.messages key) :
    x ∈ (s.apply a).queue.messages key ∨ a.Removes s key x ∨
      ∃ now, a = .drain key now ∧ x ∈ (s.queue.drain key now).1.messages := by
  cases a with
  | enqueue j y =>
      rw [Service.messages_apply_enqueue henabled]
      split_ifs with hkey
      · subst hkey
        rcases mem_pushBack_or_dropped hx with hkeep | ⟨hhead, hfull⟩
        · exact .inl hkeep
        · exact .inr (.inl ⟨rfl, hhead, hfull⟩)
      · exact .inl hx
  | drain key' now =>
      rw [Service.messages_apply_drain henabled]
      split_ifs with hkey
      · subst hkey
        right
        cases hexpired : x.isExpired now s.queue.config.messageTtlSeconds with
        | true => exact .inl ⟨rfl, hx, hexpired⟩
        | false =>
            refine .inr ⟨now, rfl, ?_⟩
            rw [MemoryQueueBackend.drained_messages henabled, List.mem_filter]
            exact ⟨hx, by rw [hexpired]; rfl⟩
      · exact .inl hx
  | _ => exact .inl hx

/-- A message that is safe stays so, unless a drain returns it. -/
theorem Safe.apply (henabled : s.queue.config.enabled = true)
    (hafter : s = Service.after settings s.history) (h : Safe settings i s x) :
    Safe settings i (s.apply a) x ∨
      ∃ now, a = .drain i.key now ∧ x ∈ (s.queue.drain i.key now).1.messages := by
  rcases h with hqueue | hremoved | haccepted
  · rcases mem_queue_apply (a := a) henabled hqueue with hkeep | hremoves | hdrained
    · exact .inl (.inl hkeep)
    · refine .inl (.inr (.inl ⟨s.history, a, [], Service.history_apply s a, ?_⟩))
      rw [← hafter]
      exact hremoves
    · exact .inr hdrained
  · left
    right
    left
    rw [Service.history_apply]
    exact hremoved.append
  · exact .inl (.inr (.inr haccepted.apply))

theorem safe_enqueue (henabled : s.queue.config.enabled = true) :
    Safe settings i (s.apply (.enqueue i x)) x := by
  left
  rw [Service.messages_apply_enqueue henabled, if_pos rfl]
  exact List.mem_append_right _ List.mem_cons_self

end messages

/-! ### Who connects -/

section connects
variable {U : UnicodeTables} {settings : Settings} {c : Config Service Pc} {inp : Input} {s : Service}
  {a : Action} {p : Pc} {q : Option Pc} {transport : Transport} {claims : Claims} {T : DateTime}
  {i : Identity} {ok : Config Service Pc → Event ServiceCall Input → Prop}

theorem connect_of_role (h : p.role = .connecting) : ∃ transport claims, p = .connect transport claims := by
  cases p with
  | connect transport claims => exact ⟨transport, claims, rfl⟩
  | _ => cases h

/-- A connect is a call and not a step of another program. -/
theorem not_connect_of_step : step U settings inp s p ≠ some (a, some (.connect transport claims)) := by
  intro h
  have hconnecting : p.role = .connecting := by
    have hm := step_move h
    rw [Option.map_some] at hm
    generalize hr : (Pc.connect transport claims).role = r at hm
    generalize p.role = r₀ at hm
    cases hm with
    | quiet ha => exact hr.symm
    | register hid hreg => rcases hreg with rfl | ⟨-, rfl⟩ <;> cases hr
    | unregister hreg =>
        rcases hreg with heq | heq
        · rw [← hr] at heq
          cases heq
        · cases heq
    | _ => cases hr
  obtain ⟨transport', claims', rfl⟩ := connect_of_role hconnecting
  obtain ⟨-, hq⟩ | ⟨h', -, -, -, hq⟩ := step_connect_cases h
  · cases hq
  · split_ifs at hq
    · cases hq
    · cases transport' <;> cases hq

/-- Only connections of the identity are registered. -/
theorem identities_of_reaches (hok : ∀ c e, ok c e → Between T i e)
    (h : Reaches (system U settings) ok (initial settings) c) :
    (∀ transport h, .register transport h ∈ c.shared.history → h.identity = i) ∧
      Holds (fun _ p => ∀ transport claims, p = .connect transport claims → claims.identity = i) c := by
  refine h.invariant (I := fun c => (∀ transport h, .register transport h ∈ c.shared.history → h.identity = i) ∧
    Holds (fun _ p => ∀ transport claims, p = .connect transport claims → claims.identity = i) c)
    ⟨by simp [initial], by simp [Holds, initial]⟩ ?_
  intro c e c' _ hc he hn
  refine ⟨?_, hc.2.next hn ?_ ?_⟩
  · obtain ⟨op, rfl, rfl⟩ | ⟨j, inp, p, s, q, l₁, l₂, rfl, hp, hs, hl, rfl⟩ := System.next_cases hn
    · exact hc.1
    · obtain ⟨a, hstep, rfl, hmove⟩ := system_move hs
      intro transport h hreg
      rcases Service.mem_history_apply.mp hreg with hold | rfl
      · exact hc.1 transport h hold
      · have hconnecting : p.role = .connecting := (hmove.fresh_of_registeredId rfl).1
        obtain ⟨transport', claims, rfl⟩ := connect_of_role hconnecting
        obtain ⟨ha, -⟩ | ⟨h', ha, -, hident, -⟩ := step_connect_cases hstep
        · cases ha
        · obtain ⟨-, rfl⟩ := Action.register.inj ha
          rw [hident]
          exact hc.2 _ (List.mem_of_getElem? hp) transport' claims rfl
  · rintro op rfl transport claims hstart
    cases op with
    | connect transport' claims' =>
        obtain ⟨-, rfl⟩ := Pc.connect.inj hstart
        exact hok _ _ he
    | _ => cases hstart
  · rintro j inp p s q l₁ l₂ rfl hp hl hs
    obtain ⟨a, hstep, rfl, -⟩ := system_move hs
    refine ⟨?_, fun _ _ h => h⟩
    rintro p' hp' transport claims rfl
    rw [show q = some (.connect transport claims) from hp'] at hstep
    exact absurd hstep not_connect_of_step

end connects

/-! ### Nothing is lost after it has been stored -/

section replays
variable {U : UnicodeTables} {settings : Settings} {c : Config Service Pc} {inp : Input} {s : Service}
  {a : Action} {p : Pc} {i : Identity} {T : DateTime} {x : StoredMessage}
  {ok : Config Service Pc → Event ServiceCall Input → Prop}

theorem replay_of_mem_backlog (h : x ∈ p.role.backlog) :
    ∃ transport h start m backlog, p = .replay transport h start (m :: backlog) ∧ x ∈ m :: backlog := by
  cases p with
  | replay transport h' start backlog =>
      cases backlog with
      | nil => exact absurd h List.not_mem_nil
      | cons m backlog => exact ⟨transport, h', start, m, backlog, rfl, h⟩
  | _ => exact absurd h List.not_mem_nil

/-- On an open channel a replay does not fail. -/
theorem step_replay_of_open {transport : Transport} {h : ConnectionHandle} {start : DateTime}
    {m : StoredMessage} {backlog : List StoredMessage} {q : Option Pc} (hopen : s.isOpen h.id = true)
    (hs : step U settings inp s (.replay transport h start (m :: backlog)) = some (a, q)) :
    a = .place h.id (.raw (.notification m.event)) inp.now (.replay m.id) ∧
      q = some (.replay transport h start backlog) := by
  simp only [step, hopen, if_true] at hs
  split_ifs at hs
  cases hs
  exact ⟨rfl, rfl⟩

/-- A drain hands what it returns to the handler that drains. -/
theorem Move.backlog_of_drain {r : Role} {q : Option Role} {key : String} {now : DateTime}
    (h : Move settings inp s r (.drain key now) q) :
    ∃ r', q = some r' ∧ r'.backlog = (s.queue.drain key now).1.messages := by
  cases h with
  | drain => exact ⟨_, rfl, rfl⟩
  | quiet ha => exact ha.elim
  | «end» ha => rcases ha with ha | ha <;> cases ha

/-- Every message that was stored is safe or waits in the backlog of a handler. -/
theorem covered_messages (henabled : settings.queue.enabled = true) (hok : ∀ c e, ok c e → Legal c e)
    (hbetween : ∀ c e, ok c e → Between T i e)
    (h : Reaches (system U settings) ok (initial settings) c) :
    Covered (fun s x => .enqueue i x ∈ s.history ∧ ¬ Safe settings i s x)
      (fun p x => x ∈ p.role.backlog) c := by
  refine h.invariant (fun x hx => absurd hx.1 List.not_mem_nil) ?_
  intro c e c' hr hc he hn
  have hq := enabled_of_reaches henabled hr
  refine hc.next hn ?_
  rintro j inp p s q rfl hp hs x ⟨hstored, hlost⟩
  have hp' := List.mem_of_getElem? hp
  obtain ⟨a, hstep, rfl, hmove⟩ := system_move hs
  have hold : .enqueue i x ∈ c.shared.history := by
    rcases Service.mem_history_apply.mp hstored with hold | rfl
    · exact hold
    · exact absurd (safe_enqueue hq) hlost
  by_cases hsafe : Safe settings i c.shared x
  · rcases hsafe.apply (a := a) hq (shared_eq_after hr) with hsafe' | ⟨now, rfl, hdrained⟩
    · exact absurd hsafe' hlost
    · obtain ⟨r', hr', hback⟩ := hmove.backlog_of_drain
      obtain ⟨p', rfl, hrole⟩ := Option.map_eq_some_iff.mp hr'
      refine .inr (.inr ⟨p', rfl, ?_⟩)
      rw [hrole, hback]
      exact hdrained
  · by_cases howes : x ∈ p.role.backlog
    · obtain ⟨transport, h', start, m, backlog, rfl, hx⟩ := replay_of_mem_backlog howes
      have hopen := open_of_reaches hok hr _ hp' h'.id rfl
      obtain ⟨rfl, rfl⟩ := step_replay_of_open hopen hstep
      rcases List.mem_cons.mp hx with rfl | hx
      · have hreg : .register transport h' ∈ c.shared.history :=
          ((sourced_of_reaches hr).handlers _ hp').1
        have hident := (identities_of_reaches hbetween hr).1 transport h' hreg
        refine absurd (.inr (.inr ?_)) hlost
        exact ⟨h'.id, _, inp.now, _, transport, h', Service.mem_history_self, rfl,
          Service.mem_history_of_mem hreg, rfl, hident⟩
      · exact .inr (.inr ⟨_, rfl, hx⟩)
    · exact .inl ⟨⟨hold, hsafe⟩, howes⟩

end replays

/-! ### What a dispatch has achieved -/

/-- The event of a dispatch that delivered to `k` connections was taken by a channel, stored, or
has expired. -/
def Settles (T : DateTime) (i : Identity) (s : Service) (e : NotificationEvent) (k : ℕ) : Prop :=
  (0 < k ∧ Accepted s i e) ∨ Enqueued s i e ∨ e.isExpired T = true

/-- What is known of a dispatch to the user at each of its program counters. -/
def Fate (T : DateTime) (i : Identity) (s : Service) : Pc → Prop
  | .begin call => call.target = .user i.userId ∧ call.tenantId = some i.tenantId
  | .userLookup d userId | .userEnqueue d userId =>
      userId = i.userId ∧ d.tenantId = some i.tenantId ∧ d.delivered = 0 ∧ d.event.id ∉ s.sentIds
  | .send d _ todo rest =>
      rest = [] ∧ (todo ≠ [] ∨ 0 < d.delivered) ∧ (d.delivered = 0 → d.event.id ∉ s.sentIds) ∧
        (0 < d.delivered → Accepted s i d.event)
  | .track d _ _ _ rest => rest = [] ∧ 0 < d.delivered ∧ Accepted s i d.event
  | .ret d => Settles T i s d.event d.delivered
  | .usersLookup _ _ _ _ _ | .usersEnqueue _ _ _ _ | .broadcastLookup _ | .channelLookup _ _
  | .channelsLookup _ _ _ => False
  | _ => True

section dispatches
variable {U : UnicodeTables} {settings : Settings} {c : Config Service Pc} {inp : Input} {s : Service}
  {a : Action} {p p' : Pc} {i : Identity} {T : DateTime} {e : NotificationEvent} {k : ℕ}
  {ok : Config Service Pc → Event ServiceCall Input → Prop}

theorem isExpired_mono {now : DateTime} (h : e.isExpired now = true) (hT : now ≤ T) :
    e.isExpired T = true := by
  unfold NotificationEvent.isExpired at h ⊢
  split
  · rename_i expiry hexpiry
    rw [hexpiry] at h
    have hlt : expiry < now := of_decide_eq_true h
    exact decide_eq_true (lt_of_lt_of_le hlt hT)
  · rename_i hexpiry
    rw [hexpiry] at h
    exact h

theorem Settles.apply (h : Settles T i s e k) : Settles T i (s.apply a) e k := by
  rcases h with ⟨hk, ha⟩ | ⟨x, hx, he⟩ | hexp
  · exact .inl ⟨hk, ha.apply⟩
  · exact .inr (.inl ⟨x, Service.mem_history_of_mem hx, he⟩)
  · exact .inr (.inr hexp)

/-- An event is sent by its own dispatch. -/
theorem Move.running_of_sentId {r : Role} {q : Option Role} {x : Uuid} (h : Move settings inp s r a q)
    (hx : a.sentId = some x) : ∃ e since, r = .dispatching e since ∧ e.id = x := by
  cases h with
  | place hroom hm =>
      simp only [Action.sentId, hm, Option.map_some] at hx
      exact ⟨_, _, rfl, Option.some.inj hx⟩
  | quiet ha => cases a <;> first | exact ha.elim | cases hx
  | «end» ha => rcases ha with rfl | rfl <;> cases hx
  | _ => cases hx

theorem Move.mem_sentIds {r : Role} {q : Option Role} {x : Uuid} (h : Move settings inp s r a q)
    (hx : x ∈ (s.apply a).sentIds) : x ∈ s.sentIds ∨ x ∈ r.eventId := by
  rcases Service.mem_filterMap_apply.mp hx with hx | hx
  · exact .inl hx
  · obtain ⟨e, since, rfl, rfl⟩ := h.running_of_sentId hx
    exact .inr rfl

theorem fate_of_eventId_eq_none (h : p.role.eventId = none) : Fate T i s p := by
  cases p with
  | begin | userLookup | userEnqueue | usersLookup | usersEnqueue | broadcastLookup | channelLookup
  | channelsLookup | send | track | ret => cases h
  | _ => trivial

/-- The steps of other programs change nothing for a dispatch. -/
theorem Fate.other_step {q : Option Role} (hf : Fate T i s p') (h : Move settings inp s p.role a q)
    (hdifferent : ∀ x ∈ p.role.eventId, x ∉ p'.role.eventId) : Fate T i (s.apply a) p' := by
  have hsent : ∀ {x}, x ∈ p'.role.eventId → x ∉ s.sentIds → x ∉ (s.apply a).sentIds := by
    intro x hx hnot hmem
    rcases h.mem_sentIds hmem with hold | hown
    · exact hnot hold
    · exact hdifferent x hown hx
  cases p' with
  | begin call => exact hf
  | userLookup d userId | userEnqueue d userId =>
      obtain ⟨hu, ht, hd, hnot⟩ := hf
      exact ⟨hu, ht, hd, hsent rfl hnot⟩
  | send d concurrent todo rest =>
      obtain ⟨hrest, htodo, hnot, hacc⟩ := hf
      exact ⟨hrest, htodo, fun hd => hsent rfl (hnot hd), fun hd => (hacc hd).apply⟩
  | track d concurrent conn todo rest =>
      obtain ⟨hrest, hd, hacc⟩ := hf
      exact ⟨hrest, hd, hacc.apply⟩
  | ret d => exact Settles.apply hf
  | usersLookup | usersEnqueue | broadcastLookup | channelLookup | channelsLookup => exact hf.elim
  | _ => trivial

theorem sentIds_apply_of_sentId_eq_none {x : Uuid} (ha : a.sentId = none) (hx : x ∉ s.sentIds) :
    x ∉ (s.apply a).sentIds := by
  intro hmem
  rcases Service.mem_filterMap_apply.mp hmem with hold | hnew
  · exact hx hold
  · rw [ha] at hnew
    cases hnew

/-- A dispatch that finds the user online has a connection to send to, and one that does not
goes on to store its event. -/
theorem Fate.lookup {d : Dispatch} {userId : String} (hf : Fate T i s (.userLookup d userId))
    (henabled : s.queue.config.enabled = true)
    (h : step U settings inp s (.userLookup d userId) = some (a, some p')) : Fate T i (s.apply a) p' := by
  obtain ⟨hu, ht, hd, hnot⟩ := hf
  simp only [step] at h
  split_ifs at h with hoffline
  · cases h
    exact ⟨hu, ht, hd, sentIds_apply_of_sentId_eq_none rfl hnot⟩
  · cases h
    rw [MemoryQueueBackend.isEnabled, henabled, Bool.and_true] at hoffline
    rw [startSend, if_neg hoffline]
    refine ⟨rfl, .inl ?_, fun _ => sentIds_apply_of_sentId_eq_none rfl hnot, fun hpos => ?_⟩
    · intro hnil
      rw [hnil] at hoffline
      exact hoffline rfl
    · rw [hd] at hpos
      exact absurd hpos (lt_irrefl 0)

/-- A dispatch that gives up on a connection has delivered before or has another one left. -/
theorem Fate.send {d : Dispatch} {concurrent : Bool} {todo : List ConnectionHandle} {rest : List String}
    (hf : Fate T i s (.send d concurrent todo rest))
    (hknown : ∀ conn ∈ todo, Known s conn) (hident : ∀ transport h, .register transport h ∈ s.history → h.identity = i)
    (hlast : ∀ conn, todo = [conn] → d.event.id ∉ s.sentIds → s.hasRoom conn.id = true)
    (h : step U settings inp s (.send d concurrent todo rest) = some (a, some p')) :
    Fate T i (s.apply a) p' := by
  obtain ⟨rfl, htodo, hnot, hacc⟩ := hf
  obtain ⟨rfl, rfl, hq⟩ | ⟨j, conn, hj, hroom, rfl, hq⟩ | ⟨j, conn, hj, hroom, rfl, hq⟩ := step_send_cases h
  · obtain rfl := Option.some.inj hq
    have hpos : 0 < d.delivered := htodo.resolve_left (fun hne => hne rfl)
    exact .inl ⟨hpos, (hacc hpos).apply⟩
  · obtain rfl := Option.some.inj hq
    obtain ⟨transport, h', hreg, hid, -⟩ := hknown conn (List.mem_of_getElem? hj)
    refine ⟨rfl, Nat.succ_pos _, conn.id, _, inp.now, .direct, transport, h', Service.mem_history_self, ?_,
      Service.mem_history_of_mem hreg, hid, hident transport h' hreg⟩
    cases concurrent <;> rfl
  · obtain rfl := Option.some.inj hq
    refine ⟨rfl, ?_, fun hd => sentIds_apply_of_sentId_eq_none rfl (hnot hd), fun hd => (hacc hd).apply⟩
    by_cases hd : d.delivered = 0
    · left
      intro hnil
      have hlen : todo.length = 1 := by
        have hlt := (List.getElem?_eq_some_iff.mp hj).1
        have herase := List.length_eraseIdx_of_lt hlt
        rw [hnil, List.length_nil] at herase
        omega
      obtain ⟨conn', rfl⟩ := List.length_eq_one_iff.mp hlen
      have hconn : conn = conn' := List.mem_singleton.mp (List.mem_of_getElem? hj)
      have hroom' := hlast conn' rfl (hnot hd)
      rw [← hconn, hroom] at hroom'
      cases hroom'
    · exact .inr (Nat.pos_of_ne_zero hd)

/-- Every step of a dispatch keeps what is known of it. -/
theorem Fate.own_step (hf : Fate T i s p) (henabled : s.queue.config.enabled = true) (hnow : inp.now ≤ T)
    (hnew : ∀ call, p = .begin call → call.event.id ∉ s.sentIds)
    (hknown : ∀ conn ∈ p.found, Known s conn)
    (hident : ∀ transport h, .register transport h ∈ s.history → h.identity = i)
    (hlast : ∀ d concurrent conn rest, p = .send d concurrent [conn] rest → d.event.id ∉ s.sentIds →
      s.hasRoom conn.id = true)
    (h : step U settings inp s p = some (a, some p')) : Fate T i (s.apply a) p' := by
  cases hevent : p.role.eventId with
  | none =>
      refine fate_of_eventId_eq_none (Option.eq_none_iff_forall_not_mem.mpr (fun x hx => ?_))
      have hx' := (step_move h).eventId (x := x) hx
      rw [hevent] at hx'
      cases hx'
  | some x =>
      cases p with
      | begin call =>
          obtain ⟨htarget, htenant⟩ := hf
          simp only [step] at h
          split_ifs at h with hexp <;> cases h
          · rw [Bool.and_eq_true] at hexp
            exact .inr (.inr (isExpired_mono hexp.2 hnow))
          · rw [htarget]
            exact ⟨rfl, htenant, rfl, sentIds_apply_of_sentId_eq_none rfl (hnew call rfl)⟩
      | userLookup d userId => exact hf.lookup henabled h
      | userEnqueue d userId =>
          obtain ⟨rfl, htenant, -, -⟩ := hf
          cases h
          refine .inr (.inl ⟨.new inp.fresh inp.now d.event, ?_, rfl⟩)
          have hi : queueIdentity d i.userId = i := by
            rw [queueIdentity, htenant]
            rfl
          rw [hi]
          exact Service.mem_history_self
      | send d concurrent todo rest =>
          refine hf.send hknown hident ?_ h
          rintro conn rfl
          exact hlast d concurrent conn rest rfl
      | track d concurrent conn todo rest =>
          obtain ⟨hrest, hpos, hacc⟩ := hf
          cases h
          exact ⟨hrest, .inr hpos, fun hd => absurd hd (Nat.pos_iff_ne_zero.mp hpos), fun _ => hacc.apply⟩
      | ret d => cases h
      | usersLookup | usersEnqueue | broadcastLookup | channelLookup | channelsLookup => exact hf.elim
      | _ => cases hevent

end dispatches

/-! ### Whole runs -/

/-- A dispatch that runs has begun with its event. -/
def Role.Begins (s : Service) : Role → Prop
  | .dispatching e _ => .began e ∈ s.history
  | _ => True

section runs
variable {U : UnicodeTables} {settings : Settings} {c : Config Service Pc} {inp : Input} {s : Service}
  {a : Action} {i : Identity} {T : DateTime} {ok : Config Service Pc → Event ServiceCall Input → Prop}

theorem Role.Begins.apply {r : Role} (h : r.Begins s) : r.Begins (s.apply a) := by
  cases r with
  | dispatching e since => exact Service.mem_history_of_mem h
  | _ => trivial

theorem Move.begins {r r' : Role} (h : Move settings inp s r a (some r')) (hr : r.Begins s) :
    r'.Begins (s.apply a) := by
  cases h with
  | quiet ha => exact hr.apply
  | begin hs he => exact Service.mem_history_self
  | settle | enqueue | place => exact Service.mem_history_of_mem hr
  | register hid hreg => rcases hreg with rfl | ⟨-, rfl⟩ <;> trivial
  | unregister hreg =>
      rcases hreg with heq | heq
      · cases heq
        trivial
      · cases heq
  | _ => trivial

theorem begins_of_reaches (h : Reaches (system U settings) ok (initial settings) c) :
    Holds (fun s p => p.role.Begins s) c := by
  refine h.invariant (by simp [Holds, initial]) ?_
  intro c e c' _ hc _ hn
  refine hc.next hn ?_ ?_
  · rintro op rfl
    cases op <;> trivial
  · rintro j inp p s q l₁ l₂ rfl hp hl hs
    obtain ⟨a, -, rfl, hmove⟩ := system_move hs
    refine ⟨?_, fun p' _ hp' => hp'.apply⟩
    rintro p' hp'
    obtain rfl : q = some p' := hp'
    exact hmove.begins (hc p (List.mem_of_getElem? hp))

/-- Every event begins once, and before it is sent. -/
theorem began_of_reaches (hok : ∀ c e, ok c e → Legal c e)
    (h : Reaches (system U settings) ok (initial settings) c) :
    c.shared.beganIds.Nodup ∧ ∀ x ∈ c.shared.sentIds, x ∈ c.shared.beganIds := by
  refine service_invariant (P := fun s => s.beganIds.Nodup ∧ ∀ x ∈ s.sentIds, x ∈ s.beganIds) h
    ⟨List.nodup_nil, by simp [initial, Service.sentIds]⟩ ?_
  intro c j inp p a q hr hc _ hp _ hmove
  have hdispatches := dispatches_of_reaches hok hr
  have hp' := List.mem_of_getElem? hp
  refine ⟨nodup_filterMap_apply hc.1 (hdispatches.begins hp' hmove), fun x hx => ?_⟩
  refine Service.mem_filterMap_apply.mpr (.inl ?_)
  rcases Service.mem_filterMap_apply.mp hx with hold | hnew
  · exact hc.2 x hold
  · obtain ⟨e, since, hrole, rfl⟩ := hmove.running_of_sentId hnew
    exact (hdispatches.running hp' hrole).1

theorem fate_of_reaches (henabled : settings.queue.enabled = true)
    (h : Reaches (system U settings) (fun c e => Legal c e ∧ Between T i e ∧ LastChance c e)
      (initial settings) c) : Holds (Fate T i) c := by
  refine h.invariant (by simp [Holds, initial]) ?_
  rintro c e c' hr hc ⟨hlegal, hbetween, hlast⟩ hn
  have hq := enabled_of_reaches henabled hr
  have hdispatches := dispatches_of_reaches (fun _ _ he => he.1) hr
  have hknown := (known_of_reaches hr).found
  have hident := (identities_of_reaches (fun _ _ he => he.2.1) hr).1
  have hsent := (began_of_reaches (fun _ _ he => he.1) hr).2
  refine hc.next hn ?_ ?_
  · rintro op rfl
    cases op with
    | dispatch call => exact hbetween
    | _ => trivial
  · rintro j inp p s q l₁ l₂ rfl hp hl hs
    obtain ⟨a, hstep, rfl, hmove⟩ := system_move hs
    have hp' := List.mem_of_getElem? hp
    refine ⟨?_, fun p' hp'' hf => ?_⟩
    · rintro p' rfl
      refine (hc p hp').own_step hq hbetween ?_ (hknown p hp') hident ?_ hstep
      · rintro call rfl hx
        exact hdispatches.begun _ hp' (hsent _ hx)
      · rintro d concurrent conn rest rfl
        rw [LastChance, hp] at hlast
        exact hlast
    · exact hf.other_step hmove (fun x hx => hdispatches.tokens.not_mem_of_split hl hp'' hx)

theorem ret_of_role {p : Pc} {e : NotificationEvent} (h : p.role = .dispatching e none) :
    ∃ d, p = .ret d ∧ d.event = e := by
  cases p with
  | ret d =>
      obtain ⟨rfl, -⟩ := Role.dispatching.inj h
      exact ⟨d, rfl, rfl⟩
  | _ => cases h

/-- A dispatch returns at the end of its program, with its counts. -/
theorem ret_of_returned {p : Pc} {q : Option Pc} {r : DeliveryResult}
    (h : step U settings inp s p = some (.returned r, q)) :
    ∃ d, p = .ret d ∧ r = .new d.event.id d.delivered d.failed := by
  have hm := step_move h
  generalize hrole : p.role = r₀ at hm
  generalize q.map Pc.role = r' at hm
  cases hm with
  | «return» hr =>
      obtain ⟨d, rfl, -⟩ := ret_of_role hrole
      cases h
      exact ⟨d, rfl, rfl⟩
  | quiet ha => exact ha.elim
  | «end» ha => rcases ha with ha | ha <;> cases ha

/-- The event of every dispatch that has returned was taken by a channel, stored, or has
expired. -/
theorem settles_of_returned (henabled : settings.queue.enabled = true)
    (h : Reaches (system U settings) (fun c e => Legal c e ∧ Between T i e ∧ LastChance c e)
      (initial settings) c) :
    ∀ e r, .began e ∈ c.shared.history → .returned r ∈ c.shared.history → r.notificationId = e.id →
      Settles T i c.shared e r.deliveredTo := by
  refine service_invariant (P := fun s => ∀ e r, .began e ∈ s.history → .returned r ∈ s.history →
    r.notificationId = e.id → Settles T i s e r.deliveredTo) h (by simp [initial]) ?_
  intro c j inp p a q hr hc _ hp hstep hmove e r hbegan hreturned hid
  have hdispatches := dispatches_of_reaches (fun _ _ he => he.1) hr
  have hp' := List.mem_of_getElem? hp
  rcases Service.mem_history_apply.mp hreturned with hret | rfl
  · rcases Service.mem_history_apply.mp hbegan with hbeg | rfl
    · exact (hc e r hbeg hret hid).apply
    · have hold : e.id ∈ c.shared.beganIds :=
        hdispatches.returned _ (List.mem_filterMap.mpr ⟨.returned r, hret, congrArg some hid⟩)
      exact absurd hold (hdispatches.begins hp' hmove e.id rfl)
  · obtain ⟨d, rfl, rfl⟩ := ret_of_returned hstep
    have hbegan' : .began e ∈ c.shared.history := by
      rcases Service.mem_history_apply.mp hbegan with hbegan | heq
      · exact hbegan
      · cases heq
    have hown : .began d.event ∈ c.shared.history := begins_of_reaches hr _ hp'
    have hnodup := (began_of_reaches (fun _ _ he => he.1) hr).1
    obtain rfl : d.event = e :=
      Action.began.inj (eq_of_nodup hnodup hown hbegan' (congrArg some hid) rfl)
    exact Settles.apply (fate_of_reaches henabled hr _ hp')

/-- **No notification of the user is lost when the last chance to send is never missed**: with no
dispatch and no connect in progress, every unexpired event whose dispatch has returned was
taken by a channel of the user, is in the queue, or was removed from it; one that was
delivered to no connection was stored, and no replay finds its channel closed. -/
theorem never_lost (henabled : settings.queue.enabled = true) (_hcapacity : 1 ≤ settings.queue.maxSizePerUser)
    (h : Reaches (system U settings) (fun c e => Legal c e ∧ Between T i e ∧ LastChance c e)
      (initial settings) c) :
    ((∀ p ∈ c.threads, p.role.Settled) → ∀ e r, .began e ∈ c.shared.history →
        .returned r ∈ c.shared.history → r.notificationId = e.id → e.isExpired T = false →
          Accounted settings i c.shared e) ∧
      (∀ e r, .began e ∈ c.shared.history → .returned r ∈ c.shared.history → r.notificationId = e.id →
        e.isExpired T = false → r.deliveredTo = 0 → Enqueued c.shared i e) ∧
      ∀ p ∈ c.threads, ∀ id ∈ p.role.unserved, c.shared.isOpen id = true := by
  refine ⟨?_, ?_, open_of_reaches (fun _ _ he => he.1) h⟩
  · intro hsettled e r hbegan hreturned hid hlive
    have hcovered := covered_messages henabled (fun _ _ he => he.1) (fun _ _ he => he.2.1) h
    have hquiet : ∀ p ∈ c.threads, ∀ x, x ∉ p.role.backlog := by
      intro p hp x hx
      obtain ⟨transport, h', start, m, backlog, rfl, -⟩ := replay_of_mem_backlog hx
      exact hsettled _ hp
    obtain ⟨-, hacc⟩ | ⟨x, hx, rfl⟩ | hexp := settles_of_returned henabled h e r hbegan hreturned hid
    · exact .inl hacc
    · have hsafe : Safe settings i c.shared x := by
        by_contra hnot
        exact hcovered.quiescent hquiet x ⟨hx, hnot⟩
      rcases hsafe with hqueue | hremoved | hacc
      · exact .inr (.inl ⟨x, hqueue, rfl⟩)
      · exact .inr (.inr ⟨x, hremoved, rfl⟩)
      · exact .inl hacc
    · rw [hlive] at hexp
      cases hexp
  · intro e r hbegan hreturned hid hlive hzero
    obtain ⟨hpos, -⟩ | hstored | hexp := settles_of_returned henabled h e r hbegan hreturned hid
    · rw [hzero] at hpos
      exact absurd hpos (lt_irrefl 0)
    · exact hstored
    · rw [hlive] at hexp
      cases hexp

end runs

/-! ### Two runs -/

section schedules

/-- The action puts a message on a channel or stores one. -/
def Action.handsOn : Action → Bool
  | .place _ _ _ _ | .enqueue _ _ => true
  | _ => false

theorem enqueued_of_mem_after {settings : Settings} {key : String} {x : StoredMessage} :
    ∀ history : List Action, x ∈ (Service.after settings history).queue.messages key →
      ∃ a ∈ history, a.handsOn = true := by
  intro history
  induction history using List.reverseRecOn with
  | nil =>
      intro hx
      rw [Service.after, List.foldl_nil, initial, MemoryQueueBackend.messages_new] at hx
      exact absurd hx List.not_mem_nil
  | append_singleton history a ih =>
      intro hx
      rw [after_append] at hx
      have hx' := (Service.messages_apply_sublist key).subset hx
      rw [List.mem_append, Option.mem_toList] at hx'
      rcases hx' with hold | hnew
      · obtain ⟨b, hb, hhands⟩ := ih hold
        exact ⟨b, List.mem_append_left _ hb, hhands⟩
      · refine ⟨a, List.mem_append_right _ List.mem_cons_self, ?_⟩
        cases a with
        | enqueue j y => rfl
        | _ => cases hnew

/-- What is accounted for was put on a channel or stored. -/
theorem handsOn_of_accounted {settings : Settings} {i : Identity} {s : Service} {e : NotificationEvent}
    (hafter : s = Service.after settings s.history) (h : Accounted settings i s e) :
    ∃ a ∈ s.history, a.handsOn = true := by
  obtain ⟨id, m, now, origin, transport, h', hplace, -⟩ | ⟨x, hx, -⟩ | ⟨x, ⟨l₁, a, l₂, hl, hremoves⟩, -⟩ := h
  · exact ⟨_, hplace, rfl⟩
  · rw [hafter] at hx
    exact enqueued_of_mem_after _ hx
  · have hx : x ∈ (Service.after settings l₁).queue.messages i.key := by
      cases a with
      | enqueue j y => exact List.mem_of_mem_head? hremoves.2.1
      | drain key now => exact hremoves.2.1
      | _ => exact hremoves.elim
    obtain ⟨b, hb, hhands⟩ := enqueued_of_mem_after _ hx
    exact ⟨b, by rw [hl]; exact List.mem_append_left _ hb, hhands⟩

/-- `bob` of `acme` is offline when the first event is dispatched; he connects, his handler replays
it, and the second event is sent to him directly. -/
def storedThenSent : List (Event ServiceCall Input) :=
  [.call (.dispatch ⟨maintenance, .user "bob", some "acme", true⟩)] ++ List.replicate 4 (.run 0 tick) ++
    [.call (.connect .webSocket ⟨"bob", [], some "acme"⟩)] ++ List.replicate 4 (.run 0 tick) ++
    [.call (.dispatch ⟨resumed, .user "bob", some "acme", true⟩)] ++ List.replicate 6 (.run 1 tick)

/-- Both events are accounted for. -/
theorem never_lost_bob :
    ∃ c, Reaches (system .ascii .withQueue)
        (fun c e => Legal c e ∧ Between 0 ⟨"acme", "bob"⟩ e ∧ LastChance c e) (initial .withQueue) c ∧
      (∀ p ∈ c.threads, p.role.Settled) ∧ c.shared.returnedIds = [1, 2] ∧ c.shared.sentIds = [2] ∧
      ∀ e r, .began e ∈ c.shared.history → .returned r ∈ c.shared.history → r.notificationId = e.id →
        e.isExpired 0 = false → Accounted .withQueue ⟨"acme", "bob"⟩ c.shared e := by
  have hseen : ((system .ascii .withQueue).play
      (fun c e => Legal c e ∧ Between 0 ⟨"acme", "bob"⟩ e ∧ LastChance c e) (initial .withQueue)
      storedThenSent).any (fun c => decide ((∀ p ∈ c.threads, p.role.Settled) ∧
        c.shared.returnedIds = [1, 2] ∧ c.shared.sentIds = [2])) = true := by
    decide +kernel
  obtain ⟨c, hr, hc⟩ := exists_reaches_of_play hseen
  obtain ⟨hsettled, hreturned, hsent⟩ := of_decide_eq_true hc
  exact ⟨c, hr, hsettled, hreturned, hsent, (never_lost rfl (by decide) hr).1 hsettled⟩

/-- The stream of `bob`'s only connection is dropped; before the connection is unregistered, a
dispatch finds it and fails to send. -/
def droppedReceiver : List (Event ServiceCall Input) :=
  [.call (.connect .sse ⟨"bob", [], some "acme"⟩)] ++ List.replicate 3 (.run 0 tick) ++
    [.run 0 { tick with ok := false }, .call (.dispatch ⟨maintenance, .user "bob", some "acme", true⟩),
      .run 1 tick, .run 1 tick, .run 1 { tick with ok := false }, .run 1 tick, .run 1 tick, .run 0 tick]

/-- The dispatch of a live event has begun. -/
def Action.begins (n : Uuid) (T : DateTime) : Action → Bool
  | .began e => e.id == n && !e.isExpired T
  | _ => false

/-- The event is on no channel and was never stored. -/
theorem lost_to_dropped_receiver :
    ¬ ∀ (U : UnicodeTables) (settings : Settings), settings.Accepted U → settings.queue.enabled = true →
        1 ≤ settings.queue.maxSizePerUser → ∀ T i c,
          Reaches (system U settings) (fun c e => Legal c e ∧ Between T i e) (initial settings) c →
          (∀ p ∈ c.threads, p.role.Settled) → ∀ e r, .began e ∈ c.shared.history →
            .returned r ∈ c.shared.history → r.notificationId = e.id → e.isExpired T = false →
              Accounted settings i c.shared e := by
  intro hall
  have hseen : ((system .ascii .withQueue).play (fun c e => Legal c e ∧ Between 0 ⟨"acme", "bob"⟩ e)
      (initial .withQueue) droppedReceiver).any (fun c => decide ((∀ p ∈ c.threads, p.role.Settled) ∧
        (∀ a ∈ c.shared.history, a.handsOn = false) ∧
        c.shared.history.any (Action.begins 1 0) = true ∧
        c.shared.returnedIds = [1])) = true := by
    decide +kernel
  obtain ⟨c, hr, hc⟩ := exists_reaches_of_play hseen
  obtain ⟨hsettled, hnone, hbegan, hreturned⟩ := of_decide_eq_true hc
  obtain ⟨a, ha, hmatch⟩ := List.any_eq_true.mp hbegan
  have hret : (1 : Uuid) ∈ c.shared.returnedIds := by
    rw [hreturned]
    exact List.mem_cons_self
  obtain ⟨b, hb, hid⟩ := List.mem_filterMap.mp hret
  cases a with
  | began e =>
    rw [Action.begins, Bool.and_eq_true, beq_iff_eq, Bool.not_eq_true'] at hmatch
    cases b with
    | returned r =>
        have hid' : r.notificationId = e.id := by
          rw [hmatch.1]
          exact Option.some.inj hid
        have hacc := hall .ascii .withQueue Settings.accepted_withQueue rfl (by decide) 0 ⟨"acme", "bob"⟩ c hr
          hsettled e r ha hb hid' hmatch.2
        obtain ⟨b, hb, hhands⟩ := handsOn_of_accounted (shared_eq_after hr) hacc
        rw [hnone b hb] at hhands
        cases hhands
    | _ => cases hid
  | _ => cases hmatch

end schedules

end AraNotification
