import AraNotification.Lifecycle

/-! # Replay into a bounded channel

A connection handler puts the drained backlog on the outbound channel before anything takes
messages from the channel, and it waits for room without a timeout.  The channel holds
`channelBufferSize` messages, while an accepted configuration lets the queue hold many more:
with a longer backlog the handler waits for ever (`replay_deadlock`), since in the meantime
only the handler itself could start the task that receives (`blocked_next`).

`Fits` is the condition under which this does not happen: what is drained fits into the
channel beside what is already there, and while a backlog is being replayed other messages
are put on the channel only when there is room for them beside the rest of the backlog.  In
every run with this property a replay can always go on (`replay_goes_on`).  A replay that has
more left than fits is blocked after finitely many steps of its own (`blocked_of_overfull`). -/

namespace AraNotification

open Interleaving

/-- How much of a backlog is left to put on a channel. -/
def Role.backlogFor (id : Uuid) : Role → ℕ
  | .replaying _ h _ backlog => if h.id = id then backlog.length else 0
  | _ => 0

/-- The `i`-th program is a replay that waits for room in its full channel. -/
def Blocked (c : Config Service Pc) (i : ℕ) : Prop :=
  ∃ transport h start m backlog, c.threads[i]? = some (Pc.replay transport h start (m :: backlog)) ∧
    c.shared.isOpen h.id = true ∧ channelBufferSize ≤ (c.shared.buffer h.id).length

/-- The step leaves room for the backlogs: a drain takes no more than fits, and a message is put
on a channel only beside what is left of a backlog. -/
def Fits (U : UnicodeTables) (settings : Settings) (c : Config Service Pc) :
    Event ServiceCall Input → Prop
  | .call _ => True
  | .run i inp =>
      match upcoming U settings c i inp with
      | some (.drain _ _, some p) => ∀ h ∈ p.role.connection,
          (c.shared.buffer h).length + p.role.backlogFor h ≤ channelBufferSize
      | some (.place _ _ _ (.replay _), _) => True
      | some (.place id _ _ _, _) => ∀ p ∈ c.threads, 0 < p.role.backlogFor id →
          (c.shared.buffer id).length + p.role.backlogFor id < channelBufferSize
      | _ => True

instance (U : UnicodeTables) (settings : Settings) (c : Config Service Pc)
    (e : Event ServiceCall Input) : Decidable (Fits U settings c e) := by
  obtain _ | ⟨i, inp⟩ := e <;> dsimp only [Fits]
  · infer_instance
  · obtain _ | ⟨⟨⟩, p⟩ := upcoming U settings c i inp
    case some.place origin => obtain _ | _ := origin <;> dsimp only <;> infer_instance
    case some.drain => obtain _ | p := p <;> dsimp only <;> infer_instance
    all_goals dsimp only; infer_instance

/-! ### The invariant -/

section invariant
variable {U : UnicodeTables} {settings : Settings} {c c' : Config Service Pc} {i : ℕ} {inp : Input}

/-- What is left of a backlog fits into its channel. -/
def Room (s : Service) (p : Pc) : Prop :=
  ∀ id, 0 < p.role.backlogFor id → (s.buffer id).length + p.role.backlogFor id ≤ channelBufferSize

theorem connection_of_backlogFor {r : Role} {id : Uuid} (h : 0 < r.backlogFor id) :
    r.connection = some id := by
  cases r with
  | replaying transport h' start backlog =>
      simp only [Role.backlogFor] at h
      split_ifs at h with hid
      · exact congrArg some hid
      · omega
  | _ => simp [Role.backlogFor] at h

/-- A move makes a backlog only by a drain. -/
theorem Move.backlogFor {s : Service} {r r' : Role} {a : Action}
    (h : Move settings inp s r a (some r')) (id : Uuid) :
    r'.backlogFor id + a.puts id ≤ r.backlogFor id ∨ r'.backlogFor id = 0 ∨
      ((∃ key now, a = .drain key now) ∧ r'.connection = r.connection) ∨
      (r' = r ∧ a.Quiet) := by
  cases h with
  | quiet ha => exact .inr (.inr (.inr ⟨rfl, ha⟩))
  | drain => exact .inr (.inr (.inl ⟨⟨_, _, rfl⟩, rfl⟩))
  | replay hr =>
      left
      simp only [Role.backlogFor, Action.puts, List.length_cons]
      split_ifs <;> omega
  | skip =>
      left
      simp only [Role.backlogFor, Action.puts, List.length_cons]
      split_ifs <;> omega
  | register hid hr => rcases hr with rfl | ⟨-, rfl⟩ <;> exact .inr (.inl rfl)
  | unregister hr =>
      rcases hr with heq | heq
      · cases heq
        exact .inr (.inl rfl)
      · cases heq
  | _ => exact .inr (.inl rfl)

theorem puts_quiet {a : Action} (ha : a.Quiet) (id : Uuid) : a.puts id = 0 := by
  cases a <;> first | rfl | exact ha.elim

/-- A replay goes to the channel of its own handler. -/
theorem Move.connection_of_replay {s : Service} {r : Role} {q : Option Role} {id x : Uuid}
    {m : OutboundMessage} {now : DateTime} (h : Move settings inp s r (.place id m now (.replay x)) q) :
    id ∈ r.connection := by
  cases h with
  | replay hr => rfl
  | quiet ha => exact ha.elim
  | «end» ha => rcases ha with ha | ha <;> cases ha

theorem place_of_puts {a : Action} {id : Uuid} (h : a.puts id ≠ 0) :
    ∃ m now origin, a = .place id m now origin := by
  cases a with
  | place id' m now origin =>
      simp only [Action.puts] at h
      split_ifs at h with hid
      · exact ⟨m, now, origin, by rw [hid]⟩
      · exact absurd rfl h
  | _ => exact absurd rfl h

/-- The handler that takes the step has room for what it has left. -/
theorem Room.own_step {p p' : Pc} {a : Action} (hroom : Room c.shared p)
    (hmove : Move settings inp c.shared p.role a (some p'.role))
    (hdrain : ∀ key now, a = .drain key now → ∀ id ∈ p'.role.connection,
      (c.shared.buffer id).length + p'.role.backlogFor id ≤ channelBufferSize) :
    Room (c.shared.apply a) p' := by
  intro id hid
  have hlen := Service.length_buffer_apply_le (s := c.shared) a id
  rcases hmove.backlogFor id with hless | hzero | ⟨⟨key, now, rfl⟩, -⟩ | ⟨hrole, hquiet⟩
  · have hold := hroom id (by omega)
    omega
  · omega
  · exact hdrain key now rfl id (connection_of_backlogFor hid)
  · rw [puts_quiet hquiet] at hlen
    have hold := hroom id (by rw [← hrole]; exact hid)
    rw [← hrole] at hold
    omega

/-- Another message on its channel leaves room for a backlog, when it is put there beside it. -/
theorem Room.other_step {p p' : Pc} {a : Action} {q : Option Role} (hroom : Room c.shared p')
    (hmove : Move settings inp c.shared p.role a q)
    (hdifferent : ∀ id ∈ p.role.connection, id ∉ p'.role.connection)
    (hbeside : ∀ id m now origin, a = .place id m now origin → (∀ x, origin ≠ .replay x) →
      0 < p'.role.backlogFor id →
        (c.shared.buffer id).length + p'.role.backlogFor id < channelBufferSize) :
    Room (c.shared.apply a) p' := by
  intro id hid
  have hold := hroom id hid
  have hlen := Service.length_buffer_apply_le (s := c.shared) a id
  by_cases hput : a.puts id = 0
  · omega
  · obtain ⟨m, now, origin, rfl⟩ := place_of_puts hput
    have hone : (Action.place id m now origin).puts id = 1 := by simp [Action.puts]
    have horigin : ∀ x, origin ≠ .replay x := by
      rintro x rfl
      exact hdifferent id hmove.connection_of_replay (connection_of_backlogFor hid)
    have hlt := hbeside id m now origin rfl horigin hid
    omega

theorem room_of_reaches
    (h : Reaches (system U settings) (fun c e => Legal c e ∧ Fits U settings c e) (initial settings) c) :
    Holds Room c := by
  refine h.invariant (by simp [Holds, initial]) ?_
  intro c e c' hr hc he hn
  have htokens := connections_of_reaches (fun _ _ h => h.1) hr
  refine hc.next hn ?_ ?_
  · rintro op rfl id hid
    cases op <;> simp [system, start, Pc.role, Role.backlogFor] at hid
  · rintro i inp p s q l₁ l₂ rfl hp hl hs
    obtain ⟨a, hstep, rfl, hmove⟩ := system_move hs
    have hup : upcoming U settings c i inp = some (a, q) := (upcoming_eq hp).trans hstep
    have hfits := he.2
    simp only [Fits, hup] at hfits
    refine ⟨?_, ?_⟩
    · rintro p' hp'
      obtain rfl : q = some p' := hp'
      refine (hc p (List.mem_of_getElem? hp)).own_step hmove ?_
      rintro key now rfl
      exact hfits
    · intro p' hp' hroom
      refine hroom.other_step hmove (fun id hid => htokens.not_mem_of_split hl hp' hid) ?_
      rintro id m now origin rfl horigin hpos
      cases origin with
      | replay x => exact absurd rfl (horigin x)
      | _ => exact hfits p' (mem_of_split hl hp') hpos

end invariant

/-! ### Replays go on -/

section progress
variable {U : UnicodeTables} {settings : Settings} {c c' : Config Service Pc} {i : ℕ} {inp : Input}
  {transport : Transport} {h : ConnectionHandle} {start : DateTime} {m : StoredMessage}
  {backlog : List StoredMessage}

theorem hasRoom_of_lt {s : Service} {id : Uuid} (ho : s.isOpen id = true)
    (hl : (s.buffer id).length < channelBufferSize) : s.hasRoom id = true := by
  simp [Service.hasRoom, ho, hl]

theorem next_replay_isSome (hp : c.threads[i]? = some (Pc.replay transport h start (m :: backlog)))
    (hl : (c.shared.buffer h.id).length < channelBufferSize) (inp : Input) :
    ∃ c', (system U settings).next c (.run i inp) = some c' := by
  by_cases ho : c.shared.isOpen h.id = true
  · simp [System.next, hp, system, step, ho, hasRoom_of_lt ho hl]
  · simp [System.next, hp, system, step, ho]

/-- **A replay never gets stuck in a run with room for the backlogs**: no replay waits on a full
channel, and every replay that has messages left can take its next step. -/
theorem replay_goes_on
    (hr : Reaches (system U settings) (fun c e => Legal c e ∧ Fits U settings c e) (initial settings) c) :
    (∀ i, ¬ Blocked c i) ∧
      ∀ (i : ℕ) transport h start m backlog,
        c.threads[i]? = some (Pc.replay transport h start (m :: backlog)) →
        ∀ inp, ∃ c', (system U settings).next c (.run i inp) = some c' := by
  have hroom : ∀ (i : ℕ) transport h start m backlog,
      c.threads[i]? = some (Pc.replay transport h start (m :: backlog)) →
        (c.shared.buffer h.id).length < channelBufferSize := by
    intro i transport h start m backlog hp
    have hfits := room_of_reaches hr _ (List.mem_of_getElem? hp) h.id
    simp only [Pc.role, Role.backlogFor, if_true, List.length_cons] at hfits
    omega
  refine ⟨?_, ?_⟩
  · rintro i ⟨transport, h, start, m, backlog, hp, -, hfull⟩
    have := hroom i transport h start m backlog hp
    omega
  · intro i transport h start m backlog hp inp
    exact next_replay_isSome hp (hroom i transport h start m backlog hp) inp

end progress

/-! ### Blocked replays -/

section blocked
variable {U : UnicodeTables} {settings : Settings} {c c' : Config Service Pc} {i : ℕ}

theorem step_replay_of_full {s : Service} {inp : Input} {transport : Transport} {h : ConnectionHandle}
    {start : DateTime} {m : StoredMessage} {backlog : List StoredMessage} (ho : s.isOpen h.id = true)
    (hfull : channelBufferSize ≤ (s.buffer h.id).length) :
    step U settings inp s (.replay transport h start (m :: backlog)) = none := by
  have hroom : s.hasRoom h.id = false := by
    simp [Service.hasRoom, hfull]
  simp [step, ho, hroom]

/-- An action leaves a channel open and does not shorten it, unless it registers, receives from
or closes this very channel. -/
theorem channel_kept {s : Service} {a : Action} {id : Uuid} (hreg : a.registeredId ≠ some id)
    (hdel : a ≠ .deliver id) (hend : a ≠ .sendEnded id) (ho : s.isOpen id = true) :
    (s.apply a).isOpen id = true ∧ (s.buffer id).length ≤ ((s.apply a).buffer id).length := by
  cases a with
  | register transport h =>
      have hne : id ≠ h.id := fun he => hreg (by rw [he]; rfl)
      rw [Service.buffer_register, if_neg hne]
      simp only [Service.isOpen, Service.apply, DashMap.lookup_insert, if_neg hne]
      exact ⟨ho, le_rfl⟩
  | place id' m now origin =>
      rw [Service.buffer_modify (t := s.apply (.place id' m now origin)) rfl]
      simp only [Service.isOpen, Service.apply, DashMap.lookup_modify]
      split_ifs with hid
      · subst hid
        simp only [Service.isOpen, Service.buffer] at ho ⊢
        cases hl : s.channels.lookup id with
        | none => simp [hl] at ho
        | some ch => simpa [hl] using ho
      · exact ⟨ho, le_rfl⟩
  | deliver id' =>
      have hne : id ≠ id' := fun he => hdel (by rw [he])
      rw [Service.buffer_modify (t := s.apply (.deliver id')) rfl, if_neg hne]
      simp only [Service.isOpen, Service.apply, DashMap.lookup_modify, if_neg hne]
      exact ⟨ho, le_rfl⟩
  | sendEnded id' =>
      have hne : id ≠ id' := fun he => hend (by rw [he])
      rw [Service.buffer_modify (t := s.apply (.sendEnded id')) rfl, if_neg hne]
      simp only [Service.isOpen, Service.apply, DashMap.lookup_modify, if_neg hne]
      exact ⟨ho, le_rfl⟩
  | _ => exact ⟨ho, le_rfl⟩

/-- What receives from a channel or closes it is the handler of its connection. -/
theorem Move.connection_of_receive {s : Service} {inp : Input} {r : Role} {a : Action} {q : Option Role}
    {id : Uuid} (h : Move settings inp s r a q) (ha : a = .deliver id ∨ a = .sendEnded id) :
    id ∈ r.connection := by
  cases h with
  | deliver => rcases ha with ha | ha <;> cases ha; rfl
  | «end» hend =>
      rcases ha with rfl | rfl
      · rcases hend with hend | hend <;> cases hend
      · rcases hend with hend | hend <;> cases hend
        rfl
  | quiet hq => rcases ha with rfl | rfl <;> exact hq.elim
  | _ => rcases ha with ha | ha <;> cases ha

/-- The steps of other programs leave the channel of a handler open and do not shorten it. -/
theorem channel_kept_by_other {ok : Config Service Pc → Event ServiceCall Input → Prop} {inp : Input}
    {p p' : Pc} {l₁ l₂ : List Pc} {a : Action} {q : Option Role} {id : Uuid}
    (hok : ∀ c e, ok c e → Legal c e) (hr : Reaches (system U settings) ok (initial settings) c)
    (he : ok c (.run i inp)) (hp : c.threads[i]? = some p) (hl : c.threads = l₁ ++ p :: l₂)
    (hp' : p' ∈ l₁ ++ l₂) (hmove : Move settings inp c.shared p.role a q) (hid : id ∈ p'.role.connection)
    (ho : c.shared.isOpen id = true) :
    (c.shared.apply a).isOpen id = true ∧
      (c.shared.buffer id).length ≤ ((c.shared.apply a).buffer id).length := by
  have htokens := connections_of_reaches hok hr
  have hreg : a.registeredId ≠ some id := by
    intro hreg
    obtain ⟨hrole, hfresh⟩ := hmove.fresh_of_registeredId hreg
    have hnew := (hok _ _ he p hp).1 (registers_of_connecting hrole)
    rw [← hfresh] at hnew
    exact hnew (htokens.free id (List.mem_filterMap.mpr ⟨p', mem_of_split hl hp', hid⟩))
  have hown : ∀ {b : Action}, a = b → (b = .deliver id ∨ b = .sendEnded id) → False := by
    rintro b rfl hb
    exact htokens.not_mem_of_split hl hp' (hmove.connection_of_receive hb) hid
  exact channel_kept hreg (fun ha => hown ha (.inl rfl)) (fun ha => hown ha (.inr rfl)) ho

/-- A blocked replay stays blocked, whatever else happens. -/
theorem blocked_next {e : Event ServiceCall Input}
    (hr : Reaches (system U settings) Legal (initial settings) c) (hb : Blocked c i) (he : Legal c e)
    (hn : (system U settings).next c e = some c') : ∃ j, Blocked c' j := by
  obtain ⟨transport, h, start, m, backlog, hi, ho, hfull⟩ := hb
  obtain ⟨op, rfl, rfl⟩ | ⟨k, inp, p, s, q, l₁, l₂, rfl, hp, hs, hl, rfl⟩ := System.next_cases hn
  · refine ⟨i, transport, h, start, m, backlog, ?_, ho, hfull⟩
    rw [List.getElem?_append_left (List.getElem?_eq_some_iff.mp hi).1]
    exact hi
  · obtain ⟨a, hstep, rfl, hmove⟩ := system_move hs
    have hmem : Pc.replay transport h start (m :: backlog) ∈ l₁ ++ l₂ := by
      have hall := List.mem_of_getElem? hi
      rw [hl, List.mem_append, List.mem_cons] at hall
      rcases hall with hall | hall | hall
      · exact List.mem_append_left _ hall
      · rw [← hall, step_replay_of_full ho hfull] at hstep
        cases hstep
      · exact List.mem_append_right _ hall
    obtain ⟨ho', hlen⟩ := channel_kept_by_other (fun _ _ h => h) hr he hp hl hmem hmove rfl ho
    have hmem' : Pc.replay transport h start (m :: backlog) ∈ l₁ ++ (q.toList ++ l₂) := by
      simp only [List.mem_append] at hmem ⊢
      tauto
    obtain ⟨j, hj⟩ := List.mem_iff_getElem?.mp hmem'
    exact ⟨j, transport, h, start, m, backlog, hj, ho', hfull.trans hlen⟩

/-- **A blocked replay is blocked for ever.** -/
theorem blocked_forever (h₀ : Reaches (system U settings) Legal (initial settings) c)
    (hb : Blocked c i) (h : Reaches (system U settings) Legal c c') : ∃ j, Blocked c' j := by
  induction h with
  | refl => exact ⟨i, hb⟩
  | step hr he hn ih =>
      obtain ⟨j, hj⟩ := ih
      exact blocked_next (h₀.trans hr) hj he hn

/-- A replay with more left than fits into its channel is blocked after some steps of its own. -/
theorem blocked_of_overfull {transport : Transport} {h : ConnectionHandle} {start : DateTime}
    {backlog : List StoredMessage} (hp : c.threads[i]? = some (.replay transport h start backlog))
    (ho : c.shared.isOpen h.id = true) (hle : (c.shared.buffer h.id).length ≤ channelBufferSize)
    (hover : channelBufferSize < (c.shared.buffer h.id).length + backlog.length) :
    ∃ c', Reaches (system U settings) Legal c c' ∧ Blocked c' i := by
  induction backlog generalizing c with
  | nil =>
      simp only [List.length_nil] at hover
      omega
  | cons m backlog ih =>
      by_cases hfull : channelBufferSize ≤ (c.shared.buffer h.id).length
      · exact ⟨c, .refl, transport, h, start, m, backlog, hp, ho, hfull⟩
      · let inp : Input := ⟨start, 0, 0, true, .main, none⟩
        let a : Action := .place h.id (.raw (.notification m.event)) inp.now (.replay m.id)
        have hroom := hasRoom_of_lt ho (not_le.mp hfull)
        have hs : (system U settings).step inp c.shared (.replay transport h start (m :: backlog)) =
            some (c.shared.apply a, some (.replay transport h start backlog)) := by
          simp [system, step, ho, hroom, inp, a]
        obtain ⟨c₁, hn, hshared, hp₁⟩ := System.next_run hp hs
        have hreg : a.registeredId ≠ some h.id := by simp [a, Action.registeredId]
        obtain ⟨ho₁, hmore⟩ := channel_kept hreg (by simp [a]) (by simp [a]) ho
        have hlen : ((c.shared.apply a).buffer h.id).length = (c.shared.buffer h.id).length + 1 := by
          rw [Service.buffer_modify (t := c.shared.apply a) rfl, if_pos rfl]
          simp only [Service.isOpen, Service.buffer] at ho ⊢
          cases hl : c.shared.channels.lookup h.id with
          | none => simp [hl] at ho
          | some ch => simp
        rw [← hshared] at ho₁ hlen
        simp only [List.length_cons] at hover
        obtain ⟨c', hr, hb⟩ := ih hp₁ ho₁ (by omega) (by omega)
        have hlegal : Legal c (.run i inp) := by
          intro p hp'
          obtain rfl := Option.some.inj (hp.symm.trans hp')
          simp [Pc.registers, Pc.enqueues]
        exact ⟨c', (Reaches.step .refl hlegal hn).trans hr, hb⟩

end blocked

/-! ### Two replays -/

section schedules

/-- An uneventful input. -/
def tick : Input := ⟨0, 0, 0, true, .main, none⟩

/-- The event of the schedules. -/
def maintenance : NotificationEvent := ⟨1, 0, "system.maintenance", .null, ⟨"http-api", .normal, none, none, none⟩⟩

/-- A notification is queued `n` times for an offline user, who then connects; the new connection
has registered and drained. -/
def reconnectSchedule (n : ℕ) : List (Event ServiceCall Input) :=
  [.call (.dispatch ⟨maintenance, .users (List.replicate n "bob"), none, true⟩)] ++
    List.replicate (n + 2) (.run 0 tick) ++ (List.range n).map (fun k => .run 0 { tick with fresh := k }) ++
    [.run 0 tick, .run 0 tick, .call (.connect .webSocket ⟨"bob", [], none⟩), .run 0 tick, .run 0 tick]

/-- The only call is a replay with one message left. -/
def lastOfReplay (c : Config Service Pc) : Bool :=
  match c.threads with
  | [.replay _ _ _ [_]] => true
  | _ => false

/-- The only call is a replay that finds no room on an open channel. -/
def waitsForRoom (c : Config Service Pc) : Bool :=
  match c.threads with
  | [.replay _ h _ (_ :: _)] =>
      c.shared.isOpen h.id && decide (channelBufferSize ≤ (c.shared.buffer h.id).length)
  | _ => false

/-- Two queued messages are drained and one of them is replayed; the replay can go on. -/
theorem replay_goes_on_two :
    ∃ c, Reaches (system .ascii .withQueue) (fun c e => Legal c e ∧ Fits .ascii .withQueue c e)
        (initial .withQueue) c ∧
      (∃ transport h start m, c.threads = [.replay transport h start [m]]) ∧
      (∀ i, ¬ Blocked c i) ∧ ∃ c', (system .ascii .withQueue).next c (.run 0 tick) = some c' := by
  have hseen : ((system .ascii .withQueue).play (fun c e => Legal c e ∧ Fits .ascii .withQueue c e)
      (initial .withQueue) (reconnectSchedule 2 ++ [.run 0 tick])).any lastOfReplay = true := by
    decide +kernel
  obtain ⟨c, hr, hc⟩ := exists_reaches_of_play hseen
  have hthreads : ∃ transport h start m, c.threads = [.replay transport h start [m]] := by
    unfold lastOfReplay at hc
    split at hc
    · rename_i transport h start m hl
      exact ⟨transport, h, start, m, hl⟩
    · cases hc
  obtain ⟨hfree, hgo⟩ := replay_goes_on hr
  refine ⟨c, hr, hthreads, hfree, ?_⟩
  obtain ⟨transport, h, start, m, hl⟩ := hthreads
  exact hgo 0 transport h start m [] (by rw [hl]; rfl) tick

/-- With the accepted default configuration and the queue enabled, a user with 33 queued messages
reconnects and the handler waits for room for the last one. -/
theorem replay_deadlock :
    ¬ ∀ (U : UnicodeTables) (settings : Settings), settings.Accepted U → settings.queue.enabled = true →
        ∀ c, Reaches (system U settings) Legal (initial settings) c → ∀ i, ¬ Blocked c i := by
  intro hall
  have hseen : ((system .ascii .withQueue).play Legal (initial .withQueue)
      (reconnectSchedule 33 ++ List.replicate 32 (.run 0 tick))).any waitsForRoom = true := by
    decide +kernel
  obtain ⟨c, hr, hc⟩ := exists_reaches_of_play hseen
  refine hall .ascii .withQueue Settings.accepted_withQueue rfl c hr 0 ?_
  unfold waitsForRoom at hc
  split at hc
  · rename_i transport h start m backlog hl
    simp only [Bool.and_eq_true, decide_eq_true_eq] at hc
    exact ⟨transport, h, start, m, backlog, by rw [hl]; rfl, hc.1, hc.2⟩
  · cases hc

end schedules

end AraNotification
