import AraNotification.Lib.Runs
import AraNotification.NoLoss

/-! # Outbound channels

Many tasks put messages on the channel of a connection (dispatches, the replay, the receive
task of the socket, the heartbeat), and one takes them off: the send task of the socket, or
the response stream.  `received` reads off a run what is taken from a channel, in order.

`channel_fifo` says that the channel is a bounded queue in every interleaving: what has been
taken off, followed by what it holds, is what was put on it, so that nothing is lost,
doubled or reordered between the two ends; it never holds more than its capacity; and once
the receiver is gone nothing is put on or taken off any more. -/

namespace AraNotification

open Interleaving

/-- The message that the action puts on the channel. -/
def Action.putOn (id : Uuid) : Action → Option OutboundMessage
  | .place id' m _ _ => if id' = id then some m else none
  | _ => none

/-- The message that the action takes off the channel. -/
def Action.takenOff (s : Service) (id : Uuid) : Action → Option OutboundMessage
  | .deliver id' => if id' = id then (s.buffer id).head? else none
  | _ => none

/-- The messages that actions take off a channel from a state on. -/
def takenFrom (id : Uuid) : Service → List Action → List OutboundMessage
  | _, [] => []
  | s, a :: history => (a.takenOff s id).toList ++ takenFrom id (s.apply a) history

namespace Service
variable (s : Service) (id : Uuid)

/-- Everything that was put on a channel. -/
def put : List OutboundMessage := s.history.filterMap (Action.putOn id)

/-- Everything that was taken off a channel. -/
def received (settings : Settings) : List OutboundMessage := takenFrom id (initial settings).shared s.history

end Service

/-- The channel from which the program takes messages, or is about to. -/
def Pc.receiver : Pc → Option Uuid
  | .drain _ h | .replay _ h _ _ | .stream h => some h.id
  | .socket sock => if sock.sendTask then some sock.handle.id else none
  | _ => none

/-! ### What the actions do to a channel -/

section actions
variable {U : UnicodeTables} {settings : Settings} {inp : Input} {s : Service} {a : Action} {id : Uuid}
  {p p' : Pc} {q : Option Pc}

theorem takenFrom_append (s : Service) (history : List Action) (a : Action) :
    takenFrom id s (history ++ [a]) =
      takenFrom id s history ++ (a.takenOff (history.foldl Service.apply s) id).toList := by
  induction history generalizing s with
  | nil => simp [takenFrom]
  | cons b history ih =>
      rw [List.cons_append, takenFrom, ih, takenFrom, List.append_assoc]
      rfl

theorem put_apply : (s.apply a).put id = s.put id ++ (a.putOn id).toList := by
  rw [Service.put, Service.history_apply, List.filterMap_append]
  cases h : a.putOn id <;> simp [Service.put, h]

/-- Only a registration and the end of the receiver change whether a channel is open. -/
theorem isOpen_apply (hreg : a.registeredId ≠ some id) (hend : a ≠ .sendEnded id) :
    (s.apply a).isOpen id = s.isOpen id := by
  have hmodify : ∀ (id' : Uuid) (f : Channel → Channel), (∀ ch, (f ch).receiver = ch.receiver) →
      ((DashMap.modify s.channels id' f).lookup id).any (·.receiver) = s.isOpen id := by
    intro id' f hf
    rw [DashMap.lookup_modify, Service.isOpen]
    split_ifs with hid
    · subst hid
      cases s.channels.lookup id <;> simp [hf]
    · rfl
  cases a with
  | register transport h =>
      have hne : id ≠ h.id := fun he => hreg (congrArg some he.symm)
      simp only [Service.isOpen, Service.apply, DashMap.lookup_insert, if_neg hne]
  | place id' m now origin => exact hmodify id' _ (fun _ => rfl)
  | deliver id' => exact hmodify id' _ (fun _ => rfl)
  | sendEnded id' =>
      have hne : id ≠ id' := fun he => hend (by rw [he])
      simp only [Service.isOpen, Service.apply, DashMap.lookup_modify, if_neg hne]
  | _ => rfl

theorem isOpen_sendEnded : (s.apply (.sendEnded id)).isOpen id = false := by
  simp only [Service.isOpen, Service.apply, DashMap.lookup_modify]
  cases s.channels.lookup id <;> rfl

/-- A message is put on a channel only when there is room. -/
theorem Move.hasRoom_of_putOn {r : Role} {r' : Option Role} (h : Move settings inp s r a r')
    (hput : (a.putOn id).isSome = true) : s.hasRoom id = true := by
  have hplace : ∀ {id' : Uuid} {m : OutboundMessage} {now : DateTime} {origin : Origin},
      s.hasRoom id' = true → ((Action.place id' m now origin).putOn id).isSome = true → s.hasRoom id = true := by
    intro id' m now origin hroom hput
    simp only [Action.putOn] at hput
    split_ifs at hput with hid
    · exact hid ▸ hroom
    · cases hput
  cases h with
  | place hr | replay hr | reply hr | heartbeat hr => exact hplace hr hput
  | quiet ha => cases a <;> first | exact ha.elim | cases hput
  | «end» ha => rcases ha with rfl | rfl <;> cases hput
  | _ => cases hput

theorem isOpen_of_hasRoom (h : s.hasRoom id = true) : s.isOpen id = true ∧ (s.buffer id).length < channelBufferSize := by
  simpa [Service.hasRoom] using h

/-- What is taken off a channel and what it holds together grow by what is put on it. -/
theorem takenOff_append_buffer (hreg : a.registeredId ≠ some id)
    (hput : (a.putOn id).isSome = true → (s.channels.lookup id).isSome = true) :
    (a.takenOff s id).toList ++ (s.apply a).buffer id = s.buffer id ++ (a.putOn id).toList := by
  cases a with
  | register transport h =>
      have hne : id ≠ h.id := fun he => hreg (congrArg some he.symm)
      rw [Service.buffer_register, if_neg hne]
      simp [Action.takenOff, Action.putOn]
  | place id' m now origin =>
      rw [Service.buffer_modify (t := s.apply (.place id' m now origin)) rfl]
      simp only [Action.takenOff, Action.putOn] at hput ⊢
      split_ifs at hput ⊢ with hid hid' hid'
      · subst hid
        obtain ⟨ch, hch⟩ := Option.isSome_iff_exists.mp (hput rfl)
        simp [Service.buffer, hch]
      · exact absurd hid.symm hid'
      · exact absurd hid'.symm hid
      · simp
  | deliver id' =>
      rw [Service.buffer_modify (t := s.apply (.deliver id')) rfl]
      simp only [Action.takenOff, Action.putOn]
      split_ifs with hid hid' hid'
      · subst hid
        cases hl : s.channels.lookup id' with
        | none => simp [Service.buffer, hl]
        | some ch => cases hb : ch.buffer <;> simp [Service.buffer, hl, hb]
      · exact absurd hid.symm hid'
      · exact absurd hid'.symm hid
      · simp
  | sendEnded id' =>
      rw [Service.buffer_modify (t := s.apply (.sendEnded id')) rfl]
      split_ifs with hid
      · subst hid
        cases hl : s.channels.lookup id <;> simp [Action.takenOff, Action.putOn, Service.buffer, hl]
      · simp [Action.takenOff, Action.putOn]
  | _ => simp [Action.takenOff, Action.putOn, Service.buffer, Service.apply, Service.log]

end actions

/-! ### Receivers -/

section receivers
variable {U : UnicodeTables} {settings : Settings} {c : Config Service Pc} {inp : Input} {s : Service} {a : Action}
  {id : Uuid} {p p' : Pc} {q : Option Pc} {ok : Config Service Pc → Event ServiceCall Input → Prop}

theorem connection_of_receiver (h : id ∈ p.receiver) : id ∈ p.role.connection := by
  cases p with
  | drain | replay | stream => exact h
  | socket sock =>
      simp only [Pc.receiver] at h
      split_ifs at h
      · exact h
      · cases h
  | _ => cases h

theorem receiver_serve (transport : Transport) (h : ConnectionHandle) : (serve transport h).receiver = some h.id := by
  cases transport <;> rfl

/-- What a served WebSocket does next. -/
theorem socketStep_cases {sock : Socket} (h : socketStep U settings inp s sock = some (a, q)) :
    (inp.task = .send ∧ sock.sendTask = true ∧ s.buffer sock.handle.id ≠ [] ∧ a = .deliver sock.handle.id ∧
      q = some (.socket sock)) ∨
    (inp.task = .send ∧ sock.sendTask = true ∧ a = .sendEnded sock.handle.id ∧
      q = some (.socket { sock with sendTask := false })) ∨
    (inp.task = .recv ∧ ∃ r r', sock.recvTask = some r ∧
      receiveStep U settings inp s sock.handle r = some (a, r') ∧ q = some (.socket { sock with recvTask := r' })) ∨
    (inp.task = .main ∧ sock.registered = true ∧ (sock.sendTask && sock.recvTask.isSome) = false ∧
      a = .unregister sock.handle.id ∧ q = some (.socket { sock with registered := false })) ∨
    (inp.task = .main ∧ sock.registered = false ∧ a = .silent ∧ q = none) := by
  unfold socketStep at h
  split at h
  · rename_i htask
    split_ifs at h with hsend hok hempty hempty <;> cases h
    · exact .inl ⟨htask, hsend, fun hnil => hempty (by rw [hnil]; rfl), rfl, rfl⟩
    · exact .inr (.inl ⟨htask, hsend, rfl, rfl⟩)
  · rename_i htask
    split at h
    · cases h
    · rename_i r hr
      obtain ⟨⟨a', r'⟩, hs, heq⟩ := Option.map_eq_some_iff.mp h
      obtain ⟨rfl, rfl⟩ := Prod.mk.inj heq
      exact .inr (.inr (.inl ⟨htask, r, r', hr, hs, rfl⟩))
  · rename_i htask
    split_ifs at h with hreg hboth <;> cases h
    · exact .inr (.inr (.inr (.inl ⟨htask, hreg, by simpa using hboth, rfl, rfl⟩)))
    · exact .inr (.inr (.inr (.inr ⟨htask, by simpa using hreg, rfl, rfl⟩)))

/-- The step of a socket keeps the receiver, or ends it. -/
theorem receiver_of_socketStep {sock : Socket} (h : socketStep U settings inp s sock = some (a, some p'))
    (hid : id ∈ p'.receiver) : id ∈ (Pc.socket sock).receiver ∧ a.registeredId = none ∧ a ≠ .sendEnded id := by
  obtain ⟨-, -, -, rfl, hq⟩ | ⟨-, -, rfl, hq⟩ | ⟨-, r, r', -, hs, hq⟩ | ⟨-, -, -, rfl, hq⟩ | ⟨-, -, -, hq⟩ :=
    socketStep_cases h
  · obtain rfl := Option.some.inj hq
    exact ⟨hid, rfl, by simp⟩
  · obtain rfl := Option.some.inj hq
    cases hid
  · obtain rfl := Option.some.inj hq
    refine ⟨hid, ?_⟩
    rcases receiveStep_cases hs with ⟨ha, -⟩ | ⟨rfl, -⟩ | ⟨m, -, rfl, -⟩
    · cases a <;> first | exact ha.elim | exact ⟨rfl, by simp⟩
    · exact ⟨rfl, by simp⟩
    · exact ⟨rfl, by simp⟩
  · obtain rfl := Option.some.inj hq
    exact ⟨hid, rfl, by simp⟩
  · cases hq

/-- A program that receives has just registered, or received before and has not ended the receiver. -/
theorem receiver_of_step (h : step U settings inp s p = some (a, some p')) (hid : id ∈ p'.receiver) :
    a.registeredId = some id ∨ (id ∈ p.receiver ∧ a.registeredId = none ∧ a ≠ .sendEnded id) := by
  rcases (step_move h).connection (x := id) (connection_of_receiver hid) with hold | ⟨-, -, hreg⟩
  · right
    cases p with
    | drain transport h' =>
        cases h
        exact ⟨hid, rfl, by simp⟩
    | replay transport h' start backlog =>
        cases backlog with
        | nil =>
            cases h
            rw [receiver_serve] at hid
            exact ⟨hid, rfl, by simp⟩
        | cons m backlog =>
            simp only [step] at h
            split_ifs at h <;> cases h <;> exact ⟨hid, rfl, by simp⟩
    | socket sock => exact receiver_of_socketStep h hid
    | stream h' =>
        simp only [step] at h
        split_ifs at h <;> cases h
        · exact ⟨hid, rfl, by simp⟩
        · cases hid
    | closeStream h' => cases h
    | _ => cases hold
  · exact .inl hreg

theorem receiver_of_deliver (h : step U settings inp s p = some (.deliver id, q)) : id ∈ p.receiver := by
  have hold : id ∈ p.role.connection := (step_move h).connection_of_receive (.inl rfl)
  cases p with
  | replay transport h' start backlog =>
      cases backlog with
      | nil => cases h
      | cons m backlog =>
          simp only [step] at h
          split_ifs at h <;> cases h
  | socket sock =>
      obtain ⟨-, hsend, -, ha, -⟩ | ⟨-, -, ha, -⟩ | ⟨-, r, r', -, hs, -⟩ | ⟨-, -, -, ha, -⟩ | ⟨-, -, ha, -⟩ :=
        socketStep_cases h
      · obtain rfl := Action.deliver.inj ha
        exact if_pos hsend
      · cases ha
      · rcases receiveStep_cases hs with ⟨ha, -⟩ | ⟨ha, -⟩ | ⟨m, -, ha, -⟩
        · exact ha.elim
        · cases ha
        · cases ha
      · cases ha
      · cases ha
  | stream h' =>
      simp only [step] at h
      split_ifs at h <;> cases h
      rfl
  | drain transport h' | closeStream h' => cases h
  | _ => cases hold

/-- A channel whose receiver has ended was registered, and is closed for good. -/
theorem closed_of_reaches (hok : ∀ c e, ok c e → Legal c e)
    (h : Reaches (system U settings) ok (initial settings) c) :
    ∀ id, .sendEnded id ∈ c.shared.history → id ∈ c.shared.registeredIds ∧ c.shared.isOpen id = false := by
  refine service_invariant (P := fun s => ∀ id, .sendEnded id ∈ s.history →
    id ∈ s.registeredIds ∧ s.isOpen id = false) h (by simp [initial]) ?_
  intro c i inp p a q hr hc he hp hstep hmove id hended
  rcases Service.mem_history_apply.mp hended with hold | rfl
  · obtain ⟨hreg, hclosed⟩ := hc id hold
    refine ⟨Service.mem_filterMap_apply.mpr (.inl hreg), ?_⟩
    by_cases hend : a = .sendEnded id
    · rw [hend]
      exact isOpen_sendEnded
    · rw [isOpen_apply (fun hnew => ?_) hend]
      · exact hclosed
      · obtain ⟨hrole, rfl⟩ := hmove.fresh_of_registeredId hnew
        exact (hok _ _ he p hp).1 (registers_of_connecting hrole) hreg
  · refine ⟨Service.mem_filterMap_apply.mpr (.inl ?_), isOpen_sendEnded⟩
    have hown : id ∈ p.role.connection := hmove.connection_of_receive (.inr rfl)
    exact (connections_of_reaches hok hr).free id (List.mem_filterMap.mpr ⟨p, List.mem_of_getElem? hp, hown⟩)

/-- The channel of a program that receives is open. -/
theorem receivers_of_reaches (hok : ∀ c e, ok c e → Legal c e)
    (h : Reaches (system U settings) ok (initial settings) c) :
    Holds (fun s p => ∀ id ∈ p.receiver, s.isOpen id = true) c := by
  refine h.invariant (by simp [Holds, initial]) ?_
  intro c e c' hr hc he hn
  have htokens := connections_of_reaches hok hr
  refine hc.next hn ?_ ?_
  · rintro op rfl id hid
    cases op <;> cases hid
  · rintro i inp p s q l₁ l₂ rfl hp hl hs
    obtain ⟨a, hstep, rfl, hmove⟩ := system_move hs
    refine ⟨?_, fun p' hmem hopen id hid => ?_⟩
    · rintro p' rfl id hid
      rcases receiver_of_step hstep hid with hreg | ⟨hold, hreg, hend⟩
      · cases a with
        | register transport h' =>
            obtain rfl := Option.some.inj hreg
            exact isOpen_register
        | _ => cases hreg
      · rw [isOpen_apply (by simp [hreg]) hend]
        exact hc p (List.mem_of_getElem? hp) id hold
    · have hconn := connection_of_receiver hid
      have hreg : a.registeredId ≠ some id := by
        intro hreg
        obtain ⟨hrole, rfl⟩ := hmove.fresh_of_registeredId hreg
        exact (hok _ _ he p hp).1 (registers_of_connecting hrole)
          (htokens.free _ (List.mem_filterMap.mpr ⟨p', mem_of_split hl hmem, hconn⟩))
      have hend : a ≠ .sendEnded id := by
        rintro rfl
        exact htokens.not_mem_of_split hl hmem (hmove.connection_of_receive (.inr rfl)) hconn
      rw [isOpen_apply hreg hend]
      exact hopen id hid

end receivers

/-! ### Bounded queues -/

section queues
variable {U : UnicodeTables} {settings : Settings} {c : Config Service Pc} {id : Uuid}
  {ok : Config Service Pc → Event ServiceCall Input → Prop}

theorem exists_of_isOpen {s : Service} (h : s.isOpen id = true) : (s.channels.lookup id).isSome = true := by
  simp only [Service.isOpen, Option.any_eq_true] at h
  obtain ⟨ch, hch, -⟩ := h
  rw [hch]
  rfl

/-- Only connections that were registered have been put something on. -/
theorem registered_of_put (h : Reaches (system U settings) ok (initial settings) c) :
    c.shared.put id ≠ [] → id ∈ c.shared.registeredIds := by
  refine service_invariant (P := fun s => s.put id ≠ [] → id ∈ s.registeredIds) h
    (fun hne => absurd rfl hne) ?_
  intro c i inp p a q hr hc _ _ _ hmove hne
  refine Service.mem_filterMap_apply.mpr (.inl ?_)
  rw [put_apply] at hne
  cases hput : a.putOn id with
  | none =>
      rw [hput, Option.toList_none, List.append_nil] at hne
      exact hc hne
  | some m =>
      obtain ⟨hopen, -⟩ := isOpen_of_hasRoom (hmove.hasRoom_of_putOn (by rw [hput]; rfl))
      exact (registered_of_placed hr).1 id (exists_of_isOpen hopen)

theorem received_apply (h : Reaches (system U settings) ok (initial settings) c) (a : Action) :
    (c.shared.apply a).received id settings =
      c.shared.received id settings ++ (a.takenOff c.shared id).toList := by
  have hafter : c.shared.history.foldl Service.apply (initial settings).shared = c.shared :=
    (shared_eq_after h).symm
  rw [Service.received, Service.history_apply, takenFrom_append, hafter]
  rfl

/-- What has been taken off, followed by what the channel holds, is what was put on it. -/
theorem line_of_reaches (h : Reaches (system U settings) Legal (initial settings) c) (id : Uuid) :
    c.shared.received id settings ++ c.shared.buffer id = c.shared.put id := by
  refine service_invariant (P := fun s => s.received id settings ++ s.buffer id = s.put id) h rfl ?_
  intro c i inp p a q hr hline he hp hstep hmove
  rw [received_apply hr, put_apply]
  by_cases hreg : a.registeredId = some id
  · -- the channel of a new connection is empty, and so was everything before
    cases a with
    | register transport h' =>
        obtain rfl := Option.some.inj hreg
        have hnil : c.shared.put h'.id = [] := by
          by_contra hne
          obtain ⟨hrole, hfresh⟩ := hmove.fresh_of_registeredId hreg
          exact (he p hp).1 (registers_of_connecting hrole) (hfresh ▸ registered_of_put hr hne)
        rw [hnil] at hline ⊢
        obtain ⟨hnone, -⟩ := List.append_eq_nil_iff.mp hline
        rw [hnone, Service.buffer_register, if_pos rfl]
        rfl
    | _ => cases hreg
  · rw [List.append_assoc, takenOff_append_buffer hreg (fun hput => exists_of_isOpen
      (isOpen_of_hasRoom (hmove.hasRoom_of_putOn hput)).1), ← List.append_assoc, hline]

/-- **An outbound channel is a bounded queue** in every interleaving: what has been taken off, followed by
what it holds, is what was put on it; it holds no more than its capacity; and when the receiver has ended,
nothing is taken off or put on any more. -/
theorem channel_fifo (h : Reaches (system U settings) Legal (initial settings) c) (id : Uuid) :
    c.shared.received id settings ++ c.shared.buffer id = c.shared.put id ∧
      (c.shared.buffer id).length ≤ channelBufferSize ∧
      ∀ l₁ l₂, c.shared.history = l₁ ++ .sendEnded id :: l₂ →
        ∀ a ∈ l₂, a ≠ .deliver id ∧ a.putOn id = none := by
  have hok : ∀ (c : Config Service Pc) (e : Event ServiceCall Input), Legal c e → Legal c e := fun _ _ he => he
  refine ⟨line_of_reaches h id, ?_⟩
  refine service_invariant (P := fun s => (s.buffer id).length ≤ channelBufferSize ∧
    ∀ l₁ l₂, s.history = l₁ ++ .sendEnded id :: l₂ → ∀ a ∈ l₂, a ≠ .deliver id ∧ a.putOn id = none) h
    ⟨Nat.zero_le _, by simp [initial]⟩ ?_
  rintro c i inp p a q hr ⟨hbound, hdead⟩ he hp hstep hmove
  have hroom : (a.putOn id).isSome = true → c.shared.isOpen id = true ∧ (c.shared.buffer id).length < channelBufferSize :=
    fun hput => isOpen_of_hasRoom (hmove.hasRoom_of_putOn hput)
  refine ⟨?_, ?_⟩
  · have hlen := Service.length_buffer_apply_le (s := c.shared) a id
    by_cases hput : (a.putOn id).isSome = true
    · have hfree := (hroom hput).2
      have hone : a.puts id ≤ 1 := by
        unfold Action.puts
        split
        · split_ifs <;> simp
        · exact Nat.zero_le _
      omega
    · have hzero : a.puts id = 0 := by
        cases a with
        | place id' m now origin =>
            have hne : id' ≠ id := fun heq => hput (by rw [Action.putOn, if_pos heq]; rfl)
            exact if_neg hne
        | _ => rfl
      omega
  · intro l₁ l₂ hl b hb
    rw [Service.history_apply] at hl
    rcases Runs.snoc_split_cases hl with ⟨-, -, rfl⟩ | ⟨rest, rfl, hl'⟩
    · cases hb
    · rcases List.mem_append.mp hb with hb | hb
      · exact hdead l₁ rest hl' b hb
      · obtain rfl := List.mem_singleton.mp hb
        have hended : .sendEnded id ∈ c.shared.history := by
          rw [hl']
          exact List.mem_append_right _ List.mem_cons_self
        have hclosed := (closed_of_reaches hok hr id hended).2
        refine ⟨?_, ?_⟩
        · rintro rfl
          have hopen := receivers_of_reaches hok hr p (List.mem_of_getElem? hp) id (receiver_of_deliver hstep)
          rw [hclosed] at hopen
          cases hopen
        · by_contra hput
          have hopen := (hroom (Option.isSome_iff_ne_none.mpr hput)).1
          rw [hclosed] at hopen
          cases hopen

end queues

/-! ### A replay and a direct notification -/

/-- The client of `bob` has taken one of the two messages on his channel, and the other is left. -/
theorem channel_fifo_bob :
    ∃ c, Reaches (system .ascii .withQueue) Legal (initial .withQueue) c ∧ (c.shared.put 0).length = 2 ∧
      (c.shared.received 0 .withQueue).length = 1 ∧
      c.shared.received 0 .withQueue ++ c.shared.buffer 0 = c.shared.put 0 := by
  have hseen : ((system .ascii .withQueue).play Legal (initial .withQueue)
      (storedThenSent ++ [.run 0 { tick with task := .send }])).any (fun c =>
        decide ((c.shared.put 0).length = 2 ∧ (c.shared.received 0 .withQueue).length = 1)) = true := by
    decide +kernel
  obtain ⟨c, hr, hc⟩ := exists_reaches_of_play hseen
  obtain ⟨hput, hreceived⟩ := of_decide_eq_true hc
  exact ⟨c, hr, hput, hreceived, (channel_fifo hr 0).1⟩

end AraNotification
