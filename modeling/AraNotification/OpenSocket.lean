import AraNotification.Stranded

/-! # Open sockets and the clean-up of stale connections

The activity of a connection is only updated by frames from its client, and the server's
heartbeat asks for no answer.  A client that only reads is therefore stale after the timeout,
and the clean-up unregisters it while its handler goes on: the socket stays open, but no
dispatch finds it any more (`unreachable_open_socket`).

The clean-up does what it is meant for as long as the stale connections it finds are *over*:
SSE connections, or WebSockets one of whose tasks has ended (`Spares`).  In every run with
this property an open WebSocket is registered (`open_socket_registered`): its registration
can only be removed by its own handler, after one of its tasks has ended, or by a clean-up,
which has only connections that are over on its list. -/

namespace AraNotification

open Interleaving

/-- The action shows that the connection is not, or no longer, an open WebSocket. -/
def Action.Ends (id : Uuid) : Action → Prop
  | .register .sse h => h.id = id
  | .sendEnded id' | .recvEnded id' => id' = id
  | _ => False

instance (id : Uuid) (a : Action) : Decidable (a.Ends id) := by
  unfold Action.Ends
  split <;> infer_instance

/-- The connection is an SSE connection, or a WebSocket one of whose tasks has ended. -/
def Over (s : Service) (id : Uuid) : Prop := ∃ a ∈ s.history, a.Ends id

instance (s : Service) (id : Uuid) : Decidable (Over s id) :=
  inferInstanceAs (Decidable (∃ a ∈ s.history, a.Ends id))

/-- The step is not a scan for stale connections, or all that it finds are over. -/
def Spares (settings : Settings) (c : Config Service Pc) : Event ServiceCall Input → Prop
  | .call _ => True
  | .run i inp =>
      match c.threads[i]? with
      | some .cleanup =>
          ∀ stale ∈ c.shared.manager.findStaleConnections inp.now settings.websocket.connectionTimeout,
            ∀ id ∈ stale, Over c.shared id
      | _ => True

instance (settings : Settings) (c : Config Service Pc) (e : Event ServiceCall Input) :
    Decidable (Spares settings c e) := by
  obtain _ | ⟨i, inp⟩ := e <;> dsimp only [Spares]
  · infer_instance
  · obtain _ | ⟨⟨⟩⟩ := c.threads[i]? <;> dsimp only <;> infer_instance

/-- The WebSocket that the program serves, or is about to serve. -/
def Role.openSocket : Role → Option ConnectionHandle
  | .registered .webSocket h | .replaying .webSocket h _ _ | .serving .webSocket h true => some h
  | _ => none

/-- The connections that the program is about to remove. -/
def Role.stale : Role → List Uuid
  | .removing stale => stale
  | _ => []

/-! ### Moves -/

section moves
variable {U : UnicodeTables} {settings : Settings} {inp : Input} {s : Service} {r r' : Role} {a : Action}
  {q : Option Role} {id : Uuid}

theorem Role.connection_of_openSocket {h : ConnectionHandle} (ho : h ∈ r.openSocket) :
    r.connection = some h.id := by
  cases r with
  | registered transport h' => cases transport <;> cases ho; rfl
  | replaying transport h' start backlog => cases transport <;> cases ho; rfl
  | serving transport h' live => cases transport <;> cases live <;> cases ho; rfl
  | _ => cases ho

/-- A socket is opened by its registration, and kept by the other steps of its handler. -/
theorem Move.openSocket (hm : Move settings inp s r a (some r')) {h : ConnectionHandle}
    (ho : h ∈ r'.openSocket) :
    (h ∈ r.openSocket ∧ a.registeredId = none ∧ (∀ id, a ≠ .unregister id) ∧ ¬ a.Ends h.id) ∨
      (a = .register .webSocket h ∧ r = .connecting ∧ h.id = inp.fresh) := by
  cases hm with
  | quiet ha =>
      left
      cases a with
      | silent | updateActivity | subscribe | unsubscribe | track | acknowledge =>
          exact ⟨ho, rfl, by simp, id⟩
      | _ => exact ha.elim
  | register hid hr =>
      right
      rename_i transport h'
      rcases hr with rfl | ⟨-, rfl⟩ <;> cases transport <;> cases ho <;> exact ⟨rfl, rfl, hid⟩
  | «end» ha =>
      rename_i transport h' live
      cases transport <;> cases ho
  | unregister hr =>
      rename_i transport h'
      rcases hr with heq | heq
      · cases heq
        cases transport <;> cases ho
      · cases heq
  | @drain transport | @replay transport | @skip transport | @serve transport | @deliver transport
  | @reply transport =>
      exact .inl ⟨by cases transport <;> exact ho, rfl, by simp, id⟩
  | _ => cases ho

/-- What ends a connection is its own handler. -/
theorem Move.connection_of_ends (hm : Move settings inp s r a q) (he : a.Ends id) :
    id ∈ r.connection ∨ (r = .connecting ∧ a.registeredId = some id ∧ id = inp.fresh) := by
  cases hm with
  | register hid hr =>
      rename_i transport h r'
      cases transport with
      | webSocket => exact he.elim
      | sse =>
          have hid' : h.id = id := he
          exact .inr ⟨rfl, congrArg some hid', by rw [← hid', hid]⟩
  | «end» ha => rcases ha with rfl | rfl <;> exact .inl (congrArg some he)
  | quiet ha => cases a <;> first | exact he.elim | exact ha.elim
  | _ => exact he.elim

/-- A connection is unregistered by its own handler, which no longer serves it as an open socket,
or by the clean-up. -/
theorem Move.connection_of_unregister (hm : Move settings inp s r (.unregister id) q) :
    id ∈ r.connection ∨ id ∈ r.stale := by
  cases hm with
  | unregister hr => exact .inl rfl
  | remove hid hs => exact .inr hid
  | quiet ha => exact ha.elim
  | «end» ha => rcases ha with ha | ha <;> cases ha

/-- What the clean-up is about to remove, it has found in its scan. -/
theorem stale_of_step {p p' : Pc} (h : step U settings inp s p = some (a, some p')) (hid : id ∈ p'.role.stale) :
    id ∈ p.role.stale ∨ (p = .cleanup ∧
      ∃ stale ∈ s.manager.findStaleConnections inp.now settings.websocket.connectionTimeout, id ∈ stale) := by
  have hm := step_move h
  generalize hr : p.role = r at hm
  rw [Option.map_some] at hm
  generalize hr' : p'.role = r' at hm hid
  cases hm with
  | scan hs =>
      right
      refine ⟨?_, _, hs, hid⟩
      cases p with
      | cleanup => rfl
      | heartbeat =>
          cases h
          cases hr'
      | heartbeatSend batch rest =>
          cases batch with
          | nil =>
              simp only [step] at h
              split_ifs at h <;> cases h
              cases hr'
          | cons conn batch =>
              simp only [step] at h
              split at h
              · cases h
              · split_ifs at h
                · cases h
                · cases h
                  cases hr'
      | socket sock => simp [Pc.role] at hr
      | _ => cases hr
  | quiet ha => exact .inl hid
  | remove hmem hs => exact .inl (hs id hid)
  | register _ hreg => rcases hreg with rfl | ⟨-, rfl⟩ <;> cases hid
  | unregister hreg =>
      rcases hreg with heq | heq
      · cases heq
        cases hid
      · cases heq
  | _ => cases hid

end moves

/-! ### Open sockets are registered -/

section invariant
variable {U : UnicodeTables} {settings : Settings} {c : Config Service Pc}
  {ok : Config Service Pc → Event ServiceCall Input → Prop}

theorem over_apply {s : Service} {a : Action} {id : Uuid} :
    Over (s.apply a) id ↔ Over s id ∨ a.Ends id := by
  simp only [Over, Service.mem_history_apply]
  constructor
  · rintro ⟨b, hb | rfl, he⟩
    · exact .inl ⟨b, hb, he⟩
    · exact .inr he
  · rintro (⟨b, hb, he⟩ | he)
    · exact ⟨b, .inl hb, he⟩
    · exact ⟨a, .inr rfl, he⟩

/-- A connection that is over has been registered. -/
theorem registered_of_over (hok : ∀ c e, ok c e → Legal c e)
    (h : Reaches (system U settings) ok (initial settings) c) :
    ∀ id, Over c.shared id → id ∈ c.shared.registeredIds := by
  refine h.invariant (I := fun c => ∀ id, Over c.shared id → id ∈ c.shared.registeredIds) ?_ ?_
  · rintro id ⟨a, ha, -⟩
    simp [initial] at ha
  · intro c e c' hr hc he hn id hover
    have htokens := connections_of_reaches hok hr
    obtain ⟨op, rfl, rfl⟩ | ⟨i, inp, p, s, q, l₁, l₂, rfl, hp, hs, hl, rfl⟩ := System.next_cases hn
    · exact hc id hover
    · obtain ⟨a, -, rfl, hmove⟩ := system_move hs
      refine Service.mem_filterMap_apply.mpr ?_
      rcases over_apply.mp hover with hold | hends
      · exact .inl (hc id hold)
      · rcases hmove.connection_of_ends hends with hown | ⟨-, hreg, -⟩
        · exact .inl (htokens.free id (List.mem_filterMap.mpr ⟨p, List.mem_of_getElem? hp, hown⟩))
        · exact .inr hreg

/-- An open socket is registered and not over; what is about to be removed is over. -/
structure Kept (s : Service) (p : Pc) : Prop where
  registered : ∀ h ∈ p.role.openSocket, ¬ Over s h.id ∧ s.identityOf h.id = some h.identity
  stale : ∀ id ∈ p.role.stale, Over s id

/-- The program that takes the step: a new socket is registered, and what a scan finds is over. -/
theorem Kept.own_step {inp : Input} {p p' : Pc} {a : Action} (hkept : Kept c.shared p)
    (hstep : step U settings inp c.shared p = some (a, some p'))
    (hfresh : p.role = .connecting → ¬ Over c.shared inp.fresh)
    (hscan : p = .cleanup → ∀ stale ∈ c.shared.manager.findStaleConnections inp.now
      settings.websocket.connectionTimeout, ∀ id ∈ stale, Over c.shared id) :
    Kept (c.shared.apply a) p' := by
  constructor
  · intro h hh
    rcases (step_move hstep).openSocket hh with ⟨hold, hreg, hunreg, hends⟩ | ⟨rfl, hrole, hid⟩
    · obtain ⟨hnot, hident⟩ := hkept.registered h hold
      refine ⟨fun hov => (over_apply.mp hov).elim hnot hends, ?_⟩
      rw [Service.identityOf_apply hreg hunreg]
      exact hident
    · refine ⟨fun hov => ?_, ?_⟩
      · rcases over_apply.mp hov with hov | hov
        · rw [hid] at hov
          exact hfresh hrole hov
        · exact hov
      · rw [Service.identityOf_register, if_pos rfl]
  · intro id hid
    refine over_apply.mpr (.inl ?_)
    rcases stale_of_step hstep hid with hold | ⟨hp, stale, hstale, hmem⟩
    · exact hkept.stale id hold
    · exact hscan hp stale hstale id hmem

/-- Another program: the step belongs to another handler, or to the clean-up, whose list is over. -/
theorem Kept.other_step {inp : Input} {p p' : Pc} {a : Action} {q : Option Role}
    (hkept : Kept c.shared p') (hmove : Move settings inp c.shared p.role a q)
    (hstale : ∀ id ∈ p.role.stale, Over c.shared id)
    (hdifferent : ∀ id ∈ p.role.connection, id ∉ p'.role.connection)
    (hfresh : p.role = .connecting → inp.fresh ∉ p'.role.connection) :
    Kept (c.shared.apply a) p' := by
  refine ⟨fun h hh => ?_, fun id hid => over_apply.mpr (.inl (hkept.stale id hid))⟩
  obtain ⟨hnot, hident⟩ := hkept.registered h hh
  have hconn : h.id ∈ p'.role.connection := Role.connection_of_openSocket hh
  have hother : h.id ∉ p.role.connection := fun hown => hdifferent h.id hown hconn
  refine ⟨fun hov => ?_, ?_⟩
  · rcases over_apply.mp hov with hov | hends
    · exact hnot hov
    · rcases hmove.connection_of_ends hends with hown | ⟨hrole, -, hid⟩
      · exact hother hown
      · exact hfresh hrole (hid ▸ hconn)
  · rw [Service.identityOf_kept ?_ ?_]
    · exact hident
    · intro hreg
      obtain ⟨hrole, hid⟩ := hmove.fresh_of_registeredId hreg
      exact hfresh hrole (hid ▸ hconn)
    · rintro rfl
      rcases hmove.connection_of_unregister with hown | hlisted
      · exact hother hown
      · exact hnot (hstale h.id hlisted)

theorem kept_of_reaches
    (h : Reaches (system U settings) (fun c e => Legal c e ∧ Spares settings c e) (initial settings) c) :
    Holds Kept c := by
  refine h.invariant (by simp [Holds, initial]) ?_
  intro c e c' hr hc he hn
  have htokens := connections_of_reaches (fun _ _ h => h.1) hr
  have hover := registered_of_over (fun _ _ h => h.1) hr
  refine hc.next hn ?_ ?_
  · rintro op rfl
    constructor
    · intro h hh
      cases op <;> cases hh
    · intro id hid
      cases op <;> cases hid
  · rintro i inp p s q l₁ l₂ rfl hp hl hs
    obtain ⟨a, hstep, rfl, hmove⟩ := system_move hs
    have hkept := hc p (List.mem_of_getElem? hp)
    have hfresh : p.role = .connecting → inp.fresh ∉ c.shared.registeredIds :=
      fun hrole => (he.1 p hp).1 (registers_of_connecting hrole)
    refine ⟨?_, fun p' hp' hkept' => ?_⟩
    · rintro p' hp'
      obtain rfl : q = some p' := hp'
      refine hkept.own_step hstep (fun hrole hov => hfresh hrole (hover _ hov)) ?_
      rintro rfl
      have hspares := he.2
      simp only [Spares, hp] at hspares
      exact hspares
    · refine hkept'.other_step hmove hkept.stale (fun id hid => htokens.not_mem_of_split hl hp' hid) ?_
      intro hrole hconn
      exact hfresh hrole (htokens.free _ (List.mem_filterMap.mpr ⟨p', mem_of_split hl hp', hconn⟩))

/-- **An open WebSocket is registered in every run whose clean-ups spare open sockets**: while both of
its tasks run, the connection manager knows the connection under its identity. -/
theorem open_socket_registered
    (hr : Reaches (system U settings) (fun c e => Legal c e ∧ Spares settings c e) (initial settings) c)
    {sock : Socket} (hsock : Pc.socket sock ∈ c.threads) (hsend : sock.sendTask = true)
    (hrecv : sock.recvTask.isSome = true) :
    ∃ h, c.shared.manager.connections.lookup sock.handle.id = some h ∧
      h.identity = sock.handle.identity := by
  have hopen : sock.handle ∈ (Pc.socket sock).role.openSocket := by
    simp [Pc.role, hsend, hrecv, Role.openSocket]
  obtain ⟨-, hident⟩ := (kept_of_reaches hr _ hsock).registered sock.handle hopen
  exact Option.map_eq_some_iff.mp hident

end invariant

/-! ### Two silent clients -/

section schedules

/-- An input at a time given in seconds. -/
def tickAt (secs : ℤ) : Input := { tick with now := secs * nanosPerSecond }

/-- `alice` opens a WebSocket, which is then served. -/
def openSchedule : List (Event ServiceCall Input) :=
  [.call (.connect .webSocket ⟨"alice", [], none⟩), .run 0 tick, .run 0 tick, .run 0 tick]

/-- The first call serves an open socket that passes a test. -/
def servesOpen (test : Service → Socket → Bool) (c : Config Service Pc) : Bool :=
  match c.threads with
  | .socket sock :: _ => sock.sendTask && sock.recvTask.isSome && test c.shared sock
  | _ => false

theorem exists_of_servesOpen {test : Service → Socket → Bool} {c : Config Service Pc}
    (h : servesOpen test c = true) : ∃ sock, Pc.socket sock ∈ c.threads ∧ sock.sendTask = true ∧
      sock.recvTask.isSome = true ∧ test c.shared sock = true := by
  unfold servesOpen at h
  split at h
  · rename_i sock rest hl
    simp only [Bool.and_eq_true] at h
    obtain ⟨⟨hsend, hrecv⟩, htest⟩ := h
    refine ⟨sock, ?_, hsend, hrecv, htest⟩
    rw [hl]
    exact List.mem_cons_self
  · cases h

/-- The clean-up removes a stale SSE connection and spares the socket of `alice`, whose client has
sent a ping. -/
theorem open_socket_registered_alice :
    ∃ c, Reaches (system .ascii .withQueue) (fun c e => Legal c e ∧ Spares .withQueue c e)
        (initial .withQueue) c ∧
      c.shared.identityOf 1 = none ∧
      ∃ sock, Pc.socket sock ∈ c.threads ∧ sock.sendTask = true ∧ sock.recvTask.isSome = true ∧
        ∃ h, c.shared.manager.connections.lookup sock.handle.id = some h ∧
          h.identity = sock.handle.identity := by
  have hseen : ((system .ascii .withQueue).play (fun c e => Legal c e ∧ Spares .withQueue c e)
      (initial .withQueue) (openSchedule ++ [.call (.connect .sse ⟨"bob", [], none⟩),
        .run 1 { tick with fresh := 1 }, .run 0 { tickAt 100 with task := .recv, frame := some .ping },
        .call .cleanup, .run 2 (tickAt 121), .run 2 (tickAt 121)])).any
          (servesOpen (fun s _ => (s.identityOf 1).isNone)) = true := by
    decide +kernel
  obtain ⟨c, hr, hc⟩ := exists_reaches_of_play hseen
  obtain ⟨sock, hsock, hsend, hrecv, hgone⟩ := exists_of_servesOpen hc
  exact ⟨c, hr, Option.isNone_iff_eq_none.mp hgone, sock, hsock, hsend, hrecv,
    open_socket_registered hr hsock hsend hrecv⟩

/-- A client that reads the heartbeat and says nothing for two minutes is unregistered while its
socket is open. -/
theorem unreachable_open_socket :
    ¬ ∀ (U : UnicodeTables) (settings : Settings), settings.Accepted U →
        ∀ c, Reaches (system U settings) Legal (initial settings) c →
          ∀ sock, Pc.socket sock ∈ c.threads → sock.sendTask = true → sock.recvTask.isSome = true →
            ∃ h, c.shared.manager.connections.lookup sock.handle.id = some h := by
  intro hall
  have hseen : ((system .ascii .withQueue).play Legal (initial .withQueue)
      (openSchedule ++ [.call .heartbeat, .run 1 (tickAt 60), .run 1 (tickAt 60), .run 1 (tickAt 60),
        .run 0 { tickAt 60 with task := .send }, .call .cleanup, .run 1 (tickAt 121),
        .run 1 (tickAt 121), .run 1 (tickAt 121)])).any
          (servesOpen (fun s sock => (s.manager.connections.lookup sock.handle.id).isNone)) = true := by
    decide +kernel
  obtain ⟨c, hr, hc⟩ := exists_reaches_of_play hseen
  obtain ⟨sock, hsock, hsend, hrecv, hgone⟩ := exists_of_servesOpen hc
  obtain ⟨h, hl⟩ := hall .ascii .withQueue Settings.accepted_withQueue c hr sock hsock hsend hrecv
  rw [Option.isNone_iff_eq_none.mp hgone] at hl
  cases hl

end schedules

end AraNotification
