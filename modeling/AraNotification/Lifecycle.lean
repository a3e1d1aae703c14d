import AraNotification.Service

/-! # What a step of the service can do

The programs of `Service.lean` have many program counters, but for the delivery of messages
only a few situations matter: a dispatch has been called, is running or is about to return; a
connection is being opened, is registered and has not drained its queue, replays what it has
drained, or is served; the clean-up has found stale connections.  `Pc.role` reads the
situation off a program counter.

`Move` lists what can happen in each situation, with the action performed and the situation
that follows, and `step_move` says that every step of a program is such a move.  The facts
about runs in the later modules are proved over moves.

The second half describes the effect of an action on the parts of the state that these facts
are about: the identities of the registered connections, the queue, and the channels. -/

namespace AraNotification

open Interleaving

/-! ### Situations -/

/-- The situation of a running program. -/
inductive Role where
  | waiting (call : DispatchCall)
  | dispatching (event : NotificationEvent) (since : Option DateTime)
  | connecting
  | registered (transport : Transport) (h : ConnectionHandle)
  | replaying (transport : Transport) (h : ConnectionHandle) (start : DateTime)
      (backlog : List StoredMessage)
  | serving (transport : Transport) (h : ConnectionHandle) (live : Bool)
  | background
  | removing (stale : List Uuid)

/-- The situation at a program counter.  A dispatch that has nothing left to send has no
starting time; a served WebSocket is live while both of its tasks run. -/
def Pc.role : Pc → Role
  | .begin call => .waiting call
  | .userLookup d _ | .userEnqueue d _ | .usersLookup d _ _ _ _ | .usersEnqueue d _ _ _
  | .broadcastLookup d | .channelLookup d _ | .channelsLookup d _ _ | .send d _ _ _
  | .track d _ _ _ _ => .dispatching d.event (some d.start)
  | .ret d => .dispatching d.event none
  | .connect _ _ => .connecting
  | .drain transport h => .registered transport h
  | .replay transport h start backlog => .replaying transport h start backlog
  | .socket sock =>
      .serving .webSocket sock.handle (sock.sendTask && sock.recvTask.isSome)
  | .stream h => .serving .sse h true
  | .closeStream h => .serving .sse h false
  | .heartbeat | .heartbeatSend _ _ | .cleanup => .background
  | .cleanupRemove stale => .removing stale

/-- How many messages the action puts on a channel. -/
def Action.puts (a : Action) (id : Uuid) : ℕ :=
  match a with
  | .place id' _ _ _ => if id' = id then 1 else 0
  | _ => 0

/-- The message that the action stores under a key. -/
def Action.storedUnder (key : String) : Action → Option StoredMessage
  | .enqueue i m => if i.key = key then some m else none
  | _ => none

/-- The action touches neither the queue, nor a channel, nor who is registered. -/
def Action.Quiet : Action → Prop
  | .silent | .updateActivity _ _ | .subscribe _ _ | .unsubscribe _ _ | .track _ _ _ _
  | .acknowledge _ _ _ => True
  | _ => False

/-! ### Moves -/

section moves
variable (settings : Settings) (inp : Input) (s : Service)

/-- What can happen in a situation. -/
inductive Move : Role → Action → Option Role → Prop
  | quiet {r : Role} {a : Action} (ha : a.Quiet) : Move r a (some r)
  | begin {call : DispatchCall} {since : Option DateTime}
      (hs : since = some inp.now ∨ since = none)
      (he : call.checked = true → call.event.isExpired inp.now = true → since = none) :
      Move (.waiting call) (.began call.event) (some (.dispatching call.event since))
  | settle {e : NotificationEvent} {since : Option DateTime} :
      Move (.dispatching e since) .silent (some (.dispatching e none))
  | enqueue {e : NotificationEvent} {st : DateTime} {since : Option DateTime} {i : Identity}
      (hs : since = some st ∨ since = none) :
      Move (.dispatching e (some st)) (.enqueue i (.new inp.fresh inp.now e))
        (some (.dispatching e since))
  | place {e : NotificationEvent} {st : DateTime} {id : Uuid} {m : OutboundMessage}
      (hr : s.hasRoom id = true) (hm : m.event = some e) :
      Move (.dispatching e (some st)) (.place id m inp.now .direct) (some (.dispatching e (some st)))
  | return {e : NotificationEvent} {r : DeliveryResult} (hr : r.notificationId = e.id) :
      Move (.dispatching e none) (.returned r) none
  | refuse : Move .connecting .silent none
  | register {transport : Transport} {h : ConnectionHandle} {r : Role} (hid : h.id = inp.fresh)
      (hr : r = .registered transport h ∨ (s.queue.isEnabled = false ∧ r = .serving transport h true)) :
      Move .connecting (.register transport h) (some r)
  | drain {transport : Transport} {h : ConnectionHandle} :
      Move (.registered transport h) (.drain h.identity.key inp.now)
        (some (.replaying transport h inp.now (s.queue.drain h.identity.key inp.now).1.messages))
  | replay {transport : Transport} {h : ConnectionHandle} {start : DateTime} {m : StoredMessage}
      {backlog : List StoredMessage} (hr : s.hasRoom h.id = true) :
      Move (.replaying transport h start (m :: backlog))
        (.place h.id (.raw (.notification m.event)) inp.now (.replay m.id))
        (some (.replaying transport h start backlog))
  | skip {transport : Transport} {h : ConnectionHandle} {start : DateTime} {m : StoredMessage}
      {backlog : List StoredMessage} :
      Move (.replaying transport h start (m :: backlog)) .silent
        (some (.replaying transport h start backlog))
  | serve {transport : Transport} {h : ConnectionHandle} {start : DateTime} :
      Move (.replaying transport h start []) .silent (some (.serving transport h true))
  | deliver {transport : Transport} {h : ConnectionHandle} {live : Bool} :
      Move (.serving transport h live) (.deliver h.id) (some (.serving transport h live))
  | reply {transport : Transport} {h : ConnectionHandle} {live : Bool} {m : OutboundMessage}
      (hr : s.hasRoom h.id = true) :
      Move (.serving transport h live) (.place h.id m inp.now .reply) (some (.serving transport h live))
  | end {transport : Transport} {h : ConnectionHandle} {live : Bool} {a : Action}
      (ha : a = .sendEnded h.id ∨ a = .recvEnded h.id) :
      Move (.serving transport h live) a (some (.serving transport h false))
  | unregister {transport : Transport} {h : ConnectionHandle} {r : Option Role}
      (hr : r = some (.serving transport h false) ∨ r = none) :
      Move (.serving transport h false) (.unregister h.id) r
  | leave {transport : Transport} {h : ConnectionHandle} {live : Bool} :
      Move (.serving transport h live) .silent none
  | heartbeat {id : Uuid} {m : OutboundMessage} (hr : s.hasRoom id = true) :
      Move .background (.place id m inp.now .heartbeat) (some .background)
  | scan {stale : List Uuid}
      (hs : s.manager.findStaleConnections inp.now settings.websocket.connectionTimeout = some stale) :
      Move .background .silent (some (.removing stale))
  | remove {stale stale' : List Uuid} {id : Uuid} (hid : id ∈ stale) (hs : ∀ x ∈ stale', x ∈ stale) :
      Move (.removing stale) (.unregister id) (some (.removing stale'))
  | idle : Move .background .silent none
  | removed {stale : List Uuid} : Move (.removing stale) .silent none

end moves

/-! ### Every step is a move -/

section refinement
variable {U : UnicodeTables} {settings : Settings} {inp : Input} {s : Service} {a : Action}

theorem role_nextBatch (d : Dispatch) (rest : List String) :
    (nextBatch d rest).role = .dispatching d.event (some d.start) ∨
      (nextBatch d rest).role = .dispatching d.event none := by
  unfold nextBatch
  split_ifs
  · exact .inr rfl
  · exact .inl rfl

theorem role_startSend (d : Dispatch) (found : List ConnectionHandle) (rest : List String) :
    (startSend d found rest).role = .dispatching d.event (some d.start) ∨
      (startSend d found rest).role = .dispatching d.event none := by
  unfold startSend
  split_ifs
  · exact role_nextBatch d rest
  · exact .inl rfl

theorem role_firstLookup (d : Dispatch) (target : NotificationTarget) :
    (firstLookup d target).role = .dispatching d.event (some d.start) ∨
      (firstLookup d target).role = .dispatching d.event none := by
  cases target with
  | user userId => exact .inl rfl
  | users userIds => exact role_nextBatch d userIds
  | broadcast => exact .inl rfl
  | channel channel => exact .inl rfl
  | channels channels => exact .inl rfl

/-- A silent step of a dispatch goes on or has nothing left to send. -/
theorem move_of_dispatching {e : NotificationEvent} {st : DateTime} {r : Role}
    (h : r = .dispatching e (some st) ∨ r = .dispatching e none) :
    Move settings inp s (.dispatching e (some st)) .silent (some r) := by
  rcases h with rfl | rfl
  · exact .quiet trivial
  · exact .settle

/-- A dispatch that sends has come to its end, has put the event on a channel with room, or has
given up on one without. -/
theorem step_send_cases {d : Dispatch} {concurrent : Bool} {todo : List ConnectionHandle}
    {rest : List String} {q : Option Pc}
    (h : step U settings inp s (.send d concurrent todo rest) = some (a, q)) :
    (todo = [] ∧ a = .silent ∧ q = some (nextBatch d rest)) ∨
    (∃ i conn, todo[i]? = some conn ∧ s.hasRoom conn.id = true ∧
      a = .place conn.id (outbound concurrent (.notification d.event)) inp.now .direct ∧
      q = some (.track { d with delivered := d.delivered + 1 } concurrent conn (todo.eraseIdx i) rest)) ∨
    (∃ i conn, todo[i]? = some conn ∧ s.hasRoom conn.id = false ∧ a = .silent ∧
      q = some (.send { d with failed := d.failed + 1 } concurrent (todo.eraseIdx i) rest)) := by
  cases todo with
  | nil =>
      cases h
      exact .inl ⟨rfl, rfl, rfl⟩
  | cons first todo =>
      right
      simp only [step, sendStep] at h
      generalize (if concurrent = true then inp.pick else 0) = i at h
      split at h
      · cases h
      · split at h
        · cases h
        · rename_i conn hconn
          split_ifs at h with hok hroom hroom <;> cases h
          · exact .inl ⟨i, conn, hconn, hroom, rfl, rfl⟩
          · exact .inr ⟨i, conn, hconn, by simpa using hroom, rfl, rfl⟩

/-- A connect is refused, or registers a connection of the claims under a new identifier. -/
theorem step_connect_cases {transport : Transport} {claims : Claims} {q : Option Pc}
    (h : step U settings inp s (.connect transport claims) = some (a, q)) :
    (a = .silent ∧ q = none) ∨
      ∃ h', a = .register transport h' ∧ h'.id = inp.fresh ∧ h'.identity = claims.identity ∧
        q = some (if s.queue.isEnabled then .drain transport h' else serve transport h') := by
  simp only [step, ConnectionManager.register] at h
  obtain ⟨e, he⟩ | ⟨-, -, he⟩ := s.manager.registerWithLimits_cases inp.fresh claims.sub
    claims.getTenantId claims.roles inp.now s.manager.limits
  · rw [he] at h
    cases h
    exact .inl ⟨rfl, rfl⟩
  · rw [he] at h
    cases h
    exact .inr ⟨_, rfl, rfl, rfl, rfl⟩

/-- A step of the receive task is quiet, ends the task, or replies. -/
theorem receiveStep_cases {h : ConnectionHandle} {r : Receiving} {r' : Option Receiving}
    (hs : receiveStep U settings inp s h r = some (a, r')) :
    (a.Quiet ∧ r'.isSome = true) ∨ (a = .recvEnded h.id ∧ r' = none) ∨
      (∃ m, s.hasRoom h.id = true ∧ a = .place h.id m inp.now .reply ∧ r'.isSome = true) := by
  cases r with
  | idle =>
      simp only [receiveStep, Option.some.injEq] at hs
      unfold receiveFrame at hs
      split at hs <;> cases hs
      case h_1 | h_2 => exact .inr (.inl ⟨rfl, rfl⟩)
      all_goals exact .inl ⟨trivial, rfl⟩
  | subscribing todo progress =>
      cases todo with
      | nil =>
          cases hs
          exact .inl ⟨trivial, rfl⟩
      | cons channel todo =>
          cases hs
          refine .inl ⟨?_, rfl⟩
          split_ifs <;> trivial
  | unsubscribing todo all =>
      cases todo <;> cases hs <;> exact .inl ⟨trivial, rfl⟩
  | acking notificationId =>
      cases hs
      refine .inl ⟨?_, rfl⟩
      split_ifs <;> trivial
  | replying todo =>
      cases todo with
      | nil =>
          cases hs
          exact .inl ⟨trivial, rfl⟩
      | cons message todo =>
          simp only [receiveStep] at hs
          split_ifs at hs with hok hroom hroom
          · cases hs
            exact .inr (.inr ⟨_, hroom, rfl, rfl⟩)
          · cases hs
            exact .inl ⟨trivial, rfl⟩

theorem move_socketStep {sock : Socket} {q : Option Pc}
    (h : socketStep U settings inp s sock = some (a, q)) :
    Move settings inp s (Pc.socket sock).role a (q.map Pc.role) := by
  unfold socketStep at h
  split at h
  · split_ifs at h <;> cases h
    · exact .deliver
    · exact .end (.inl rfl)
  · split at h
    · cases h
    · rename_i r hr
      obtain ⟨⟨a', r'⟩, hs, heq⟩ := Option.map_eq_some_iff.mp h
      obtain ⟨rfl, rfl⟩ := Prod.mk.inj heq
      simp only [Option.map_some, Pc.role, hr, Option.isSome_some, Bool.and_true]
      rcases receiveStep_cases hs with ⟨ha, hsome⟩ | ⟨rfl, rfl⟩ | ⟨m, hroom, rfl, hsome⟩
      · rw [hsome, Bool.and_true]
        exact .quiet ha
      · rw [Option.isSome_none, Bool.and_false]
        exact .end (.inr rfl)
      · rw [hsome, Bool.and_true]
        exact .reply hroom
  · split_ifs at h with hreg htasks
    · cases h
      have hlive : (sock.sendTask && sock.recvTask.isSome) = false := Bool.eq_false_iff.mpr htasks
      rw [Option.map_some]
      simp only [Pc.role, hlive]
      exact .unregister (.inl rfl)
    · cases h
      exact .leave

theorem role_serve (transport : Transport) (h : ConnectionHandle) :
    (serve transport h).role = .serving transport h true := by
  cases transport <;> rfl

/-- **Every step of a program is a move.** -/
theorem step_move {p : Pc} {q : Option Pc} (h : step U settings inp s p = some (a, q)) :
    Move settings inp s p.role a (q.map Pc.role) := by
  cases p with
  | begin call =>
      simp only [step] at h
      split_ifs at h with hexp <;> cases h
      · exact .begin (.inr rfl) (fun _ _ => rfl)
      · have hlive : ¬ (call.checked = true ∧ call.event.isExpired inp.now = true) := by
          simpa using hexp
        rcases role_firstLookup ⟨call.event, call.tenantId, inp.now, 0, 0⟩ call.target with hr | hr
        · rw [Option.map_some, hr]
          exact .begin (.inl rfl) (fun hc he => absurd ⟨hc, he⟩ hlive)
        · rw [Option.map_some, hr]
          exact .begin (.inr rfl) (fun _ _ => rfl)
  | userLookup d userId =>
      simp only [step] at h
      split_ifs at h <;> cases h
      · exact .quiet trivial
      · exact move_of_dispatching (role_startSend d _ [])
  | userEnqueue d userId =>
      cases h
      exact .enqueue (.inr rfl)
  | usersLookup d batch found offline rest =>
      cases batch with
      | nil =>
          simp only [step] at h
          split_ifs at h <;> cases h
          · exact .quiet trivial
          · exact move_of_dispatching (role_startSend d found rest)
      | cons userId batch =>
          simp only [step] at h
          split_ifs at h <;> cases h <;> exact .quiet trivial
  | usersEnqueue d offline found rest =>
      cases offline with
      | nil =>
          cases h
          exact move_of_dispatching (role_startSend d found rest)
      | cons userId offline =>
          cases h
          exact .enqueue (.inl rfl)
  | broadcastLookup d =>
      cases h
      exact move_of_dispatching (role_startSend d _ [])
  | channelLookup d channel =>
      cases h
      exact move_of_dispatching (role_startSend d _ [])
  | channelsLookup d channels found =>
      cases channels with
      | nil =>
          cases h
          exact move_of_dispatching (role_startSend d found [])
      | cons channel channels =>
          cases h
          exact .quiet trivial
  | send d concurrent todo rest =>
      obtain ⟨-, rfl, rfl⟩ | ⟨i, conn, -, hroom, rfl, rfl⟩ | ⟨i, conn, -, -, rfl, rfl⟩ := step_send_cases h
      · exact move_of_dispatching (role_nextBatch d rest)
      · refine .place hroom ?_
        cases concurrent <;> rfl
      · exact .quiet trivial
  | track d concurrent conn todo rest =>
      cases h
      exact .quiet trivial
  | ret d =>
      cases h
      exact .return rfl
  | connect transport claims =>
      obtain ⟨rfl, rfl⟩ | ⟨h', rfl, hid, -, rfl⟩ := step_connect_cases h
      · exact .refuse
      · refine .register hid ?_
        split_ifs with hq
        · exact .inl rfl
        · exact .inr ⟨by simpa using hq, role_serve _ _⟩
  | drain transport h' =>
      cases h
      exact .drain
  | replay transport h' start backlog =>
      cases backlog with
      | nil =>
          cases h
          rw [Option.map_some, role_serve]
          exact .serve
      | cons m backlog =>
          simp only [step] at h
          split_ifs at h with hopen hroom <;> cases h
          · exact .replay hroom
          · exact .skip
  | socket sock => exact move_socketStep h
  | stream h' =>
      simp only [step] at h
      split_ifs at h <;> cases h
      · exact .deliver
      · exact .end (.inl rfl)
  | closeStream h' =>
      cases h
      exact .unregister (.inr rfl)
  | heartbeat =>
      cases h
      exact .quiet trivial
  | heartbeatSend batch rest =>
      cases batch with
      | nil =>
          simp only [step] at h
          split_ifs at h <;> cases h
          · exact .idle
          · exact .quiet trivial
      | cons conn batch =>
          simp only [step] at h
          split at h
          · cases h
          · split_ifs at h with hok hroom hroom <;> cases h
            · exact .heartbeat hroom
            · exact .quiet trivial
  | cleanup =>
      simp only [step] at h
      split at h <;> cases h
      · exact .idle
      · rename_i stale hstale
        exact .scan hstale
  | cleanupRemove stale =>
      cases stale with
      | nil =>
          cases h
          exact .removed
      | cons id stale =>
          simp only [step] at h
          split at h
          · cases h
          · rename_i c hc
            cases h
            exact .remove (List.mem_of_getElem? hc) (fun x hx => List.mem_of_mem_eraseIdx hx)

theorem system_move {p : Pc} {s' : Service} {q : Option Pc}
    (h : (system U settings).step inp s p = some (s', q)) :
    ∃ a, step U settings inp s p = some (a, q) ∧ s' = s.apply a ∧
      Move settings inp s p.role a (q.map Pc.role) := by
  obtain ⟨⟨a, q'⟩, hs, heq⟩ := Option.map_eq_some_iff.mp h
  obtain ⟨rfl, rfl⟩ := Prod.mk.inj heq
  exact ⟨a, hs, rfl, step_move hs⟩

end refinement

/-! ### Effects of actions -/

namespace Service

/-- The identity of a registered connection. -/
def identityOf (s : Service) (id : Uuid) : Option Identity :=
  (s.manager.connections.lookup id).map (·.identity)

section effects
variable {s : Service} {a : Action}

theorem history_apply (s : Service) (a : Action) : (s.apply a).history = s.history ++ [a] := by
  cases a <;> rfl

theorem mem_history_apply {b : Action} : b ∈ (s.apply a).history ↔ b ∈ s.history ∨ b = a := by
  rw [history_apply, List.mem_append, List.mem_singleton]

theorem mem_history_of_mem {b : Action} (h : b ∈ s.history) : b ∈ (s.apply a).history :=
  mem_history_apply.mpr (.inl h)

theorem mem_history_self : a ∈ (s.apply a).history := mem_history_apply.mpr (.inr rfl)

theorem mem_filterMap_apply {β : Type} {f : Action → Option β} {x : β} :
    x ∈ (s.apply a).history.filterMap f ↔ x ∈ s.history.filterMap f ∨ f a = some x := by
  rw [history_apply, List.filterMap_append, List.mem_append]
  cases h : f a <;> simp [h, eq_comm]

@[simp] theorem config_queue_apply : (s.apply a).queue.config = s.queue.config := by
  cases a <;> simp [apply, log]

/-! Who is registered. -/

theorem lookup_subscribeToChannel (m : ConnectionManager) (id id' : Uuid) (key : String) :
    ((m.subscribeToChannel id key).2.connections.lookup id').map (·.identity) =
      (m.connections.lookup id').map (·.identity) := by
  obtain ⟨e, he⟩ | ⟨h, hl, -, he⟩ := m.subscribeToChannel_cases id key
  · rw [he]
  · rw [he]
    simp only [DashMap.lookup_modify]
    split_ifs with hid
    · subst hid
      rw [Option.map_map]
      rfl
    · rfl

theorem lookup_unsubscribeFromChannel (m : ConnectionManager) (id id' : Uuid) (key : String) :
    ((m.unsubscribeFromChannel id key).connections.lookup id').map (·.identity) =
      (m.connections.lookup id').map (·.identity) := by
  unfold ConnectionManager.unsubscribeFromChannel
  split
  · rfl
  · simp only [DashMap.lookup_modify]
    split_ifs with hid
    · subst hid
      rw [Option.map_map]
      rfl
    · rfl

theorem lookup_unregister (m : ConnectionManager) (id id' : Uuid) :
    (m.unregister id).connections.lookup id' = if id' = id then none else m.connections.lookup id' := by
  unfold ConnectionManager.unregister
  split
  · rename_i hl
    split_ifs with hid
    · rw [hid, hl]
    · rfl
  · rw [DashMap.lookup_erase]

theorem identityOf_register {transport : Transport} {h : ConnectionHandle} (id : Uuid) :
    (s.apply (.register transport h)).identityOf id =
      if id = h.id then some h.identity else s.identityOf id := by
  simp only [identityOf, apply, ConnectionManager.insertHandle, DashMap.lookup_insert]
  split_ifs <;> rfl

theorem identityOf_unregister {id' : Uuid} (id : Uuid) :
    (s.apply (.unregister id')).identityOf id = if id = id' then none else s.identityOf id := by
  simp only [identityOf, apply, lookup_unregister]
  split_ifs <;> rfl

/-- The other actions register and unregister nobody. -/
theorem identityOf_apply (hr : a.registeredId = none) (hu : ∀ id, a ≠ .unregister id) (id : Uuid) :
    (s.apply a).identityOf id = s.identityOf id := by
  cases a with
  | register transport h => simp [Action.registeredId] at hr
  | unregister id' => exact absurd rfl (hu id')
  | updateActivity id' now =>
      simp only [identityOf, apply, ConnectionManager.updateActivity, DashMap.lookup_modify]
      split_ifs with hid
      · subst hid
        rw [Option.map_map]
        rfl
      · rfl
  | subscribe id' key => exact lookup_subscribeToChannel s.manager id' id key
  | unsubscribe id' key => exact lookup_unsubscribeFromChannel s.manager id' id key
  | _ => rfl

/-- An action keeps a registration that it neither makes nor removes. -/
theorem identityOf_kept {id : Uuid} (hr : a.registeredId ≠ some id) (hu : a ≠ .unregister id) :
    (s.apply a).identityOf id = s.identityOf id := by
  by_cases hreg : ∃ transport h, a = .register transport h
  · obtain ⟨transport, h, rfl⟩ := hreg
    have hne : id ≠ h.id := fun heq => hr (by rw [heq]; rfl)
    rw [identityOf_register, if_neg hne]
  · by_cases hunreg : ∃ id', a = .unregister id'
    · obtain ⟨id', rfl⟩ := hunreg
      have hne : id ≠ id' := fun heq => hu (by rw [heq])
      rw [identityOf_unregister, if_neg hne]
    · refine identityOf_apply ?_ (fun id' h => hunreg ⟨id', h⟩) id
      cases a with
      | register transport h => exact absurd ⟨transport, h, rfl⟩ hreg
      | _ => rfl

/-! What is queued. -/

theorem messages_apply_enqueue (h : s.queue.config.enabled = true) {i : Identity} {m : StoredMessage}
    (key : String) : (s.apply (.enqueue i m)).queue.messages key =
      if key = i.key then MemoryQueueBackend.pushBack s.queue.config.maxQueueSizePerUser
        (s.queue.messages i.key) m
      else s.queue.messages key :=
  MemoryQueueBackend.messages_enqueue h key

theorem messages_apply_drain (h : s.queue.config.enabled = true) {key' : String} {now : DateTime}
    (key : String) : (s.apply (.drain key' now)).queue.messages key =
      if key = key' then [] else s.queue.messages key :=
  MemoryQueueBackend.messages_drain h key

/-- The other actions leave the queue alone. -/
theorem queue_apply (he : ∀ i m, a ≠ .enqueue i m) (hd : ∀ key now, a ≠ .drain key now) :
    (s.apply a).queue = s.queue := by
  cases a with
  | enqueue i m => exact absurd rfl (he i m)
  | drain key now => exact absurd rfl (hd key now)
  | _ => rfl

theorem queue_apply_of_disabled (h : ¬ s.queue.config.enabled = true) : (s.apply a).queue = s.queue := by
  cases a with
  | enqueue i m => simp [apply, log, MemoryQueueBackend.enqueue, h]
  | drain key now => simp [apply, log, MemoryQueueBackend.drain, h]
  | _ => rfl

/-- A queue grows at its end only, by what is stored under its key. -/
theorem messages_apply_sublist (key : String) :
    ((s.apply a).queue.messages key).Sublist (s.queue.messages key ++ (a.storedUnder key).toList) := by
  by_cases hq : s.queue.config.enabled = true
  · cases a with
    | enqueue i m =>
        rw [messages_apply_enqueue hq]
        split_ifs with hk
        · subst hk
          simp only [Action.storedUnder, if_true, Option.toList_some]
          exact MemoryQueueBackend.pushBack_sublist _ _ _
        · exact List.sublist_append_left _ _
    | drain key' now =>
        rw [messages_apply_drain hq]
        split_ifs
        · exact List.nil_sublist _
        · exact List.sublist_append_left _ _
    | _ => exact List.sublist_append_left _ _
  · rw [queue_apply_of_disabled hq]
    exact List.sublist_append_left _ _

theorem queue_quiet (ha : a.Quiet) : (s.apply a).queue = s.queue := by
  refine queue_apply ?_ ?_
  · rintro i m rfl
    exact ha
  · rintro key now rfl
    exact ha

/-! What the channels hold. -/

theorem buffer_register {transport : Transport} {h : ConnectionHandle} (id : Uuid) :
    (s.apply (.register transport h)).buffer id = if id = h.id then [] else s.buffer id := by
  simp only [buffer, apply, DashMap.lookup_insert]
  split_ifs <;> rfl

theorem buffer_modify {t : Service} {id' : Uuid} {f : Channel → Channel}
    (h : t.channels = s.channels.modify id' f) (id : Uuid) :
    t.buffer id = if id = id' then ((s.channels.lookup id').map (fun ch => (f ch).buffer)).getD []
      else s.buffer id := by
  simp only [buffer, h, DashMap.lookup_modify]
  split_ifs
  · rw [Option.map_map]
    rfl
  · rfl

/-- Only a message put on a channel makes it longer. -/
theorem length_buffer_apply_le (a : Action) (id : Uuid) :
    ((s.apply a).buffer id).length ≤ (s.buffer id).length + a.puts id := by
  cases a with
  | register transport h =>
      rw [buffer_register]
      split_ifs <;> simp
  | place id' m now origin =>
      rw [buffer_modify rfl, Action.puts]
      split_ifs with h h'
      · subst h
        simp only [buffer]
        cases s.channels.lookup id <;> simp
      · exact absurd h.symm h'
      · omega
      · exact le_rfl
  | deliver id' | sendEnded id' =>
      rw [buffer_modify rfl]
      split_ifs with h
      · subst h
        simp only [buffer]
        cases s.channels.lookup id <;> simp [Action.puts]
      · exact Nat.le_add_right _ _
  | _ => exact Nat.le_add_right _ _

end effects

end Service

/-! ### Runs -/

/-- What the `i`-th running program does next with the input. -/
def upcoming (U : UnicodeTables) (settings : Settings) (c : Config Service Pc) (i : ℕ) (inp : Input) :
    Option (Action × Option Pc) :=
  c.threads[i]?.bind (step U settings inp c.shared)

/-- The connection that a handler is in charge of. -/
def Role.connection : Role → Option Uuid
  | .registered _ h | .replaying _ h _ _ | .serving _ h _ => some h.id
  | _ => none

section runs
variable {U : UnicodeTables} {settings : Settings} {inp : Input} {s : Service} {a : Action}
  {ok : Config Service Pc → Event ServiceCall Input → Prop} {c : Config Service Pc}

theorem upcoming_eq {i : ℕ} {p : Pc} (hp : c.threads[i]? = some p) :
    upcoming U settings c i inp = step U settings inp c.shared p := by
  rw [upcoming, hp]
  rfl

/-- A move keeps the connection it is in charge of, gives it up, or has just registered it. -/
theorem Move.connection {r : Role} {q : Option Role} (h : Move settings inp s r a q) {x : Uuid}
    (hx : x ∈ q.bind Role.connection) :
    x ∈ r.connection ∨ (r = .connecting ∧ x = inp.fresh ∧ a.registeredId = some x) := by
  cases h with
  | register hid hr =>
      rename_i transport h r'
      have hxh : h.id = x := by
        rcases hr with rfl | ⟨-, rfl⟩ <;> exact Option.some.inj hx
      exact .inr ⟨rfl, by rw [← hxh, hid], by rw [← hxh]; rfl⟩
  | unregister hr =>
      rcases hr with rfl | rfl
      · exact .inl hx
      · simp at hx
  | _ => first | exact .inl hx | simp [Role.connection] at hx

theorem registers_of_connecting {p : Pc} (h : p.role = .connecting) : p.registers = true := by
  cases p with
  | connect transport claims => rfl
  | _ => simp [Pc.role] at h

/-- A connection is registered under a new identifier. -/
theorem Move.fresh_of_registeredId {r : Role} {q : Option Role} {id : Uuid}
    (h : Move settings inp s r a q) (ha : a.registeredId = some id) :
    r = .connecting ∧ id = inp.fresh := by
  cases h with
  | register hid hr => exact ⟨rfl, by rw [← Option.some.inj ha, hid]⟩
  | quiet hq => cases a <;> first | exact hq.elim | cases ha
  | «end» he => rcases he with rfl | rfl <;> cases ha
  | _ => cases ha

/-- Different handlers are in charge of different connections, all registered before. -/
theorem connections_of_reaches (hok : ∀ c e, ok c e → Legal c e)
    (h : Reaches (system U settings) ok (initial settings) c) :
    Tokens (fun p => p.role.connection) (fun s x => x ∈ s.registeredIds) c := by
  refine h.invariant ⟨by simp [initial], by simp [initial]⟩ ?_
  intro c e c' _ hc he hn
  refine hc.next hn ?_ ?_
  · rintro op rfl x hx
    cases op <;> simp [system, start, Pc.role, Role.connection] at hx
  · rintro i inp p s' q rfl hp hs hown
    obtain ⟨a, -, rfl, hmove⟩ := system_move hs
    refine ⟨fun x hx => ?_, fun x hx _ => Service.mem_filterMap_apply.mpr (.inl hx)⟩
    have hx' : x ∈ (q.map Pc.role).bind Role.connection := by
      cases q with
      | none => simp at hx
      | some r => exact hx
    rcases hmove.connection hx' with hold | ⟨hr, hfresh, hreg⟩
    · exact ⟨.inl hold, Service.mem_filterMap_apply.mpr (.inl (hown x hold))⟩
    · have hnew := (hok _ _ he p hp).1 (registers_of_connecting hr)
      rw [← hfresh] at hnew
      exact ⟨.inr hnew, Service.mem_filterMap_apply.mpr (.inr hreg)⟩

/-- What the action of every admissible move preserves holds in every state of the service. -/
theorem service_invariant {P : Service → Prop} (h : Reaches (system U settings) ok (initial settings) c)
    (h0 : P (initial settings).shared)
    (hstep : ∀ (c : Config Service Pc) i inp p a q, Reaches (system U settings) ok (initial settings) c →
      P c.shared → ok c (.run i inp) → c.threads[i]? = some p →
      step U settings inp c.shared p = some (a, q) →
      Move settings inp c.shared p.role a (q.map Pc.role) → P (c.shared.apply a)) : P c.shared := by
  refine h.shared_invariant h0 ?_
  intro c i inp p s q hr hc hok hp hs
  obtain ⟨a, hstep', rfl, hmove⟩ := system_move hs
  exact hstep c i inp p a q hr hc hok hp hstep' hmove

/-- The configuration of the queue does not change. -/
theorem config_of_reaches (h : Reaches (system U settings) ok (initial settings) c) :
    c.shared.queue.config = settings.queueConfig := by
  refine service_invariant (P := fun s => s.queue.config = settings.queueConfig) h rfl ?_
  intro c i inp p a q _ hc _ _ _ _
  rw [Service.config_queue_apply]
  exact hc

theorem enabled_of_reaches (henabled : settings.queue.enabled = true)
    (h : Reaches (system U settings) ok (initial settings) c) : c.shared.queue.config.enabled = true := by
  rw [config_of_reaches h]
  exact henabled

end runs

end AraNotification
