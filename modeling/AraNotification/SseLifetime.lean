import AraNotification.Lifecycle

/-! # Who unregisters an SSE connection

`sse_handler` registers a connection and then awaits three times: while it registers the
session in the cluster store, while it drains the queue, and at each send of the replay.
Only then does it build the response stream with the `CleanupGuard` inside.  The guard is
made together with the stream, polled or not, and when it is dropped it spawns the task that
unregisters the connection.

The server drops the future of a handler whose client has gone, and a future that is dropped
at one of the three awaits has no guard yet: its connection stays registered with nobody to
unregister it, and the messages that it had drained are gone (`unowned_connection`).

`Undropped` says that this does not happen: no future is dropped at an await while its
connection is registered or while it has drained messages.  In every run with this property
each registered SSE connection has a handler, a guard or a spawned task, and no drained
message goes down with a handler; a step without it ends this (`sound_until_dropped`).

What the backends answer is an input of the step, so that they may be any.  Messages that are
still on the channel when a response stream is dropped are not counted as lost here: their
request has been answered. -/

namespace AraNotification

open Interleaving

namespace SseLifetime

/-! ### The handler and its environment -/

/-- Which of the two backends are enabled. -/
structure Backends where
  sessionStore : Bool
  queue : Bool

/-- The connection manager and the outbound channels whose receiver exists, with two records:
the connections registered by `sse_handler`, and the drained messages that were dropped together
with a handler. -/
structure Shared where
  manager : ConnectionManager
  channels : DashMap Uuid (List OutboundMessage)
  served : List Uuid
  lost : List StoredMessage

/-- An SSE request with the claims of its token (none when it is missing or invalid); a call of
the manager by another part of the service; a message for a connection from elsewhere. -/
inductive Call where
  | sseHandler (claims : Option Claims)
  | manager (call : ManagerCall)
  | send (id : Uuid) (message : OutboundMessage)

/-- Program counters: those of `sse_handler`, the response stream with its guard, the task
spawned by the guard, and the other calls. -/
inductive Pc where
  | register (claims : Option Claims)
  | registerSession (h : ConnectionHandle)
  | drain (h : ConnectionHandle)
  | replay (h : ConnectionHandle) (drained : List StoredMessage) (next : StoredMessage)
      (rest : List StoredMessage)
  | stream (id : Uuid)
  | unregister (id : Uuid)
  | unregisterSession (id : Uuid)
  | manager (call : ManagerCall)
  | send (id : Uuid) (message : OutboundMessage)

/-- What the environment decides in a step: the clock, a new identifier, whether the server
drops the future or the stream, and what the queue has handed over (none for an error). -/
structure Input where
  now : DateTime
  fresh : Uuid
  drop : Bool
  drained : Option DrainResult

namespace Shared
variable (s : Shared)

/-- The messages on a channel. -/
def buffer (id : Uuid) : List OutboundMessage := (s.channels.lookup id).getD []

/-- Put a message on a channel. -/
def put (id : Uuid) (m : OutboundMessage) : Shared :=
  { s with channels := s.channels.modify id (· ++ [m]) }

/-- A handler has registered its connection. -/
def opened (h : ConnectionHandle) : Shared :=
  { s with
    manager := s.manager.insertHandle h
    channels := s.channels.insert h.id []
    served := h.id :: s.served }

/-- The receiver of a channel is dropped. -/
def close (id : Uuid) : Shared := { s with channels := s.channels.erase id }

/-- The future of a handler is dropped, with the receiver and the messages it has. -/
def dropFuture (id : Uuid) (taken : List StoredMessage) : Shared :=
  { s.close id with lost := s.lost ++ taken }

end Shared

/-- The first program counter of a call. -/
def start : Call → Pc
  | .sseHandler claims => .register claims
  | .manager call => .manager call
  | .send id message => .send id message

/-- Where the handler goes when the session is registered. -/
def afterSession (b : Backends) (h : ConnectionHandle) : Pc := if b.queue then .drain h else .stream h.id

/-- Where the handler goes when the connection is registered. -/
def afterRegister (b : Backends) (h : ConnectionHandle) : Pc :=
  if b.sessionStore then .registerSession h else afterSession b h

/-- Replay the rest of what was drained, then build the response stream. -/
def replayRest (h : ConnectionHandle) (drained : List StoredMessage) : List StoredMessage → Pc
  | [] => .stream h.id
  | next :: rest => .replay h drained next rest

/-- The messages that a handler has taken from the queue.  A future that is dropped while it
drains may be dropped after the backend has removed them. -/
def Pc.taken (inp : Input) : Pc → List StoredMessage
  | .drain _ => (inp.drained.map (·.messages)).getD []
  | .replay _ drained _ _ => drained
  | _ => []

/-- One atomic step.  A task spawned by a guard runs to its end. -/
def step (b : Backends) (inp : Input) (s : Shared) : Pc → Option (Shared × Option Pc)
  | .register none => some (s, none)
  | .register (some claims) =>
      if inp.drop then some (s, none)
      else
        match s.manager.register inp.fresh claims.sub claims.getTenantId claims.roles inp.now with
        | (.error _, _) => some (s, none)
        | (.ok h, _) => some (s.opened h, some (afterRegister b h))
  | .registerSession h =>
      if inp.drop then some (s.dropFuture h.id [], none) else some (s, some (afterSession b h))
  | .drain h =>
      if inp.drop then some (s.dropFuture h.id (Pc.taken inp (.drain h)), none)
      else
        match inp.drained with
        | none => some (s, some (.stream h.id))
        | some result => some (s, some (replayRest h result.messages result.messages))
  | .replay h drained next rest =>
      if inp.drop then some (s.dropFuture h.id drained, none)
      else if (s.buffer h.id).length < channelBufferSize then
        some (s.put h.id (.raw (.notification next.event)), some (replayRest h drained rest))
      else none
  | .stream id =>
      if inp.drop then some (s.close id, some (.unregister id))
      else
        match s.buffer id with
        | _ :: rest => some ({ s with channels := s.channels.insert id rest }, some (.stream id))
        | [] =>
            -- the stream ends when the manager has dropped the last sender
            if (s.manager.connections.lookup id).isSome then none
            else some (s.close id, some (.unregister id))
  | .unregister id =>
      some ({ s with manager := s.manager.unregister id },
        if b.sessionStore then some (.unregisterSession id) else none)
  | .unregisterSession _ => some (s, none)
  | .manager call => some ({ s with manager := (s.manager.call call).2 }, none)
  | .send id message =>
      if (s.buffer id).length < channelBufferSize then some (s.put id message, none) else some (s, none)

/-- SSE requests beside the rest of the service. -/
def system (b : Backends) : System Shared Call Input Pc where
  start := start
  step := step b

/-- The empty manager, with no request. -/
def initial (limits : ConnectionLimits) : Config Shared Pc := ⟨⟨.withLimits limits, ∅, [], []⟩, []⟩

/-! ### Owners -/

/-- The connection of a handler future that has registered. -/
def Pc.future : Pc → Option Uuid
  | .registerSession h | .drain h | .replay h _ _ _ => some h.id
  | _ => none

/-- The connection that a handler future, a guard or a spawned task is going to unregister. -/
def Pc.owned : Pc → Option Uuid
  | .registerSession h | .drain h | .replay h _ _ _ => some h.id
  | .stream id | .unregister id => some id
  | _ => none

/-- A connection made by `sse_handler` is registered. -/
def Registered (s : Shared) (id : Uuid) : Prop :=
  id ∈ s.served ∧ s.manager.connections.lookup id ≠ none

/-- Every registered SSE connection has an owner, and no drained message was dropped with a
handler. -/
structure Sound (c : Config Shared Pc) : Prop where
  owned : ∀ id, Registered c.shared id → ∃ p ∈ c.threads, p.owned = some id
  replayed : c.shared.lost = []

/-- A new identifier is not in use and was never that of an SSE connection. -/
def Fresh (s : Shared) (id : Uuid) : Prop := s.manager.connections.lookup id = none ∧ id ∉ s.served

instance (s : Shared) (id : Uuid) : Decidable (Fresh s id) :=
  inferInstanceAs (Decidable (_ ∧ _))

/-- The identifier that a step would draw is new, and a clean-up visits the stale connections. -/
def Legal (c : Config Shared Pc) : Event Call Input → Prop
  | .call _ => True
  | .run i inp =>
      match c.threads[i]? with
      | some (.register _) => Fresh c.shared inp.fresh
      | some (.manager (.register id _ _ _ _)) => Fresh c.shared id
      | some (.manager call) => c.shared.manager.Legal call
      | _ => True

/-- The future of a handler is not dropped at an await while its connection is registered or
while it has drained messages. -/
def Undropped (c : Config Shared Pc) : Event Call Input → Prop
  | .call _ => True
  | .run i inp =>
      inp.drop = true → ∀ p ∈ c.threads[i]?, ∀ id ∈ p.future,
        c.shared.manager.connections.lookup id = none ∧ p.taken inp = []

instance (m : ConnectionManager) : ∀ c : ManagerCall, Decidable (m.Legal c)
  | .register id _ _ _ _ => inferInstanceAs (Decidable (m.connections.lookup id = none))
  | .cleanupStaleConnections now timeoutSecs order => inferInstanceAs
      (Decidable (∀ stale ∈ m.findStaleConnections now timeoutSecs, order.Perm stale))
  | .unregister _ | .subscribeToChannel _ _ | .unsubscribeFromChannel _ _ | .updateActivity _ _ =>
      isTrue trivial

instance (c : Config Shared Pc) (e : Event Call Input) : Decidable (Legal c e) := by
  unfold Legal
  split
  · infer_instance
  · split <;> infer_instance

instance (c : Config Shared Pc) (e : Event Call Input) : Decidable (Undropped c e) := by
  unfold Undropped
  split <;> infer_instance

/-! ### What a step can do -/

section moves
variable {b : Backends} {inp : Input} {s s' : Shared} {p : Pc} {q : Option Pc}

/-- The moves of a program: a handler registers or is refused; a program goes on with its
connection, if it has one; the server drops a handler; a spawned task unregisters and ends; the
other parts of the service call the manager or send. -/
inductive Move (inp : Input) (s : Shared) : Pc → Shared → Option Pc → Prop
  | register {claims : Option Claims} {h : ConnectionHandle} {p' : Pc} (hid : h.id = inp.fresh)
      (ho : p'.owned = some h.id) : Move inp s (.register claims) (s.opened h) (some p')
  | refuse {claims : Option Claims} : Move inp s (.register claims) s none
  | pass {p p' : Pc} {s' : Shared} (ho : p'.owned = p.owned) (hd : p.future ≠ none → inp.drop = false)
      (hm : s'.manager = s.manager) (hs : s'.served = s.served) (hl : s'.lost = s.lost) :
      Move inp s p s' (some p')
  | drop {p : Pc} {id : Uuid} (hp : p.future = some id) (hd : inp.drop = true) :
      Move inp s p (s.dropFuture id (p.taken inp)) none
  | unregister {id : Uuid} {q : Option Pc} (hq : q.bind Pc.owned = none) :
      Move inp s (.unregister id) { s with manager := s.manager.unregister id } q
  | unregisterSession {id : Uuid} : Move inp s (.unregisterSession id) s none
  | manager {call : ManagerCall} :
      Move inp s (.manager call) { s with manager := (s.manager.call call).2 } none
  | send {id : Uuid} {message : OutboundMessage} {s' : Shared} (hm : s'.manager = s.manager)
      (hs : s'.served = s.served) (hl : s'.lost = s.lost) : Move inp s (.send id message) s' none

theorem owned_afterSession (b : Backends) (h : ConnectionHandle) : (afterSession b h).owned = some h.id := by
  unfold afterSession
  split_ifs <;> rfl

theorem owned_afterRegister (b : Backends) (h : ConnectionHandle) : (afterRegister b h).owned = some h.id := by
  unfold afterRegister
  split_ifs
  · rfl
  · exact owned_afterSession b h

theorem owned_replayRest (h : ConnectionHandle) (drained rest : List StoredMessage) :
    (replayRest h drained rest).owned = some h.id := by
  cases rest <;> rfl

theorem owned_of_future {id : Uuid} (h : p.future = some id) : p.owned = some id := by
  cases p <;> first | exact h | cases h

/-- Every step of a program is a move. -/
theorem step_move (h : step b inp s p = some (s', q)) : Move inp s p s' q := by
  cases p with
  | register claims =>
      cases claims with
      | none =>
          cases h
          exact .refuse
      | some claims =>
          simp only [step, ConnectionManager.register] at h
          split_ifs at h with hd
          · cases h
            exact .refuse
          · obtain ⟨e, he⟩ | ⟨-, -, he⟩ := s.manager.registerWithLimits_cases inp.fresh claims.sub
              claims.getTenantId claims.roles inp.now s.manager.limits
            · rw [he] at h
              cases h
              exact .refuse
            · rw [he] at h
              cases h
              exact .register rfl (owned_afterRegister b _)
  | registerSession h' =>
      simp only [step] at h
      split_ifs at h with hd <;> cases h
      · exact .drop rfl hd
      · exact .pass (owned_afterSession b h') (fun _ => by simpa using hd) rfl rfl rfl
  | drain h' =>
      simp only [step] at h
      split_ifs at h with hd
      · cases h
        exact .drop rfl hd
      · split at h <;> cases h
        · exact .pass rfl (fun _ => by simpa using hd) rfl rfl rfl
        · exact .pass (owned_replayRest h' _ _) (fun _ => by simpa using hd) rfl rfl rfl
  | replay h' drained next rest =>
      simp only [step] at h
      split_ifs at h with hd hroom <;> cases h
      · exact .drop rfl hd
      · exact .pass (owned_replayRest h' _ _) (fun _ => by simpa using hd) rfl rfl rfl
  | stream id =>
      have hnone : (Pc.stream id).future ≠ none → inp.drop = false := fun hf => absurd rfl hf
      simp only [step] at h
      split_ifs at h with hd hreg
      · cases h
        exact .pass rfl hnone rfl rfl rfl
      · split at h <;> cases h
        exact .pass rfl hnone rfl rfl rfl
      · split at h <;> cases h
        · exact .pass rfl hnone rfl rfl rfl
        · exact .pass rfl hnone rfl rfl rfl
  | unregister id =>
      cases h
      refine .unregister ?_
      split_ifs <;> rfl
  | unregisterSession id =>
      cases h
      exact .unregisterSession
  | manager call =>
      cases h
      exact .manager
  | send id message =>
      simp only [step] at h
      split_ifs at h with hroom <;> cases h
      · exact .send rfl rfl rfl
      · exact .send rfl rfl rfl

end moves

/-! ### Who is registered -/

section registered
variable {m : ConnectionManager} {x : Uuid}

theorem lookup_unregisterAll {ids : List Uuid} (h : (m.unregisterAll ids).connections.lookup x ≠ none) :
    m.connections.lookup x ≠ none := by
  intro hnone
  refine h (ConnectionManager.unregisterAll_induction (P := fun m => m.connections.lookup x = none) ?_ hnone ids)
  intro m id hm
  rw [Service.lookup_unregister, hm]
  split_ifs <;> rfl

theorem lookup_modify_ne_none {id : Uuid} {f : ConnectionHandle → ConnectionHandle}
    (h : (DashMap.modify m.connections id f).lookup x ≠ none) : m.connections.lookup x ≠ none := by
  intro hnone
  rw [DashMap.lookup_modify] at h
  split_ifs at h with hid
  · rw [← hid, hnone] at h
    exact h rfl
  · exact h hnone

/-- Who is registered after a call of the manager was so before, or is registered by it. -/
theorem lookup_call {call : ManagerCall} (h : (m.call call).2.connections.lookup x ≠ none) :
    m.connections.lookup x ≠ none ∨
      ∃ userId tenantId roles now, call = .register x userId tenantId roles now := by
  cases call with
  | register id userId tenantId roles now =>
      simp only [ConnectionManager.call, ConnectionManager.register] at h
      obtain ⟨e, he⟩ | ⟨-, -, he⟩ := m.registerWithLimits_cases id userId tenantId roles now m.limits
      · rw [he] at h
        exact .inl h
      · rw [he] at h
        simp only [ConnectionManager.insertHandle, DashMap.lookup_insert] at h
        split_ifs at h with hid
        · right
          subst hid
          exact ⟨_, _, _, _, rfl⟩
        · exact .inl h
  | unregister id =>
      simp only [ConnectionManager.call, Service.lookup_unregister] at h
      split_ifs at h
      · exact absurd rfl h
      · exact .inl h
  | subscribeToChannel id channel =>
      left
      simp only [ConnectionManager.call] at h
      obtain ⟨e, he⟩ | ⟨_, -, -, he⟩ := m.subscribeToChannel_cases id channel
      · rwa [he] at h
      · rw [he] at h
        exact lookup_modify_ne_none h
  | unsubscribeFromChannel id channel =>
      left
      simp only [ConnectionManager.call, ConnectionManager.unsubscribeFromChannel] at h
      split at h
      · exact h
      · exact lookup_modify_ne_none h
  | updateActivity id now => exact .inl (lookup_modify_ne_none h)
  | cleanupStaleConnections now timeoutSecs order =>
      left
      simp only [ConnectionManager.call] at h
      split at h
      · exact h
      · exact lookup_unregisterAll h

end registered

/-! ### Runs -/

section runs
variable {b : Backends} {limits : ConnectionLimits} {c c' : Config Shared Pc} {e : Event Call Input}

/-- No two programs own the same connection. -/
theorem owners_of_reaches (h : Reaches (system b) Legal (initial limits) c) :
    Tokens Pc.owned (fun s id => id ∈ s.served) c := by
  refine h.invariant ⟨by simp [initial], by simp [initial]⟩ ?_
  intro c e c' _ hc he hn
  refine hc.next hn ?_ ?_
  · rintro op rfl x hx
    cases op <;> cases hx
  · rintro i inp p s q rfl hp hs hown
    cases step_move hs with
    | register hid ho =>
        have hfresh : Fresh c.shared inp.fresh := by simpa [Legal, hp] using he
        refine ⟨?_, fun x hx _ => List.mem_cons_of_mem _ hx⟩
        intro x hx
        obtain rfl : _ = x := Option.some.inj (ho.symm.trans hx)
        exact ⟨.inr (hid ▸ hfresh.2), List.mem_cons_self⟩
    | pass ho hd hm hserved hl =>
        rw [hserved]
        exact ⟨fun x hx => ⟨.inl (ho ▸ hx), hown x (ho ▸ hx)⟩, fun x hx _ => hx⟩
    | unregister hq =>
        refine ⟨fun x hx => ?_, fun x hx _ => hx⟩
        rw [hq] at hx
        cases hx
    | send hm hserved hl =>
        rw [hserved]
        exact ⟨fun x hx => (nomatch hx), fun x hx _ => hx⟩
    | refuse => exact ⟨fun x hx => (nomatch hx), fun x hx _ => hx⟩
    | drop => exact ⟨fun x hx => (nomatch hx), fun x hx _ => hx⟩
    | unregisterSession => exact ⟨fun x hx => (nomatch hx), fun x hx _ => hx⟩
    | manager => exact ⟨fun x hx => (nomatch hx), fun x hx _ => hx⟩

/-- A registration by another part of the service makes no SSE connection registered. -/
theorem registered_of_manager {s : Shared} {call : ManagerCall} {x : Uuid}
    (hl : ∀ userId tenantId roles now, call = .register x userId tenantId roles now → x ∉ s.served)
    (h : Registered { s with manager := (s.manager.call call).2 } x) : Registered s x := by
  rcases lookup_call h.2 with hold | ⟨u, t, roles, now, hcall⟩
  · exact ⟨h.1, hold⟩
  · exact absurd h.1 (hl u t roles now hcall)

/-- A step that drops no future with something to lose keeps the owners and the messages. -/
theorem Sound.next (h : Sound c) (hl : Legal c e) (hu : Undropped c e) (hn : (system b).next c e = some c') :
    Sound c' := by
  have hcovered : Covered Registered (fun p id => p.owned = some id) c := h.owned
  refine ⟨hcovered.next hn ?_, ?_⟩
  · rintro i inp p s q rfl hp hs x hx
    cases step_move hs with
    | register hid ho =>
        by_cases hxid : x = inp.fresh
        · right; right
          exact ⟨_, rfl, by rw [ho, hid, hxid]⟩
        · left
          obtain ⟨hserved, hlookup⟩ := hx
          simp only [Shared.opened, ConnectionManager.insertHandle, DashMap.lookup_insert, hid, hxid,
            if_false] at hserved hlookup
          exact ⟨⟨by simpa [hxid] using hserved, hlookup⟩, fun hown => by cases hown⟩
    | pass ho hd hm hs' hl' =>
        by_cases hown : p.owned = some x
        · right; right
          exact ⟨_, rfl, ho.trans hown⟩
        · left
          unfold Registered at hx ⊢
          rw [hm, hs'] at hx
          exact ⟨hx, hown⟩
    | drop hf hd =>
        left
        refine ⟨hx, ?_⟩
        intro hown
        obtain rfl : _ = x := Option.some.inj ((owned_of_future hf).symm.trans hown)
        exact hx.2 (hu hd p hp _ hf).1
    | unregister hq =>
        left
        obtain ⟨hserved, hlookup⟩ := hx
        rw [Service.lookup_unregister] at hlookup
        split_ifs at hlookup with hid
        · exact absurd rfl hlookup
        · exact ⟨⟨hserved, hlookup⟩, fun hown => hid (Option.some.inj hown).symm⟩
    | @manager call =>
        left
        refine ⟨registered_of_manager ?_ hx, fun hown => by cases hown⟩
        rintro u t roles now rfl
        have hfresh : Fresh c.shared x := by simpa [Legal, hp] using hl
        exact hfresh.2
    | send hm hs' hl' =>
        left
        unfold Registered at hx ⊢
        rw [hm, hs'] at hx
        exact ⟨hx, fun hown => by cases hown⟩
    | refuse => exact .inl ⟨hx, fun hown => by cases hown⟩
    | unregisterSession => exact .inl ⟨hx, fun hown => by cases hown⟩
  · obtain ⟨op, rfl, rfl⟩ | ⟨i, inp, p, s, q, l₁, l₂, rfl, hp, hs, -, rfl⟩ := System.next_cases hn
    · exact h.replayed
    · cases step_move hs with
      | pass ho hd hm hs' hl' => exact hl'.trans h.replayed
      | send hm hs' hl' => exact hl'.trans h.replayed
      | drop hf hd =>
          show c.shared.lost ++ p.taken inp = []
          rw [h.replayed, (hu hd p hp _ hf).2, List.append_nil]
      | _ => exact h.replayed

/-- A future that is dropped with something to lose leaves its connection without an owner, or
its messages to nobody. -/
theorem undropped_of_sound (hc : Tokens Pc.owned (fun s id => id ∈ s.served) c)
    (hn : (system b).next c e = some c') (h : Sound c') : Undropped c e := by
  obtain ⟨op, rfl, rfl⟩ | ⟨i, inp, p, s, q, l₁, l₂, rfl, hp, hs, hl, rfl⟩ := System.next_cases hn
  · trivial
  · intro hdrop p' hp' id hid
    obtain rfl : p = p' := Option.some.inj (hp.symm.trans hp')
    cases step_move hs with
    | @drop _ id' hf hd =>
        obtain rfl : id' = id := Option.some.inj (hf.symm.trans hid)
        have hserved : id' ∈ c.shared.served :=
          hc.free id' (List.mem_filterMap.mpr ⟨p, List.mem_of_getElem? hp, owned_of_future hf⟩)
        refine ⟨?_, ?_⟩
        · by_contra hreg
          obtain ⟨r, hr, hown⟩ := h.owned id' ⟨hserved, hreg⟩
          have hr' : r ∈ l₁ ++ l₂ := by simpa using hr
          exact hc.not_mem_of_split hl hr' (owned_of_future hf) hown
        · have hlost : c.shared.lost ++ p.taken inp = [] := h.replayed
          exact (List.append_eq_nil_iff.mp hlost).2
    | pass ho hd hm hs' hl' =>
        rw [hd (by rw [hid]; exact Option.some_ne_none id)] at hdrop
        cases hdrop
    | _ => cases hid

theorem sound_initial (limits : ConnectionLimits) : Sound (initial limits) where
  owned id h := by simp [Registered, initial] at h
  replayed := rfl

theorem sound_of_reaches
    (h : Reaches (system b) (fun c e => Legal c e ∧ Undropped c e) (initial limits) c) : Sound c :=
  h.invariant (sound_initial limits) (fun _ _ _ _ hc he hn => hc.next he.1 he.2 hn)

/-- When no handler, stream or spawned task is left, no SSE connection is registered. -/
theorem none_registered_of_done
    (h : Reaches (system b) (fun c e => Legal c e ∧ Undropped c e) (initial limits) c)
    (hq : ∀ p ∈ c.threads, p.owned = none) :
    ∀ id ∈ c.shared.served, c.shared.manager.connections.lookup id = none := by
  intro id hid
  by_contra hreg
  obtain ⟨p, hp, ho⟩ := (sound_of_reaches h).owned id ⟨hid, hreg⟩
  rw [hq p hp] at ho
  cases ho

/-- **An SSE connection has an owner until a future is dropped.**  In every run in which no
future is dropped at an await with a registered connection or drained messages, each
registered SSE connection has a handler, a guard or a spawned task, and no drained message has
gone down with a handler; and exactly the steps with this property keep it so. -/
theorem sound_until_dropped
    (h : Reaches (system b) (fun c e => Legal c e ∧ Undropped c e) (initial limits) c) :
    Sound c ∧ ∀ e c', Legal c e → (system b).next c e = some c' → (Sound c' ↔ Undropped c e) := by
  have hsound := sound_of_reaches h
  have htokens := owners_of_reaches (h.mono (fun _ _ he => he.1))
  refine ⟨hsound, ?_⟩
  intro e c' hl hn
  exact ⟨undropped_of_sound htokens hn, fun hu => hsound.next hl hu hn⟩

end runs

/-! ### A client that leaves during the replay -/

/-- A message that waits in the queue of `alice`. -/
def waiting : StoredMessage :=
  .new 7 0 ((NotificationBuilder.new "order.created" "shop").build 3 0)

/-- A request of `alice`; its steps get connection identifier 1, and the queue hands over the
waiting message. -/
def request : Call := .sseHandler (some ⟨"alice", [], some "acme"⟩)

/-- One step of the handler, or the drop of its future or stream. -/
def handlerStep (drop : Bool) : Event Call Input := .run 0 ⟨0, 1, drop, some ⟨[waiting], 0⟩⟩

/-- The request is served to its end: registration, drain, replay, stream, and the stream is
dropped.  Before the spawned task runs it is the one owner of the connection. -/
theorem sound_until_dropped_served :
    ∃ c, Reaches (system ⟨true, true⟩) (fun c e => Legal c e ∧ Undropped c e) (initial .default) c ∧
      c.threads.map Pc.owned = [some 1] ∧ (c.shared.manager.connections.lookup 1).isSome = true ∧
        Sound c := by
  have hseen : ((system ⟨true, true⟩).play (fun c e => Legal c e ∧ Undropped c e) (initial .default)
      [.call request, handlerStep false, handlerStep false, handlerStep false, handlerStep false,
        handlerStep true]).any (fun c => decide (c.threads.map Pc.owned = [some 1]) &&
          (c.shared.manager.connections.lookup 1).isSome) = true := by
    decide
  obtain ⟨c, hr, hc⟩ := exists_reaches_of_play hseen
  simp only [Bool.and_eq_true, decide_eq_true_eq] at hc
  exact ⟨c, hr, hc.1, hc.2, (sound_until_dropped hr).1⟩

/-- The future is dropped during the replay: the connection stays registered, nothing is left
that would unregister it, and the drained message is gone. -/
theorem unowned_connection :
    ¬ ∀ c, Reaches (system ⟨false, true⟩) Legal (initial .default) c → Sound c := by
  intro hall
  have hseen : ((system ⟨false, true⟩).play Legal (initial .default)
      [.call request, handlerStep false, handlerStep false, handlerStep true]).any (fun c =>
        c.threads.isEmpty && decide (1 ∈ c.shared.served) &&
          (c.shared.manager.connections.lookup 1).isSome) = true := by
    decide
  obtain ⟨c, hr, hc⟩ := exists_reaches_of_play hseen
  simp only [Bool.and_eq_true, List.isEmpty_iff, decide_eq_true_eq] at hc
  obtain ⟨⟨hnobody, hserved⟩, hreg⟩ := hc
  obtain ⟨p, hp, -⟩ := (hall c hr).owned 1 ⟨hserved, Option.isSome_iff_ne_none.mp hreg⟩
  rw [hnobody] at hp
  cases hp

end SseLifetime

end AraNotification
