import AraNotification.DeliveryOrder

/-! # Whom a dispatch sends to

A dispatch works on handles that it has taken from the manager, possibly long after the
connections have been unregistered.  Every handle it holds (`Pc.found`) belongs to a
connection that was registered under the same identifier and for the same identity
(`known_of_reaches`), so that what a dispatch puts on a channel goes to such a connection.

Only a dispatch that sends puts something on a channel directly (`send_of_direct`), it goes
on to track it (`send_of_track`), and nothing else is tracked (`track_of_track`). -/

namespace AraNotification

open Interleaving

/-- A connection with the identifier and the identity of the handle was registered. -/
def Known (s : Service) (conn : ConnectionHandle) : Prop :=
  ∃ transport h, .register transport h ∈ s.history ∧ h.id = conn.id ∧ h.identity = conn.identity

/-- The connections that a dispatch has found and not finished with. -/
def Pc.found : Pc → List ConnectionHandle
  | .usersLookup _ _ found _ _ | .usersEnqueue _ _ found _ | .channelsLookup _ _ found => found
  | .send _ _ todo _ => todo
  | .track _ _ conn todo _ => conn :: todo
  | _ => []

/-! ### The manager -/

section manager
variable {m : ConnectionManager} {conn : ConnectionHandle} {s : Service} {a : Action} {id : Uuid}

theorem lookup_of_mem_handles {ids : List Uuid} (h : conn ∈ m.handles ids) :
    ∃ id, m.connections.lookup id = some conn := by
  obtain ⟨id, -, hl⟩ := List.mem_filterMap.mp h
  exact ⟨id, hl⟩

theorem lookup_of_mem_filtered {userId : String} {tenantId : Option String}
    (h : conn ∈ getUserConnectionsFiltered m userId tenantId) :
    ∃ id, m.connections.lookup id = some conn := by
  cases tenantId with
  | none => exact lookup_of_mem_handles h
  | some tid => exact lookup_of_mem_handles (List.mem_of_mem_filter h)

theorem lookup_of_mem_broadcast {tenantId : Option String}
    (h : conn ∈ getBroadcastConnections m tenantId) : ∃ id, m.connections.lookup id = some conn := by
  cases tenantId with
  | none => exact DashMap.mem_values.mp h
  | some tid => exact lookup_of_mem_handles h

/-- A handle in the manager has just been registered, or was there before with the same
identifier and identity. -/
theorem lookup_apply (h : (s.apply a).manager.connections.lookup id = some conn) :
    (∃ transport, a = .register transport conn) ∨
      ∃ conn', s.manager.connections.lookup id = some conn' ∧ conn'.id = conn.id ∧
        conn'.identity = conn.identity := by
  have hmodify : ∀ (id' : Uuid) (f : ConnectionHandle → ConnectionHandle),
      (∀ x, (f x).id = x.id ∧ (f x).identity = x.identity) →
      (DashMap.modify s.manager.connections id' f).lookup id = some conn →
      ∃ conn', s.manager.connections.lookup id = some conn' ∧ conn'.id = conn.id ∧
        conn'.identity = conn.identity := by
    intro id' f hf hl
    rw [DashMap.lookup_modify] at hl
    split_ifs at hl with hid
    · subst hid
      obtain ⟨conn', hl', rfl⟩ := Option.map_eq_some_iff.mp hl
      exact ⟨conn', hl', (hf conn').1.symm, (hf conn').2.symm⟩
    · exact ⟨conn, hl, rfl, rfl⟩
  cases a with
  | register transport h' =>
      simp only [Service.apply, ConnectionManager.insertHandle, DashMap.lookup_insert] at h
      split_ifs at h
      · obtain rfl := Option.some.inj h
        exact .inl ⟨transport, rfl⟩
      · exact .inr ⟨conn, h, rfl, rfl⟩
  | unregister id' =>
      simp only [Service.apply, Service.lookup_unregister] at h
      split_ifs at h
      exact .inr ⟨conn, h, rfl, rfl⟩
  | updateActivity id' now =>
      exact .inr (hmodify id' (·.updateActivity now) (fun _ => ⟨rfl, rfl⟩) h)
  | subscribe id' key =>
      simp only [Service.apply] at h
      obtain ⟨e, he⟩ | ⟨h', hl, -, he⟩ := s.manager.subscribeToChannel_cases id' key
      · rw [he] at h
        exact .inr ⟨conn, h, rfl, rfl⟩
      · rw [he] at h
        exact .inr (hmodify id' (·.subscribe key) (fun _ => ⟨rfl, rfl⟩) h)
  | unsubscribe id' key =>
      simp only [Service.apply, ConnectionManager.unsubscribeFromChannel] at h
      split at h
      · exact .inr ⟨conn, h, rfl, rfl⟩
      · exact .inr (hmodify id' (·.unsubscribe key) (fun _ => ⟨rfl, rfl⟩) h)
  | _ => exact .inr ⟨conn, h, rfl, rfl⟩

end manager

/-! ### Steps of a dispatch -/

section steps
variable {U : UnicodeTables} {settings : Settings} {inp : Input} {s : Service} {a : Action}
  {p : Pc} {q : Option Pc} {conn : ConnectionHandle} {d : Dispatch} {concurrent : Bool}
  {todo : List ConnectionHandle} {rest rest' : List String}

theorem found_nextBatch : (nextBatch d rest).found = [] := by
  unfold nextBatch
  split_ifs <;> rfl

theorem mem_of_mem_startSend {found : List ConnectionHandle}
    (h : conn ∈ (startSend d found rest).found) : conn ∈ found := by
  unfold startSend at h
  split_ifs at h
  · rw [found_nextBatch] at h
    exact absurd h List.not_mem_nil
  · exact h

theorem found_firstLookup (d : Dispatch) (target : NotificationTarget) :
    (firstLookup d target).found = [] := by
  cases target with
  | users userIds => exact found_nextBatch
  | _ => rfl

/-- Only dispatches hold connections that they have found. -/
theorem found_eq_nil (h : p.role.eventId = none) : p.found = [] := by
  cases p with
  | usersLookup | usersEnqueue | channelsLookup | send | track => cases h
  | _ => rfl

/-- What a dispatch has found it had found before or takes from the manager. -/
theorem found_of_step {p' : Pc} (h : step U settings inp s p = some (a, some p')) (hc : conn ∈ p'.found) :
    conn ∈ p.found ∨ ∃ id, s.manager.connections.lookup id = some conn := by
  cases hevent : p.role.eventId with
  | none =>
      have hnone : p'.role.eventId = none := by
        cases he : p'.role.eventId with
        | none => rfl
        | some x =>
            have hx := (step_move h).eventId (x := x) he
            rw [hevent] at hx
            cases hx
      rw [found_eq_nil hnone] at hc
      exact absurd hc List.not_mem_nil
  | some x =>
      cases p with
      | begin call =>
          simp only [step] at h
          split_ifs at h <;> cases h
          · exact absurd hc List.not_mem_nil
          · rw [found_firstLookup] at hc
            exact absurd hc List.not_mem_nil
      | userLookup d userId =>
          simp only [step] at h
          split_ifs at h <;> cases h
          · exact absurd hc List.not_mem_nil
          · exact .inr (lookup_of_mem_filtered (mem_of_mem_startSend hc))
      | userEnqueue d userId =>
          cases h
          exact absurd hc List.not_mem_nil
      | usersLookup d batch found offline rest =>
          cases batch with
          | nil =>
              simp only [step] at h
              split_ifs at h <;> cases h
              · exact .inl hc
              · exact .inl (mem_of_mem_startSend hc)
          | cons userId batch =>
              simp only [step] at h
              split_ifs at h <;> cases h
              · exact .inl hc
              · rcases List.mem_append.mp hc with hold | hnew
                · exact .inl hold
                · exact .inr (lookup_of_mem_filtered hnew)
      | usersEnqueue d offline found rest =>
          cases offline with
          | nil =>
              cases h
              exact .inl (mem_of_mem_startSend hc)
          | cons userId offline =>
              cases h
              exact .inl hc
      | broadcastLookup d =>
          cases h
          exact .inr (lookup_of_mem_broadcast (mem_of_mem_startSend hc))
      | channelLookup d channel =>
          cases h
          exact .inr (lookup_of_mem_handles (mem_of_mem_startSend hc))
      | channelsLookup d channels found =>
          cases channels with
          | nil =>
              cases h
              exact .inl (mem_of_mem_startSend hc)
          | cons channel channels =>
              cases h
              rcases Dispatcher.mem_addUnseen hc with hold | hnew
              · exact .inl hold
              · exact .inr (lookup_of_mem_handles hnew)
      | send d concurrent todo rest =>
          left
          obtain ⟨-, -, hq⟩ | ⟨i, conn', hi, -, -, hq⟩ | ⟨i, conn', hi, -, -, hq⟩ := step_send_cases h
          · obtain rfl := Option.some.inj hq
            rw [found_nextBatch] at hc
            exact absurd hc List.not_mem_nil
          · obtain rfl := Option.some.inj hq
            rcases List.mem_cons.mp hc with rfl | hc
            · exact List.mem_of_getElem? hi
            · exact List.mem_of_mem_eraseIdx hc
          · obtain rfl := Option.some.inj hq
            exact List.mem_of_mem_eraseIdx hc
      | track d concurrent conn' todo rest =>
          cases h
          exact .inl (List.mem_cons_of_mem _ hc)
      | ret d => cases h
      | socket sock => cases hevent
      | _ => cases hevent

theorem nextBatch_ne_track {d' : Dispatch} : nextBatch d rest ≠ .track d' concurrent conn todo rest' := by
  unfold nextBatch
  split_ifs <;> exact fun h => by cases h

theorem startSend_ne_track {d' : Dispatch} {found : List ConnectionHandle} :
    startSend d found rest ≠ .track d' concurrent conn todo rest' := by
  unfold startSend
  split_ifs
  · exact nextBatch_ne_track
  · exact fun h => by cases h

theorem firstLookup_ne_track {d' : Dispatch} {target : NotificationTarget} :
    firstLookup d target ≠ .track d' concurrent conn todo rest' := by
  cases target with
  | users userIds => exact nextBatch_ne_track
  | _ => exact fun h => by cases h

/-- A dispatch is about to track a connection after it has put its event on its channel. -/
theorem send_of_track
    (h : step U settings inp s p = some (a, some (.track d concurrent conn todo rest))) :
    ∃ d' todo', p = .send d' concurrent todo' rest ∧ conn ∈ todo' ∧ d'.event = d.event ∧
      a = .place conn.id (outbound concurrent (.notification d.event)) inp.now .direct := by
  cases hevent : p.role.eventId with
  | none =>
      have hx := (step_move h).eventId (x := d.event.id) rfl
      rw [hevent] at hx
      cases hx
  | some x =>
      cases p with
      | send d' concurrent' todo' rest' =>
          obtain ⟨-, -, hq⟩ | ⟨i, conn', hi, -, rfl, hq⟩ | ⟨i, conn', -, -, -, hq⟩ := step_send_cases h
          · exact absurd (Option.some.inj hq).symm nextBatch_ne_track
          · cases hq
            exact ⟨d', todo', rfl, List.mem_of_getElem? hi, rfl, rfl⟩
          · cases hq
      | begin call =>
          simp only [step] at h
          split_ifs at h
          · cases h
          · exact absurd (Option.some.inj (Prod.mk.inj (Option.some.inj h)).2) firstLookup_ne_track
      | userLookup d' userId =>
          simp only [step] at h
          split_ifs at h
          · cases h
          · exact absurd (Option.some.inj (Prod.mk.inj (Option.some.inj h)).2) startSend_ne_track
      | usersLookup d' batch found offline rest' =>
          cases batch with
          | nil =>
              simp only [step] at h
              split_ifs at h
              · cases h
              · exact absurd (Option.some.inj (Prod.mk.inj (Option.some.inj h)).2) startSend_ne_track
          | cons userId batch =>
              simp only [step] at h
              split_ifs at h <;> cases h
      | usersEnqueue d' offline found rest' =>
          cases offline with
          | nil => exact absurd (Option.some.inj (Prod.mk.inj (Option.some.inj h)).2) startSend_ne_track
          | cons userId offline => cases h
      | broadcastLookup d' | channelLookup d' channel =>
          exact absurd (Option.some.inj (Prod.mk.inj (Option.some.inj h)).2) startSend_ne_track
      | channelsLookup d' channels found =>
          cases channels with
          | nil => exact absurd (Option.some.inj (Prod.mk.inj (Option.some.inj h)).2) startSend_ne_track
          | cons channel channels => cases h
      | userEnqueue d' userId | track d' concurrent' conn' todo' rest' | ret d' => cases h
      | _ => cases hevent

/-- What is sent directly is sent by a dispatch that sends. -/
theorem send_of_direct {id : Uuid} {m : OutboundMessage} {now : DateTime}
    (h : step U settings inp s p = some (.place id m now .direct, q)) :
    ∃ d concurrent todo rest, p = .send d concurrent todo rest := by
  have hm := step_move h
  generalize hr : p.role = r at hm
  generalize q.map Pc.role = r' at hm
  cases hm with
  | place hroom hevent =>
      cases p with
      | send d concurrent todo rest => exact ⟨d, concurrent, todo, rest, rfl⟩
      | userLookup d userId =>
          simp only [step] at h
          split_ifs at h <;> cases h
      | usersLookup d batch found offline rest =>
          cases batch <;> simp only [step] at h <;> split_ifs at h <;> cases h
      | usersEnqueue d offline found rest => cases offline <;> cases h
      | channelsLookup d channels found => cases channels <;> cases h
      | userEnqueue d userId | broadcastLookup d | channelLookup d channel
      | track d concurrent conn todo rest => cases h
      | _ => cases hr
  | quiet ha => exact ha.elim
  | «end» ha => rcases ha with ha | ha <;> cases ha

theorem receiveStep_ne_track {h : ConnectionHandle} {r : Receiving} {r' : Option Receiving} {n id : Uuid}
    {u : String} {t : DateTime} : receiveStep U settings inp s h r ≠ some (.track n u id t, r') := by
  intro hs
  cases r with
  | idle =>
      simp only [receiveStep, Option.some.injEq] at hs
      unfold receiveFrame at hs
      split at hs <;> cases hs
  | subscribing todo progress =>
      cases todo with
      | nil => cases hs
      | cons channel todo =>
          simp only [receiveStep, Option.some.injEq, Prod.mk.injEq] at hs
          obtain ⟨ha, -⟩ := hs
          split_ifs at ha
  | unsubscribing todo all => cases todo <;> cases hs
  | acking notificationId =>
      simp only [receiveStep, Option.some.injEq, Prod.mk.injEq] at hs
      obtain ⟨ha, -⟩ := hs
      split_ifs at ha
  | replying todo =>
      cases todo with
      | nil => cases hs
      | cons message todo =>
          simp only [receiveStep] at hs
          split_ifs at hs <;> cases hs

/-- What is tracked is tracked by a dispatch, for the connection that has just taken its event. -/
theorem track_of_track {n id : Uuid} {u : String} {t : DateTime}
    (h : step U settings inp s p = some (.track n u id t, q)) :
    ∃ d concurrent conn todo rest, p = .track d concurrent conn todo rest ∧ n = d.event.id ∧
      u = conn.userId ∧ id = conn.id ∧ t = inp.now := by
  cases p with
  | track d concurrent conn todo rest =>
      cases h
      exact ⟨d, concurrent, conn, todo, rest, rfl, rfl, rfl, rfl, rfl⟩
  | send d concurrent todo rest =>
      obtain ⟨-, ha, -⟩ | ⟨i, conn, -, -, ha, -⟩ | ⟨i, conn, -, -, ha, -⟩ := step_send_cases h <;> cases ha
  | socket sock =>
      simp only [step] at h
      unfold socketStep at h
      split at h
      · split_ifs at h <;> cases h
      · split at h
        · cases h
        · obtain ⟨⟨a', r'⟩, hs, heq⟩ := Option.map_eq_some_iff.mp h
          obtain ⟨rfl, -⟩ := Prod.mk.inj heq
          exact absurd hs receiveStep_ne_track
      · split_ifs at h <;> cases h
  | connect transport claims =>
      simp only [step] at h
      split at h <;> cases h
  | usersLookup d batch found offline rest =>
      cases batch <;> simp only [step] at h <;> split_ifs at h <;> cases h
  | usersEnqueue d offline found rest => cases offline <;> cases h
  | channelsLookup d channels found => cases channels <;> cases h
  | replay transport h' start backlog =>
      cases backlog with
      | nil => cases h
      | cons m backlog =>
          simp only [step] at h
          split_ifs at h <;> cases h
  | heartbeatSend batch rest =>
      cases batch with
      | nil =>
          simp only [step] at h
          split_ifs at h <;> cases h
      | cons conn batch =>
          simp only [step] at h
          split at h
          · cases h
          · split_ifs at h <;> cases h
  | cleanup =>
      simp only [step] at h
      split at h <;> cases h
  | cleanupRemove stale =>
      cases stale with
      | nil => cases h
      | cons id stale =>
          simp only [step] at h
          split at h <;> cases h
  | begin call | userLookup d userId | stream h' =>
      simp only [step] at h
      split_ifs at h <;> cases h
  | userEnqueue | broadcastLookup | channelLookup | ret | drain | closeStream | heartbeat => cases h

end steps

/-! ### Runs -/

section runs
variable {U : UnicodeTables} {settings : Settings} {c : Config Service Pc} {s : Service} {a : Action}
  {ok : Config Service Pc → Event ServiceCall Input → Prop} {conn : ConnectionHandle}

theorem Known.apply (h : Known s conn) : Known (s.apply a) conn := by
  obtain ⟨transport, h', hreg, hid, hident⟩ := h
  exact ⟨transport, h', Service.mem_history_of_mem hreg, hid, hident⟩

/-- The handles in the manager and those that dispatches have found are known. -/
structure AllKnown (c : Config Service Pc) : Prop where
  manager : ∀ id conn, c.shared.manager.connections.lookup id = some conn → Known c.shared conn
  found : Holds (fun s p => ∀ conn ∈ p.found, Known s conn) c

theorem known_of_reaches (h : Reaches (system U settings) ok (initial settings) c) : AllKnown c := by
  refine h.invariant ⟨fun id conn hl => ?_, by simp [Holds, initial]⟩ ?_
  · simp [initial, ConnectionManager.withLimits] at hl
  · intro c e c' _ hc _ hn
    refine ⟨?_, hc.found.next hn ?_ ?_⟩
    · obtain ⟨op, rfl, rfl⟩ | ⟨i, inp, p, s, q, l₁, l₂, rfl, hp, hs, hl, rfl⟩ := System.next_cases hn
      · exact hc.manager
      · obtain ⟨a, -, rfl, -⟩ := system_move hs
        intro id conn hlookup
        rcases lookup_apply hlookup with ⟨transport, rfl⟩ | ⟨conn', hl', hid, hident⟩
        · exact ⟨transport, conn, Service.mem_history_self, rfl, rfl⟩
        · obtain ⟨transport, h', hreg, hid', hident'⟩ := hc.manager id conn' hl'
          exact ⟨transport, h', Service.mem_history_of_mem hreg, hid'.trans hid, hident'.trans hident⟩
    · rintro op rfl conn hconn
      cases op <;> exact absurd hconn List.not_mem_nil
    · rintro i inp p s q l₁ l₂ rfl hp hl hs
      obtain ⟨a, hstep, rfl, -⟩ := system_move hs
      refine ⟨?_, fun p' _ hp' conn hconn => (hp' conn hconn).apply⟩
      rintro p' hp' conn hconn
      obtain rfl : q = some p' := hp'
      rcases found_of_step hstep hconn with hold | ⟨id, hlookup⟩
      · exact (hc.found p (List.mem_of_getElem? hp) conn hold).apply
      · exact (hc.manager id conn hlookup).apply

end runs

end AraNotification
