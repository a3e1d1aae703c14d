import AraNotification.AtMostOnce
import AraNotification.ChannelAgreement
import AraNotification.OutboundChannel

/-! # What a client knows about its subscriptions

A WebSocket client learns from the replies on its channel what it is subscribed to: every
`Subscribed` adds channels and every `Unsubscribed` takes channels away (`clientView`).  The
server keeps the subscriptions of the connection in the manager, under the keys of the
connection's tenant, and changes them one channel at a time while other tasks run.

`Agrees` relates the two at every point of the receive task: half-way through a request the
difference is what the request has done so far, and while replies are waiting it is what they
are going to say.  As long as no reply is given up (`Replied`), whenever the receive task is
idle the manager has exactly the subscriptions that the client has been told of
(`client_view_agrees`), in every interleaving with dispatches, heartbeats and clean-ups. -/

namespace AraNotification

open Interleaving

/-! ### The client's view -/

/-- The channels that a client takes itself to be subscribed to after a message. -/
def ServerMessage.view (view : List String) : ServerMessage → List String
  | .subscribed channels => view ++ channels
  | .unsubscribed channels => view.filter (fun channel => channel ∉ channels)
  | _ => view

/-- The channels that a client takes itself to be subscribed to. -/
def clientView (messages : List OutboundMessage) : List String :=
  (messages.map (·.message)).foldl ServerMessage.view []

/-- The subscriptions are those of the view, under the keys of the connection. -/
def Tells (config : TenantConfig) (h : ConnectionHandle) (subscriptions view : List String) : Prop :=
  ∀ k, k ∈ subscriptions ↔ ∃ channel ∈ view, channelKey config h channel = k

/-- How the subscriptions and the view are related at a point of the receive task. -/
def Agrees (config : TenantConfig) (h : ConnectionHandle) (subscriptions view : List String) :
    Option Receiving → Prop
  | some (.subscribing _ progress) => Tells config h subscriptions (view ++ progress.subscribed)
  | some (.unsubscribing todo all) => ∃ finished, all = finished ++ todo ∧
      Tells config h subscriptions (view.filter (fun channel => channel ∉ finished))
  | some (.replying todo) => Tells config h subscriptions (todo.foldl ServerMessage.view view)
  | _ => Tells config h subscriptions view

/-- The connection of a handler that serves a WebSocket or is going to, with its receive task. -/
def Pc.handler : Pc → Option (ConnectionHandle × Option Receiving)
  | .drain _ h | .replay _ h _ _ => some (h, none)
  | .socket sock => some (sock.handle, sock.recvTask)
  | _ => none

/-- The manager and the client agree on a connection that is registered. -/
def Pc.Agreed (settings : Settings) (s : Service) (p : Pc) : Prop := ∀ x ∈ p.handler, ∀ conn,
  s.manager.connections.lookup x.1.id = some conn →
    Agrees settings.tenant x.1 conn.subscriptions (clientView (s.put x.1.id)) x.2

/-- The receive task has a reply to send. -/
def Receiving.replies : Receiving → Bool
  | .replying (_ :: _) => true
  | _ => false

/-- The step does not give up on a reply. -/
def Replied (c : Config Service Pc) : Event ServiceCall Input → Prop
  | .call _ => True
  | .run i inp => ∀ p ∈ c.threads[i]?, ∀ x ∈ p.handler, ∀ r ∈ x.2, r.replies = true → inp.task = .recv → inp.ok = true

instance (c : Config Service Pc) (e : Event ServiceCall Input) : Decidable (Replied c e) := by
  obtain _ | ⟨i, inp⟩ := e <;> dsimp only [Replied] <;> infer_instance

section views
variable {config : TenantConfig} {h : ConnectionHandle} {s : Service} {a : Action} {id : Uuid}
  {subscriptions view : List String} {channel : String} {messages : List OutboundMessage} {m : OutboundMessage}

theorem channelKey_inj {x y : String} : channelKey config h x = channelKey config h y ↔ x = y :=
  ChannelAgreement.key_inj

theorem clientView_append : clientView (messages ++ [m]) = m.message.view (clientView messages) := by
  simp [clientView]

theorem clientView_put : clientView ((s.apply a).put id) =
    (a.putOn id).elim (clientView (s.put id)) (fun m => m.message.view (clientView (s.put id))) := by
  rw [put_apply]
  cases a.putOn id with
  | none => simp
  | some m => exact clientView_append

theorem tells_nil : Tells config h [] [] := fun k => by simp

/-- A confirmed channel is added on both sides. -/
theorem Tells.insert (ht : Tells config h subscriptions view) (channel : String) :
    Tells config h (subscriptions.insert (channelKey config h channel)) (view ++ [channel]) := by
  intro k
  rw [List.mem_insert_iff, ht k]
  constructor
  · rintro (rfl | ⟨ch, hch, hk⟩)
    · exact ⟨channel, List.mem_append_right _ List.mem_cons_self, rfl⟩
    · exact ⟨ch, List.mem_append_left _ hch, hk⟩
  · rintro ⟨ch, hch, hk⟩
    rcases List.mem_append.mp hch with hch | hch
    · exact .inr ⟨ch, hch, hk⟩
    · obtain rfl := List.mem_singleton.mp hch
      exact .inl hk.symm

/-- A channel that is given up goes on both sides. -/
theorem Tells.remove {finished : List String}
    (ht : Tells config h subscriptions (view.filter (fun ch => ch ∉ finished))) (channel : String) :
    Tells config h (subscriptions.filter (· ≠ channelKey config h channel))
      (view.filter (fun ch => ch ∉ finished ++ [channel])) := by
  intro k
  simp only [List.mem_filter, decide_eq_true_eq, ht k, List.mem_append, List.mem_singleton, not_or]
  constructor
  · rintro ⟨⟨ch, ⟨hch, hnot⟩, rfl⟩, hne⟩
    exact ⟨ch, ⟨hch, hnot, fun heq => hne (by rw [heq])⟩, rfl⟩
  · rintro ⟨ch, ⟨hch, hnot, hne⟩, rfl⟩
    exact ⟨⟨ch, ⟨hch, hnot⟩, rfl⟩, fun hk => hne (channelKey_inj.mp hk)⟩

/-- The replies to a subscription tell what it has confirmed. -/
theorem view_replies (p : SubscribeProgress) : p.replies.foldl ServerMessage.view view = view ++ p.subscribed := by
  unfold SubscribeProgress.replies
  by_cases hs : p.subscribed = []
  · by_cases he : p.errors = [] <;> simp [hs, he, ServerMessage.view]
  · by_cases he : p.errors = [] <;> simp [hs, he, ServerMessage.view]

theorem view_unsubscribeReplies (channels : List String) :
    (unsubscribeReplies channels).foldl ServerMessage.view view = view.filter (fun ch => ch ∉ channels) := by
  unfold unsubscribeReplies
  by_cases hc : channels = []
  · simp [hc]
  · simp [hc, ServerMessage.view]

theorem view_handleAck (b : MemoryAckBackend) (n : Uuid) (now : DateTime) :
    (handleAck h b n now).2.foldl ServerMessage.view view = view := by
  unfold handleAck
  split_ifs
  · split <;> rfl
  · rfl

end views

/-! ### Who subscribes, and who replies -/

/-- The connection whose subscriptions the action changes. -/
def Action.requestId : Action → Option Uuid
  | .subscribe id _ | .unsubscribe id _ => some id
  | _ => none

section requests
variable {U : UnicodeTables} {settings : Settings} {inp : Input} {s : Service} {a : Action} {id : Uuid}
  {p : Pc} {q : Option Pc} {conn : ConnectionHandle} {m : OutboundMessage}

theorem subscriptions_apply (hreg : a.registeredId ≠ some id) (hrequest : a.requestId ≠ some id)
    (hl : (s.apply a).manager.connections.lookup id = some conn) :
    ∃ conn', s.manager.connections.lookup id = some conn' ∧ conn'.subscriptions = conn.subscriptions := by
  cases a with
  | register transport h =>
      have hne : id ≠ h.id := fun he => hreg (congrArg some he.symm)
      simp only [Service.apply, ConnectionManager.insertHandle, DashMap.lookup_insert, if_neg hne] at hl
      exact ⟨conn, hl, rfl⟩
  | unregister id' =>
      simp only [Service.apply, Service.lookup_unregister] at hl
      split_ifs at hl
      exact ⟨conn, hl, rfl⟩
  | updateActivity id' now =>
      simp only [Service.apply, ConnectionManager.updateActivity, DashMap.lookup_modify] at hl
      split_ifs at hl with hid
      · subst hid
        obtain ⟨conn', hl', rfl⟩ := Option.map_eq_some_iff.mp hl
        exact ⟨conn', hl', rfl⟩
      · exact ⟨conn, hl, rfl⟩
  | subscribe id' key =>
      have hne : id ≠ id' := fun he => hrequest (congrArg some he.symm)
      simp only [Service.apply] at hl
      obtain ⟨e, he⟩ | ⟨h', -, -, he⟩ := s.manager.subscribeToChannel_cases id' key
      · rw [he] at hl
        exact ⟨conn, hl, rfl⟩
      · rw [he] at hl
        simp only [DashMap.lookup_modify, if_neg hne] at hl
        exact ⟨conn, hl, rfl⟩
  | unsubscribe id' key =>
      have hne : id ≠ id' := fun he => hrequest (congrArg some he.symm)
      simp only [Service.apply, ConnectionManager.unsubscribeFromChannel] at hl
      split at hl
      · exact ⟨conn, hl, rfl⟩
      · simp only [DashMap.lookup_modify, if_neg hne] at hl
        exact ⟨conn, hl, rfl⟩
  | _ => exact ⟨conn, hl, rfl⟩

theorem requestId_of_receiveStep {h : ConnectionHandle} {r : Receiving} {r' : Option Receiving}
    (hs : receiveStep U settings inp s h r = some (a, r')) (ha : a.requestId = some id) : id = h.id := by
  cases r with
  | idle =>
      simp only [receiveStep, Option.some.injEq] at hs
      unfold receiveFrame at hs
      split at hs <;> cases hs <;> cases ha
  | subscribing todo progress =>
      cases todo with
      | nil =>
          cases hs
          cases ha
      | cons channel todo =>
          simp only [receiveStep, Option.some.injEq, Prod.mk.injEq] at hs
          obtain ⟨rfl, -⟩ := hs
          split_ifs at ha
          · exact (Option.some.inj ha).symm
          · cases ha
  | unsubscribing todo all =>
      cases todo with
      | nil =>
          cases hs
          cases ha
      | cons channel todo =>
          cases hs
          exact (Option.some.inj ha).symm
  | acking notificationId =>
      simp only [receiveStep, Option.some.injEq, Prod.mk.injEq] at hs
      obtain ⟨rfl, -⟩ := hs
      split_ifs at ha <;> cases ha
  | replying todo =>
      cases todo with
      | nil =>
          cases hs
          cases ha
      | cons message todo =>
          simp only [receiveStep] at hs
          split_ifs at hs <;> cases hs <;> cases ha

/-- The subscriptions of a connection are changed by its own handler only. -/
theorem connection_of_request (h : step U settings inp s p = some (a, q)) (ha : a.requestId = some id) :
    id ∈ p.role.connection := by
  cases p with
  | socket sock =>
      simp only [step] at h
      unfold socketStep at h
      split at h
      · split_ifs at h <;> cases h <;> cases ha
      · split at h
        · cases h
        · obtain ⟨⟨a', r'⟩, hs, heq⟩ := Option.map_eq_some_iff.mp h
          obtain ⟨rfl, -⟩ := Prod.mk.inj heq
          exact congrArg some (requestId_of_receiveStep hs ha).symm
      · split_ifs at h <;> cases h <;> cases ha
  | send d concurrent todo rest =>
      obtain ⟨-, rfl, -⟩ | ⟨i, conn, -, -, rfl, -⟩ | ⟨i, conn, -, -, rfl, -⟩ := step_send_cases h <;> cases ha
  | connect transport claims =>
      obtain ⟨rfl, -⟩ | ⟨h', rfl, -⟩ := step_connect_cases h <;> cases ha
  | usersLookup d batch found offline rest =>
      cases batch <;> simp only [step] at h <;> split_ifs at h <;> cases h <;> cases ha
  | usersEnqueue d offline found rest => cases offline <;> cases h <;> cases ha
  | channelsLookup d channels found => cases channels <;> cases h <;> cases ha
  | replay transport h' start backlog =>
      cases backlog <;> simp only [step] at h
      · cases h
        cases ha
      · split_ifs at h <;> cases h <;> cases ha
  | heartbeatSend batch rest =>
      cases batch <;> simp only [step] at h
      · split_ifs at h <;> cases h <;> cases ha
      · split at h
        · cases h
        · split_ifs at h <;> cases h <;> cases ha
  | cleanup =>
      simp only [step] at h
      split at h <;> cases h <;> cases ha
  | cleanupRemove stale =>
      cases stale <;> simp only [step] at h
      · cases h
        cases ha
      · split at h <;> cases h
        cases ha
  | begin call | userLookup d userId | stream h' =>
      simp only [step] at h
      split_ifs at h <;> cases h <;> cases ha
  | userEnqueue | broadcastLookup | channelLookup | track | ret | drain | closeStream | heartbeat =>
      cases h
      cases ha

theorem view_of_event {e : NotificationEvent} (he : m.event = some e) (view : List String) :
    m.message.view view = view := by
  unfold OutboundMessage.event at he
  split at he
  · rename_i hm
    rw [hm]
    rfl
  · cases he

theorem putOn_place {id' : Uuid} {m' : OutboundMessage} {now : DateTime} {origin : Origin}
    (h : (Action.place id' m' now origin).putOn id = some m) : id' = id ∧ m' = m := by
  simp only [Action.putOn] at h
  split_ifs at h with hid
  exact ⟨hid, Option.some.inj h⟩

/-- What other programs put on the channel of a handler does not change the view of its client. -/
theorem view_of_other (h : step U settings inp s p = some (a, q)) (hput : a.putOn id = some m)
    (hother : id ∉ p.role.connection) (view : List String) : m.message.view view = view := by
  have hm := step_move h
  generalize hrole : p.role = r at hm hother
  generalize q.map Pc.role = r' at hm
  cases hm with
  | place hroom he =>
      obtain ⟨-, rfl⟩ := putOn_place hput
      exact view_of_event he view
  | replay hroom | reply hroom => exact absurd (congrArg some (putOn_place hput).1) hother
  | heartbeat hroom =>
      cases p with
      | heartbeatSend batch rest =>
          cases batch <;> simp only [step] at h
          · split_ifs at h <;> cases h
          · split at h
            · cases h
            · split_ifs at h <;> cases h
              obtain ⟨-, rfl⟩ := putOn_place hput
              rfl
      | heartbeat => cases h
      | cleanup =>
          simp only [step] at h
          split at h <;> cases h
      | socket sock => cases hrole
      | _ => cases hrole
  | quiet ha => cases a <;> first | exact ha.elim | cases hput
  | «end» ha => rcases ha with rfl | rfl <;> cases hput
  | _ => cases hput

end requests

/-! ### Steps -/

section steps
variable {U : UnicodeTables} {settings : Settings} {inp : Input} {s : Service} {a : Action} {id : Uuid}
  {p p' : Pc} {q : Option Pc} {conn : ConnectionHandle} {h : ConnectionHandle}

/-- Another program leaves the agreement alone. -/
theorem Pc.Agreed.other_step (hp' : p'.Agreed settings s) (hstep : step U settings inp s p = some (a, q))
    (hdifferent : ∀ id ∈ p.role.connection, id ∉ p'.role.connection)
    (hnew : ∀ id ∈ p'.role.connection, a.registeredId ≠ some id) : p'.Agreed settings (s.apply a) := by
  intro x hx conn hl
  have hconn : x.1.id ∈ p'.role.connection := by
    cases p' with
    | drain | replay | socket =>
        obtain rfl := Option.some.inj hx
        rfl
    | _ => cases hx
  have hrequest : a.requestId ≠ some x.1.id := fun ha => hdifferent _ (connection_of_request hstep ha) hconn
  obtain ⟨conn', hl', hsubs⟩ := subscriptions_apply (hnew _ hconn) hrequest hl
  have hview : clientView ((s.apply a).put x.1.id) = clientView (s.put x.1.id) := by
    rw [clientView_put]
    cases hput : a.putOn x.1.id with
    | none => rfl
    | some m => exact view_of_other hstep hput (fun hown => hdifferent _ hown hconn) _
  rw [hview, ← hsubs]
  exact hp' x hx conn' hl'

/-- An action that is no request and puts nothing on the channel keeps subscriptions and view. -/
theorem agrees_kept {r : Option Receiving} (hreg : a.registeredId = none) (hrequest : a.requestId = none)
    (hput : a.putOn h.id = none)
    (hp : ∀ conn, s.manager.connections.lookup h.id = some conn →
      Agrees settings.tenant h conn.subscriptions (clientView (s.put h.id)) r)
    (hl : (s.apply a).manager.connections.lookup h.id = some conn) :
    Agrees settings.tenant h conn.subscriptions (clientView ((s.apply a).put h.id)) r := by
  obtain ⟨conn', hl', hsubs⟩ := subscriptions_apply (by rw [hreg]; simp) (by rw [hrequest]; simp) hl
  rw [clientView_put, hput, Option.elim_none, ← hsubs]
  exact hp conn' hl'

/-- One channel of a subscription: the manager and the confirmed channels change together. -/
theorem tells_subscribe {progress : SubscribeProgress} {channel : String} {view : List String}
    (hp : ∀ conn, s.manager.connections.lookup h.id = some conn →
      Tells settings.tenant h conn.subscriptions (view ++ progress.subscribed))
    (hvalid : isValidChannelName U channel = true)
    (hl : (s.apply (.subscribe h.id (channelKey settings.tenant h channel))).manager.connections.lookup h.id =
      some conn) :
    Tells settings.tenant h conn.subscriptions
      (view ++ (subscribeOne U settings.tenant h s.manager progress channel).2.subscribed) := by
  simp only [Service.apply] at hl
  obtain ⟨e, he⟩ | ⟨conn', hl', -, he⟩ := s.manager.subscribeToChannel_cases h.id (channelKey settings.tenant h channel)
  · rw [he] at hl
    simp only [subscribeOne, hvalid, if_true, he]
    exact hp conn hl
  · rw [he] at hl
    simp only [DashMap.lookup_modify, if_true, hl', Option.map_some, Option.some.injEq] at hl
    subst hl
    simp only [subscribeOne, hvalid, if_true, he]
    rw [← List.append_assoc]
    exact (hp conn' hl').insert channel

/-- The receive task keeps the agreement. -/
theorem agrees_receiveStep {r : Receiving} {r' : Option Receiving}
    (hs : receiveStep U settings inp s h r = some (a, r')) (hreplied : r.replies = true → inp.ok = true)
    (hp : ∀ conn, s.manager.connections.lookup h.id = some conn →
      Agrees settings.tenant h conn.subscriptions (clientView (s.put h.id)) (some r))
    (hl : (s.apply a).manager.connections.lookup h.id = some conn) :
    Agrees settings.tenant h conn.subscriptions (clientView ((s.apply a).put h.id)) r' := by
  cases r with
  | idle =>
      simp only [receiveStep, Option.some.injEq] at hs
      unfold receiveFrame at hs
      have hempty : ∀ view : List String, view.filter (fun ch => ch ∉ ([] : List String)) = view := by simp
      split at hs <;> cases hs <;> have hkept := agrees_kept rfl rfl rfl hp hl
      case h_7 =>
        show Tells _ _ _ (_ ++ [])
        rw [List.append_nil]
        exact hkept
      case h_8 channels =>
        refine ⟨[], rfl, ?_⟩
        rw [hempty]
        exact hkept
      all_goals exact hkept
  | subscribing todo progress =>
      cases todo with
      | nil =>
          cases hs
          have hkept := agrees_kept rfl rfl rfl hp hl
          show Tells _ _ _ (progress.replies.foldl ServerMessage.view _)
          rw [view_replies]
          exact hkept
      | cons channel todo =>
          simp only [receiveStep, Option.some.injEq, Prod.mk.injEq] at hs
          obtain ⟨rfl, rfl⟩ := hs
          split_ifs at hl ⊢ with hvalid
          · rw [clientView_put]
            exact tells_subscribe hp hvalid hl
          · have hkept := agrees_kept rfl rfl rfl hp hl
            simpa [Agrees, subscribeOne, hvalid] using hkept
  | unsubscribing todo all =>
      cases todo with
      | nil =>
          cases hs
          obtain ⟨finished, hall, hkept⟩ := agrees_kept rfl rfl rfl hp hl
          rw [List.append_nil] at hall
          show Tells _ _ _ ((unsubscribeReplies all).foldl ServerMessage.view _)
          rw [view_unsubscribeReplies, hall]
          exact hkept
      | cons channel todo =>
          cases hs
          simp only [Service.apply, ConnectionManager.unsubscribeFromChannel] at hl
          split at hl
          · rename_i hnone
            rw [hnone] at hl
            cases hl
          · rename_i conn' hl'
            simp only [DashMap.lookup_modify, if_true, hl', Option.map_some, Option.some.injEq] at hl
            subst hl
            obtain ⟨finished, rfl, ht⟩ := hp conn' hl'
            refine ⟨finished ++ [channel], by simp, ?_⟩
            rw [clientView_put]
            exact ht.remove channel
  | acking notificationId =>
      simp only [receiveStep, Option.some.injEq, Prod.mk.injEq] at hs
      obtain ⟨rfl, rfl⟩ := hs
      show Tells _ _ _ ((handleAck h s.ack notificationId inp.now).2.foldl ServerMessage.view _)
      rw [view_handleAck]
      split_ifs at hl ⊢
      · exact agrees_kept rfl rfl rfl hp hl
      · exact agrees_kept rfl rfl rfl hp hl
  | replying todo =>
      cases todo with
      | nil =>
          cases hs
          exact agrees_kept rfl rfl rfl hp hl
      | cons message todo =>
          simp only [receiveStep, hreplied rfl, if_true] at hs
          split_ifs at hs
          cases hs
          have hput : (Action.place h.id (.raw message) inp.now .reply).putOn h.id = some (.raw message) := if_pos rfl
          rw [clientView_put, hput]
          exact hp conn hl

/-- The step of a socket keeps the agreement. -/
theorem agrees_socketStep {sock : Socket} (hp : (Pc.socket sock).Agreed settings s)
    (hstep : socketStep U settings inp s sock = some (a, some p'))
    (hreplied : ∀ r ∈ sock.recvTask, r.replies = true → inp.task = .recv → inp.ok = true) :
    p'.Agreed settings (s.apply a) := by
  intro x hx conn hl
  unfold socketStep at hstep
  split at hstep
  · split_ifs at hstep <;> cases hstep
    all_goals
      obtain rfl := Option.some.inj hx
      exact agrees_kept rfl rfl rfl (hp _ rfl) hl
  · rename_i htask
    split at hstep
    · cases hstep
    · rename_i r hr
      obtain ⟨⟨a', r'⟩, hs, heq⟩ := Option.map_eq_some_iff.mp hstep
      obtain ⟨rfl, hq⟩ := Prod.mk.inj heq
      obtain rfl := Option.some.inj hq
      obtain rfl := Option.some.inj hx
      refine agrees_receiveStep hs (fun hmore => hreplied r hr hmore htask) ?_ hl
      have hsock := hp _ rfl
      rw [hr] at hsock
      exact hsock
  · split_ifs at hstep <;> cases hstep
    obtain rfl := Option.some.inj hx
    exact agrees_kept rfl rfl rfl (hp _ rfl) hl

/-- The program that takes the step keeps the agreement. -/
theorem Pc.Agreed.own_step (hp : p.Agreed settings s) (hstep : step U settings inp s p = some (a, some p'))
    (hreplied : ∀ x ∈ p.handler, ∀ r ∈ x.2, r.replies = true → inp.task = .recv → inp.ok = true)
    (hnew : ∀ id ∈ a.registeredId, s.put id = []) : p'.Agreed settings (s.apply a) := by
  intro x hx conn hl
  have hconn : x.1.id ∈ p'.role.connection := by
    cases p' with
    | drain | replay | socket =>
        obtain rfl := Option.some.inj hx
        rfl
    | _ => cases hx
  rcases (step_move hstep).connection (x := x.1.id) hconn with hold | ⟨hrole, -, hreg⟩
  · cases p with
    | drain transport h' =>
        cases hstep
        obtain rfl := Option.some.inj hx
        exact agrees_kept rfl rfl rfl (hp _ rfl) hl
    | replay transport h' start backlog =>
        cases backlog with
        | nil =>
            cases hstep
            cases transport with
            | webSocket =>
                obtain rfl := Option.some.inj hx
                have hkept := agrees_kept rfl rfl rfl (hp (h', none) rfl) hl
                exact hkept
            | sse => cases hx
        | cons m backlog =>
            simp only [step] at hstep
            split_ifs at hstep <;> cases hstep <;> obtain rfl := Option.some.inj hx
            · have hput : (Action.place h'.id (.raw (.notification m.event)) inp.now (.replay m.id)).putOn h'.id =
                  some (.raw (.notification m.event)) := if_pos rfl
              rw [clientView_put, hput]
              exact hp _ rfl conn hl
            · exact agrees_kept rfl rfl rfl (hp _ rfl) hl
    | socket sock => exact agrees_socketStep hp hstep (hreplied _ rfl) x hx conn hl
    | stream h' =>
        simp only [step] at hstep
        split_ifs at hstep <;> cases hstep <;> cases hx
    | closeStream h' => cases hstep
    | _ => cases hold
  · -- a connection that has just been registered has no subscriptions, and its client no view
    obtain ⟨transport, claims, rfl⟩ := connect_of_role hrole
    obtain ⟨-, hq⟩ | ⟨h', rfl, -, -, hq⟩ := step_connect_cases hstep
    · cases hq
    · have hsubs := subscriptions_of_register hstep
      obtain rfl := Option.some.inj hq
      have hid : h'.id = x.1.id := Option.some.inj hreg
      simp only [Service.apply, ConnectionManager.insertHandle, DashMap.lookup_insert, hid, if_true,
        Option.some.injEq] at hl
      subst hl
      have hview : clientView ((s.apply (.register transport h')).put x.1.id) = [] := by
        rw [clientView_put, hnew x.1.id hreg]
        rfl
      rw [hview, hsubs]
      split_ifs at hx with hqueue
      · obtain rfl := Option.some.inj hx
        exact tells_nil
      · cases transport with
        | webSocket =>
            obtain rfl := Option.some.inj hx
            exact tells_nil
        | sse => cases hx

end steps

/-! ### Runs -/

section runs
variable {U : UnicodeTables} {settings : Settings} {c : Config Service Pc}

theorem agreed_of_reaches
    (h : Reaches (system U settings) (fun c e => Legal c e ∧ Replied c e) (initial settings) c) :
    Holds (fun s p => p.Agreed settings s) c := by
  refine h.invariant (by simp [Holds, initial]) ?_
  rintro c e c' hr hc ⟨hlegal, hreplied⟩ hn
  have htokens := connections_of_reaches (fun _ _ he => he.1) hr
  refine hc.next hn ?_ ?_
  · rintro op rfl x hx
    cases op <;> cases hx
  · rintro i inp p s q l₁ l₂ rfl hp hl hs
    obtain ⟨a, hstep, rfl, hmove⟩ := system_move hs
    refine ⟨?_, fun p' hmem hagreed => ?_⟩
    · rintro p' rfl
      refine (hc p (List.mem_of_getElem? hp)).own_step hstep (hreplied p hp) (fun id hid => ?_)
      obtain ⟨hrole, rfl⟩ := hmove.fresh_of_registeredId hid
      by_contra hput
      exact (hlegal p hp).1 (registers_of_connecting hrole) (registered_of_put hr hput)
    · refine hagreed.other_step hstep (fun id hid => htokens.not_mem_of_split hl hmem hid) (fun id hid hreg => ?_)
      obtain ⟨hrole, rfl⟩ := hmove.fresh_of_registeredId hreg
      exact (hlegal p hp).1 (registers_of_connecting hrole)
        (htokens.free _ (List.mem_filterMap.mpr ⟨p', mem_of_split hl hmem, hid⟩))

/-- **The client knows its subscriptions**: as long as no reply is given up, a registered WebSocket whose
receive task is idle is subscribed exactly to what the messages on its channel have told its client,
under the keys of its tenant. -/
theorem client_view_agrees
    (h : Reaches (system U settings) (fun c e => Legal c e ∧ Replied c e) (initial settings) c) {sock : Socket}
    (hp : .socket sock ∈ c.threads) (hidle : sock.recvTask = some .idle) {conn : ConnectionHandle}
    (hl : c.shared.manager.connections.lookup sock.handle.id = some conn) (k : String) :
    k ∈ conn.subscriptions ↔
      ∃ channel ∈ clientView (c.shared.put sock.handle.id), channelKey settings.tenant sock.handle channel = k := by
  have hagreed := agreed_of_reaches h _ hp _ rfl conn hl
  rw [hidle] at hagreed
  exact hagreed k

end runs

/-! ### A client that changes its mind -/

/-- A frame with a message. -/
def textFrame (message : ClientMessage) : Input := { tick with task := .recv, frame := some (.text (.ok message)) }

/-- `alice` subscribes to two channels and gives one up. -/
def changeOfMind : List (Event ServiceCall Input) :=
  [.call (.connect .webSocket ⟨"alice", [], some "acme"⟩)] ++ List.replicate 3 (.run 0 tick) ++
    [.run 0 (textFrame (.subscribe ["orders", "news"]))] ++ List.replicate 5 (.run 0 { tick with task := .recv }) ++
    [.run 0 (textFrame (.unsubscribe ["news"]))] ++ List.replicate 4 (.run 0 { tick with task := .recv })

/-- The program serves a WebSocket whose receive task is idle and whose client has this view. -/
def Pc.told (view : List String) (s : Service) : Pc → Bool
  | .socket ⟨h, _, some .idle, _⟩ => (s.manager.connections.lookup h.id).isSome && clientView (s.put h.id) == view
  | _ => false

theorem Pc.told_cases {view : List String} {s : Service} {p : Pc} (h : p.told view s = true) :
    ∃ sock, p = .socket sock ∧ sock.recvTask = some .idle ∧
      (s.manager.connections.lookup sock.handle.id).isSome ∧ clientView (s.put sock.handle.id) = view := by
  unfold Pc.told at h
  split at h
  · obtain ⟨hreg, hview⟩ := Bool.and_eq_true_iff.mp h
    exact ⟨_, rfl, rfl, hreg, eq_of_beq hview⟩
  · cases h

theorem client_view_agrees_alice :
    ∃ c sock conn, Reaches (system .ascii .withQueue) (fun c e => Legal c e ∧ Replied c e) (initial .withQueue) c ∧
      .socket sock ∈ c.threads ∧ c.shared.manager.connections.lookup sock.handle.id = some conn ∧
      ∀ k, k ∈ conn.subscriptions ↔
        ∃ channel ∈ ["orders"], channelKey Settings.withQueue.tenant sock.handle channel = k := by
  have hseen : ((system .ascii .withQueue).play (fun c e => Legal c e ∧ Replied c e) (initial .withQueue)
      changeOfMind).any (fun c => c.threads.any (Pc.told ["orders"] c.shared)) = true := by
    decide +kernel
  obtain ⟨c, hr, htold⟩ := exists_reaches_of_play hseen
  obtain ⟨p, hp, htold⟩ := List.any_eq_true.mp htold
  obtain ⟨sock, rfl, hidle, hreg, hview⟩ := Pc.told_cases htold
  obtain ⟨conn, hl⟩ := Option.isSome_iff_exists.mp hreg
  refine ⟨c, sock, conn, hr, hp, hl, fun k => ?_⟩
  rw [← hview]
  exact client_view_agrees hr hp hidle hl k

end AraNotification
