import AraNotification.ClusterRouting
import AraNotification.OfflineDelivery

/-! # Dispatching in a cluster

`AppState::new` builds the cluster router beside the dispatcher, and the dispatcher gets the
connection manager and the backends only.  So a dispatch on one server sends to the connections of
that server and queues the event when that server has none, whatever the other servers have.

`transparent_iff`: a dispatch does what it would do on one server with all connections exactly when
no other server has a connection that takes the event, and the dispatching server has a connection
of the identity if any server has one. -/

namespace AraNotification

namespace Cluster

variable (C : Cluster)

/-! ### A dispatch on one of the servers -/

/-- The connections of a server take a message when they are open and have room. -/
def surroundings (origin : String) (env : Surroundings) : Surroundings :=
  { env with accepts := fun id => (C.server origin).isOpen id && (C.server origin).hasRoom id }

/-- `dispatch_for_tenant` on a server, with its own connections and its own dispatcher. -/
def dispatchForTenant (nodes : String → Dispatcher) (origin : String) (env : Surroundings)
    (target : NotificationTarget) (event : NotificationEvent) (tenantId : Option String) :
    String → Dispatcher :=
  Function.update nodes origin ((nodes origin).dispatchForTenant (C.surroundings origin env)
    (C.server origin).manager target event tenantId).2

/-- The events that have been put on a connection since. -/
def eventsOn (nodes nodes' : String → Dispatcher) (sid : String) (cid : Uuid) :
    List (Option NotificationEvent) :=
  (((nodes' sid).outbox.drop (nodes sid).outbox.length).filter (fun p => p.conn.id = cid)).map
    (·.message.event)

/-- Some queue has the message with the event. -/
def Queued (nodes : String → Dispatcher) (id : Uuid) (event : NotificationEvent) : Prop :=
  ∃ sid q, (nodes sid).queue = some q ∧ ∃ key, ∃ msg ∈ q.messages key, msg.id = id ∧ msg.event = event

/-- The identifier of a new message is not in use. -/
def Fresh (nodes : String → Dispatcher) (id : Uuid) : Prop :=
  ∀ sid q, (nodes sid).queue = some q → ∀ key, ∀ msg ∈ q.messages key, msg.id ≠ id

/-- The dispatch is that of one server with all connections: an unexpired event is put once on each
connection of the identity that takes it, and it is queued only when there is no connection. -/
structure Transparent (nodes : String → Dispatcher) (origin : String) (env : Surroundings)
    (userId tenantId : String) (event : NotificationEvent) : Prop where
  reaches : ∀ sid ∈ C.ids, ∀ cid,
    eventsOn nodes (C.dispatchForTenant nodes origin env (.user userId) event (some tenantId)) sid cid =
      if event.isExpired env.now = false ∧ (C.server sid).receives userId tenantId cid = true then [some event]
      else []
  queued : Queued (C.dispatchForTenant nodes origin env (.user userId) event (some tenantId))
      (env.stamp 0).1 event →
    ∀ sid ∈ C.ids, ¬ (C.server sid).manager.Online ⟨tenantId, userId⟩

/-! ### What reaches the connections -/

section dispatch
variable {C} {nodes : String → Dispatcher} {origin sid u t : String} {env : Surroundings}
  {event : NotificationEvent} {cid : Uuid}

theorem receives_iff {server : ClusterServer} : server.receives u t cid = true ↔
    ∃ h, server.manager.connections.lookup cid = some h ∧ (h.userId = u ∧ h.tenantId = t) ∧
      server.sendPreserialized h = true := by
  simp only [ClusterServer.receives, Option.any_eq_true, Bool.and_eq_true, decide_eq_true_eq]

/-- Nothing is put on the connections of the other servers. -/
theorem eventsOn_of_ne (hne : sid ≠ origin) (target : NotificationTarget) (T : Option String) :
    eventsOn nodes (C.dispatchForTenant nodes origin env target event T) sid cid = [] := by
  rw [eventsOn, dispatchForTenant, Function.update_of_ne hne, List.drop_length]
  rfl

/-- The connections of the identity that take the event, by their identifiers. -/
theorem mem_accepting_iff (hm : (C.server origin).manager.Indexed) :
    cid ∈ ((intendedConnections (C.server origin).manager (some t) (.user u)).filter
        (fun c => (C.surroundings origin env).accepts c.id)).map (·.id) ↔
      (C.server origin).receives u t cid = true := by
  have henum := enumerates_intendedConnections hm (some t) (.user u)
  have hintended (c : ConnectionHandle) :
      intended (some t) (.user u) c = true ↔ c.userId = u ∧ c.tenantId = t := by
    simp [intended, ofTenant]
  rw [receives_iff, List.mem_map]
  constructor
  · rintro ⟨c, hc, rfl⟩
    obtain ⟨hconn, haccepts⟩ := List.mem_filter.mp hc
    obtain ⟨hl, hi⟩ := (henum.mem_iff c).mp hconn
    exact ⟨c, hl, (hintended c).mp hi, haccepts⟩
  · rintro ⟨c, hl, hi, haccepts⟩
    obtain rfl : c.id = cid := (hm.keyed cid c hl).1
    exact ⟨c, List.mem_filter.mpr ⟨(henum.mem_iff c).mpr ⟨hl, (hintended c).mpr hi⟩, haccepts⟩, rfl⟩

/-- On the server itself the event is put on the connections of the identity that take it. -/
theorem eventsOn_origin (horigin : origin ∈ C.ids) (he : event.isExpired env.now = false) :
    eventsOn nodes (C.dispatchForTenant nodes origin env (.user u) event (some t)) origin cid =
      if (C.server origin).receives u t cid = true then [some event] else [] := by
  obtain ⟨limits, hreach⟩ := C.reachable origin horigin
  have henum := enumerates_intendedConnections hreach.indexed (some t) (.user u)
  have hdup : ∀ us, NotificationTarget.user u = .users us → us.Nodup := fun us h => nomatch h
  have hsent : Sent (C.surroundings origin env) event _ (nodes origin) _ _ _ :=
    sent_dispatchForTenant hreach.indexed (some t) he hdup
  obtain ⟨new, hout, hperm, hevent⟩ := hsent.placed
  have hput : eventsOn nodes (C.dispatchForTenant nodes origin env (.user u) event (some t)) origin cid =
      (new.filter (fun p => p.conn.id = cid)).map (·.message.event) := by
    rw [eventsOn, dispatchForTenant, Function.update_self, hout, List.drop_left]
  have hcount : (new.filter (fun p => p.conn.id = cid)).length =
      if (C.server origin).receives u t cid = true then 1 else 0 := by
    calc (new.filter (fun p => p.conn.id = cid)).length
        = (new.map (·.conn)).countP (fun c => c.id = cid) := by
          rw [List.countP_map, List.countP_eq_length_filter]
          rfl
      _ = List.count cid (((intendedConnections (C.server origin).manager (some t) (.user u)).filter
            (fun c => (C.surroundings origin env).accepts c.id)).map (·.id)) := by
          rw [hperm.countP_eq, List.count, List.countP_map]
          rfl
      _ = if (C.server origin).receives u t cid = true then 1 else 0 := by
          rw [(henum.nodup.sublist (List.filter_sublist.map _)).count]
          simp only [mem_accepting_iff hreach.indexed]
  have hall : ∀ e ∈ (new.filter (fun p => p.conn.id = cid)).map (·.message.event), e = some event := by
    intro e hmem
    obtain ⟨p, hp, rfl⟩ := List.mem_map.mp hmem
    exact hevent p (List.mem_filter.mp hp).1
  rw [hput, List.eq_replicate_of_mem hall, List.length_map, hcount]
  split_ifs <;> rfl

theorem dispatchForTenant_of_expired (he : event.isExpired env.now = true) (target : NotificationTarget)
    (T : Option String) : C.dispatchForTenant nodes origin env target event T = nodes := by
  have hexpired : event.isExpired (C.surroundings origin env).now = true := he
  unfold dispatchForTenant Dispatcher.dispatchForTenant
  rw [if_pos hexpired]
  exact Function.update_eq_self origin nodes

/-! ### What is queued -/

theorem online_iff (hm : (C.server sid).manager.Indexed) : (C.server sid).manager.Online ⟨t, u⟩ ↔
    getUserConnectionsFiltered (C.server sid).manager u (some t) ≠ [] := by
  constructor
  · rintro ⟨id, h, hl, hi⟩
    cases hi
    exact List.ne_nil_of_mem
      ((mem_getUserConnectionsFiltered hm).mpr ⟨⟨⟨id, hl⟩, rfl⟩, fun t' ht' => Option.some.inj ht'⟩)
  · intro hne
    obtain ⟨h, hh⟩ := List.exists_mem_of_ne_nil _ hne
    obtain ⟨⟨⟨id, hl⟩, hu⟩, ht⟩ := (mem_getUserConnectionsFiltered hm).mp hh
    refine ⟨id, h, hl, ?_⟩
    rw [ConnectionHandle.identity, hu, ht t rfl]

/-- An unexpired event is queued exactly when the dispatching server has no connection. -/
theorem queued_iff {q : MemoryQueueBackend} (horigin : origin ∈ C.ids) (hq : (nodes origin).queue = some q)
    (hen : q.config.enabled = true) (hfresh : Fresh nodes (env.stamp 0).1)
    (he : event.isExpired env.now = false) :
    Queued (C.dispatchForTenant nodes origin env (.user u) event (some t)) (env.stamp 0).1 event ↔
      ¬ (C.server origin).manager.Online ⟨t, u⟩ := by
  obtain ⟨limits, hreach⟩ := C.reachable origin horigin
  rw [online_iff hreach.indexed, not_not]
  have hlive : ¬ event.isExpired (C.surroundings origin env).now = true := by simp [surroundings, he]
  have hnode : C.dispatchForTenant nodes origin env (.user u) event (some t) origin =
      ((nodes origin).sendToUserForTenant (C.surroundings origin env) (C.server origin).manager u event
        (some t)).2 := by
    rw [dispatchForTenant, Function.update_self, Dispatcher.dispatchForTenant, if_neg hlive]
  constructor
  · -- without a queued message everywhere else, only the queue of the server can have it
    rintro ⟨sid, q', hq', key, msg, hmsg, hid, -⟩
    by_contra hne
    have hsame : (C.dispatchForTenant nodes origin env (.user u) event (some t) sid).queue =
        (nodes sid).queue := by
      by_cases hsid : sid = origin
      · rw [hsid, hnode, sendToUserForTenant_of_ne_nil hne, queue_deliver]
      · rw [dispatchForTenant, Function.update_of_ne hsid]
    exact hfresh sid q' (hsame ▸ hq') key msg hmsg hid
  · intro hnone
    refine ⟨origin, _, (congrArg _ hnode).trans (queue_of_offline hq hen hnone), tenantQueueKey (some t) u,
      StoredMessage.new (env.stamp 0).1 (env.stamp 0).2 event, ?_, rfl, rfl⟩
    rw [MemoryQueueBackend.messages_enqueue hen, if_pos rfl]
    exact List.mem_append_right _ List.mem_cons_self

/-! ### Transparency -/

/-- An expired event goes nowhere, on one server or on many. -/
theorem transparent_of_expired (hfresh : Fresh nodes (env.stamp 0).1) (he : event.isExpired env.now = true) :
    C.Transparent nodes origin env u t event where
  reaches sid _ cid := by
    rw [dispatchForTenant_of_expired he, eventsOn, List.drop_length, if_neg (by simp [he])]
    rfl
  queued hqueued := by
    rw [dispatchForTenant_of_expired he] at hqueued
    obtain ⟨sid, q', hq', key, msg, hmsg, hid, -⟩ := hqueued
    exact absurd hid (hfresh sid q' hq' key msg hmsg)

/-- An unexpired event reaches all connections when only those of the server itself take it. -/
theorem reaches_iff (nodes : String → Dispatcher) (u t : String) (horigin : origin ∈ C.ids)
    (he : event.isExpired env.now = false) :
    (∀ sid ∈ C.ids, ∀ cid,
      eventsOn nodes (C.dispatchForTenant nodes origin env (.user u) event (some t)) sid cid =
        if event.isExpired env.now = false ∧ (C.server sid).receives u t cid = true then [some event]
        else []) ↔
      ∀ sid ∈ C.ids, sid ≠ origin → ∀ cid, (C.server sid).receives u t cid = false := by
  constructor
  · intro hreaches sid hsid hne cid
    have hnone := hreaches sid hsid cid
    rw [eventsOn_of_ne hne] at hnone
    by_contra hreceives
    rw [if_pos ⟨he, Bool.eq_true_of_not_eq_false hreceives⟩] at hnone
    cases hnone
  · intro hlocal sid hsid cid
    by_cases hne : sid = origin
    · subst hne
      rw [eventsOn_origin horigin he]
      simp [he]
    · rw [eventsOn_of_ne hne, if_neg (by simp [hlocal sid hsid hne cid])]

/-- **A dispatch is transparent exactly when the event has expired, or no other server has a
connection that takes it and the server itself has a connection of the identity, unless none
has.** -/
theorem transparent_iff (C : Cluster) (nodes : String → Dispatcher) (env : Surroundings)
    (event : NotificationEvent) {origin : String} (horigin : origin ∈ C.ids) {q : MemoryQueueBackend}
    (hq : (nodes origin).queue = some q) (hen : q.config.enabled = true)
    (hfresh : Fresh nodes (env.stamp 0).1) (u t : String) :
    C.Transparent nodes origin env u t event ↔
      event.isExpired env.now = true ∨
        ((∀ sid ∈ C.ids, sid ≠ origin → ∀ cid, (C.server sid).receives u t cid = false) ∧
          ((C.server origin).manager.Online ⟨t, u⟩ ∨
            ∀ sid ∈ C.ids, ¬ (C.server sid).manager.Online ⟨t, u⟩)) := by
  cases he : event.isExpired env.now with
  | true => exact iff_of_true (transparent_of_expired hfresh he) (.inl rfl)
  | false =>
      have hreaches := reaches_iff nodes u t horigin he
      have hqueued := queued_iff (u := u) (t := t) horigin hq hen hfresh he
      simp only [Bool.false_eq_true, false_or]
      constructor
      · intro h
        refine ⟨hreaches.mp h.reaches, ?_⟩
        by_cases honline : (C.server origin).manager.Online ⟨t, u⟩
        · exact .inl honline
        · exact .inr (h.queued (hqueued.mpr honline))
      · rintro ⟨hlocal, honline⟩
        exact ⟨hreaches.mpr hlocal, fun h => honline.resolve_left (hqueued.mp h)⟩

end dispatch

/-! ### Alice on one of two servers -/

section examples

/-- Two servers, of which one has a connection of alice. -/
def aliceOn (holder : String) : Cluster where
  ids := {"ara-1", "ara-2"}
  server id :=
    { enabled := true
      serverId := id
      routingChannel := "ara:cluster:route"
      manager := if id = holder then ((ConnectionManager.withLimits .default).call
        (.register 1 "alice" "acme" [] 0)).2 else .withLimits .default
      isOpen := fun _ => true
      hasRoom := fun _ => true }
  routingChannel := "ara:cluster:route"
  named _ _ := rfl
  enabled _ _ := rfl
  routed _ _ := rfl
  reachable id _ := by
    refine ⟨.default, ?_⟩
    dsimp only
    split_ifs
    · exact ConnectionManager.Reachable.empty.call (.register 1 "alice" "acme" [] 0) rfl
    · exact ConnectionManager.Reachable.empty

theorem fresh_emptyQueue : Fresh (fun _ => emptyQueue) (quiet.stamp 0).1 := by
  intro sid q hq key msg hmsg
  cases hq
  rw [MemoryQueueBackend.messages_new] at hmsg
  exact absurd hmsg List.not_mem_nil

/-- Alice is connected to the server of the dispatch. -/
theorem transparent_on_her_server :
    (aliceOn "ara-1").Transparent (fun _ => emptyQueue) "ara-1" quiet "alice" "acme" orderCreated := by
  refine (transparent_iff (aliceOn "ara-1") (fun _ => emptyQueue) quiet orderCreated (by decide) rfl rfl
    fresh_emptyQueue "alice" "acme").mpr (.inr ⟨fun sid hsid hne cid => ?_, .inl ?_⟩)
  · have hempty : ((aliceOn "ara-1").server sid).manager = .withLimits .default := if_neg hne
    rw [ClusterServer.receives, hempty]
    rfl
  · exact ⟨1, .new 1 "alice" "acme" [] 0, rfl, rfl⟩

/-- Alice is connected to the other server. -/
theorem missed_on_other_server :
    ¬ ∀ (C : Cluster) (nodes : String → Dispatcher) (env : Surroundings) (event : NotificationEvent)
      (origin : String), origin ∈ C.ids → ∀ q, (nodes origin).queue = some q → q.config.enabled = true →
      Fresh nodes (env.stamp 0).1 → ∀ u t, C.Transparent nodes origin env u t event := by
  intro h
  have hclaimed := (h (aliceOn "ara-2") (fun _ => emptyQueue) quiet orderCreated "ara-1" (by decide) _ rfl rfl
    fresh_emptyQueue "alice" "acme").reaches "ara-2" (by decide) 1
  rw [eventsOn_of_ne (by decide), if_pos ⟨rfl, by decide +kernel⟩] at hclaimed
  cases hclaimed

end examples

end Cluster

end AraNotification
