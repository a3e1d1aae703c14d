import AraNotification.Dispatcher

/-! # The direct path and the queued path

A notification for a user goes to the user's connections, or into the queue when there are
none, from where the next connection of the user takes it.  The direct path filters the
connections by tenant only when the caller names one; the queue key takes the default tenant
when the caller names none; and a connection drains the key of its own tenant claim.

`stored_iff` compares the two paths for a dispatch that would reach a connection directly:
made while the identity is offline, it is stored under the key that the identity drains
exactly when the caller names a tenant, or the identity is one of the default tenant and no
connection of a user of this name is registered. -/

namespace AraNotification

open Dispatcher

/-- A connection with this identity is registered. -/
def ConnectionManager.Online (m : ConnectionManager) (i : Identity) : Prop :=
  ∃ id h, m.connections.lookup id = some h ∧ h.identity = i

/-- The key that a connection with these claims drains. -/
def drainKey (claims : Claims) : String := tenantScopedKey claims.getTenantId claims.sub

/-- Whenever a connection with identity `i` is registered and takes messages, the dispatch of
an unexpired event to the user puts the event on it. -/
def SendsDirectly (tenantId : Option String) (i : Identity) : Prop :=
  ∀ (limits : ConnectionLimits) (m : ConnectionManager), ConnectionManager.Reachable limits m →
    ∀ id h, m.connections.lookup id = some h → h.identity = i →
      ∀ (d : Dispatcher) (env : Surroundings) (event : NotificationEvent), d.outbox = [] →
        env.accepts h.id = true → event.isExpired env.now = false →
        ∃ p ∈ (d.dispatchForTenant env m (.user i.userId) event tenantId).2.outbox,
          p.conn = h ∧ p.message.event = some event

/-- The message with identifier `id` is in the queue of `key` and in no other, and carries the
event. -/
def StoredExactly (d : Dispatcher) (id : Uuid) (event : NotificationEvent) (key : String) : Prop :=
  ∀ k, (∃ q, d.queue = some q ∧ ∃ msg ∈ q.messages k, msg.id = id ∧ msg.event = event) ↔ k = key

/-! ### The direct path -/

section direct
variable {m : ConnectionManager} {limits : ConnectionLimits} {T : Option String} {u : String}

theorem mem_getUserConnections (hm : m.Indexed) {h : ConnectionHandle} :
    h ∈ m.getUserConnections u ↔ (∃ id, m.connections.lookup id = some h) ∧ h.userId = u := by
  constructor
  · intro hh
    obtain ⟨id, hid, hl⟩ := List.mem_filterMap.mp hh
    obtain ⟨h', hl', hu⟩ := (hm.user.mem_iff u id).mp hid
    obtain rfl : h' = h := Option.some.inj (hl'.symm.trans hl)
    exact ⟨⟨id, hl⟩, hu⟩
  · rintro ⟨⟨id, hl⟩, hu⟩
    exact List.mem_filterMap.mpr ⟨id, (hm.user.mem_iff u id).mpr ⟨h, hl, hu⟩, hl⟩

theorem mem_getUserConnectionsFiltered (hm : m.Indexed) {h : ConnectionHandle} :
    h ∈ getUserConnectionsFiltered m u T ↔
      ((∃ id, m.connections.lookup id = some h) ∧ h.userId = u) ∧ ∀ t ∈ T, h.tenantId = t := by
  cases T with
  | none => simp [getUserConnectionsFiltered, mem_getUserConnections hm]
  | some t => simp [getUserConnectionsFiltered, mem_getUserConnections hm]

/-- What is in the outbox stays there while messages are sent. -/
theorem outbox_subset_foldl_sendTo {env : Surroundings} {message : OutboundMessage} {id : Option Uuid}
    {p : Placement} : ∀ (conns : List ConnectionHandle) (r : Dispatcher × ℕ × ℕ), p ∈ r.1.outbox →
      p ∈ (conns.foldl (sendTo env message id) r).1.outbox
  | [], _, hp => hp
  | c :: conns, r, hp => by
      refine outbox_subset_foldl_sendTo conns _ ?_
      unfold sendTo
      split_ifs
      · exact List.mem_append_left _ hp
      · exact hp

theorem mem_outbox_foldl_sendTo {env : Surroundings} {message : OutboundMessage} {id : Option Uuid}
    {h : ConnectionHandle} (ha : env.accepts h.id = true) :
    ∀ (conns : List ConnectionHandle) (r : Dispatcher × ℕ × ℕ), h ∈ conns →
      ⟨h, message⟩ ∈ (conns.foldl (sendTo env message id) r).1.outbox
  | c :: conns, r, hc => by
      rcases List.mem_cons.mp hc with rfl | hc
      · refine outbox_subset_foldl_sendTo conns _ ?_
        rw [sendTo, if_pos ha]
        exact List.mem_append_right _ List.mem_cons_self
      · exact mem_outbox_foldl_sendTo ha conns _ hc

/-- A connection that takes messages gets the event. -/
theorem mem_outbox_deliver {d : Dispatcher} {env : Surroundings} {kind : Kind}
    {conns : List ConnectionHandle} {event : NotificationEvent} {h : ConnectionHandle}
    (hc : h ∈ conns) (ha : env.accepts h.id = true) :
    ∃ p ∈ (d.deliver env kind conns event).2.outbox, p.conn = h ∧ p.message.event = some event := by
  unfold deliver record sendToConnections
  split_ifs
  · exact ⟨_, mem_outbox_foldl_sendTo ha conns (d, 0, 0) hc, rfl, rfl⟩
  · exact ⟨_, mem_outbox_foldl_sendTo ha _ (d, 0, 0) ((env.completion_perm conns).mem_iff.mpr hc),
      rfl, rfl⟩

theorem sendToUserForTenant_of_ne_nil {d : Dispatcher} {env : Surroundings} {event : NotificationEvent}
    (h : getUserConnectionsFiltered m u T ≠ []) :
    d.sendToUserForTenant env m u event T =
      d.deliver env .user (getUserConnectionsFiltered m u T) event := by
  have he : (getUserConnectionsFiltered m u T).isEmpty = false := by simpa using h
  simp [sendToUserForTenant, he]

/-- A manager with one connection. -/
theorem exists_reachable_online (i : Identity) :
    ∃ m h, ConnectionManager.Reachable .default m ∧ m.connections.lookup 1 = some h ∧ h.identity = i := by
  exact ⟨_, ConnectionHandle.new 1 i.userId i.tenantId [] 0,
    ConnectionManager.Reachable.empty.call (.register 1 i.userId i.tenantId [] 0) rfl, rfl, rfl⟩

/-- The direct path reaches an identity when the caller names its tenant or none. -/
theorem sendsDirectly_iff {i : Identity} : SendsDirectly T i ↔ ∀ t ∈ T, t = i.tenantId := by
  constructor
  · intro hs t ht
    obtain ⟨m, h, hm, hl, hi⟩ := exists_reachable_online i
    let event : NotificationEvent := ⟨0, 0, "", .null, ⟨"", .normal, none, none, none⟩⟩
    let env : Surroundings := ⟨0, fun _ => true, fun n => (n, 0), id, fun _ => List.Perm.refl _⟩
    obtain ⟨p, hp, hconn, -⟩ := hs .default m hm 1 h hl hi ⟨none, none, ⟨0, 0, 0, 0, 0, 0⟩, []⟩ env event
      rfl rfl rfl
    rcases dispatchForTenant_placed p hp with hp | ⟨hc, -⟩
    · exact absurd hp List.not_mem_nil
    · have htenant := ((mem_getUserConnectionsFiltered hm.indexed).mp hc).2 t ht
      rw [← htenant, hconn, ← hi]
      rfl
  · intro ht limits m hm id h hl hi d env event _ ha he
    have hmem : h ∈ getUserConnectionsFiltered m i.userId T := by
      refine (mem_getUserConnectionsFiltered hm.indexed).mpr ⟨⟨⟨id, hl⟩, ?_⟩, ?_⟩
      · rw [← hi]
        rfl
      · intro t htT
        rw [ht t htT, ← hi]
        rfl
    rw [dispatchForTenant, if_neg (by simp [he])]
    rw [sendToUserForTenant_of_ne_nil (List.ne_nil_of_mem hmem)]
    exact mem_outbox_deliver hmem ha

end direct

/-! ### The queued path -/

section queued
variable {m : ConnectionManager} {T : Option String} {u : String} {d : Dispatcher}
  {q : MemoryQueueBackend} {env : Surroundings} {event : NotificationEvent}

theorem queue_record (d : Dispatcher) (kind : Kind) (delivered failed : ℕ) :
    (d.record kind delivered failed).queue = d.queue := rfl

theorem queue_foldl_sendTo {message : OutboundMessage} {id : Option Uuid} :
    ∀ (conns : List ConnectionHandle) (r : Dispatcher × ℕ × ℕ),
      (conns.foldl (sendTo env message id) r).1.queue = r.1.queue
  | [], _ => rfl
  | c :: conns, r => by
      rw [List.foldl_cons, queue_foldl_sendTo conns]
      unfold sendTo
      split_ifs <;> rfl

theorem queue_deliver {kind : Kind} {conns : List ConnectionHandle} :
    (d.deliver env kind conns event).2.queue = d.queue := by
  unfold deliver sendToConnections
  split_ifs
  · exact queue_foldl_sendTo conns (d, 0, 0)
  · exact queue_foldl_sendTo _ (d, 0, 0)

/-- With no connection found the event is stored under the key of the caller's tenant. -/
theorem queue_of_offline (hq : d.queue = some q) (hen : q.config.enabled = true)
    (hoff : getUserConnectionsFiltered m u T = []) :
    (d.sendToUserForTenant env m u event T).2.queue =
      some (q.enqueue (tenantQueueKey T u)
        (StoredMessage.new (env.stamp 0).1 (env.stamp 0).2 event)).2 := by
  simp [sendToUserForTenant, hoff, enqueueFor, hq, MemoryQueueBackend.isEnabled, hen,
    MemoryQueueBackend.enqueue, queue_record]

/-- A message with a new identifier is found where it was stored and nowhere else. -/
theorem storedExactly_of_enqueue (msg : StoredMessage) {key key' : String} {d' : Dispatcher}
    (hen : q.config.enabled = true) (hfresh : ∀ k, ∀ x ∈ q.messages k, x.id ≠ msg.id)
    (hd : d'.queue = some (q.enqueue key msg).2) :
    StoredExactly d' msg.id msg.event key' ↔ key' = key := by
  have found : ∀ k, (∃ q', d'.queue = some q' ∧ ∃ x ∈ q'.messages k, x.id = msg.id ∧
      x.event = msg.event) ↔ k = key := by
    intro k
    constructor
    · rintro ⟨q', hq', x, hx, hid, -⟩
      obtain rfl : (q.enqueue key msg).2 = q' := Option.some.inj (hd.symm.trans hq')
      rw [MemoryQueueBackend.messages_enqueue hen] at hx
      split_ifs at hx with hk
      · exact hk
      · exact absurd hid (hfresh k x hx)
    · rintro rfl
      refine ⟨_, hd, msg, ?_, rfl, rfl⟩
      rw [MemoryQueueBackend.messages_enqueue hen, if_pos rfl]
      exact List.mem_append_right _ List.mem_cons_self
  constructor
  · intro hs
    exact (found key').mp ((hs key').mpr rfl)
  · rintro rfl
    exact found

theorem not_storedExactly_of_unchanged {id : Uuid} {key : String} {d' : Dispatcher}
    (hfresh : ∀ k, ∀ x ∈ q.messages k, x.id ≠ id) (hd : d'.queue = some q) :
    ¬ StoredExactly d' id event key := by
  intro hs
  obtain ⟨q', hq', x, hx, hid, -⟩ := (hs key).mpr rfl
  obtain rfl : q = q' := Option.some.inj (hd.symm.trans hq')
  exact hfresh key x hx hid

theorem key_eq_userId_iff {i : Identity} : i.key = i.userId ↔ i.tenantId = defaultTenantId := by
  constructor
  · intro h
    by_contra hne
    rw [key_of_ne_default hne] at h
    have hl := congrArg (fun s => s.toList.length) h
    simp at hl
    omega
  · exact key_of_default

end queued

/-! ### The two paths compared -/

/-- **The offline path agrees with the direct path exactly when the caller names a tenant, or
the identity is one of the default tenant and no connection of the user is registered.**  The
dispatch is made while the identity of the claims has no connection. -/
theorem stored_iff {limits : ConnectionLimits} {m : ConnectionManager}
    (hm : ConnectionManager.Reachable limits m) (claims : Claims) (hoff : ¬ m.Online claims.identity)
    {d : Dispatcher} {q : MemoryQueueBackend} (hq : d.queue = some q) (hen : q.config.enabled = true)
    {env : Surroundings} (hfresh : ∀ k, ∀ x ∈ q.messages k, x.id ≠ (env.stamp 0).1)
    {event : NotificationEvent} (he : event.isExpired env.now = false) (T : Option String) :
    (SendsDirectly T claims.identity →
        StoredExactly (d.dispatchForTenant env m (.user claims.sub) event T).2 (env.stamp 0).1 event
          (drainKey claims)) ↔
      (T ≠ none ∨ (claims.getTenantId = defaultTenantId ∧ m.getUserConnections claims.sub = [])) := by
  have hdispatch : d.dispatchForTenant env m (.user claims.sub) event T =
      d.sendToUserForTenant env m claims.sub event T := by
    rw [dispatchForTenant, if_neg (by simp [he])]
  let msg := StoredMessage.new (env.stamp 0).1 (env.stamp 0).2 event
  have hstored : getUserConnectionsFiltered m claims.sub T = [] →
      (StoredExactly (d.sendToUserForTenant env m claims.sub event T).2 (env.stamp 0).1 event
        (drainKey claims) ↔ drainKey claims = tenantQueueKey T claims.sub) := fun hnone =>
    storedExactly_of_enqueue msg hen hfresh (queue_of_offline hq hen hnone)
  rw [hdispatch, sendsDirectly_iff]
  cases T with
  | some t =>
      refine ⟨fun _ => .inl (by simp), fun _ ht => ?_⟩
      have htenant : t = claims.getTenantId := ht t rfl
      have hnone : getUserConnectionsFiltered m claims.sub (some t) = [] := by
        refine List.eq_nil_iff_forall_not_mem.mpr (fun h hh => hoff ?_)
        obtain ⟨⟨⟨id, hl⟩, hu⟩, hten⟩ := (mem_getUserConnectionsFiltered hm.indexed).mp hh
        refine ⟨id, h, hl, ?_⟩
        rw [ConnectionHandle.identity, hu, hten t rfl, htenant]
        rfl
      rw [hstored hnone, htenant]
      rfl
  | none =>
      simp only [Option.not_mem_none, false_implies, implies_true, true_implies, ne_eq, not_true_eq_false,
        false_or]
      by_cases hnone : m.getUserConnections claims.sub = []
      · rw [hstored hnone, and_iff_left hnone]
        exact key_eq_userId_iff (i := claims.identity)
      · refine ⟨fun hs => ?_, fun hc => absurd hc.2 hnone⟩
        rw [sendToUserForTenant_of_ne_nil (T := none) hnone] at hs
        exact absurd hs (not_storedExactly_of_unchanged hfresh (queue_deliver.trans hq))

/-! ### A lost notification -/

section examples

/-- The event of the examples. -/
def orderCreated : NotificationEvent := ⟨7, 0, "order.created", .null, ⟨"redis:orders", .normal, none, none, none⟩⟩

/-- Surroundings at time zero in which every connection takes messages. -/
def quiet : Surroundings := ⟨0, fun _ => true, fun n => (n, 0), id, fun _ => List.Perm.refl _⟩

/-- A dispatcher with an empty, enabled queue. -/
def emptyQueue : Dispatcher :=
  ⟨some (.new { QueueConfig.default with enabled := true }), none, ⟨0, 0, 0, 0, 0, 0⟩, []⟩

/-- A user of tenant `acme` is offline and the caller names the tenant: the event is stored for
the user's next connection. -/
theorem stored_for_acme :
    StoredExactly (emptyQueue.dispatchForTenant quiet (.withLimits .default) (.user "bob") orderCreated
      (some "acme")).2 0 orderCreated (drainKey ⟨"bob", [], some "acme"⟩) := by
  have hoff : ¬ (ConnectionManager.withLimits .default).Online
      (Claims.identity ⟨"bob", [], some "acme"⟩) := by
    rintro ⟨id, h, hl, -⟩
    simp [ConnectionManager.withLimits] at hl
  have hfresh : ∀ k, ∀ x ∈ (MemoryQueueBackend.new { QueueConfig.default with enabled := true }).messages k,
      x.id ≠ (quiet.stamp 0).1 := by
    intro k x hx
    rw [MemoryQueueBackend.messages_new] at hx
    exact absurd hx List.not_mem_nil
  have hlive : orderCreated.isExpired quiet.now = false := rfl
  have h := (stored_iff (.empty : ConnectionManager.Reachable .default _) ⟨"bob", [], some "acme"⟩ hoff
    (d := emptyQueue) rfl rfl hfresh hlive (some "acme")).mpr (.inl (by simp))
  exact h (sendsDirectly_iff.mpr (fun t ht => (Option.some.inj ht).symm))

/-- Without a tenant the dispatch reaches an online connection of tenant `acme` directly, but
for the offline user the event goes under a key that the user never drains. -/
theorem lost_without_tenant :
    ¬ ∀ (limits : ConnectionLimits) (m : ConnectionManager), ConnectionManager.Reachable limits m →
        ∀ claims : Claims, ¬ m.Online claims.identity →
        ∀ (d : Dispatcher) (q : MemoryQueueBackend), d.queue = some q → q.config.enabled = true →
        ∀ env : Surroundings, (∀ k, ∀ x ∈ q.messages k, x.id ≠ (env.stamp 0).1) →
        ∀ event : NotificationEvent, event.isExpired env.now = false →
        ∀ T : Option String, SendsDirectly T claims.identity →
          StoredExactly (d.dispatchForTenant env m (.user claims.sub) event T).2 (env.stamp 0).1 event
            (drainKey claims) := by
  intro hall
  have hs := hall .default (.withLimits .default) .empty ⟨"bob", [], some "acme"⟩
    (by rintro ⟨id, h, hl, -⟩; simp [ConnectionManager.withLimits] at hl) emptyQueue _ rfl rfl quiet
    (fun k x hx => absurd hx List.not_mem_nil) orderCreated rfl none
    (sendsDirectly_iff.mpr (fun t ht => absurd ht (by simp)))
  obtain ⟨q, hq, x, hx, -⟩ := (hs "acme:bob").mpr (by decide)
  obtain rfl := Option.some.inj hq
  exact absurd hx List.not_mem_nil

end examples

end AraNotification
