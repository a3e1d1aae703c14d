import AraNotification.Lib.Runs
import AraNotification.OfflineDelivery

/-! # The recipients of a dispatch

`intended` says for which connections a notification is meant, in terms of what is known of a
connection: its user, its tenant and its subscriptions.  The dispatcher finds them through
four different lookups, collects the users of a list in batches and the subscribers of
several channels in a set, and sends in one of two ways.

`Sent` describes the effect of any of these on the outbound channels, and composes.
`Enumerates` says that a list has the connections with a property, each once; every lookup
enumerates what it stands for when the indices are right.  Two enumerations of one property
differ only in order, so that a dispatch puts its event once on every intended connection
that takes it and on no other, and counts both kinds (`delivered_exactly`). -/

namespace AraNotification

open Dispatcher

/-! ### The specification -/

/-- The connection belongs to the tenant, if one is given. -/
def ofTenant (tenantId : Option String) (h : ConnectionHandle) : Bool :=
  match tenantId with
  | some t => decide (h.tenantId = t)
  | none => true

/-- A notification for the target is meant for the connection. -/
def intended (tenantId : Option String) (target : NotificationTarget) (h : ConnectionHandle) : Bool :=
  match target with
  | .user userId => decide (h.userId = userId) && ofTenant tenantId h
  | .users userIds => decide (h.userId ∈ userIds) && ofTenant tenantId h
  | .broadcast => ofTenant tenantId h
  | .channel channel => decide (channel ∈ h.subscriptions)
  | .channels channels => channels.any (fun channel => decide (channel ∈ h.subscriptions))

/-- The registered connections for which a notification is meant. -/
def intendedConnections (m : ConnectionManager) (tenantId : Option String) (target : NotificationTarget) :
    List ConnectionHandle :=
  m.connections.values.filter (intended tenantId target)

/-- The event was put once on each connection that takes it, and the connections of both kinds are
counted. -/
structure Sent (env : Surroundings) (event : NotificationEvent) (conns : List ConnectionHandle)
    (d d' : Dispatcher) (delivered failed : ℕ) : Prop where
  placed : ∃ new, d'.outbox = d.outbox ++ new ∧
    (new.map (·.conn)).Perm (conns.filter (fun c => env.accepts c.id)) ∧
    ∀ p ∈ new, p.message.event = some event
  delivered_eq : delivered = (conns.filter (fun c => env.accepts c.id)).length
  failed_eq : failed = (conns.filter (fun c => !env.accepts c.id)).length

/-! ### Sending -/

section sending
variable {env : Surroundings} {event : NotificationEvent} {conns conns' : List ConnectionHandle}
  {d d' d₁ d₂ : Dispatcher} {a b a' b' : ℕ} {m : ConnectionManager} {T : Option String}

theorem Sent.nil : Sent env event [] d d 0 0 where
  placed := ⟨[], by simp, by simp, by simp⟩
  delivered_eq := rfl
  failed_eq := rfl

theorem Sent.append (h₁ : Sent env event conns d d₁ a b) (h₂ : Sent env event conns' d₁ d₂ a' b') :
    Sent env event (conns ++ conns') d d₂ (a + a') (b + b') := by
  obtain ⟨⟨new₁, ho₁, hp₁, he₁⟩, rfl, rfl⟩ := h₁
  obtain ⟨⟨new₂, ho₂, hp₂, he₂⟩, rfl, rfl⟩ := h₂
  refine ⟨⟨new₁ ++ new₂, ?_, ?_, fun p hp => ?_⟩, ?_, ?_⟩
  · rw [ho₂, ho₁, List.append_assoc]
  · rw [List.map_append, List.filter_append]
    exact hp₁.append hp₂
  · exact (List.mem_append.mp hp).elim (he₁ p) (he₂ p)
  · rw [List.filter_append, List.length_append]
  · rw [List.filter_append, List.length_append]

theorem Sent.perm (h : Sent env event conns d d₁ a b) (hp : conns.Perm conns') :
    Sent env event conns' d d₁ a b := by
  obtain ⟨⟨new, ho, hnew, he⟩, rfl, rfl⟩ := h
  exact ⟨⟨new, ho, hnew.trans (hp.filter _), he⟩, (hp.filter _).length_eq, (hp.filter _).length_eq⟩

/-- What is not on the outbound channels does not matter. -/
theorem Sent.congr (h : Sent env event conns d d₁ a b) (ho : d'.outbox = d.outbox)
    (ho₁ : d₂.outbox = d₁.outbox) : Sent env event conns d' d₂ a b := by
  obtain ⟨⟨new, hnew, hp, he⟩, ha, hb⟩ := h
  refine ⟨⟨new, ?_, hp, he⟩, ha, hb⟩
  rw [ho, ho₁, hnew]

theorem sent_sendTo {message : OutboundMessage} (id : Option Uuid) (hm : message.event = some event)
    (r : Dispatcher × ℕ × ℕ) (c : ConnectionHandle) :
    ∃ x y, sendTo env message id r c = ((sendTo env message id r c).1, r.2.1 + x, r.2.2 + y) ∧
      Sent env event [c] r.1 (sendTo env message id r c).1 x y := by
  unfold sendTo
  split_ifs with ha
  · refine ⟨1, 0, rfl, ⟨⟨[⟨c, message⟩], rfl, ?_, ?_⟩, ?_, ?_⟩⟩
    · simp [ha]
    · simp [hm]
    · simp [ha]
    · simp [ha]
  · refine ⟨0, 1, rfl, ⟨⟨[], ?_, ?_, ?_⟩, ?_, ?_⟩⟩
    · simp
    · simp [ha]
    · simp
    · simp [ha]
    · simp [ha]

theorem sent_foldl {message : OutboundMessage} (id : Option Uuid) (hm : message.event = some event)
    (conns : List ConnectionHandle) (r : Dispatcher × ℕ × ℕ) :
    ∃ x y, (conns.foldl (sendTo env message id) r).2 = (r.2.1 + x, r.2.2 + y) ∧
      Sent env event conns r.1 (conns.foldl (sendTo env message id) r).1 x y := by
  induction conns generalizing r with
  | nil => exact ⟨0, 0, rfl, .nil⟩
  | cons c conns ih =>
      obtain ⟨x, y, heq, hone⟩ := sent_sendTo id hm r c
      obtain ⟨x', y', hcount, hrest⟩ := ih (sendTo env message id r c)
      refine ⟨x + x', y + y', ?_, hone.append hrest⟩
      rw [List.foldl_cons, hcount, heq]
      simp only [Nat.add_assoc]

theorem sent_sendToConnections {id : Option Uuid} :
    Sent env event conns d (d.sendToConnections env conns (.notification event) id).1
      (d.sendToConnections env conns (.notification event) id).2.1
      (d.sendToConnections env conns (.notification event) id).2.2 := by
  have hfold : ∀ (message : OutboundMessage) (todo : List ConnectionHandle), message.event = some event →
      Sent env event todo d (todo.foldl (sendTo env message id) (d, 0, 0)).1
        (todo.foldl (sendTo env message id) (d, 0, 0)).2.1
        (todo.foldl (sendTo env message id) (d, 0, 0)).2.2 := by
    intro message todo hm
    obtain ⟨x, y, hcount, hsent⟩ := sent_foldl id hm todo (d, 0, 0)
    rw [hcount]
    simpa using hsent
  unfold sendToConnections
  split_ifs
  · exact hfold _ conns rfl
  · exact (hfold _ (env.completion conns) rfl).perm (env.completion_perm conns)

theorem sent_deliver {kind : Kind} :
    Sent env event conns d (d.deliver env kind conns event).2 (d.deliver env kind conns event).1.deliveredTo
      (d.deliver env kind conns event).1.failed :=
  sent_sendToConnections.congr rfl rfl

theorem sent_sendToUserForTenant {userId : String} :
    Sent env event (getUserConnectionsFiltered m userId T) d (d.sendToUserForTenant env m userId event T).2
      (d.sendToUserForTenant env m userId event T).1.deliveredTo
      (d.sendToUserForTenant env m userId event T).1.failed := by
  by_cases hempty : getUserConnectionsFiltered m userId T = []
  · rw [sendToUserForTenant, hempty]
    simp only [List.isEmpty_nil, if_true]
    split_ifs
    · exact Sent.nil.congr rfl outbox_enqueueFor
    · exact sent_deliver.congr outbox_enqueueFor.symm rfl
  · rw [sendToUserForTenant_of_ne_nil hempty]
    exact sent_deliver

/-! ### Sending to a list of users -/

theorem fst_collectUsers (batch : List String) : (collectUsers m T batch).1 =
    batch.flatMap (fun userId => getUserConnectionsFiltered m userId T) := by
  have hgen : ∀ (batch : List String) (acc : List ConnectionHandle × List String),
      (batch.foldl (fun acc userId =>
        let connections := getUserConnectionsFiltered m userId T
        if connections.isEmpty then (acc.1, acc.2 ++ [userId])
        else (acc.1 ++ connections, acc.2)) acc).1 =
      acc.1 ++ batch.flatMap (fun userId => getUserConnectionsFiltered m userId T) := by
    intro batch
    induction batch with
    | nil => intro acc; simp
    | cons u batch ih =>
        intro acc
        rw [List.foldl_cons, ih, List.flatMap_cons]
        dsimp only
        split_ifs with hempty
        · rw [List.isEmpty_iff.mp hempty, List.nil_append]
        · rw [List.append_assoc]
  exact hgen batch ([], [])

theorem flatten_chunks {α : Type} {n : ℕ} (hn : 0 < n) (l : List α) : (chunks n l).flatten = l := by
  have hgen : ∀ k, ((List.range k).map (fun i => (l.drop (i * n)).take n)).flatten = l.take (k * n) := by
    intro k
    induction k with
    | zero => simp
    | succ k ih =>
        rw [List.range_succ, List.map_append, List.flatten_append, ih, Nat.succ_mul, List.take_add]
        simp
  rw [chunks, hgen]
  refine List.take_of_length_le ?_
  have hdiv := Nat.div_add_mod (l.length + n - 1) n
  have hmod := Nat.mod_lt (l.length + n - 1) hn
  rw [Nat.mul_comm]
  omega

theorem sent_sendBatch (env : Surroundings) (m : ConnectionManager) (event : NotificationEvent)
    (T : Option String) (r : Totals × Dispatcher) (batch : List String) :
    ∃ x y, (sendBatch env m event T r batch).1.delivered = r.1.delivered + x ∧
      (sendBatch env m event T r batch).1.failed = r.1.failed + y ∧
      Sent env event (batch.flatMap (fun userId => getUserConnectionsFiltered m userId T)) r.2
        (sendBatch env m event T r batch).2 x y := by
  refine ⟨_, _, rfl, rfl, ?_⟩
  rw [← fst_collectUsers]
  exact sent_sendToConnections.congr outbox_enqueueAll.symm rfl

theorem sent_foldl_sendBatch (env : Surroundings) (m : ConnectionManager) (event : NotificationEvent)
    (T : Option String) (parts : List (List String)) (r : Totals × Dispatcher) :
    ∃ x y, (parts.foldl (sendBatch env m event T) r).1.delivered = r.1.delivered + x ∧
      (parts.foldl (sendBatch env m event T) r).1.failed = r.1.failed + y ∧
      Sent env event (parts.flatten.flatMap (fun userId => getUserConnectionsFiltered m userId T)) r.2
        (parts.foldl (sendBatch env m event T) r).2 x y := by
  induction parts generalizing r with
  | nil => exact ⟨0, 0, rfl, rfl, .nil⟩
  | cons part parts ih =>
      obtain ⟨x, y, hx, hy, hpart⟩ := sent_sendBatch env m event T r part
      obtain ⟨x', y', hx', hy', hrest⟩ := ih (sendBatch env m event T r part)
      refine ⟨x + x', y + y', ?_, ?_, ?_⟩
      · rw [List.foldl_cons, hx', hx, Nat.add_assoc]
      · rw [List.foldl_cons, hy', hy, Nat.add_assoc]
      · rw [List.flatten_cons, List.flatMap_append]
        exact hpart.append hrest

theorem sent_sendToUsersForTenant {userIds : List String} :
    Sent env event (userIds.flatMap (fun userId => getUserConnectionsFiltered m userId T)) d
      (d.sendToUsersForTenant env m userIds event T).2
      (d.sendToUsersForTenant env m userIds event T).1.deliveredTo
      (d.sendToUsersForTenant env m userIds event T).1.failed := by
  obtain ⟨x, y, hx, hy, hsent⟩ :=
    sent_foldl_sendBatch env m event T (chunks userBatchSize userIds) (⟨0, 0, 0⟩, d)
  rw [flatten_chunks (by decide), ← (Nat.zero_add x), ← (Nat.zero_add y), ← hx, ← hy] at hsent
  exact hsent.congr rfl rfl

end sending

/-! ### Lookups -/

namespace ConnectionManager
variable {m : ConnectionManager} {p q : ConnectionHandle → Prop} {conns conns' : List ConnectionHandle}

/-- The list has every registered connection with the property, once, and no other. -/
structure Enumerates (m : ConnectionManager) (p : ConnectionHandle → Prop)
    (conns : List ConnectionHandle) : Prop where
  nodup : (conns.map (·.id)).Nodup
  mem_iff : ∀ h, h ∈ conns ↔ m.connections.lookup h.id = some h ∧ p h

theorem Enumerates.congr (h : m.Enumerates p conns) (hpq : ∀ c, p c ↔ q c) : m.Enumerates q conns where
  nodup := h.nodup
  mem_iff c := by rw [h.mem_iff, hpq]

theorem Enumerates.perm (h : m.Enumerates p conns) (h' : m.Enumerates p conns') : conns.Perm conns' := by
  rw [List.perm_ext_iff_of_nodup h.nodup.of_map h'.nodup.of_map]
  intro c
  rw [h.mem_iff, h'.mem_iff]

theorem Enumerates.nil : m.Enumerates (fun _ => False) [] where
  nodup := List.nodup_nil
  mem_iff c := by simp

theorem Enumerates.filter (h : m.Enumerates p conns) (f : ConnectionHandle → Bool) :
    m.Enumerates (fun c => p c ∧ f c = true) (conns.filter f) where
  nodup := h.nodup.sublist (List.filter_sublist.map _)
  mem_iff c := by rw [List.mem_filter, h.mem_iff, and_assoc]

/-- Two handles with one identifier are one handle, so disjoint lists have disjoint identifiers. -/
theorem Enumerates.append (h : m.Enumerates p conns) (h' : m.Enumerates q conns')
    (hpq : ∀ c, p c → ¬ q c) : m.Enumerates (fun c => p c ∨ q c) (conns ++ conns') where
  nodup := by
    rw [List.map_append, List.nodup_append]
    refine ⟨h.nodup, h'.nodup, ?_⟩
    intro i hi j hj hij
    obtain ⟨c, hc, rfl⟩ := List.mem_map.mp hi
    obtain ⟨c', hc', rfl⟩ := List.mem_map.mp hj
    obtain ⟨hl, hp⟩ := (h.mem_iff c).mp hc
    obtain ⟨hl', hq⟩ := (h'.mem_iff c').mp hc'
    rw [hij] at hl
    obtain rfl : c = c' := Option.some.inj (hl.symm.trans hl')
    exact hpq c hp hq
  mem_iff c := by rw [List.mem_append, h.mem_iff, h'.mem_iff, and_or_left]

/-- A handle whose identifier has been seen is there already. -/
theorem addUnseen_cons {acc todo : List ConnectionHandle} {e : ConnectionHandle}
    (hacc : ∀ c ∈ acc, m.connections.lookup c.id = some c) (he : m.connections.lookup e.id = some e) :
    addUnseen acc (e :: todo) = addUnseen (if e ∈ acc then acc else acc ++ [e]) todo := by
  have hany : acc.any (fun c => c.id == e.id) = decide (e ∈ acc) := by
    rw [Bool.eq_iff_iff, List.any_eq_true, decide_eq_true_iff]
    constructor
    · rintro ⟨c, hc, hid⟩
      have hl := hacc c hc
      rw [eq_of_beq hid] at hl
      exact Option.some.inj (hl.symm.trans he) ▸ hc
    · exact fun hmem => ⟨e, hmem, beq_self_eq_true _⟩
  simp only [addUnseen, List.foldl_cons, hany, decide_eq_true_eq]

theorem addUnseen_spec (todo : List ConnectionHandle) {acc : List ConnectionHandle}
    (hn : (acc.map (·.id)).Nodup) (hacc : ∀ c ∈ acc, m.connections.lookup c.id = some c)
    (htodo : ∀ c ∈ todo, m.connections.lookup c.id = some c) :
    ((addUnseen acc todo).map (·.id)).Nodup ∧ ∀ c, c ∈ addUnseen acc todo ↔ c ∈ acc ∨ c ∈ todo := by
  induction todo generalizing acc with
  | nil => exact ⟨hn, fun c => by simp [addUnseen]⟩
  | cons e todo ih =>
      have he : m.connections.lookup e.id = some e := htodo e List.mem_cons_self
      have htail : ∀ c ∈ todo, m.connections.lookup c.id = some c :=
        fun c hc => htodo c (List.mem_cons_of_mem e hc)
      rw [addUnseen_cons hacc he]
      split_ifs with hmem
      · obtain ⟨hnodup, hiff⟩ := ih hn hacc htail
        refine ⟨hnodup, fun c => ?_⟩
        rw [hiff, List.mem_cons, ← or_assoc, or_iff_left_of_imp (b := c = e)]
        rintro rfl
        exact hmem
      · have hfresh : ∀ c ∈ acc, c.id ≠ e.id := by
          intro c hc hid
          have hl := hacc c hc
          rw [hid] at hl
          exact hmem (Option.some.inj (hl.symm.trans he) ▸ hc)
        have hn' : ((acc ++ [e]).map (·.id)).Nodup := by
          rw [List.map_append, List.map_singleton, List.nodup_append]
          refine ⟨hn, List.nodup_singleton _, ?_⟩
          intro i hi j hj
          obtain ⟨c, hc, rfl⟩ := List.mem_map.mp hi
          rw [List.mem_singleton.mp hj]
          exact hfresh c hc
        have hacc' : ∀ c ∈ acc ++ [e], m.connections.lookup c.id = some c := by
          intro c hc
          rcases List.mem_append.mp hc with hc | hc
          · exact hacc c hc
          · rw [List.mem_singleton.mp hc]
            exact he
        obtain ⟨hnodup, hiff⟩ := ih hn' hacc' htail
        refine ⟨hnodup, fun c => ?_⟩
        rw [hiff, List.mem_append, List.mem_singleton, List.mem_cons, or_assoc]

theorem Enumerates.addUnseen (h : m.Enumerates p conns) (h' : m.Enumerates q conns') :
    m.Enumerates (fun c => p c ∨ q c) (addUnseen conns conns') := by
  obtain ⟨hnodup, hmem⟩ := addUnseen_spec conns' h.nodup (fun c hc => ((h.mem_iff c).mp hc).1)
    (fun c hc => ((h'.mem_iff c).mp hc).1)
  refine ⟨hnodup, fun c => ?_⟩
  rw [hmem, h.mem_iff, h'.mem_iff, and_or_left]

/-- The registered handles of an index entry are the connections that the index files there. -/
theorem enumerates_handles (hm : m.Indexed) {x : InvertedIndex String Uuid}
    {P : String → ConnectionHandle → Prop} (hx : x.Files (fun k id => m.connections.Sat (P k) id))
    (k : String) : m.Enumerates (P k) (m.handles (x.ids k)) where
  nodup := by
    have hids : (m.handles (x.ids k)).map (·.id) =
        (x.ids k).filter (fun id => (m.connections.lookup id).isSome) := by
      unfold handles
      induction x.ids k with
      | nil => rfl
      | cons id ids ih =>
          rw [List.filterMap_cons, List.filter_cons]
          cases hl : m.connections.lookup id with
          | none => simpa using ih
          | some h => simp [ih, (hm.keyed id h hl).1]
    rw [hids]
    exact (hx.nodup k).filter _
  mem_iff h := by
    unfold handles
    rw [List.mem_filterMap]
    constructor
    · rintro ⟨id, hid, hl⟩
      obtain ⟨h', hl', hp⟩ := (hx.mem_iff k id).mp hid
      obtain rfl : h' = h := Option.some.inj (hl'.symm.trans hl)
      rw [(hm.keyed id h' hl).1]
      exact ⟨hl, hp⟩
    · rintro ⟨hl, hp⟩
      exact ⟨h.id, (hx.mem_iff k h.id).mpr ⟨h, hl, hp⟩, hl⟩

theorem enumerates_getAllConnections (hm : m.Indexed) : m.Enumerates (fun _ => True) m.getAllConnections where
  nodup := by
    have hids : m.getAllConnections.map (·.id) = m.connections.keys := by
      unfold getAllConnections DashMap.values AList.keys List.keys
      rw [List.map_map]
      refine List.map_congr_left ?_
      rintro ⟨id, h⟩ he
      exact (hm.keyed id h (AList.mem_lookup_iff.mpr he)).1
    rw [hids]
    exact m.connections.keys_nodup
  mem_iff h := by
    rw [getAllConnections, DashMap.mem_values, and_true]
    constructor
    · rintro ⟨id, hl⟩
      rw [(hm.keyed id h hl).1]
      exact hl
    · exact fun hl => ⟨_, hl⟩

end ConnectionManager

section lookups
variable {m : ConnectionManager} (hm : m.Indexed) (T : Option String)
include hm

theorem enumerates_getUserConnectionsFiltered (u : String) :
    m.Enumerates (fun c => c.userId = u ∧ ofTenant T c = true) (getUserConnectionsFiltered m u T) := by
  have huser : m.Enumerates (fun c => c.userId = u) (m.getUserConnections u) :=
    ConnectionManager.enumerates_handles hm hm.user u
  cases T with
  | none => exact huser.congr (fun c => by simp [ofTenant])
  | some t => exact huser.filter _

theorem enumerates_getBroadcastConnections :
    m.Enumerates (fun c => ofTenant T c = true) (getBroadcastConnections m T) := by
  cases T with
  | none => exact (ConnectionManager.enumerates_getAllConnections hm).congr (fun c => by simp [ofTenant])
  | some t =>
      have htenant : m.Enumerates (fun c => c.tenantId = t) (m.getTenantConnections t) :=
        ConnectionManager.enumerates_handles hm hm.tenant t
      exact htenant.congr (fun c => by simp [ofTenant])

theorem enumerates_getChannelConnections (channel : String) :
    m.Enumerates (fun c => channel ∈ c.subscriptions) (m.getChannelConnections channel) :=
  ConnectionManager.enumerates_handles hm hm.channel channel

/-- Distinct users have distinct connections. -/
theorem enumerates_flatMap {us : List String} (hus : us.Nodup) :
    m.Enumerates (fun c => c.userId ∈ us ∧ ofTenant T c = true)
      (us.flatMap (fun u => getUserConnectionsFiltered m u T)) := by
  induction us with
  | nil => exact ConnectionManager.Enumerates.nil.congr (fun c => by simp)
  | cons u us ih =>
      obtain ⟨hu, hus⟩ := List.nodup_cons.mp hus
      rw [List.flatMap_cons]
      refine ((enumerates_getUserConnectionsFiltered hm T u).append (ih hus) ?_).congr ?_
      · rintro c ⟨rfl, -⟩ ⟨hc, -⟩
        exact hu hc
      · intro c
        rw [List.mem_cons, or_and_right]

theorem enumerates_collectChannels (channels : List String) :
    m.Enumerates (fun c => ∃ channel ∈ channels, channel ∈ c.subscriptions) (collectChannels m channels) := by
  have hgen : ∀ (channels : List String) (all : List ConnectionHandle) (p : ConnectionHandle → Prop),
      m.Enumerates p all → m.Enumerates (fun c => p c ∨ ∃ channel ∈ channels, channel ∈ c.subscriptions)
        (channels.foldl (fun all channel => addUnseen all (m.getChannelConnections channel)) all) := by
    intro channels
    induction channels with
    | nil => exact fun all p hp => hp.congr (fun c => by simp)
    | cons channel channels ih =>
        intro all p hp
        refine (ih _ _ (hp.addUnseen (enumerates_getChannelConnections hm channel))).congr ?_
        intro c
        rw [List.exists_mem_cons_iff, or_assoc]
  exact (hgen channels [] _ ConnectionManager.Enumerates.nil).congr (fun c => by simp)

theorem enumerates_intendedConnections (target : NotificationTarget) :
    m.Enumerates (fun c => intended T target c = true) (intendedConnections m T target) :=
  ((ConnectionManager.enumerates_getAllConnections hm).filter _).congr (fun c => by simp)

/-- A dispatch of an unexpired event sends it to the intended connections. -/
theorem sent_dispatchForTenant {d : Dispatcher} {env : Surroundings} {event : NotificationEvent}
    {target : NotificationTarget} (he : event.isExpired env.now = false)
    (hdup : ∀ us, target = .users us → us.Nodup) :
    Sent env event (intendedConnections m T target) d (d.dispatchForTenant env m target event T).2
      (d.dispatchForTenant env m target event T).1.deliveredTo
      (d.dispatchForTenant env m target event T).1.failed := by
  have hfound := enumerates_intendedConnections hm T target
  unfold dispatchForTenant
  rw [if_neg (by simp [he])]
  cases target with
  | user u =>
      have hlookup := (enumerates_getUserConnectionsFiltered hm T u).congr
        (q := fun c => intended T (.user u) c = true) (fun c => by simp [intended])
      exact sent_sendToUserForTenant.perm (hlookup.perm hfound)
  | users us =>
      have hlookup := (enumerates_flatMap hm T (hdup us rfl)).congr
        (q := fun c => intended T (.users us) c = true) (fun c => by simp [intended])
      exact sent_sendToUsersForTenant.perm (hlookup.perm hfound)
  | broadcast => exact sent_deliver.perm ((enumerates_getBroadcastConnections hm T).perm hfound)
  | channel channel =>
      have hlookup := (enumerates_getChannelConnections hm channel).congr
        (q := fun c => intended T (.channel channel) c = true) (fun c => by simp [intended])
      exact sent_deliver.perm (hlookup.perm hfound)
  | channels channels =>
      have hlookup := (enumerates_collectChannels hm channels).congr
        (q := fun c => intended T (.channels channels) c = true) (fun c => by simp [intended])
      exact sent_deliver.perm (hlookup.perm hfound)

end lookups

/-! ### Statistics -/

section statistics
variable {env : Surroundings} {event : NotificationEvent} {d : Dispatcher} {m : ConnectionManager}
  {T : Option String}

theorem stats_foldl_sendTo {message : OutboundMessage} {id : Option Uuid} (conns : List ConnectionHandle)
    (r : Dispatcher × ℕ × ℕ) : (conns.foldl (sendTo env message id) r).1.stats = r.1.stats := by
  induction conns generalizing r with
  | nil => rfl
  | cons c conns ih =>
      rw [List.foldl_cons, ih]
      unfold sendTo
      split_ifs <;> rfl

theorem stats_sendToConnections {conns : List ConnectionHandle} {message : ServerMessage} {id : Option Uuid} :
    (d.sendToConnections env conns message id).1.stats = d.stats := by
  unfold sendToConnections
  split_ifs
  · exact stats_foldl_sendTo conns (d, 0, 0)
  · exact stats_foldl_sendTo (env.completion conns) (d, 0, 0)

theorem stats_enqueueFor {userId : String} {n : ℕ} :
    (d.enqueueFor env T userId event n).2.stats = d.stats := by
  unfold enqueueFor
  split
  · split_ifs
    · split <;> rfl
    · rfl
  · rfl

theorem stats_enqueueAll {users : List String} {n : ℕ} :
    (d.enqueueAll env T event users n).2.stats = d.stats := by
  unfold enqueueAll
  induction users generalizing d n with
  | nil => rfl
  | cons u users ih => exact ih.trans stats_enqueueFor

theorem stats_foldl_sendBatch (parts : List (List String)) (r : Totals × Dispatcher) :
    (parts.foldl (sendBatch env m event T) r).2.stats = r.2.stats := by
  induction parts generalizing r with
  | nil => rfl
  | cons part parts ih => exact (ih _).trans (stats_sendToConnections.trans stats_enqueueAll)

theorem stats_record {d d' : Dispatcher} (h : d'.stats = d.stats) (kind : Kind) (delivered failed : ℕ) :
    (d'.record kind delivered failed).stats = (d.record kind delivered failed).stats := by
  unfold record
  rw [h]

/-- A dispatch of an unexpired event counts one notification of one kind and what the result says. -/
theorem stats_dispatchForTenant (target : NotificationTarget) (he : event.isExpired env.now = false) :
    ∃ kind, (d.dispatchForTenant env m target event T).2.stats =
      (d.record kind (d.dispatchForTenant env m target event T).1.deliveredTo
        (d.dispatchForTenant env m target event T).1.failed).stats := by
  unfold dispatchForTenant
  rw [if_neg (by simp [he])]
  have hdeliver : ∀ (d' : Dispatcher) kind conns, d'.stats = d.stats →
      (d'.deliver env kind conns event).2.stats = (d.record kind (d'.deliver env kind conns event).1.deliveredTo
        (d'.deliver env kind conns event).1.failed).stats :=
    fun d' kind conns h => stats_record (stats_sendToConnections.trans h) kind _ _
  cases target with
  | user u =>
      refine ⟨.user, ?_⟩
      by_cases hempty : getUserConnectionsFiltered m u T = []
      · simp only [sendToUserForTenant, hempty, List.isEmpty_nil, if_true]
        split_ifs
        · exact stats_record stats_enqueueFor _ _ _
        · exact hdeliver _ _ _ stats_enqueueFor
      · simp only [sendToUserForTenant_of_ne_nil hempty]
        exact hdeliver d _ _ rfl
  | users us => exact ⟨.user, stats_record (stats_foldl_sendBatch _ (⟨0, 0, 0⟩, d)) _ _ _⟩
  | broadcast => exact ⟨.broadcast, hdeliver d _ _ rfl⟩
  | channel channel => exact ⟨.channel, hdeliver d _ _ rfl⟩
  | channels channels => exact ⟨.channel, hdeliver d _ _ rfl⟩

end statistics

/-! ### Runs of the dispatcher -/

/-- One dispatch of a run: the state of the manager that it meets, its surroundings and its
arguments. -/
structure DispatchRequest where
  manager : ConnectionManager
  env : Surroundings
  target : NotificationTarget
  event : NotificationEvent
  tenantId : Option String

/-- The event of the call has not expired. -/
def DispatchRequest.live (c : DispatchRequest) : Bool := !c.event.isExpired c.env.now

/-- Execution of one dispatch. -/
def Dispatcher.perform (d : Dispatcher) (c : DispatchRequest) : DeliveryResult × Dispatcher :=
  d.dispatchForTenant c.env c.manager c.target c.event c.tenantId

/-- The statistics are those of `n` notifications, delivered and failed so often in all. -/
structure Counted (stats : DispatcherStats) (n delivered failed : ℕ) : Prop where
  totalSent : stats.totalSent = n
  kinds : stats.userNotifications + stats.broadcastNotifications + stats.channelNotifications = n
  totalDelivered : stats.totalDelivered = delivered
  totalFailed : stats.totalFailed = failed

theorem counted_record {d : Dispatcher} {n a b : ℕ} (h : Counted d.stats n a b) (kind : Kind) (x y : ℕ) :
    Counted (d.record kind x y).stats (n + 1) (a + x) (b + y) := by
  obtain ⟨hs, hk, hd, hf⟩ := h
  refine ⟨?_, ?_, ?_, ?_⟩
  · simp [record, hs]
  · cases kind <;> simp only [record] <;> omega
  · simp [record, hd]
  · simp [record, hf]

theorem counted_perform {d : Dispatcher} {n a b : ℕ} (h : Counted d.stats n a b) (c : DispatchRequest) :
    Counted (d.perform c).2.stats (n + if c.live then 1 else 0) (a + (d.perform c).1.deliveredTo)
      (b + (d.perform c).1.failed) := by
  unfold DispatchRequest.live
  cases he : c.event.isExpired c.env.now with
  | true =>
      have hskip : d.perform c = (.new c.event.id 0 0, d) := by
        rw [perform, dispatchForTenant.eq_def, if_pos he]
      rw [hskip]
      exact h
  | false =>
      obtain ⟨kind, hstats⟩ := stats_dispatchForTenant (d := d) (m := c.manager) (T := c.tenantId) c.target he
      unfold perform
      rw [hstats]
      exact counted_record h kind _ _

theorem counted_final (calls : List DispatchRequest) {d : Dispatcher} {n a b : ℕ} (h : Counted d.stats n a b) :
    Counted (Runs.final perform d calls).stats (n + (calls.filter (·.live)).length)
      (a + ((Runs.outputs perform d calls).map (·.deliveredTo)).sum)
      (b + ((Runs.outputs perform d calls).map (·.failed)).sum) := by
  induction calls generalizing d n a b with
  | nil => exact h
  | cons c calls ih =>
      have hrest := ih (counted_perform h c)
      have hlen : n + ((c :: calls).filter (·.live)).length =
          n + (if c.live then 1 else 0) + (calls.filter (·.live)).length := by
        rw [List.filter_cons]
        split_ifs
        · rw [List.length_cons]
          omega
        · omega
      rw [hlen]
      simpa [Runs.final, Runs.outputs, Runs.trace, Runs.entry, Nat.add_assoc] using hrest

/-- **A dispatch reaches the connections that it is meant for.**  In every reachable state of the
manager, an unexpired event is put once on each intended connection that takes it and on no
other, and the result counts the intended connections that took it and those that did not.
After any sequence of dispatches the totals are the sums over the results, and every
unexpired event has been counted in one of the three kinds. -/
theorem delivered_exactly :
    (∀ (limits : ConnectionLimits) (m : ConnectionManager), ConnectionManager.Reachable limits m →
      ∀ (d : Dispatcher) (env : Surroundings) (target : NotificationTarget) (event : NotificationEvent)
        (T : Option String), event.isExpired env.now = false → (∀ us, target = .users us → us.Nodup) →
        m.Enumerates (fun c => intended T target c = true) (intendedConnections m T target) ∧
        Sent env event (intendedConnections m T target) d (d.dispatchForTenant env m target event T).2
          (d.dispatchForTenant env m target event T).1.deliveredTo
          (d.dispatchForTenant env m target event T).1.failed) ∧
    ∀ (d : Dispatcher) (calls : List DispatchRequest), d.stats = ⟨0, 0, 0, 0, 0, 0⟩ →
      Counted (Runs.final perform d calls).stats (calls.filter (·.live)).length
        ((Runs.outputs perform d calls).map (·.deliveredTo)).sum
        ((Runs.outputs perform d calls).map (·.failed)).sum := by
  refine ⟨?_, ?_⟩
  · intro limits m hm d env target event T he hdup
    exact ⟨enumerates_intendedConnections hm.indexed T target, sent_dispatchForTenant hm.indexed T he hdup⟩
  · intro d calls hzero
    have hstart : Counted d.stats 0 0 0 := by
      rw [hzero]
      exact ⟨rfl, rfl, rfl, rfl⟩
    simpa only [Nat.zero_add] using counted_final calls hstart

/-- Two connections of tenant `acme`, of which the second takes no message. -/
theorem delivered_exactly_acme :
    let m := (((ConnectionManager.withLimits .default).call (.register 1 "alice" "acme" [] 0)).2.call
      (.register 2 "bob" "acme" [] 0)).2
    let env : Surroundings := { quiet with accepts := fun id => id == 1 }
    let r := emptyQueue.dispatchForTenant env m (.users ["bob", "alice", "eve"]) orderCreated (some "acme")
    r.1.deliveredTo = 1 ∧ r.1.failed = 1 ∧
      (Runs.final perform emptyQueue [⟨m, env, .broadcast, orderCreated, none⟩]).stats.totalSent = 1 := by
  intro m env r
  have hm : ConnectionManager.Reachable .default m :=
    (ConnectionManager.Reachable.empty.call (.register 1 "alice" "acme" [] 0) rfl).call
      (.register 2 "bob" "acme" [] 0) rfl
  have hdup : ∀ us, NotificationTarget.users ["bob", "alice", "eve"] = .users us → us.Nodup := by
    intro us hus
    cases hus
    decide
  have hsent := (delivered_exactly.1 .default m hm emptyQueue env (.users ["bob", "alice", "eve"]) orderCreated
    (some "acme") rfl hdup).2
  have hstats := delivered_exactly.2 emptyQueue [⟨m, env, .broadcast, orderCreated, none⟩] rfl
  refine ⟨hsent.delivered_eq.trans ?_, hsent.failed_eq.trans ?_, hstats.totalSent.trans ?_⟩
  · decide
  · decide
  · decide

end AraNotification
