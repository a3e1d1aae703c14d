import AraNotification.ConnectionIndex
import AraNotification.Lib.Interleaving

/-! # Concurrent calls on the connection manager

The methods of the manager run concurrently, and each access to one of its maps is a step of
its own.  `system` gives `register`, `unregister`, `subscribe_to_channel` and
`unsubscribe_from_channel` as programs of such steps over the shared manager:

* a registration checks the two limits, inserts the handle and updates the user and the
  tenant index, five accesses in all;
* an unregistration removes the entry and then takes the identifier out of the user index,
  the tenant index and the index of each subscribed channel.  For every key this is an
  update under the entry lock (`unfile`), which is dropped before the key is deleted when
  the list has become empty (`eraseKey`);
* a subscription and an unsubscription hold the entry of their connection while they run, so
  that it cannot be removed meanwhile (`guards`).

A deletion that follows an emptiness check comes too late when another call has filed a
connection under the key in between: the registration is then lost from the index
(`lost_registration`).  `Undisturbed` is the condition that this does not happen: no key is
deleted that lists a registered connection, and no unsubscription takes out a connection
that has subscribed again.  Under it every registered connection is in all its indices
whenever no call is running (`filed_of_undisturbed`): what a registration or a subscription
has not filed yet is still the obligation of the running call (`Owes`). -/

namespace AraNotification

open Interleaving InvertedIndex

/-- The three indices. -/
inductive Axis where
  | user
  | tenant
  | channel
deriving DecidableEq, Repr

/-- The handle belongs under the key. -/
def Axis.Keys : Axis → ConnectionHandle → String → Prop
  | user, h, k => h.userId = k
  | tenant, h, k => h.tenantId = k
  | channel, h, k => k ∈ h.subscriptions

instance (a : Axis) (h : ConnectionHandle) (k : String) : Decidable (a.Keys h k) :=
  match a with
  | .user => inferInstanceAs (Decidable (h.userId = k))
  | .tenant => inferInstanceAs (Decidable (h.tenantId = k))
  | .channel => inferInstanceAs (Decidable (k ∈ h.subscriptions))

namespace ConnectionManager

/-- The index of an axis. -/
def index (m : ConnectionManager) : Axis → InvertedIndex String Uuid
  | .user => m.userIndex
  | .tenant => m.tenantIndex
  | .channel => m.channelIndex

/-- Replace the index of an axis. -/
def setIndex (m : ConnectionManager) (x : InvertedIndex String Uuid) : Axis → ConnectionManager
  | .user => { m with userIndex := x }
  | .tenant => { m with tenantIndex := x }
  | .channel => { m with channelIndex := x }

/-- Connection `id` is registered and belongs under `k`. -/
def Belongs (m : ConnectionManager) (a : Axis) (k : String) (id : Uuid) : Prop :=
  m.connections.Sat (fun h => a.Keys h k) id

instance (m : ConnectionManager) (a : Axis) (k : String) (id : Uuid) : Decidable (m.Belongs a k id) :=
  inferInstanceAs (Decidable (m.connections.Sat (fun h => a.Keys h k) id))

@[simp] theorem connections_setIndex (m : ConnectionManager) (x : InvertedIndex String Uuid) (a : Axis) :
    (m.setIndex x a).connections = m.connections := by
  cases a <;> rfl

@[simp] theorem limits_setIndex (m : ConnectionManager) (x : InvertedIndex String Uuid) (a : Axis) :
    (m.setIndex x a).limits = m.limits := by
  cases a <;> rfl

theorem index_setIndex (m : ConnectionManager) (x : InvertedIndex String Uuid) (a b : Axis) :
    (m.setIndex x a).index b = if b = a then x else m.index b := by
  cases a <;> cases b <;> rfl

end ConnectionManager

namespace ConnectionRace

/-! ### The programs -/

/-- The arguments of a registration, with the identifier and clock reading it draws. -/
structure Registration where
  id : Uuid
  userId : String
  tenantId : String
  roles : List String
  now : DateTime
deriving DecidableEq, Repr

/-- The handle that a registration inserts. -/
def Registration.handle (r : Registration) : ConnectionHandle :=
  ConnectionHandle.new r.id r.userId r.tenantId r.roles r.now

/-- The calls. -/
inductive Call where
  | register (r : Registration)
  | unregister (id : Uuid)
  | subscribeToChannel (id : Uuid) (channel : String)
  | unsubscribeFromChannel (id : Uuid) (channel : String)

/-- The shared manager, with the entries that running calls hold. -/
structure Shared where
  manager : ConnectionManager
  guards : List Uuid

namespace Shared

/-- Replace the index of an axis. -/
def setIndex (s : Shared) (x : InvertedIndex String Uuid) (a : Axis) : Shared :=
  { s with manager := s.manager.setIndex x a }

/-- Replace the map of connections. -/
def setConnections (s : Shared) (conns : DashMap Uuid ConnectionHandle) : Shared :=
  { s with manager := { s.manager with connections := conns } }

/-- Hold the entry of a connection. -/
def hold (s : Shared) (id : Uuid) : Shared := { s with guards := id :: s.guards }

/-- Let go of the entry of a connection. -/
def release (s : Shared) (id : Uuid) : Shared := { s with guards := s.guards.erase id }

end Shared

/-- Program counters, named after the access that comes next. -/
inductive Pc where
  | checkTotal (r : Registration)
  | checkUser (r : Registration)
  | insert (r : Registration)
  | pushUser (r : Registration)
  | addTenant (r : Registration)
  | removeEntry (id : Uuid)
  | unfile (id : Uuid) (todo : List (Axis × String)) (unread : Option ConnectionHandle)
  | eraseKey (id : Uuid) (a : Axis) (k : String) (todo : List (Axis × String))
      (unread : Option ConnectionHandle)
  | getForSubscribe (id : Uuid) (channel : String)
  | countSubscriptions (id : Uuid) (channel : String)
  | writeSubscribe (id : Uuid) (channel : String)
  | addChannel (id : Uuid) (channel : String)
  | getForUnsubscribe (id : Uuid) (channel : String)
  | writeUnsubscribe (id : Uuid) (channel : String)
  | discardUnsubscribed (id : Uuid) (channel : String)
  | eraseUnsubscribed (id : Uuid) (channel : String)

def start : Call → Pc
  | .register r => .checkTotal r
  | .unregister id => .removeEntry id
  | .subscribeToChannel id channel => .getForSubscribe id channel
  | .unsubscribeFromChannel id channel => .getForUnsubscribe id channel

/-- One map access.  In `unfile`, `unread` is the handle whose subscription set is still to be
read once the user and tenant indices are done; it was removed from the map, so no other call
changes it any more. -/
def step (s : Shared) : Pc → Option (Shared × Option Pc)
  | .checkTotal r =>
      some (s, if s.manager.totalLimitReached s.manager.limits then none else some (.checkUser r))
  | .checkUser r =>
      some (s, if s.manager.userLimitReached r.userId s.manager.limits then none
        else some (.insert r))
  | .insert r =>
      some (s.setConnections (s.manager.connections.insert r.id r.handle), some (.pushUser r))
  | .pushUser r =>
      some (s.setIndex (s.manager.userIndex.push r.userId r.id) .user, some (.addTenant r))
  | .addTenant r => some (s.setIndex (s.manager.tenantIndex.add r.tenantId r.id) .tenant, none)
  | .removeEntry id =>
      if id ∈ s.guards then none
      else match s.manager.connections.lookup id with
        | none => some (s, none)
        | some h => some (s.setConnections (s.manager.connections.erase id),
            some (.unfile id [(.user, h.userId), (.tenant, h.tenantId)] (some h)))
  | .unfile id ((a, k) :: todo) unread =>
      let x := (s.manager.index a).discard k id
      some (s.setIndex x a,
        some (if x.emptied k then .eraseKey id a k todo unread else .unfile id todo unread))
  | .unfile id [] (some h) =>
      some (s, some (.unfile id (h.subscriptions.map (fun channel => (.channel, channel))) none))
  | .unfile _ [] none => some (s, none)
  | .eraseKey id a k todo unread =>
      some (s.setIndex ((s.manager.index a).erase k) a, some (.unfile id todo unread))
  | .getForSubscribe id channel =>
      match s.manager.connections.lookup id with
      | none => some (s, none)
      | some _ => some (s.hold id,
          some (if s.manager.limits.maxSubscriptionsPerConnection > 0
            then .countSubscriptions id channel else .writeSubscribe id channel))
  | .countSubscriptions id channel =>
      match s.manager.connections.lookup id with
      | none => none
      | some h =>
          if h.subscriptionCount ≥ s.manager.limits.maxSubscriptionsPerConnection then
            some (s.release id, none)
          else some (s, some (.writeSubscribe id channel))
  | .writeSubscribe id channel =>
      some (s.setConnections (s.manager.connections.modify id (·.subscribe channel)),
        some (.addChannel id channel))
  | .addChannel id channel =>
      some ((s.setIndex (s.manager.channelIndex.add channel id) .channel).release id, none)
  | .getForUnsubscribe id channel =>
      match s.manager.connections.lookup id with
      | none => some (s, none)
      | some _ => some (s.hold id, some (.writeUnsubscribe id channel))
  | .writeUnsubscribe id channel =>
      some (s.setConnections (s.manager.connections.modify id (·.unsubscribe channel)),
        some (.discardUnsubscribed id channel))
  | .discardUnsubscribed id channel =>
      let x := s.manager.channelIndex.discard channel id
      if x.emptied channel then
        some (s.setIndex x .channel, some (.eraseUnsubscribed id channel))
      else some ((s.setIndex x .channel).release id, none)
  | .eraseUnsubscribed id channel =>
      some ((s.setIndex (s.manager.channelIndex.erase channel) .channel).release id, none)

/-- The manager's methods as concurrent programs. -/
def system : System Shared Call Unit Pc where
  start := start
  step := fun _ => step

/-- The empty manager with no call running. -/
def initial (limits : ConnectionLimits) : Config Shared Pc :=
  ⟨⟨ConnectionManager.withLimits limits, []⟩, []⟩

/-! ### Fresh identifiers -/

/-- The identifier that a call has drawn or whose entry it has removed. -/
def Pc.owned : Pc → Option Uuid
  | .checkTotal r | .checkUser r | .insert r | .pushUser r | .addTenant r => some r.id
  | .unfile id _ _ | .eraseKey id _ _ _ _ => some id
  | _ => none

/-- A registration draws an identifier that is not in use. -/
def Legal (c : Config Shared Pc) : Event Call Unit → Prop
  | .call (.register r) =>
      c.shared.manager.connections.lookup r.id = none ∧ ∀ p ∈ c.threads, p.owned ≠ some r.id
  | _ => True

instance (c : Config Shared Pc) (e : Event Call Unit) : Decidable (Legal c e) :=
  match e with
  | .call (.register r) => inferInstanceAs (Decidable
      (c.shared.manager.connections.lookup r.id = none ∧ ∀ p ∈ c.threads, p.owned ≠ some r.id))
  | .call (.unregister _) | .call (.subscribeToChannel _ _) | .call (.unsubscribeFromChannel _ _)
  | .run _ _ => isTrue trivial

/-- The identifier of a call whose connection is not in the map: not yet inserted, or
removed. -/
def Pc.absent : Pc → Option Uuid
  | .checkTotal r | .checkUser r | .insert r => some r.id
  | .unfile id _ _ | .eraseKey id _ _ _ _ => some id
  | _ => none

/-- Absent identifiers are not registered, and no two calls share one. -/
def Fresh (c : Config Shared Pc) : Prop :=
  Tokens Pc.absent (fun s id => s.manager.connections.lookup id = none) c

/-- What a step does to the map of connections.  The limits stay as they are. -/
theorem step_connections {s s' : Shared} {p : Pc} {q : Option Pc} (h : step s p = some (s', q)) :
    s'.manager.limits = s.manager.limits ∧
    ((∃ r, p = .insert r ∧ q = some (.pushUser r) ∧
        s'.manager.connections = s.manager.connections.insert r.id r.handle) ∨
      (∃ id r, p = .removeEntry id ∧ q = some r ∧ r.absent = some id ∧
        s.manager.connections.lookup id ≠ none ∧
        s'.manager.connections = s.manager.connections.erase id) ∨
      ((∀ r ∈ q, r.absent = p.absent) ∧
        (s'.manager.connections = s.manager.connections ∨
          ∃ id f, (∀ h : ConnectionHandle, (f h).userId = h.userId) ∧
            s'.manager.connections = s.manager.connections.modify id f))) := by
  cases p with
  | insert r =>
      cases h
      exact ⟨rfl, .inl ⟨r, rfl, rfl, rfl⟩⟩
  | removeEntry id =>
      simp only [step] at h
      split_ifs at h
      split at h
      · cases h
        exact ⟨rfl, .inr (.inr ⟨by simp, .inl rfl⟩)⟩
      · rename_i hl
        cases h
        exact ⟨rfl, .inr (.inl ⟨id, _, rfl, rfl, rfl, by simp [hl], rfl⟩)⟩
  | unfile id todo unread =>
      rcases todo with _ | ⟨⟨a, k⟩, todo⟩
      · rcases unread with _ | h' <;> cases h <;>
          exact ⟨rfl, .inr (.inr ⟨by simp [Pc.absent], .inl rfl⟩)⟩
      · cases h
        refine ⟨by simp [Shared.setIndex], .inr (.inr ⟨?_, .inl (by simp [Shared.setIndex])⟩)⟩
        intro r hr
        cases hr
        split_ifs <;> rfl
  | eraseKey id a k todo unread =>
      cases h
      exact ⟨by simp [Shared.setIndex],
        .inr (.inr ⟨by simp [Pc.absent], .inl (by simp [Shared.setIndex])⟩)⟩
  | writeSubscribe id channel =>
      cases h
      exact ⟨rfl, .inr (.inr ⟨by simp [Pc.absent], .inr ⟨id, (·.subscribe channel), fun _ => rfl, rfl⟩⟩)⟩
  | writeUnsubscribe id channel =>
      cases h
      exact ⟨rfl, .inr (.inr ⟨by simp [Pc.absent],
        .inr ⟨id, (·.unsubscribe channel), fun _ => rfl, rfl⟩⟩)⟩
  | pushUser r | addTenant r | addChannel id channel | eraseUnsubscribed id channel =>
      cases h
      exact ⟨rfl, .inr (.inr ⟨by simp [Pc.absent], .inl rfl⟩)⟩
  | discardUnsubscribed id channel =>
      simp only [step] at h
      split_ifs at h <;> cases h <;>
        exact ⟨rfl, .inr (.inr ⟨by simp [Pc.absent], .inl rfl⟩)⟩
  | checkTotal r | checkUser r =>
      cases h
      refine ⟨rfl, .inr (.inr ⟨?_, .inl rfl⟩)⟩
      intro r' hr
      split_ifs at hr <;> cases hr
      rfl
  | getForSubscribe id channel =>
      simp only [step] at h
      split at h <;> cases h
      · exact ⟨rfl, .inr (.inr ⟨by simp, .inl rfl⟩)⟩
      · refine ⟨rfl, .inr (.inr ⟨?_, .inl rfl⟩)⟩
        intro r hr
        cases hr
        split_ifs <;> rfl
  | getForUnsubscribe id channel =>
      simp only [step] at h
      split at h <;> cases h <;> exact ⟨rfl, .inr (.inr ⟨by simp [Pc.absent], .inl rfl⟩)⟩
  | countSubscriptions id channel =>
      simp only [step] at h
      split at h
      · cases h
      · split_ifs at h <;> cases h <;> exact ⟨rfl, .inr (.inr ⟨by simp [Pc.absent], .inl rfl⟩)⟩

/-- How a step moves identifiers in and out of the map. -/
theorem step_lookup {s s' : Shared} {p : Pc} {q : Option Pc} (h : step s p = some (s', q)) :
    (∃ r, p = .insert r ∧ q = some (.pushUser r) ∧
      ∀ id, s'.manager.connections.lookup id = none ↔
        s.manager.connections.lookup id = none ∧ id ≠ r.id) ∨
    (∃ id r, p = .removeEntry id ∧ q = some r ∧ r.absent = some id ∧
      s.manager.connections.lookup id ≠ none ∧
      ∀ id', s'.manager.connections.lookup id' = none ↔
        s.manager.connections.lookup id' = none ∨ id' = id) ∨
    ((∀ id, s'.manager.connections.lookup id = none ↔ s.manager.connections.lookup id = none) ∧
      ∀ r ∈ q, r.absent = p.absent) := by
  obtain ⟨-, ⟨r, rfl, rfl, heq⟩ | ⟨id, r, rfl, rfl, hr, hreg, heq⟩ | ⟨hq, heq | ⟨id, f, -, heq⟩⟩⟩ :=
    step_connections h
  · refine .inl ⟨r, rfl, rfl, fun id => ?_⟩
    rw [heq, DashMap.lookup_insert]
    split_ifs with he <;> simp [he]
  · refine .inr (.inl ⟨id, r, rfl, rfl, hr, hreg, fun id' => ?_⟩)
    rw [heq, DashMap.lookup_erase]
    split_ifs with he <;> simp [he]
  · exact .inr (.inr ⟨fun id => by rw [heq], hq⟩)
  · refine .inr (.inr ⟨fun id' => ?_, hq⟩)
    rw [heq, DashMap.lookup_modify]
    split_ifs with he
    · subst he
      simp
    · rfl

theorem owned_of_absent {p : Pc} {id : Uuid} (h : p.absent = some id) : p.owned = some id := by
  cases p <;> simp_all [Pc.absent, Pc.owned]

theorem Fresh.next {c c' : Config Shared Pc} {e : Event Call Unit} (hc : Fresh c) (hl : Legal c e)
    (hn : system.next c e = some c') : Fresh c' := by
  refine Tokens.next hc hn ?_ ?_
  · rintro op rfl id hid
    cases op with
    | register r =>
        cases hid
        refine ⟨hl.1, ?_⟩
        simp only [List.mem_filterMap, not_exists, not_and]
        exact fun p hp ha => hl.2 p hp (owned_of_absent ha)
    | unregister id | subscribeToChannel id channel | unsubscribeFromChannel id channel => cases hid
  · rintro i inp p s q - - hs hfree
    obtain ⟨r, rfl, rfl, hdom⟩ | ⟨id, r, rfl, rfl, hr, hreg, hdom⟩ | ⟨hdom, hq⟩ := step_lookup hs
    · refine ⟨?_, fun x hx hne => (hdom x).mpr ⟨hx, ?_⟩⟩
      · intro x hx
        cases hx
      rintro rfl
      exact hne rfl
    · refine ⟨fun x hx => ?_, fun x hx _ => (hdom x).mpr (.inl hx)⟩
      simp only [Option.bind_some, hr, Option.mem_def, Option.some.injEq] at hx
      subst hx
      exact ⟨.inr hreg, (hdom id).mpr (.inr rfl)⟩
    · refine ⟨fun x hx => ?_, fun x hx _ => (hdom x).mpr hx⟩
      obtain ⟨r, hr, hx⟩ := Option.bind_eq_some_iff.mp hx
      rw [hq r hr] at hx
      exact ⟨.inl hx, (hdom x).mpr (hfree x hx)⟩

/-! ### Deficits and obligations -/

/-- A registered connection that is missing from an index it belongs to. -/
def Missing (s : Shared) : Axis × String × Uuid → Prop
  | (a, k, id) => s.manager.Belongs a k id ∧ id ∉ (s.manager.index a).ids k

/-- The entries that a running call is still going to file. -/
def Owes : Pc → Axis × String × Uuid → Prop
  | .pushUser r, x => x = (.user, r.userId, r.id) ∨ x = (.tenant, r.tenantId, r.id)
  | .addTenant r, x => x = (.tenant, r.tenantId, r.id)
  | .addChannel id channel, x => x = (.channel, channel, id)
  | _, _ => False

/-- The next access takes no registered connection out of an index it belongs to: a key that
is deleted lists none, and a connection that is taken out of a channel is not subscribed. -/
def Pc.Undisturbed (m : ConnectionManager) : Pc → Prop
  | .eraseKey _ a k _ _ => ∀ id ∈ (m.index a).ids k, ¬ m.Belongs a k id
  | .eraseUnsubscribed _ channel => ∀ id ∈ m.channelIndex.ids channel, ¬ m.Belongs .channel channel id
  | .discardUnsubscribed id channel => ¬ m.Belongs .channel channel id
  | _ => True

/-- The condition on a run: every step is undisturbed in the state in which it is taken. -/
def Undisturbed (c : Config Shared Pc) : Event Call Unit → Prop
  | .run i _ => ∀ p, c.threads[i]? = some p → p.Undisturbed c.shared.manager
  | .call _ => True

instance (m : ConnectionManager) (p : Pc) : Decidable (p.Undisturbed m) :=
  match p with
  | .eraseKey _ a k _ _ => inferInstanceAs (Decidable (∀ id ∈ (m.index a).ids k, ¬ m.Belongs a k id))
  | .eraseUnsubscribed _ channel =>
      inferInstanceAs (Decidable (∀ id ∈ m.channelIndex.ids channel, ¬ m.Belongs .channel channel id))
  | .discardUnsubscribed id channel => inferInstanceAs (Decidable (¬ m.Belongs .channel channel id))
  | .checkTotal _ | .checkUser _ | .insert _ | .pushUser _ | .addTenant _ | .removeEntry _
  | .unfile _ _ _ | .getForSubscribe _ _ | .countSubscriptions _ _ | .writeSubscribe _ _
  | .addChannel _ _ | .getForUnsubscribe _ _ | .writeUnsubscribe _ _ => isTrue trivial

instance (c : Config Shared Pc) (e : Event Call Unit) : Decidable (Undisturbed c e) :=
  match e with
  | .call _ => isTrue trivial
  | .run i _ => inferInstanceAs (Decidable (∀ p ∈ c.threads[i]?, p.Undisturbed c.shared.manager))

/-- An update of one index that keeps the registered connections filed makes nothing
missing. -/
theorem Missing.of_setIndex {s : Shared} {x : InvertedIndex String Uuid} {a : Axis}
    (hx : ∀ k id, s.manager.Belongs a k id → id ∈ (s.manager.index a).ids k → id ∈ x.ids k)
    {n : Axis × String × Uuid} (hn : Missing (s.setIndex x a) n) : Missing s n := by
  obtain ⟨b, k, id⟩ := n
  obtain ⟨hb, hm⟩ := hn
  have hb' : s.manager.Belongs b k id := by
    simpa [Shared.setIndex, ConnectionManager.Belongs] using hb
  refine ⟨hb', fun hold => hm ?_⟩
  simp only [Shared.setIndex, ConnectionManager.index_setIndex]
  split_ifs with hab
  · subst hab; exact hx k id hb' hold
  · exact hold

/-- A change of the map of connections that files nobody under a new key makes nothing
missing. -/
theorem Missing.of_setConnections {s : Shared} {conns : DashMap Uuid ConnectionHandle}
    {a : Axis} {k : String} {id : Uuid} (hn : Missing (s.setConnections conns) (a, k, id))
    (hb : conns.Sat (fun h => a.Keys h k) id → s.manager.Belongs a k id) : Missing s (a, k, id) := by
  obtain ⟨hb', hm⟩ := hn
  refine ⟨hb hb', ?_⟩
  cases a <;> exact hm

/-- What one undisturbed step leaves missing was missing before and is not the step's own to
file, or is taken on by the next program counter. -/
theorem step_missing {s s' : Shared} {p : Pc} {q : Option Pc} (h : step s p = some (s', q))
    (hfree : ∀ id, p.absent = some id → s.manager.connections.lookup id = none)
    (hu : p.Undisturbed s.manager) {n : Axis × String × Uuid} (hn : Missing s' n) :
    (Missing s n ∧ ¬ Owes p n) ∨ ∃ r ∈ q, Owes r n := by
  cases p with
  | insert r =>
      cases h
      obtain ⟨a, k, id⟩ := n
      have hnone := hfree r.id rfl
      by_cases hnew : id = r.id ∧ a.Keys r.handle k
      · obtain ⟨rfl, hk⟩ := hnew
        refine .inr ⟨_, rfl, ?_⟩
        cases a with
        | user => cases hk; exact .inl rfl
        | tenant => cases hk; exact .inr rfl
        | channel => cases hk
      · refine .inl ⟨hn.of_setConnections ?_, fun ho => ho⟩
        intro hs
        rcases (DashMap.sat_insert hnone).mp hs with hs | hs
        · exact hs
        · exact absurd hs hnew
  | pushUser r =>
      cases h
      have hold : Missing s n := hn.of_setIndex (fun k id _ hm => by
        rw [ids_push]
        split_ifs with hk
        · subst hk; exact List.mem_append_left _ hm
        · exact hm)
      by_cases ho : n = (.tenant, r.tenantId, r.id)
      · exact .inr ⟨_, rfl, ho⟩
      · refine .inl ⟨hold, ?_⟩
        rintro (rfl | ht)
        · refine hn.2 ?_
          simp [Shared.setIndex, ConnectionManager.index_setIndex, ids_push]
        · exact ho ht
  | addTenant r =>
      cases h
      refine .inl ⟨hn.of_setIndex (fun k id _ hm => ?_), ?_⟩
      · rw [ids_add]
        split_ifs with hk
        · subst hk; exact List.mem_insert_of_mem hm
        · exact hm
      · rintro rfl
        refine hn.2 ?_
        simp [Shared.setIndex, ConnectionManager.index_setIndex, ids_add]
  | removeEntry id =>
      simp only [step] at h
      split_ifs at h
      split at h <;> cases h
      · exact .inl ⟨hn, fun ho => ho⟩
      · obtain ⟨a, k, id'⟩ := n
        refine .inl ⟨hn.of_setConnections ?_, fun ho => ho⟩
        exact fun hs => (DashMap.sat_erase.mp hs).1
  | unfile id todo unread =>
      rcases todo with _ | ⟨⟨a, k⟩, todo⟩
      · rcases unread with _ | h' <;> cases h <;> exact .inl ⟨hn, fun ho => ho⟩
      · cases h
        refine .inl ⟨hn.of_setIndex (fun k' id' hb hm => ?_), fun ho => ho⟩
        refine mem_ids_discard.mpr ⟨hm, ?_⟩
        rintro ⟨rfl, rfl⟩
        exact DashMap.not_sat_of_lookup_none (hfree id' rfl) hb
  | eraseKey id a k todo unread =>
      cases h
      refine .inl ⟨hn.of_setIndex (fun k' id' hb hm => ?_), fun ho => ho⟩
      rw [ids_erase]
      split_ifs with hk
      · subst hk; exact absurd hb (hu id' hm)
      · exact hm
  | writeSubscribe id channel =>
      cases h
      obtain ⟨a, k, id'⟩ := n
      by_cases hnew : (a, k, id') = (.channel, channel, id)
      · exact .inr ⟨_, rfl, hnew⟩
      · refine .inl ⟨hn.of_setConnections ?_, fun ho => ho⟩
        rw [DashMap.sat_modify]
        rintro ⟨h, hl, hk⟩
        refine ⟨h, hl, ?_⟩
        split_ifs at hk with he
        · subst he
          cases a with
          | user => exact hk
          | tenant => exact hk
          | channel =>
              rcases List.mem_insert_iff.mp hk with rfl | hk
              · exact absurd rfl hnew
              · exact hk
        · exact hk
  | writeUnsubscribe id channel =>
      cases h
      obtain ⟨a, k, id'⟩ := n
      refine .inl ⟨hn.of_setConnections ?_, fun ho => ho⟩
      rw [DashMap.sat_modify]
      rintro ⟨h, hl, hk⟩
      refine ⟨h, hl, ?_⟩
      split_ifs at hk with he
      · cases a with
        | user => exact hk
        | tenant => exact hk
        | channel => exact (List.mem_filter.mp hk).1
      · exact hk
  | addChannel id channel =>
      cases h
      have hn' : Missing (s.setIndex (s.manager.channelIndex.add channel id) .channel) n := hn
      refine .inl ⟨hn'.of_setIndex (fun k id' _ hm => ?_), ?_⟩
      · rw [ids_add]
        split_ifs with hk
        · subst hk; exact List.mem_insert_of_mem hm
        · exact hm
      · rintro rfl
        refine hn'.2 ?_
        simp [Shared.setIndex, ConnectionManager.index_setIndex, ids_add]
  | discardUnsubscribed id channel =>
      have keep : ∀ k id', s.manager.Belongs .channel k id' → id' ∈ s.manager.channelIndex.ids k →
          id' ∈ (s.manager.channelIndex.discard channel id).ids k := by
        intro k id' hb hm
        refine mem_ids_discard.mpr ⟨hm, ?_⟩
        rintro ⟨rfl, rfl⟩
        exact hu hb
      simp only [step] at h
      split_ifs at h <;> cases h
      · exact .inl ⟨hn.of_setIndex keep, fun ho => ho⟩
      · exact .inl ⟨Missing.of_setIndex keep hn, fun ho => ho⟩
  | eraseUnsubscribed id channel =>
      cases h
      refine .inl ⟨Missing.of_setIndex (a := .channel) (fun k id' hb hm => ?_) hn, fun ho => ho⟩
      rw [ids_erase]
      split_ifs with hk
      · subst hk; exact absurd hb (hu id' hm)
      · exact hm
  | checkTotal r | checkUser r =>
      cases h
      exact .inl ⟨hn, fun ho => ho⟩
  | getForSubscribe id channel | getForUnsubscribe id channel =>
      simp only [step] at h
      split at h <;> cases h <;> exact .inl ⟨hn, fun ho => ho⟩
  | countSubscriptions id channel =>
      simp only [step] at h
      split at h
      · cases h
      · split_ifs at h <;> cases h <;> exact .inl ⟨hn, fun ho => ho⟩

/-! ### Runs -/

section runs
variable {limits : ConnectionLimits} {c : Config Shared Pc}

theorem fresh_initial (limits : ConnectionLimits) : Fresh (initial limits) where
  nodup := by simp [initial]
  free := by simp [initial]

theorem fresh_of_reaches {ok : Config Shared Pc → Event Call Unit → Prop} (hok : ∀ c e, ok c e → Legal c e)
    (h : Reaches system ok (initial limits) c) : Fresh c :=
  h.invariant (fresh_initial limits) (fun _ _ _ _ hf he hn => hf.next (hok _ _ he) hn)

theorem covered_of_undisturbed
    (h : Reaches system (fun c e => Legal c e ∧ Undisturbed c e) (initial limits) c) :
    Covered Missing Owes c := by
  refine h.invariant ?_ ?_
  · rintro ⟨a, k, id⟩ ⟨hb, -⟩
    simp [initial, ConnectionManager.withLimits, ConnectionManager.Belongs, DashMap.Sat] at hb
  · rintro c e c' hr hc ⟨-, hu⟩ hn
    have hfresh := fresh_of_reaches (fun _ _ he => he.1) hr
    refine hc.next hn ?_
    rintro i inp p s q rfl hp hs n hm
    have hfree : ∀ id, p.absent = some id → c.shared.manager.connections.lookup id = none :=
      fun id ha => hfresh.free id (List.mem_filterMap.mpr ⟨p, List.mem_of_getElem? hp, ha⟩)
    rcases step_missing hs hfree (hu p hp) hm with hleft | hnew
    · exact .inl hleft
    · exact .inr (.inr hnew)

/-- Every registered connection is in the index of its user, of its tenant and of every
channel it is subscribed to. -/
def AllFiled (m : ConnectionManager) : Prop :=
  ∀ id h, m.connections.lookup id = some h →
    id ∈ m.userIndex.ids h.userId ∧ id ∈ m.tenantIndex.ids h.tenantId ∧
      ∀ channel ∈ h.subscriptions, id ∈ m.channelIndex.ids channel

/-- **No index update is lost in an undisturbed run**: whenever no call is running, every
registered connection is in all the indices it belongs to. -/
theorem filed_of_undisturbed
    (h : Reaches system (fun c e => Legal c e ∧ Undisturbed c e) (initial limits) c)
    (hq : c.threads = []) : AllFiled c.shared.manager := by
  have hcov := (covered_of_undisturbed h).quiescent (by simp [hq])
  intro id hd hl
  have filed : ∀ a k, a.Keys hd k → id ∈ (c.shared.manager.index a).ids k := by
    intro a k hk
    by_contra hnot
    exact hcov (a, k, id) ⟨⟨hd, hl, hk⟩, hnot⟩
  exact ⟨filed .user _ rfl, filed .tenant _ rfl, fun channel hch => filed .channel channel hch⟩

/-- A run in which one device of a user leaves while another is registered and subscribed: the
condition holds at every step, and the remaining device is filed. -/
theorem filed_of_undisturbed_two_devices :
    ∃ c, Reaches system (fun c e => Legal c e ∧ Undisturbed c e) (initial .default) c ∧
      c.threads = [] ∧ (c.shared.manager.connections.lookup 2).isSome = true ∧
        AllFiled c.shared.manager := by
  have hseen : (system.play (fun c e => Legal c e ∧ Undisturbed c e) (initial .default)
      [.call (.register ⟨1, "alice", "acme", [], 0⟩), .run 0 (), .run 0 (), .run 0 (), .run 0 (), .run 0 (),
        .call (.register ⟨2, "alice", "acme", [], 0⟩), .call (.unregister 1), .run 0 (), .run 0 (),
        .run 0 (), .run 1 (), .run 0 (), .run 0 (), .run 0 (), .run 0 (), .run 0 (), .run 0 (),
        .call (.subscribeToChannel 2 "orders"), .run 0 (), .run 0 (), .run 0 (), .run 0 ()]).any
        (fun c => c.threads.isEmpty && (c.shared.manager.connections.lookup 2).isSome) = true := by
    decide
  obtain ⟨c, hr, hc⟩ := exists_reaches_of_play hseen
  simp only [Bool.and_eq_true, List.isEmpty_iff] at hc
  exact ⟨c, hr, hc.1, hc.2, filed_of_undisturbed hr hc.1⟩

end runs

/-! ### A lost registration -/

/-- The schedule of `lost_registration`: connection 1 of a user is unregistered, and between
its emptiness check and the deletion of the key connection 2 of the same user registers. -/
def lostSchedule : List (Event Call Unit) :=
  [.call (.register ⟨1, "alice", "acme", [], 0⟩), .run 0 (), .run 0 (), .run 0 (), .run 0 (), .run 0 (),
    .call (.unregister 1), .run 0 (), .run 0 (),
    .call (.register ⟨2, "alice", "acme", [], 0⟩), .run 1 (), .run 1 (), .run 1 (), .run 1 (), .run 1 (),
    .run 0 (), .run 0 (), .run 0 (), .run 0 ()]

/-- The indices lose a registered connection: with the default limits the schedule ends with no
call running, connection 2 registered and the user index without it. -/
theorem lost_registration :
    ¬ ∀ c, Reaches system Legal (initial .default) c → c.threads = [] → AllFiled c.shared.manager := by
  intro hall
  have hseen : (system.play Legal (initial .default) lostSchedule).any (fun c =>
      c.threads.isEmpty && (c.shared.manager.connections.lookup 2).any (fun h =>
        decide (2 ∉ c.shared.manager.userIndex.ids h.userId))) = true := by decide
  obtain ⟨c, hr, hc⟩ := exists_reaches_of_play hseen
  simp only [Bool.and_eq_true, List.isEmpty_iff, Option.any_eq_true, decide_eq_true_eq] at hc
  obtain ⟨hq, h, hl, hnot⟩ := hc
  exact hnot (hall c hr hq 2 h hl).1

end ConnectionRace

end AraNotification
