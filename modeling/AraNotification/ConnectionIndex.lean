import AraNotification.Connection

/-! # The indices of the connection manager

`Indexed m` is the invariant that ties the three indices to the registered connections:
each index files exactly the identifiers of the connections with the user, the tenant or
the channel in question (`InvertedIndex.Files`), so it has no ghost, misses nobody, lists
nobody twice and keeps no empty entry.  `WithinLimits m` bounds the three counts by the
configured limits.

`Reachable limits m` collects the managers that any sequence of calls produces from the
empty one.  Identifiers, user and tenant ids, channel names and clock readings are
arbitrary; a registration gets an identifier that is not in use, and the stale connections
are unregistered in any order, since the iteration order of the map is not specified.
`Reachable.indexed` and `Reachable.withinLimits` are the invariant over whole runs, from one
lemma per method. -/

namespace AraNotification

open InvertedIndex

namespace ConnectionManager

variable (m : ConnectionManager)

/-! ### The invariant -/

/-- Connection `id` is registered for user `u`. -/
def OfUser (u : String) (id : Uuid) : Prop := m.connections.Sat (fun h => h.userId = u) id

/-- Connection `id` is registered for tenant `t`. -/
def OfTenant (t : String) (id : Uuid) : Prop := m.connections.Sat (fun h => h.tenantId = t) id

/-- Connection `id` is registered and subscribed to `channel`. -/
def OnChannel (channel : String) (id : Uuid) : Prop :=
  m.connections.Sat (fun h => channel ∈ h.subscriptions) id

/-- The indices are those of the registered connections. -/
structure Indexed : Prop where
  keyed : ∀ id h, m.connections.lookup id = some h → h.id = id ∧ h.subscriptions.Nodup
  user : m.userIndex.Files m.OfUser
  tenant : m.tenantIndex.Files m.OfTenant
  channel : m.channelIndex.Files m.OnChannel

/-- The counts respect the limits that are not `0`. -/
structure WithinLimits : Prop where
  total : m.limits.maxConnections ≠ 0 → m.connections.len ≤ m.limits.maxConnections
  perUser : m.limits.maxConnectionsPerUser ≠ 0 →
    ∀ u, (m.userIndex.ids u).length ≤ m.limits.maxConnectionsPerUser
  perConnection : m.limits.maxSubscriptionsPerConnection ≠ 0 →
    ∀ id h, m.connections.lookup id = some h →
      h.subscriptions.length ≤ m.limits.maxSubscriptionsPerConnection

theorem indexed_withLimits (limits : ConnectionLimits) : (withLimits limits).Indexed where
  keyed id h hl := by simp [withLimits] at hl
  user := Files.empty.congr (fun u id => by simp [OfUser, DashMap.Sat, withLimits])
  tenant := Files.empty.congr (fun t id => by simp [OfTenant, DashMap.Sat, withLimits])
  channel := Files.empty.congr (fun ch id => by simp [OnChannel, DashMap.Sat, withLimits])

theorem withinLimits_withLimits (limits : ConnectionLimits) : (withLimits limits).WithinLimits where
  total _ := by simp [withLimits, DashMap.len]
  perUser _ u := by simp [withLimits, ids]
  perConnection _ id h hl := by simp [withLimits] at hl

variable {m}

/-! ### Registration -/

theorem totalLimitReached_eq_false {limits : ConnectionLimits} : m.totalLimitReached limits = false ↔
    (limits.maxConnections ≠ 0 → m.connections.len < limits.maxConnections) := by
  simp only [totalLimitReached, Bool.and_eq_false_iff, decide_eq_false_iff_not]
  omega

theorem userLimitReached_eq_false {u : String} {limits : ConnectionLimits} :
    m.userLimitReached u limits = false ↔
      (limits.maxConnectionsPerUser ≠ 0 →
        (m.userIndex.ids u).length < limits.maxConnectionsPerUser) := by
  simp only [userLimitReached, Bool.and_eq_false_iff, decide_eq_false_iff_not]
  unfold userConnectionCount
  omega

/-- What a registration can do: refuse and change nothing, or insert a new handle below
both limits. -/
theorem registerWithLimits_cases (id : Uuid) (userId tenantId : String) (roles : List String)
    (now : DateTime) (limits : ConnectionLimits) :
    (∃ e, m.registerWithLimits id userId tenantId roles now limits = (.error e, m)) ∨
    (m.totalLimitReached limits = false ∧ m.userLimitReached userId limits = false ∧
      m.registerWithLimits id userId tenantId roles now limits =
        (.ok (ConnectionHandle.new id userId tenantId roles now),
          m.insertHandle (ConnectionHandle.new id userId tenantId roles now))) := by
  unfold registerWithLimits
  split_ifs with ht hu
  · exact .inl ⟨_, rfl⟩
  · exact .inl ⟨_, rfl⟩
  · exact .inr ⟨by simpa using ht, by simpa using hu, rfl⟩

/-- The first connection is within the limits. -/
theorem register_withLimits (limits : ConnectionLimits) (id : Uuid) (userId tenantId : String)
    (roles : List String) (now : DateTime) :
    (withLimits limits).register id userId tenantId roles now =
      (.ok (.new id userId tenantId roles now),
        (withLimits limits).insertHandle (.new id userId tenantId roles now)) := by
  have htotal : (withLimits limits).totalLimitReached limits = false :=
    totalLimitReached_eq_false.mpr (fun hne => Nat.pos_of_ne_zero hne)
  have huser : (withLimits limits).userLimitReached userId limits = false :=
    userLimitReached_eq_false.mpr (fun hne => Nat.pos_of_ne_zero hne)
  show (withLimits limits).registerWithLimits id userId tenantId roles now limits = _
  rw [registerWithLimits, htotal, huser]
  rfl

theorem Indexed.insertHandle (hm : m.Indexed) {h : ConnectionHandle}
    (hid : m.connections.lookup h.id = none) (hs : h.subscriptions = []) :
    (m.insertHandle h).Indexed where
  keyed id h' hl := by
    simp only [ConnectionManager.insertHandle, DashMap.lookup_insert] at hl
    split_ifs at hl with he
    · cases hl
      exact ⟨he.symm, by simp [hs]⟩
    · exact hm.keyed id h' hl
  user := by
    refine (hm.user.push (DashMap.not_sat_of_lookup_none hid)).congr ?_
    intro u id
    simp only [OfUser, ConnectionManager.insertHandle, DashMap.sat_insert hid]
    rw [and_comm, eq_comm (a := u)]
  tenant := by
    refine (hm.tenant.add h.tenantId h.id).congr ?_
    intro t id
    simp only [OfTenant, ConnectionManager.insertHandle, DashMap.sat_insert hid]
    rw [and_comm, eq_comm (a := t)]
  channel := by
    refine hm.channel.congr ?_
    intro ch id
    simp [OnChannel, ConnectionManager.insertHandle, DashMap.sat_insert hid, hs]

theorem WithinLimits.insertHandle (hm : m.WithinLimits) {h : ConnectionHandle}
    (hid : m.connections.lookup h.id = none) (hs : h.subscriptions = [])
    (ht : m.totalLimitReached m.limits = false) (hu : m.userLimitReached h.userId m.limits = false) :
    (m.insertHandle h).WithinLimits where
  total hne := by
    simp only [ConnectionManager.insertHandle] at hne ⊢
    rw [DashMap.len_insert_of_lookup_none h hid]
    have := totalLimitReached_eq_false.mp ht hne
    omega
  perUser hne u := by
    simp only [ConnectionManager.insertHandle] at hne ⊢
    rw [ids_push]
    split_ifs with he
    · have := userLimitReached_eq_false.mp hu hne
      simp only [List.length_append, List.length_singleton]
      omega
    · exact hm.perUser hne u
  perConnection hne id h' hl := by
    simp only [ConnectionManager.insertHandle, DashMap.lookup_insert] at hne hl ⊢
    split_ifs at hl with he
    · cases hl
      simp [hs]
    · exact hm.perConnection hne id h' hl

/-! ### Unregistration -/

theorem Indexed.unregister (hm : m.Indexed) (id : Uuid) : (m.unregister id).Indexed := by
  unfold ConnectionManager.unregister
  cases hl : m.connections.lookup id with
  | none => exact hm
  | some h =>
      -- an identifier has one handle, so dropping the pair (key of `h`, `id`) drops `id`
      have only : ∀ (P : ConnectionHandle → Prop) (k : Uuid),
          m.connections.Sat P k ∧ ¬ (P h ∧ k = id) ↔ DashMap.Sat (m.connections.erase id) P k := by
        intro P k
        rw [DashMap.sat_erase]
        constructor
        · rintro ⟨hs, hn⟩
          refine ⟨hs, ?_⟩
          rintro rfl
          exact hn ⟨(DashMap.sat_of_lookup hl).mp hs, rfl⟩
        · rintro ⟨hs, hne⟩
          exact ⟨hs, fun hk => hne hk.2⟩
      refine ⟨?_, ?_, ?_, ?_⟩
      · intro id' h' hl'
        simp only [DashMap.lookup_erase] at hl'
        split_ifs at hl'
        exact hm.keyed id' h' hl'
      · refine (hm.user.remove h.userId id).congr ?_
        intro u k
        rw [eq_comm (a := u)]
        exact only (fun h => h.userId = u) k
      · refine (hm.tenant.remove h.tenantId id).congr ?_
        intro t k
        rw [eq_comm (a := t)]
        exact only (fun h => h.tenantId = t) k
      · refine (Files.removeAll id h.subscriptions hm.channel).congr ?_
        intro ch k
        exact only (fun h => ch ∈ h.subscriptions) k

theorem WithinLimits.unregister (hm : m.WithinLimits) (id : Uuid) : (m.unregister id).WithinLimits := by
  unfold ConnectionManager.unregister
  cases hl : m.connections.lookup id with
  | none => exact hm
  | some h =>
      refine ⟨?_, ?_, ?_⟩
      · intro hne
        exact le_trans (DashMap.len_erase_le _ _) (hm.total hne)
      · intro hne u
        dsimp only
        rw [ids_remove, ids_discard]
        split_ifs with he
        · exact le_trans (List.length_filter_le _ _) (hm.perUser hne h.userId)
        · exact hm.perUser hne u
      · intro hne id' h' hl'
        simp only [DashMap.lookup_erase] at hl'
        split_ifs at hl'
        exact hm.perConnection hne id' h' hl'

/-- What every unregistration keeps, a list of them keeps. -/
theorem unregisterAll_induction {P : ConnectionManager → Prop} (hstep : ∀ m id, P m → P (m.unregister id))
    (hm : P m) (ids : List Uuid) : P (m.unregisterAll ids) := by
  unfold ConnectionManager.unregisterAll
  induction ids generalizing m with
  | nil => exact hm
  | cons id ids ih => exact ih (hstep m id hm)

theorem Indexed.unregisterAll (hm : m.Indexed) (ids : List Uuid) : (m.unregisterAll ids).Indexed :=
  unregisterAll_induction (fun _ id h => h.unregister id) hm ids

theorem WithinLimits.unregisterAll (hm : m.WithinLimits) (ids : List Uuid) :
    (m.unregisterAll ids).WithinLimits :=
  unregisterAll_induction (fun _ id h => h.unregister id) hm ids

/-! ### Subscriptions -/

/-- What a subscription can do: refuse and change nothing, or file a registered connection
below its limit. -/
theorem subscribeToChannel_cases (id : Uuid) (channel : String) :
    (∃ e, m.subscribeToChannel id channel = (.error e, m)) ∨
    (∃ h, m.connections.lookup id = some h ∧
      ¬ (m.limits.maxSubscriptionsPerConnection > 0 ∧
        h.subscriptionCount ≥ m.limits.maxSubscriptionsPerConnection) ∧
      m.subscribeToChannel id channel = (.ok (), { m with
        connections := m.connections.modify id (·.subscribe channel)
        channelIndex := m.channelIndex.add channel id })) := by
  unfold subscribeToChannel
  cases hl : m.connections.lookup id with
  | none => exact .inl ⟨_, rfl⟩
  | some h =>
      dsimp only
      split_ifs with hfull
      · exact .inl ⟨_, rfl⟩
      · exact .inr ⟨h, rfl, hfull, rfl⟩

/-- A change of the handle of `id` that keeps what the user and tenant indices read. -/
theorem Indexed.modify (hm : m.Indexed) (id : Uuid) {f : ConnectionHandle → ConnectionHandle}
    {x : InvertedIndex String Uuid} (hid : ∀ h, (f h).id = h.id) (hu : ∀ h, (f h).userId = h.userId)
    (ht : ∀ h, (f h).tenantId = h.tenantId)
    (hs : ∀ h : ConnectionHandle, h.subscriptions.Nodup → (f h).subscriptions.Nodup)
    (hx : x.Files (OnChannel { m with connections := m.connections.modify id f })) :
    Indexed { m with connections := m.connections.modify id f, channelIndex := x } where
  keyed id' h' hl := by
    simp only [DashMap.lookup_modify] at hl
    split_ifs at hl with he
    · obtain ⟨h, hh, rfl⟩ := Option.map_eq_some_iff.mp hl
      obtain ⟨h1, h2⟩ := hm.keyed id h hh
      exact ⟨by rw [hid, h1, he], hs h h2⟩
    · exact hm.keyed id' h' hl
  user := hm.user.congr (fun u k => (DashMap.sat_modify_of_iff (fun h => by rw [hu])).symm)
  tenant := hm.tenant.congr (fun t k => (DashMap.sat_modify_of_iff (fun h => by rw [ht])).symm)
  channel := hx

theorem Indexed.subscribeToChannel (hm : m.Indexed) (id : Uuid) (channel : String) :
    (m.subscribeToChannel id channel).2.Indexed := by
  obtain ⟨e, he⟩ | ⟨h, hl, -, he⟩ := m.subscribeToChannel_cases id channel
  · rw [he]; exact hm
  · rw [he]
    refine hm.modify id (fun _ => rfl) (fun _ => rfl) (fun _ => rfl) (fun h hn => hn.insert) ?_
    refine (hm.channel.add channel id).congr ?_
    intro ch k
    simp only [OnChannel, DashMap.sat_modify, ConnectionHandle.subscribe, List.mem_insert_iff]
    by_cases hk : k = id
    · subst hk; simp [DashMap.sat_of_lookup hl, or_comm]
    · simp [hk]

theorem Indexed.unsubscribeFromChannel (hm : m.Indexed) (id : Uuid) (channel : String) :
    (m.unsubscribeFromChannel id channel).Indexed := by
  unfold ConnectionManager.unsubscribeFromChannel
  cases hl : m.connections.lookup id with
  | none => exact hm
  | some h =>
      refine hm.modify id (fun _ => rfl) (fun _ => rfl) (fun _ => rfl) (fun h hn => hn.filter _) ?_
      refine (hm.channel.remove channel id).congr ?_
      intro ch k
      simp only [OnChannel, DashMap.sat_modify, ConnectionHandle.unsubscribe, List.mem_filter]
      by_cases hk : k = id
      · subst hk; simp [DashMap.sat_of_lookup hl]
      · simp [hk]

theorem Indexed.updateActivity (hm : m.Indexed) (id : Uuid) (now : DateTime) :
    (m.updateActivity id now).Indexed := by
  refine hm.modify id (fun _ => rfl) (fun _ => rfl) (fun _ => rfl) (fun _ hn => hn) ?_
  refine hm.channel.congr ?_
  intro ch k
  symm
  apply DashMap.sat_modify_of_iff
  exact fun h => Iff.rfl

/-- A change of the handle of `id` that stays below the subscription limit. -/
theorem WithinLimits.modify (hm : m.WithinLimits) (id : Uuid) {f : ConnectionHandle → ConnectionHandle}
    {x : InvertedIndex String Uuid}
    (hs : m.limits.maxSubscriptionsPerConnection ≠ 0 → ∀ h, m.connections.lookup id = some h →
      (f h).subscriptions.length ≤ m.limits.maxSubscriptionsPerConnection) :
    WithinLimits { m with connections := m.connections.modify id f, channelIndex := x } where
  total hne := by
    dsimp only
    rw [DashMap.len_modify]
    exact hm.total hne
  perUser := hm.perUser
  perConnection hne id' h' hl := by
    simp only [DashMap.lookup_modify] at hl
    split_ifs at hl with he
    · obtain ⟨h, hh, rfl⟩ := Option.map_eq_some_iff.mp hl
      exact hs hne h hh
    · exact hm.perConnection hne id' h' hl

theorem WithinLimits.subscribeToChannel (hm : m.WithinLimits) (id : Uuid) (channel : String) :
    (m.subscribeToChannel id channel).2.WithinLimits := by
  obtain ⟨e, he⟩ | ⟨h, hl, hroom, he⟩ := m.subscribeToChannel_cases id channel
  · rw [he]; exact hm
  · rw [he]
    refine hm.modify id ?_
    intro hne h' hl'
    rw [hl] at hl'
    cases hl'
    have hlen : (h.subscriptions.insert channel).length ≤ h.subscriptions.length + 1 := by
      rw [List.length_insert]
      split_ifs <;> omega
    simp only [ConnectionHandle.subscriptionCount] at hroom
    simp only [ConnectionHandle.subscribe]
    omega

theorem WithinLimits.unsubscribeFromChannel (hm : m.WithinLimits) (id : Uuid) (channel : String) :
    (m.unsubscribeFromChannel id channel).WithinLimits := by
  unfold ConnectionManager.unsubscribeFromChannel
  cases hl : m.connections.lookup id with
  | none => exact hm
  | some h =>
      refine hm.modify id ?_
      intro hne h' hl'
      exact le_trans (List.length_filter_le _ _) (hm.perConnection hne id h' hl')

theorem WithinLimits.updateActivity (hm : m.WithinLimits) (id : Uuid) (now : DateTime) :
    (m.updateActivity id now).WithinLimits :=
  hm.modify id (fun hne h hl => hm.perConnection hne id h hl)

end ConnectionManager

/-! ### Runs -/

/-- The calls on a manager.  `order` is the order in which the clean-up visits the stale
connections it has found. -/
inductive ManagerCall where
  | register (id : Uuid) (userId tenantId : String) (roles : List String) (now : DateTime)
  | unregister (id : Uuid)
  | subscribeToChannel (id : Uuid) (channel : String)
  | unsubscribeFromChannel (id : Uuid) (channel : String)
  | updateActivity (id : Uuid) (now : DateTime)
  | cleanupStaleConnections (now : DateTime) (timeoutSecs : ℕ) (order : List Uuid)

/-- What a call returns. -/
inductive ManagerReply where
  | registered (r : Except ConnectionError ConnectionHandle)
  | subscribed (r : Except String Unit)
  | removed (count : ℕ)
  | panicked
  | done

/-- The call returned `Err`. -/
def ManagerReply.IsErr : ManagerReply → Prop
  | registered (.error _) => True
  | subscribed (.error _) => True
  | _ => False

namespace ConnectionManager

/-- Execution of one call. -/
def call (m : ConnectionManager) : ManagerCall → ManagerReply × ConnectionManager
  | .register id userId tenantId roles now =>
      let r := m.register id userId tenantId roles now
      (.registered r.1, r.2)
  | .unregister id => (.done, m.unregister id)
  | .subscribeToChannel id channel =>
      let r := m.subscribeToChannel id channel
      (.subscribed r.1, r.2)
  | .unsubscribeFromChannel id channel => (.done, m.unsubscribeFromChannel id channel)
  | .updateActivity id now => (.done, m.updateActivity id now)
  | .cleanupStaleConnections now timeoutSecs order =>
      match m.findStaleConnections now timeoutSecs with
      | none => (.panicked, m)
      | some stale => (.removed stale.length, m.unregisterAll order)

/-- The environment's part of a call: a registration draws an unused identifier, a clean-up
visits exactly the stale connections. -/
def Legal (m : ConnectionManager) : ManagerCall → Prop
  | .register id _ _ _ _ => m.connections.lookup id = none
  | .cleanupStaleConnections now timeoutSecs order =>
      ∀ stale, m.findStaleConnections now timeoutSecs = some stale → order.Perm stale
  | _ => True

/-- The managers that sequences of calls produce from the empty one. -/
inductive Reachable (limits : ConnectionLimits) : ConnectionManager → Prop
  | empty : Reachable limits (withLimits limits)
  | call {m : ConnectionManager} (c : ManagerCall) :
      Reachable limits m → m.Legal c → Reachable limits (m.call c).2

variable {m : ConnectionManager} {limits : ConnectionLimits}

/-- With the iteration order of the map itself the call is `cleanupStaleConnections`. -/
theorem call_cleanup_eq {now : DateTime} {timeoutSecs : ℕ} {stale : List Uuid}
    (h : m.findStaleConnections now timeoutSecs = some stale) :
    m.cleanupStaleConnections now timeoutSecs =
      some (stale.length, (m.call (.cleanupStaleConnections now timeoutSecs stale)).2) := by
  simp [cleanupStaleConnections, call, h]

theorem Indexed.call (hm : m.Indexed) {c : ManagerCall} (hc : m.Legal c) : (m.call c).2.Indexed := by
  cases c with
  | register id userId tenantId roles now =>
      simp only [ConnectionManager.call, register]
      obtain ⟨e, he⟩ | ⟨-, -, he⟩ := m.registerWithLimits_cases id userId tenantId roles now m.limits
      · rw [he]; exact hm
      · rw [he]; exact hm.insertHandle hc rfl
  | unregister id => exact hm.unregister id
  | subscribeToChannel id channel => exact hm.subscribeToChannel id channel
  | unsubscribeFromChannel id channel => exact hm.unsubscribeFromChannel id channel
  | updateActivity id now => exact hm.updateActivity id now
  | cleanupStaleConnections now timeoutSecs order =>
      simp only [ConnectionManager.call]
      split
      · exact hm
      · exact hm.unregisterAll order

theorem WithinLimits.call (hm : m.WithinLimits) {c : ManagerCall} (hc : m.Legal c) :
    (m.call c).2.WithinLimits := by
  cases c with
  | register id userId tenantId roles now =>
      simp only [ConnectionManager.call, register]
      obtain ⟨e, he⟩ | ⟨ht, hu, he⟩ :=
        m.registerWithLimits_cases id userId tenantId roles now m.limits
      · rw [he]; exact hm
      · rw [he]; exact hm.insertHandle hc rfl ht hu
  | unregister id => exact hm.unregister id
  | subscribeToChannel id channel => exact hm.subscribeToChannel id channel
  | unsubscribeFromChannel id channel => exact hm.unsubscribeFromChannel id channel
  | updateActivity id now => exact hm.updateActivity id now
  | cleanupStaleConnections now timeoutSecs order =>
      simp only [ConnectionManager.call]
      split
      · exact hm
      · exact hm.unregisterAll order

/-- A refused call changes nothing. -/
theorem call_of_isErr {c : ManagerCall} (h : (m.call c).1.IsErr) : (m.call c).2 = m := by
  cases c with
  | register id userId tenantId roles now =>
      simp only [call, register] at h ⊢
      obtain ⟨e, he⟩ | ⟨-, -, he⟩ := m.registerWithLimits_cases id userId tenantId roles now m.limits
      · rw [he]
      · rw [he] at h; exact h.elim
  | subscribeToChannel id channel =>
      simp only [call] at h ⊢
      obtain ⟨e, he⟩ | ⟨_, -, -, he⟩ := m.subscribeToChannel_cases id channel
      · rw [he]
      · rw [he] at h; exact h.elim
  | cleanupStaleConnections now timeoutSecs order =>
      simp only [call] at h
      split at h <;> exact h.elim
  | unregister id => exact h.elim
  | unsubscribeFromChannel id channel => exact h.elim
  | updateActivity id now => exact h.elim

theorem limits_unregister (m : ConnectionManager) (id : Uuid) : (m.unregister id).limits = m.limits := by
  unfold ConnectionManager.unregister
  split <;> rfl

theorem limits_unregisterAll (m : ConnectionManager) (ids : List Uuid) :
    (m.unregisterAll ids).limits = m.limits :=
  unregisterAll_induction (P := fun m' => m'.limits = m.limits)
    (fun m' id h => (limits_unregister m' id).trans h) rfl ids

/-- The configured limits never change. -/
theorem limits_call (m : ConnectionManager) (c : ManagerCall) : (m.call c).2.limits = m.limits := by
  cases c with
  | register id userId tenantId roles now =>
      simp only [call, register]
      obtain ⟨e, he⟩ | ⟨-, -, he⟩ := m.registerWithLimits_cases id userId tenantId roles now m.limits
      · rw [he]
      · rw [he]; rfl
  | unregister id => exact limits_unregister m id
  | subscribeToChannel id channel =>
      simp only [call]
      obtain ⟨e, he⟩ | ⟨_, -, -, he⟩ := m.subscribeToChannel_cases id channel <;> rw [he]
  | unsubscribeFromChannel id channel =>
      simp only [call, unsubscribeFromChannel]
      split <;> rfl
  | updateActivity id now => rfl
  | cleanupStaleConnections now timeoutSecs order =>
      simp only [call]
      split
      · rfl
      · exact limits_unregisterAll m order

theorem Reachable.limits_eq (h : Reachable limits m) : m.limits = limits := by
  induction h with
  | empty => rfl
  | call c _ _ ih => rw [limits_call, ih]

theorem Reachable.indexed (h : Reachable limits m) : m.Indexed := by
  induction h with
  | empty => exact indexed_withLimits limits
  | call c _ hc ih => exact ih.call hc

theorem Reachable.withinLimits (h : Reachable limits m) : m.WithinLimits := by
  induction h with
  | empty => exact withinLimits_withLimits limits
  | call c _ hc ih => exact ih.call hc

/-- **The manager is consistent after every sequence of calls**: the indices are those of
the registered connections, the configured limits are respected, and whatever call comes
next leaves everything as it is when it returns an error. -/
theorem reachable_consistent (h : Reachable limits m) :
    m.Indexed ∧ (m.limits = limits ∧ m.WithinLimits) ∧
      ∀ c, (m.call c).1.IsErr → (m.call c).2 = m :=
  ⟨h.indexed, ⟨h.limits_eq, h.withinLimits⟩, fun _ => call_of_isErr⟩

/-- Two registrations of one user, the second refused by a limit of one connection. -/
theorem reachable_consistent_refused :
    let limits : ConnectionLimits := ⟨100, 1, 10⟩
    let m := ((withLimits limits).call (.register 1 "alice" "acme" [] 0)).2
    m.userIndex.ids "alice" = [1] ∧ m.Indexed ∧
      (m.call (.register 2 "alice" "acme" [] 0)).2 = m := by
  intro limits m
  have hm := reachable_consistent (.call (.register 1 "alice" "acme" [] 0)
    (Reachable.empty : Reachable limits _) rfl)
  exact ⟨by decide, hm.1, hm.2.2 _ trivial⟩

end ConnectionManager

end AraNotification
