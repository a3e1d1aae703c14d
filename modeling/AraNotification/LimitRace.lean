import AraNotification.ConnectionRace

/-! # Connection limits under concurrent registrations

`register_with_limits` reads the number of connections and the length of the user's list in
the index, and inserts the new connection several steps later without looking again.
Registrations that check at the same time therefore all find the same free place, and the
limits are exceeded by as many (`beyond_limits`).  The check for the user reads the index,
which is updated only after the insertion, so it misses connections that are already
registered.

`Reserved` is the condition under which the limits hold: a check is passed only when there
is room for the registrations that have passed it before and are not inserted yet.  Each
registration on its way to the map then has its place (`Within`), and the number of
registered connections, in all and for every user, stays within the limits in every state
(`limits_of_reserved`). -/

namespace AraNotification

namespace ConnectionRace

open Interleaving

/-! ### The condition -/

/-- The number of registered connections that satisfy `f`. -/
def registered (f : ConnectionHandle → Bool) (s : Shared) : ℕ := s.manager.connections.values.countP f

/-- The connections of a user. -/
def ofUser (u : String) (h : ConnectionHandle) : Bool := decide (h.userId = u)

/-- A registration that has passed the check of the total and is not inserted yet. -/
def Pc.pastTotal : Pc → Bool
  | .checkUser _ | .insert _ => true
  | _ => false

/-- A registration of the user that has passed both checks and is not inserted yet. -/
def Pc.pastUser (u : String) : Pc → Bool
  | .insert r => decide (r.userId = u)
  | _ => false

/-- A check is passed only with room for all registrations that are on their way to the map. -/
def Reserved (c : Config Shared Pc) : Event Call Unit → Prop
  | .call _ => True
  | .run i _ =>
      let m := c.shared.manager
      match c.threads[i]? with
      | some (.checkTotal _) =>
          m.totalLimitReached m.limits = false →
            m.connections.len + c.threads.countP Pc.pastTotal < m.limits.maxConnections
      | some (.checkUser r) =>
          m.userLimitReached r.userId m.limits = false →
            registered (ofUser r.userId) c.shared + c.threads.countP (Pc.pastUser r.userId) <
              m.limits.maxConnectionsPerUser
      | _ => True

instance (c : Config Shared Pc) (e : Event Call Unit) : Decidable (Reserved c e) := by
  unfold Reserved
  split
  · infer_instance
  · dsimp only
    split <;> infer_instance

/-! ### What a step does to the registered connections -/

section steps
variable {s s' : Shared} {p : Pc} {q : Option Pc}

/-- Only an insertion adds a connection, and nothing changes the user of one. -/
theorem registered_step {f : ConnectionHandle → Bool} (hf : ∀ h h', h.userId = h'.userId → f h = f h')
    (hfree : ∀ id, p.absent = some id → s.manager.connections.lookup id = none)
    (h : step s p = some (s', q)) :
    (∃ r, p = .insert r ∧ registered f s' = registered f s + if f r.handle then 1 else 0) ∨
      registered f s' ≤ registered f s := by
  obtain ⟨-, ⟨r, rfl, -, heq⟩ | ⟨id, r, rfl, -, -, -, heq⟩ | ⟨-, heq | ⟨id, g, hg, heq⟩⟩⟩ :=
    step_connections h
  · left
    refine ⟨r, rfl, ?_⟩
    rw [registered, heq]
    exact DashMap.countP_insert _ (hfree r.id rfl)
  · right
    rw [registered, heq]
    exact DashMap.countP_erase_le _ _
  · right
    rw [registered, heq]
    exact le_rfl
  · right
    rw [registered, heq]
    exact le_of_eq (DashMap.countP_modify _ _ (fun h => hf _ _ (hg h)))

/-- A registration comes to the check of the user by passing that of the total, and to the
insertion by passing that of the user. -/
theorem stage_step (h : step s p = some (s', q)) {r' : Pc} (hr' : r' ∈ q) :
    (∃ r, p = .checkTotal r ∧ r' = .checkUser r ∧ s' = s ∧
      s.manager.totalLimitReached s.manager.limits = false) ∨
    (∃ r, p = .checkUser r ∧ r' = .insert r ∧ s' = s ∧
      s.manager.userLimitReached r.userId s.manager.limits = false) ∨
    (r'.pastTotal = false ∧ ∀ u, r'.pastUser u = false) := by
  cases p with
  | checkTotal r =>
      cases h
      split_ifs at hr' with hlimit <;> cases hr'
      exact .inl ⟨r, rfl, rfl, rfl, by simpa using hlimit⟩
  | checkUser r =>
      cases h
      split_ifs at hr' with hlimit <;> cases hr'
      exact .inr (.inl ⟨r, rfl, rfl, rfl, by simpa using hlimit⟩)
  | unfile id todo unread =>
      rcases todo with _ | ⟨⟨a, k⟩, todo⟩
      · rcases unread with _ | h' <;> cases h <;> cases hr'
        exact .inr (.inr ⟨rfl, fun _ => rfl⟩)
      · cases h
        cases hr'
        split_ifs <;> exact .inr (.inr ⟨rfl, fun _ => rfl⟩)
  | insert r | pushUser r | eraseKey id a k todo unread | writeSubscribe id channel
  | writeUnsubscribe id channel =>
      cases h
      cases hr'
      exact .inr (.inr ⟨rfl, fun _ => rfl⟩)
  | addTenant r | addChannel id channel | eraseUnsubscribed id channel =>
      cases h
      cases hr'
  | removeEntry id =>
      simp only [step] at h
      split_ifs at h
      split at h <;> cases h <;> cases hr'
      exact .inr (.inr ⟨rfl, fun _ => rfl⟩)
  | discardUnsubscribed id channel =>
      simp only [step] at h
      split_ifs at h <;> cases h <;> cases hr'
      exact .inr (.inr ⟨rfl, fun _ => rfl⟩)
  | getForSubscribe id channel =>
      simp only [step] at h
      split at h <;> cases h <;> cases hr'
      split_ifs <;> exact .inr (.inr ⟨rfl, fun _ => rfl⟩)
  | getForUnsubscribe id channel =>
      simp only [step] at h
      split at h <;> cases h <;> cases hr'
      exact .inr (.inr ⟨rfl, fun _ => rfl⟩)
  | countSubscriptions id channel =>
      simp only [step] at h
      split at h
      · cases h
      · split_ifs at h <;> cases h <;> cases hr'
        exact .inr (.inr ⟨rfl, fun _ => rfl⟩)

/-- A step that does not reserve adds at most what it has reserved. -/
theorem registered_le_of_quiet {f : ConnectionHandle → Bool} {stage : Pc → Bool}
    (hf : ∀ h h', h.userId = h'.userId → f h = f h') (hstage : ∀ r, stage (.insert r) = f r.handle)
    (hfree : ∀ id, p.absent = some id → s.manager.connections.lookup id = none)
    (h : step s p = some (s', q)) (hq : ∀ r ∈ q, stage r = false) :
    registered f s' + q.toList.countP stage ≤ registered f s + if stage p then 1 else 0 := by
  have hnone : q.toList.countP stage = 0 := by
    rw [List.countP_eq_zero]
    intro r hr
    rw [hq r (Option.mem_toList.mp hr)]
    exact Bool.false_ne_true
  rw [hnone, Nat.add_zero]
  rcases registered_step hf hfree h with ⟨r, rfl, heq⟩ | hle
  · rw [heq, hstage]
  · omega

end steps

/-! ### Runs -/

section runs
variable {limits : ConnectionLimits} {c : Config Shared Pc}

theorem limits_of_reaches {ok : Config Shared Pc → Event Call Unit → Prop}
    (h : Reaches system ok (initial limits) c) : c.shared.manager.limits = limits := by
  refine h.shared_invariant (P := fun s => s.manager.limits = limits) rfl ?_
  intro c i inp p s q _ hc _ _ hs
  exact (step_connections hs).1.trans hc

theorem free_of_mem (hfresh : Fresh c) {p : Pc} (hp : p ∈ c.threads) :
    ∀ id, p.absent = some id → c.shared.manager.connections.lookup id = none :=
  fun id ha => hfresh.free id (List.mem_filterMap.mpr ⟨p, hp, ha⟩)

/-- Every registration past the check of the total has its place. -/
theorem within_total
    (h : Reaches system (fun c e => Legal c e ∧ Reserved c e) (initial limits) c) :
    Within (registered (fun _ => true)) Pc.pastTotal limits.maxConnections c := by
  refine h.invariant (Nat.zero_le _) ?_
  rintro c e c' hr hc ⟨-, hok⟩ hn
  have hlimits := limits_of_reaches hr
  have hfresh := fresh_of_reaches (fun _ _ he => he.1) hr
  refine hc.next hn ?_ ?_
  · rintro (r | id | ⟨id, channel⟩ | ⟨id, channel⟩) - <;> rfl
  · rintro i inp p s q rfl hp hs
    have hfree := free_of_mem hfresh (List.mem_of_getElem? hp)
    by_cases hq : ∀ r ∈ q, r.pastTotal = false
    · exact .inl (registered_le_of_quiet (fun _ _ _ => rfl) (fun _ => rfl) hfree hs hq)
    · obtain ⟨r', hr', hstage⟩ := by simpa only [not_forall, exists_prop] using hq
      obtain ⟨r, rfl, rfl, rfl, hpass⟩ | ⟨r, rfl, rfl, rfl, -⟩ | ⟨hquiet, -⟩ := stage_step hs hr'
      · right
        rw [Reserved, hp] at hok
        have hroom := hok hpass
        rw [hlimits, DashMap.len_eq_countP] at hroom
        exact ⟨le_rfl, hroom⟩
      · left
        rw [show q = some (.insert r) from hr']
        exact le_rfl
      · exact absurd hquiet hstage

/-- Every registration of a user past its check has its place. -/
theorem within_user
    (h : Reaches system (fun c e => Legal c e ∧ Reserved c e) (initial limits) c) (u : String) :
    Within (registered (ofUser u)) (Pc.pastUser u) limits.maxConnectionsPerUser c := by
  refine h.invariant (Nat.zero_le _) ?_
  rintro c e c' hr hc ⟨-, hok⟩ hn
  have hlimits := limits_of_reaches hr
  have hfresh := fresh_of_reaches (fun _ _ he => he.1) hr
  refine hc.next hn ?_ ?_
  · rintro (r | id | ⟨id, channel⟩ | ⟨id, channel⟩) - <;> rfl
  · rintro i inp p s q rfl hp hs
    have hfree := free_of_mem hfresh (List.mem_of_getElem? hp)
    by_cases hq : ∀ r ∈ q, r.pastUser u = false
    · refine .inl (registered_le_of_quiet (fun h h' heq => ?_) (fun _ => rfl) hfree hs hq)
      rw [ofUser, ofUser, heq]
    · obtain ⟨r', hr', hstage⟩ := by simpa only [not_forall, exists_prop] using hq
      obtain ⟨r, rfl, rfl, rfl, -⟩ | ⟨r, rfl, rfl, rfl, hpass⟩ | ⟨-, hquiet⟩ := stage_step hs hr'
      · exact absurd rfl hstage
      · right
        have huser : r.userId = u := by
          simpa [Pc.pastUser] using hstage
        rw [Reserved, hp] at hok
        have hroom := hok hpass
        rw [hlimits, huser] at hroom
        exact ⟨le_rfl, hroom⟩
      · exact absurd (hquiet u) hstage

/-- **When checks are passed only with room for all registrations on their way, the limits
hold in every state.** -/
theorem limits_of_reserved (_htotal : limits.maxConnections ≠ 0)
    (_huser : limits.maxConnectionsPerUser ≠ 0)
    (h : Reaches system (fun c e => Legal c e ∧ Reserved c e) (initial limits) c) :
    c.shared.manager.connections.len ≤ limits.maxConnections ∧
      ∀ u, registered (ofUser u) c.shared ≤ limits.maxConnectionsPerUser := by
  have hall := within_total h
  refine ⟨?_, fun u => ?_⟩
  · rw [DashMap.len_eq_countP]
    exact le_trans (Nat.le_add_right _ _) hall
  · exact le_trans (Nat.le_add_right _ _) (within_user h u)

end runs

/-! ### Beyond the limits -/

/-- One connection in all and one for every user. -/
def oneConnection : ConnectionLimits := ⟨1, 1, 1⟩

/-- Two registrations of a user whose steps are made in the given order. -/
def twoRegistrations (order : List ℕ) : List (Event Call Unit) :=
  [.call (.register ⟨1, "alice", "acme", [], 0⟩), .call (.register ⟨2, "alice", "acme", [], 0⟩)] ++
    order.map (fun i => .run i ())

/-- The first registration is complete before the second checks, and the second is refused. -/
theorem limits_of_reserved_in_turn :
    ∃ c, Reaches system (fun c e => Legal c e ∧ Reserved c e) (initial oneConnection) c ∧
      c.threads.length = 0 ∧ c.shared.manager.connections.len = 1 ∧
      c.shared.manager.connections.len ≤ oneConnection.maxConnections ∧
        ∀ u, registered (ofUser u) c.shared ≤ oneConnection.maxConnectionsPerUser := by
  have hseen : (system.play (fun c e => Legal c e ∧ Reserved c e) (initial oneConnection)
      (twoRegistrations [0, 0, 0, 0, 0, 0])).any (fun c => decide
        (c.threads.length = 0 ∧ c.shared.manager.connections.len = 1)) = true := by
    decide
  obtain ⟨c, hr, hc⟩ := exists_reaches_of_play hseen
  obtain ⟨hthreads, hlen⟩ := of_decide_eq_true hc
  exact ⟨c, hr, hthreads, hlen, limits_of_reserved (by decide) (by decide) hr⟩

/-- Two registrations that both check before either is inserted exceed both limits. -/
theorem beyond_limits :
    ¬ ∀ (limits : ConnectionLimits) (c : Config Shared Pc), limits.maxConnections ≠ 0 →
        limits.maxConnectionsPerUser ≠ 0 → Reaches system Legal (initial limits) c →
        c.shared.manager.connections.len ≤ limits.maxConnections ∧
          ∀ u, registered (ofUser u) c.shared ≤ limits.maxConnectionsPerUser := by
  intro hall
  have hseen : (system.play Legal (initial oneConnection)
      (twoRegistrations [0, 0, 1, 1, 0, 1])).any (fun c => decide
        (c.shared.manager.connections.len = 2)) = true := by
    decide
  obtain ⟨c, hr, hc⟩ := exists_reaches_of_play hseen
  have hlen : c.shared.manager.connections.len = 2 := of_decide_eq_true hc
  have hle : c.shared.manager.connections.len ≤ 1 := (hall oneConnection c (by decide) (by decide) hr).1
  omega

end ConnectionRace

end AraNotification
