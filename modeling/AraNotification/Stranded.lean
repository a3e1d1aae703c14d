import AraNotification.ReplayCapacity

/-! # Messages left in the queue of an online user

A dispatch first looks for connections of its user and then, finding none, stores the event;
a handler first registers its connection and then drains the queue.  A handler that does
both between the two steps of the dispatch leaves the event in the queue of a user who is
online (`stranded_after_race`), and only a later connection will find it there.

`Unraced` is the condition that excludes this: an event is stored only while no connection
with the same queue key is registered, or while a handler with this key has registered and
has not drained yet.  With it, a nonempty queue of an online user is always the obligation
of such a handler (`covered_of_reaches`), so that nothing is stranded once no dispatch and
no connect is in progress (`queue_empty_of_online`). -/

namespace AraNotification

open Interleaving

/-- A connection whose queue key is `key` is registered. -/
def Online (s : Service) (key : String) : Prop := ∃ h ∈ s.manager.getAllConnections, h.identity.key = key

instance (s : Service) (key : String) : Decidable (Online s key) :=
  inferInstanceAs (Decidable (∃ h ∈ s.manager.getAllConnections, h.identity.key = key))

/-- A handler that has registered and is about to drain the queue of `key`. -/
def Role.Drains (key : String) : Role → Prop
  | .registered _ h => h.identity.key = key
  | _ => False

instance (key : String) (r : Role) : Decidable (r.Drains key) := by
  unfold Role.Drains
  split <;> infer_instance

/-- The step stores an event only for a key that is not online, or that is about to be drained. -/
def Unraced (U : UnicodeTables) (settings : Settings) (c : Config Service Pc) :
    Event ServiceCall Input → Prop
  | .call _ => True
  | .run i inp =>
      match upcoming U settings c i inp with
      | some (.enqueue identity _, _) =>
          Online c.shared identity.key → ∃ p ∈ c.threads, p.role.Drains identity.key
      | _ => True

instance (U : UnicodeTables) (settings : Settings) (c : Config Service Pc)
    (e : Event ServiceCall Input) : Decidable (Unraced U settings c e) := by
  obtain _ | ⟨i, inp⟩ := e <;> dsimp only [Unraced]
  · infer_instance
  · obtain _ | ⟨⟨⟩, _⟩ := upcoming U settings c i inp <;> dsimp only <;> infer_instance

/-- The program is neither a dispatch nor a handler that has not begun to serve. -/
def Role.Settled : Role → Prop
  | .serving _ _ _ | .background | .removing _ => True
  | _ => False

instance (r : Role) : Decidable r.Settled := by
  unfold Role.Settled
  split <;> infer_instance

/-! ### Who is online -/

section online
variable {s : Service} {a : Action} {key : String}

theorem online_iff : Online s key ↔ ∃ id i, s.identityOf id = some i ∧ i.key = key := by
  simp only [Online, ConnectionManager.getAllConnections, DashMap.mem_values, Service.identityOf,
    Option.map_eq_some_iff]
  constructor
  · rintro ⟨h, ⟨id, hl⟩, hk⟩
    exact ⟨id, h.identity, ⟨h, hl, rfl⟩, hk⟩
  · rintro ⟨id, i, ⟨h, hl, rfl⟩, hk⟩
    exact ⟨h, ⟨id, hl⟩, hk⟩

theorem online_congr {s' : Service} (h : ∀ id, s'.identityOf id = s.identityOf id) :
    Online s' key ↔ Online s key := by
  simp only [online_iff, h]

/-- A registration brings its own key online and no other. -/
theorem online_register {transport : Transport} {h : ConnectionHandle}
    (ho : Online (s.apply (.register transport h)) key) : Online s key ∨ h.identity.key = key := by
  obtain ⟨id, i, hi, hk⟩ := online_iff.mp ho
  rw [Service.identityOf_register] at hi
  split_ifs at hi
  · rw [← Option.some.inj hi] at hk
    exact .inr hk
  · exact .inl (online_iff.mpr ⟨id, i, hi, hk⟩)

theorem online_unregister {id : Uuid} (ho : Online (s.apply (.unregister id)) key) : Online s key := by
  obtain ⟨id', i, hi, hk⟩ := online_iff.mp ho
  rw [Service.identityOf_unregister] at hi
  split_ifs at hi
  exact online_iff.mpr ⟨id', i, hi, hk⟩

end online

/-! ### Queues of online users are about to be drained -/

/-- Messages are stored for a user who is online. -/
def Left (s : Service) (key : String) : Prop := s.queue.messages key ≠ [] ∧ Online s key

section invariant
variable {U : UnicodeTables} {settings : Settings} {c : Config Service Pc} {inp : Input}

/-- An action that neither stores nor registers leaves no more messages than before. -/
theorem left_apply {s : Service} {a : Action} {key : String} (hq : s.queue.config.enabled = true)
    (he : ∀ i m, a ≠ .enqueue i m) (hr : a.registeredId = none) (h : Left (s.apply a) key) :
    Left s key := by
  obtain ⟨hm, ho⟩ := h
  refine ⟨?_, ?_⟩
  · by_cases hd : ∃ key' now, a = .drain key' now
    · obtain ⟨key', now, rfl⟩ := hd
      rw [Service.messages_apply_drain hq] at hm
      split_ifs at hm
      · exact absurd rfl hm
      · exact hm
    · rwa [Service.queue_apply he (fun key' now hk => hd ⟨key', now, hk⟩)] at hm
  · by_cases hu : ∃ id, a = .unregister id
    · obtain ⟨id, rfl⟩ := hu
      exact online_unregister ho
    · exact (online_congr (Service.identityOf_apply hr (fun id hid => hu ⟨id, hid⟩))).mp ho

/-- A handler stops being about to drain only by draining. -/
theorem Move.drains {s : Service} {r : Role} {a : Action} {q : Option Role} {key : String}
    (h : Move settings inp s r a q) (hd : r.Drains key) :
    (∃ now, a = .drain key now) ∨ q = some r := by
  cases h with
  | drain => exact .inl ⟨_, by rw [← hd]⟩
  | quiet ha => exact .inr rfl
  | _ => exact hd.elim

/-- A move that stores belongs to a dispatch. -/
theorem Move.not_drains_of_enqueue {s : Service} {r : Role} {q : Option Role} {i : Identity}
    {m : StoredMessage} {key : String} (h : Move settings inp s r (.enqueue i m) q) :
    ¬ r.Drains key := by
  intro hd
  rcases h.drains hd with ⟨now, hk⟩ | rfl
  · cases hk
  · generalize hr : some r = q at h
    cases h with
    | quiet ha => exact ha
    | enqueue hs => exact hd
    | «end» ha => rcases ha with ha | ha <;> cases ha

/-- With the queue enabled, a handler that registers goes on to drain. -/
theorem Move.drains_of_register {s : Service} {r : Role} {q : Option Role} {transport : Transport}
    {h : ConnectionHandle} (hm : Move settings inp s r (.register transport h) q)
    (hq : s.queue.config.enabled = true) : r = .connecting ∧ q = some (.registered transport h) := by
  cases hm with
  | quiet ha => exact ha.elim
  | register hid hr =>
      rcases hr with rfl | ⟨hoff, -⟩
      · exact ⟨rfl, rfl⟩
      · rw [MemoryQueueBackend.isEnabled, hq] at hoff
        cases hoff
  | «end» ha => rcases ha with ha | ha <;> cases ha

/-- Every nonempty queue of an online user is about to be drained. -/
theorem covered_of_reaches (henabled : settings.queue.enabled = true)
    (h : Reaches (system U settings) (fun c e => Legal c e ∧ Unraced U settings c e) (initial settings) c) :
    Covered Left (fun p key => p.role.Drains key) c := by
  refine h.invariant (fun key hb => absurd (MemoryQueueBackend.messages_new _ key) hb.1) ?_
  intro c e c' hr hc he hn
  have hq := enabled_of_reaches henabled hr
  refine hc.next hn ?_
  rintro i inp p s q rfl hp hs key hleft
  obtain ⟨a, hstep, rfl, hmove⟩ := system_move hs
  have hup : upcoming U settings c i inp = some (a, q) := (upcoming_eq hp).trans hstep
  by_cases henq : ∃ i m, a = .enqueue i m
  · obtain ⟨j, m, rfl⟩ := henq
    have hun := he.2
    simp only [Unraced, hup] at hun
    have honline : Online c.shared key := (online_congr (Service.identityOf_apply rfl (by simp))).mp hleft.2
    by_cases hkey : key = j.key
    · subst hkey
      obtain ⟨r, hr', hd⟩ := hun honline
      refine .inr (.inl ⟨r, hr', ?_, hd⟩)
      rintro rfl
      exact hmove.not_drains_of_enqueue hd
    · refine .inl ⟨⟨?_, honline⟩, hmove.not_drains_of_enqueue⟩
      have hmessages := hleft.1
      rwa [Service.messages_apply_enqueue hq, if_neg hkey] at hmessages
  · by_cases hreg : ∃ transport h, a = .register transport h
    · obtain ⟨transport, h, rfl⟩ := hreg
      obtain ⟨hrole, hq'⟩ := hmove.drains_of_register hq
      rcases online_register hleft.2 with honline | hkey
      · refine .inl ⟨⟨hleft.1, honline⟩, ?_⟩
        rw [hrole]
        exact id
      · obtain ⟨p', rfl, hp'⟩ := Option.map_eq_some_iff.mp hq'
        refine .inr (.inr ⟨p', rfl, ?_⟩)
        rw [hp']
        exact hkey
    · have hregId : a.registeredId = none := by
        cases a with
        | register transport h => exact absurd ⟨transport, h, rfl⟩ hreg
        | _ => rfl
      have hold := left_apply hq (fun i m h => henq ⟨i, m, h⟩) hregId hleft
      by_cases hd : p.role.Drains key
      · rcases hmove.drains hd with ⟨now, rfl⟩ | hsame
        · have hmessages := hleft.1
          rw [Service.messages_apply_drain hq, if_pos rfl] at hmessages
          exact absurd rfl hmessages
        · obtain ⟨p', rfl, hp'⟩ := Option.map_eq_some_iff.mp hsame
          refine .inr (.inr ⟨p', rfl, ?_⟩)
          rw [hp']
          exact hd
      · exact .inl ⟨hold, hd⟩

/-- **In an unraced run nothing is stranded**: when no dispatch and no connect is in progress, the
queue of every online user is empty. -/
theorem queue_empty_of_online (henabled : settings.queue.enabled = true)
    (h : Reaches (system U settings) (fun c e => Legal c e ∧ Unraced U settings c e) (initial settings) c)
    (hsettled : ∀ p ∈ c.threads, p.role.Settled) {id : Uuid} {i : Identity}
    (honline : c.shared.identityOf id = some i) : c.shared.queue.messages i.key = [] := by
  have hcovered := covered_of_reaches henabled h
  have hquiet : ∀ p ∈ c.threads, ∀ key, ¬ p.role.Drains key := by
    intro p hp key hd
    have hs := hsettled p hp
    generalize p.role = r at hd hs
    cases r with
    | registered transport h => exact hs
    | _ => exact hd
  by_contra hne
  exact hcovered.quiescent hquiet i.key ⟨hne, online_iff.mpr ⟨id, i, honline, rfl⟩⟩

end invariant

/-! ### Two races -/

section schedules

/-- Every dispatch goes to one user and names the tenant. -/
def OnlyTo (i : Identity) : Event ServiceCall Input → Prop
  | .call (.dispatch call) => call.target = .user i.userId ∧ call.tenantId = some i.tenantId
  | _ => True

instance (i : Identity) (e : Event ServiceCall Input) : Decidable (OnlyTo i e) := by
  obtain ⟨⟨⟩⟩ | _ := e <;> dsimp only [OnlyTo] <;> infer_instance

/-- A dispatch finds `bob` of `acme` offline, and `bob` connects and registers. -/
def raceSchedule : List (Event ServiceCall Input) :=
  [.call (.dispatch ⟨maintenance, .user "bob", some "acme", true⟩), .run 0 tick, .run 0 tick,
    .call (.connect .webSocket ⟨"bob", [], some "acme"⟩), .run 1 tick]

/-- The event is stored before the new connection drains, and the replay finds it. -/
theorem queue_empty_of_online_bob :
    ∃ c, Reaches (system .ascii .withQueue) (fun c e => Legal c e ∧ Unraced .ascii .withQueue c e)
        (initial .withQueue) c ∧
      (∀ p ∈ c.threads, p.role.Settled) ∧ c.shared.identityOf 0 = some ⟨"acme", "bob"⟩ ∧
      c.shared.enqueuedIds = [0] ∧ c.shared.queue.messages (Identity.key ⟨"acme", "bob"⟩) = [] := by
  have hseen : ((system .ascii .withQueue).play (fun c e => Legal c e ∧ Unraced .ascii .withQueue c e)
      (initial .withQueue) (raceSchedule ++ [.run 0 tick, .run 0 tick, .run 0 tick, .run 0 tick,
        .run 0 tick])).any (fun c => decide ((∀ p ∈ c.threads, p.role.Settled) ∧
          c.shared.identityOf 0 = some ⟨"acme", "bob"⟩ ∧ c.shared.enqueuedIds = [0])) = true := by
    decide +kernel
  obtain ⟨c, hr, hc⟩ := exists_reaches_of_play hseen
  obtain ⟨hsettled, honline, hstored⟩ := of_decide_eq_true hc
  exact ⟨c, hr, hsettled, honline, hstored, queue_empty_of_online rfl hr hsettled honline⟩

/-- The new connection drains before the event is stored, and the event stays in the queue. -/
theorem stranded_after_race :
    ¬ ∀ (U : UnicodeTables) (settings : Settings), settings.Accepted U → settings.queue.enabled = true →
        ∀ i c, Reaches (system U settings) (fun c e => Legal c e ∧ OnlyTo i e) (initial settings) c →
          (∀ p ∈ c.threads, p.role.Settled) → ∀ id, c.shared.identityOf id = some i →
            c.shared.queue.messages i.key = [] := by
  intro hall
  have hseen : ((system .ascii .withQueue).play (fun c e => Legal c e ∧ OnlyTo ⟨"acme", "bob"⟩ e)
      (initial .withQueue) (raceSchedule ++ [.run 1 tick, .run 1 tick, .run 0 tick, .run 0 tick])).any
        (fun c => decide ((∀ p ∈ c.threads, p.role.Settled) ∧
          c.shared.identityOf 0 = some ⟨"acme", "bob"⟩ ∧
          (c.shared.queue.messages (Identity.key ⟨"acme", "bob"⟩)).length = 1)) = true := by
    decide +kernel
  obtain ⟨c, hr, hc⟩ := exists_reaches_of_play hseen
  obtain ⟨hsettled, honline, hlen⟩ := of_decide_eq_true hc
  have hempty := hall .ascii .withQueue Settings.accepted_withQueue rfl _ c hr hsettled 0 honline
  rw [hempty] at hlen
  cases hlen

end schedules

end AraNotification
