import AraNotification.OpenSocket

/-! # The order of deliveries on a connection

A queue keeps its order and a replay puts its backlog on the channel in order.  But a
connection is found by dispatches as soon as it is registered, before its backlog has been
replayed, so that a notification sent to it directly overtakes the notifications that were
queued before it was sent (`overtaken_by_direct_send`).

`Precedes x y` says that the dispatch of `x` had returned when the dispatch of `y` began.
`Orderly E` is the condition under which the events of `E` (those dispatched to one user, for
example) keep their order: such a notification is put directly on a channel only when none
that precedes it is still waiting to be replayed there, in the backlog of the connection's
handler or, before the handler has drained, in the queue.  The invariant (`Lined`) is that
what has been put on a channel, followed by what is still to be replayed to it, is in order,
and likewise every queue. -/

namespace AraNotification

open Interleaving

/-! ### Definitions -/

/-- The dispatch of `x` returned before the dispatch of `y` began. -/
def Precedes (x y : Uuid) : List Action → Prop
  | [] => False
  | a :: history => (a.returnedId = some x ∧ y ∈ history.filterMap Action.beganId) ∨ Precedes x y history

instance decidablePrecedes (x y : Uuid) : ∀ history, Decidable (Precedes x y history)
  | [] => inferInstanceAs (Decidable False)
  | a :: history =>
      have := decidablePrecedes x y history
      inferInstanceAs (Decidable
        ((a.returnedId = some x ∧ y ∈ history.filterMap Action.beganId) ∨ Precedes x y history))

/-- The event that a dispatch or a replay puts on a channel. -/
def Action.placedId (id : Uuid) : Action → Option Uuid
  | .place id' m _ .direct | .place id' m _ (.replay _) => if id' = id then m.event.map (·.id) else none
  | _ => none

/-- The event that is stored in a queue. -/
def Action.storedId : Action → Option Uuid
  | .enqueue _ m => some m.event.id
  | _ => none

namespace Service
variable (s : Service)

/-- The events that dispatches and replays have put on a channel, in order. -/
def placedIds (id : Uuid) : List Uuid := s.history.filterMap (Action.placedId id)

/-- The events in a queue, oldest first. -/
def queueIds (key : String) : List Uuid := (s.queue.messages key).map (·.event.id)

end Service

/-- The events that are still to be replayed on a channel. -/
def Role.pending (s : Service) (id : Uuid) : Role → List Uuid
  | .registered _ h => if h.id = id then s.queueIds h.identity.key else []
  | .replaying _ h _ backlog => if h.id = id then backlog.map (·.event.id) else []
  | _ => []

/-- The step puts no notification of `E` directly on a channel where one of `E` that precedes it is
still to be replayed. -/
def Orderly (E : Uuid → Prop) (U : UnicodeTables) (settings : Settings) (c : Config Service Pc) :
    Event ServiceCall Input → Prop
  | .call _ => True
  | .run i inp =>
      match upcoming U settings c i inp with
      | some (.place id m _ .direct, _) => ∀ p ∈ c.threads, ∀ x ∈ p.role.pending c.shared id,
          ∀ e ∈ m.event, E x → E e.id → ¬ Precedes x e.id c.shared.history
      | _ => True

instance (E : Uuid → Prop) [DecidablePred E] (U : UnicodeTables) (settings : Settings)
    (c : Config Service Pc) (e : Event ServiceCall Input) : Decidable (Orderly E U settings c e) := by
  obtain _ | ⟨i, inp⟩ := e <;> dsimp only [Orderly]
  · infer_instance
  · obtain _ | ⟨⟨⟩, _⟩ := upcoming U settings c i inp
    case some.place origin => obtain _ | _ := origin <;> dsimp only <;> infer_instance
    all_goals dsimp only; infer_instance

/-! ### Events in order -/

section ordered
variable {E : Uuid → Prop} {H : List Action} {a : Action} {x y : Uuid} {l l₁ l₂ : List Uuid}

theorem precedes_append :
    Precedes x y (H ++ [a]) ↔
      Precedes x y H ∨ (x ∈ H.filterMap Action.returnedId ∧ a.beganId = some y) := by
  induction H with
  | nil => simp [Precedes]
  | cons b H ih =>
      have hbegan : y ∈ (H ++ [a]).filterMap Action.beganId ↔
          y ∈ H.filterMap Action.beganId ∨ a.beganId = some y := by
        cases h : a.beganId <;> simp [h, eq_comm]
      have hreturned : x ∈ (b :: H).filterMap Action.returnedId ↔
          b.returnedId = some x ∨ x ∈ H.filterMap Action.returnedId := by
        cases h : b.returnedId <;> simp [h, eq_comm]
      rw [List.cons_append, Precedes, Precedes, ih, hbegan, hreturned, and_or_left, or_and_right, or_or_or_comm]

theorem returned_of_precedes (h : Precedes x y H) : x ∈ H.filterMap Action.returnedId := by
  induction H with
  | nil => exact h.elim
  | cons b H ih =>
      rcases h with ⟨hb, -⟩ | h
      · exact List.mem_filterMap.mpr ⟨b, List.mem_cons_self, hb⟩
      · obtain ⟨b', hb', hx⟩ := List.mem_filterMap.mp (ih h)
        exact List.mem_filterMap.mpr ⟨b', List.mem_cons_of_mem _ hb', hx⟩

/-- The events have begun, and none of `E` comes before one of `E` that precedes it. -/
structure Ordered (E : Uuid → Prop) (H : List Action) (l : List Uuid) : Prop where
  pairwise : l.Pairwise (fun x y => E x → E y → ¬ Precedes y x H)
  begun : ∀ x ∈ l, x ∈ H.filterMap Action.beganId

theorem Ordered.nil : Ordered E H [] := ⟨List.Pairwise.nil, by simp⟩

theorem Ordered.sublist (h : Ordered E H l) (hs : l₁.Sublist l) : Ordered E H l₁ :=
  ⟨h.pairwise.sublist hs, fun x hx => h.begun x (hs.subset hx)⟩

/-- The order of events that have begun does not depend on what begins later. -/
theorem Ordered.append (h : Ordered E H l) (ha : ∀ x ∈ a.beganId, x ∉ H.filterMap Action.beganId) :
    Ordered E (H ++ [a]) l := by
  constructor
  · refine h.pairwise.imp_of_mem ?_
    intro x y hx hy hnot hex hey hp
    rcases precedes_append.mp hp with hp | ⟨-, hb⟩
    · exact hnot hex hey hp
    · exact ha x hb (h.begun x hx)
  · intro x hx
    rw [List.filterMap_append]
    exact List.mem_append_left _ (h.begun x hx)

/-- An event whose dispatch is running may be put where nothing after it precedes it. -/
theorem Ordered.insert (h : Ordered E H (l₁ ++ l₂)) {o : Option Uuid}
    (hbegun : ∀ x ∈ o, x ∈ H.filterMap Action.beganId)
    (hrunning : ∀ x ∈ o, x ∉ H.filterMap Action.returnedId)
    (hafter : ∀ x ∈ o, ∀ y ∈ l₂, E x → E y → ¬ Precedes y x H) : Ordered E H (l₁ ++ (o.toList ++ l₂)) := by
  cases o with
  | none => exact h
  | some x =>
      obtain ⟨hpair, hmem⟩ := h
      rw [List.pairwise_append] at hpair
      obtain ⟨h₁, h₂, h₁₂⟩ := hpair
      have hnot : ∀ y, ¬ Precedes x y H := fun y hp => hrunning x rfl (returned_of_precedes hp)
      constructor
      · rw [Option.toList_some, List.singleton_append, List.pairwise_append, List.pairwise_cons]
        refine ⟨h₁, ⟨hafter x rfl, h₂⟩, ?_⟩
        intro y hy z hz
        rcases List.mem_cons.mp hz with rfl | hz
        · exact fun _ _ => hnot y
        · exact h₁₂ y hy z hz
      · intro y hy
        rw [Option.toList_some, List.singleton_append, List.mem_append, List.mem_cons] at hy
        rcases hy with hy | rfl | hy
        · exact hmem y (List.mem_append_left _ hy)
        · exact hbegun y rfl
        · exact hmem y (List.mem_append_right _ hy)

end ordered

/-! ### Dispatches begin once and return once -/

/-- The event of a dispatch that has been called and has not returned. -/
def Role.eventId : Role → Option Uuid
  | .waiting call => some call.event.id
  | .dispatching e _ => some e.id
  | _ => none

/-- A dispatch that waits has not begun, and one that runs has. -/
def Role.Begun (s : Service) : Role → Prop
  | .waiting call => call.event.id ∉ s.beganIds
  | .dispatching e _ => e.id ∈ s.beganIds
  | _ => True

section dispatches
variable {U : UnicodeTables} {settings : Settings} {c : Config Service Pc} {inp : Input} {s : Service}
  {r : Role} {a : Action} {q : Option Role} {x : Uuid}
  {ok : Config Service Pc → Event ServiceCall Input → Prop}

theorem Move.waiting_of_beganId (h : Move settings inp s r a q) (hx : a.beganId = some x) :
    ∃ call, r = .waiting call ∧ call.event.id = x := by
  cases h with
  | begin hs he => exact ⟨_, rfl, Option.some.inj hx⟩
  | quiet ha => cases a <;> first | exact ha.elim | cases hx
  | «end» ha => rcases ha with rfl | rfl <;> cases hx
  | _ => cases hx

theorem Move.dispatching_of_returnedId (h : Move settings inp s r a q) (hx : a.returnedId = some x) :
    (∃ e since, r = .dispatching e since ∧ e.id = x) ∧ q = none := by
  cases h with
  | «return» hr => exact ⟨⟨_, _, rfl, hr.symm.trans (Option.some.inj hx)⟩, rfl⟩
  | quiet ha => cases a <;> first | exact ha.elim | cases hx
  | «end» ha => rcases ha with rfl | rfl <;> cases hx
  | _ => cases hx

/-- A dispatch keeps its event. -/
theorem Move.eventId (h : Move settings inp s r a q) (hx : x ∈ q.bind Role.eventId) : x ∈ r.eventId := by
  cases h with
  | register hid hr => rcases hr with rfl | ⟨-, rfl⟩ <;> cases hx
  | unregister hr => rcases hr with rfl | rfl <;> cases hx
  | _ => first | exact hx | cases hx

/-- The next situation of a dispatch has begun. -/
theorem Move.begun {r' : Role} (h : Move settings inp s r a (some r')) (hr : r.Begun s) :
    r'.Begun (s.apply a) := by
  have hmono : ∀ {x}, x ∈ s.beganIds → x ∈ (s.apply a).beganIds :=
    fun hx => Service.mem_filterMap_apply.mpr (.inl hx)
  cases h with
  | quiet ha =>
      cases r with
      | waiting call =>
          intro hx
          rcases Service.mem_filterMap_apply.mp hx with hx | hx
          · exact hr hx
          · cases a <;> first | exact ha.elim | cases hx
      | dispatching e since => exact hmono hr
      | _ => trivial
  | begin hs he => exact Service.mem_filterMap_apply.mpr (.inr rfl)
  | settle | enqueue | place => exact hmono hr
  | register hid hreg => rcases hreg with rfl | ⟨-, rfl⟩ <;> trivial
  | unregister hreg =>
      rcases hreg with heq | heq
      · cases heq
        trivial
      · cases heq
  | _ => trivial

/-- What is known about the running dispatches. -/
structure Dispatches (c : Config Service Pc) : Prop where
  tokens : Tokens (fun p => p.role.eventId) (fun s x => x ∉ s.returnedIds) c
  begun : Holds (fun s p => p.role.Begun s) c
  returned : ∀ x ∈ c.shared.returnedIds, x ∈ c.shared.beganIds

theorem waitingId_of_role {p : Pc} {call : DispatchCall} (h : p.role = .waiting call) :
    p.waitingId = some call.event.id := by
  cases p with
  | begin call' =>
      cases h
      rfl
  | socket sock => simp [Pc.role] at h
  | _ => cases h

/-- The event of a new dispatch is not that of a running one. -/
theorem Dispatches.new (hc : Dispatches c) {call : DispatchCall}
    (hl : Legal c (.call (.dispatch call))) :
    call.event.id ∉ c.shared.returnedIds ∧
      call.event.id ∉ c.threads.filterMap (fun p => p.role.eventId) := by
  obtain ⟨hbegan, hwaiting⟩ := hl
  refine ⟨fun hx => hbegan (hc.returned _ hx), fun hx => ?_⟩
  obtain ⟨p, hp, hid⟩ := List.mem_filterMap.mp hx
  have hb : p.role.Begun c.shared := hc.begun p hp
  generalize hrole : p.role = r at hid hb
  cases r with
  | waiting call' =>
      refine hwaiting (List.mem_filterMap.mpr ⟨p, hp, ?_⟩)
      rw [waitingId_of_role hrole]
      exact hid
  | dispatching e since =>
      rw [← Option.some.inj hid] at hbegan
      exact hbegan hb
  | _ => cases hid

/-- A step returns only its own dispatch, and ends with it. -/
theorem Move.returnedIds (h : Move settings inp s r a q) (hx : x ∈ (s.apply a).returnedIds) :
    x ∈ s.returnedIds ∨ (x ∈ r.eventId ∧ q = none) := by
  rcases Service.mem_filterMap_apply.mp hx with hx | hx
  · exact .inl hx
  · obtain ⟨⟨e, since, rfl, rfl⟩, hq⟩ := h.dispatching_of_returnedId hx
    exact .inr ⟨rfl, hq⟩

/-- The other dispatches that wait still have not begun. -/
theorem Role.Begun.other_step {r' : Role} (hb : r'.Begun s) (h : Move settings inp s r a q)
    (hdifferent : ∀ x ∈ r.eventId, x ∉ r'.eventId) : r'.Begun (s.apply a) := by
  cases r' with
  | waiting call =>
      intro hx
      rcases Service.mem_filterMap_apply.mp hx with hx | hx
      · exact hb hx
      · obtain ⟨call', rfl, hid⟩ := h.waiting_of_beganId hx
        exact hdifferent call.event.id (congrArg some hid) rfl
  | dispatching e since => exact Service.mem_filterMap_apply.mpr (.inl hb)
  | _ => trivial

theorem dispatches_of_reaches (hok : ∀ c e, ok c e → Legal c e)
    (h : Reaches (system U settings) ok (initial settings) c) : Dispatches c := by
  refine h.invariant ⟨⟨by simp [initial], by simp [initial]⟩, by simp [Holds, initial],
    by simp [initial, Service.returnedIds]⟩ ?_
  intro c e c' _ hc he hn
  have hlegal := hok _ _ he
  refine ⟨hc.tokens.next hn ?_ ?_, hc.begun.next hn ?_ ?_, ?_⟩
  · rintro op rfl x hx
    cases op with
    | dispatch call =>
        obtain rfl := Option.some.inj hx
        exact hc.new hlegal
    | _ => cases hx
  · rintro i inp p s q rfl hp hs hown
    obtain ⟨a, -, rfl, hmove⟩ := system_move hs
    refine ⟨fun x hx => ?_, fun x hfree hnot hx => ?_⟩
    · have hx' : x ∈ (q.map Pc.role).bind Role.eventId := by
        cases q with
        | none => cases hx
        | some p' => exact hx
      have hown' := hmove.eventId hx'
      refine ⟨.inl hown', fun hret => ?_⟩
      rcases hmove.returnedIds hret with hret | ⟨-, hq⟩
      · exact hown x hown' hret
      · rw [hq] at hx'
        cases hx'
    · rcases hmove.returnedIds hx with hx | ⟨hx, -⟩
      · exact hfree hx
      · exact hnot hx
  · rintro op rfl
    cases op with
    | dispatch call => exact hlegal.1
    | _ => trivial
  · rintro i inp p s q l₁ l₂ rfl hp hl hs
    obtain ⟨a, -, rfl, hmove⟩ := system_move hs
    refine ⟨?_, fun p' hp' hb => ?_⟩
    · rintro p' hp'
      obtain rfl : q = some p' := hp'
      exact hmove.begun (hc.begun p (List.mem_of_getElem? hp))
    · exact hb.other_step hmove (fun x hx => hc.tokens.not_mem_of_split hl hp' hx)
  · obtain ⟨op, rfl, rfl⟩ | ⟨i, inp, p, s, q, l₁, l₂, rfl, hp, hs, hl, rfl⟩ := System.next_cases hn
    · exact hc.returned
    · obtain ⟨a, -, rfl, hmove⟩ := system_move hs
      intro x hx
      refine Service.mem_filterMap_apply.mpr (.inl ?_)
      rcases Service.mem_filterMap_apply.mp hx with hx | hx
      · exact hc.returned x hx
      · obtain ⟨⟨e, since, hrole, rfl⟩, -⟩ := hmove.dispatching_of_returnedId hx
        have hb : p.role.Begun c.shared := hc.begun p (List.mem_of_getElem? hp)
        rw [hrole] at hb
        exact hb

end dispatches

/-! ### What a step does to the lines of events -/

section effects
variable {U : UnicodeTables} {settings : Settings} {c : Config Service Pc} {inp : Input} {s : Service}
  {r : Role} {a : Action} {q : Option Role} {x id : Uuid}
  {ok : Config Service Pc → Event ServiceCall Input → Prop}

theorem placedIds_apply : (s.apply a).placedIds id = s.placedIds id ++ (a.placedId id).toList := by
  rw [Service.placedIds, Service.history_apply, List.filterMap_append]
  cases h : a.placedId id <;> simp [Service.placedIds, h]

/-- A queue grows at its end only, by what is stored. -/
theorem queueIds_apply (key : String) :
    ((s.apply a).queueIds key).Sublist (s.queueIds key ++ a.storedId.toList) := by
  have hstored : ((a.storedUnder key).toList.map (·.event.id)).Sublist a.storedId.toList := by
    cases a with
    | enqueue i m =>
        simp only [Action.storedUnder, Action.storedId]
        split_ifs
        · exact List.Sublist.refl _
        · exact List.nil_sublist _
    | _ => exact List.Sublist.refl _
  have hsub := (Service.messages_apply_sublist (s := s) (a := a) key).map (·.event.id)
  rw [List.map_append] at hsub
  exact hsub.trans (hstored.append_left _)

/-- What is pending for a handler that takes no step grows with its queue only. -/
theorem pending_apply :
    (r.pending (s.apply a) id).Sublist (r.pending s id ++ a.storedId.toList) := by
  cases r with
  | registered transport h =>
      simp only [Role.pending]
      split_ifs
      · exact queueIds_apply _
      · exact List.nil_sublist _
  | _ => exact List.sublist_append_left _ _

theorem connection_of_pending (h : x ∈ r.pending s id) : id ∈ r.connection := by
  cases r with
  | registered transport h' | replaying transport h' start backlog =>
      simp only [Role.pending] at h
      split_ifs at h with hid
      · exact congrArg some hid
      · cases h
  | _ => cases h

theorem Move.running_of_storedId (h : Move settings inp s r a q) (hx : x ∈ a.storedId) :
    ∃ e since, r = .dispatching e since ∧ e.id = x := by
  cases h with
  | enqueue hs => exact ⟨_, _, rfl, Option.some.inj hx⟩
  | quiet ha => cases a <;> first | exact ha.elim | cases hx
  | «end» ha => rcases ha with rfl | rfl <;> cases hx
  | _ => cases hx

/-- What is put on a channel is the event of a dispatch or the first of a backlog. -/
theorem Move.source_of_placedId (h : Move settings inp s r a q) (hx : x ∈ a.placedId id) :
    s.hasRoom id = true ∧
      ((∃ e since m, r = .dispatching e since ∧ e.id = x ∧ a = .place id m inp.now .direct ∧
          m.event = some e) ∨
        (id ∈ r.connection ∧ ∃ l, r.pending s id = x :: l)) := by
  cases h with
  | place hr hm =>
      simp only [Action.placedId] at hx
      split_ifs at hx with hid
      · subst hid
        rw [hm] at hx
        exact ⟨hr, .inl ⟨_, _, _, rfl, Option.some.inj hx, rfl, hm⟩⟩
      · cases hx
  | @replay transport h start m backlog hr =>
      simp only [Action.placedId] at hx
      split_ifs at hx with hid
      · subst hid
        obtain rfl := Option.some.inj hx
        refine ⟨hr, .inr ⟨rfl, backlog.map (·.event.id), ?_⟩⟩
        simp only [Role.pending, if_true, List.map_cons]
      · cases hx
  | quiet ha => cases a <;> first | exact ha.elim | cases hx
  | «end» ha => rcases ha with rfl | rfl <;> cases hx
  | _ => cases hx

/-- The handler itself drains its queue, replays from the front or gives up what is pending; a
new one finds its queue. -/
theorem Move.pending {r' : Role} (h : Move settings inp s r a (some r')) (id : Uuid) :
    ((a.placedId id).toList ++ r'.pending (s.apply a) id).Sublist (r.pending s id) ∨
      r'.pending (s.apply a) id = [] ∨
      (∃ transport h, a = .register transport h ∧ r' = .registered transport h ∧ r = .connecting ∧
        h.id = inp.fresh) := by
  cases h with
  | quiet ha =>
      left
      have hnone : a.placedId id = none := by
        cases a <;> first | exact ha.elim | rfl
      have hqueue := Service.queue_quiet (s := s) ha
      rw [hnone, Option.toList_none, List.nil_append]
      cases r with
      | registered transport h' =>
          simp only [Role.pending, Service.queueIds, hqueue]
          exact List.Sublist.refl _
      | _ => exact List.Sublist.refl _
  | drain =>
      left
      simp only [Role.pending, Action.placedId, Option.toList_none, List.nil_append]
      split_ifs with hid
      · refine List.Sublist.map _ ?_
        by_cases hq : s.queue.config.enabled = true
        · rw [MemoryQueueBackend.drained_messages hq]
          exact List.filter_sublist
        · rw [MemoryQueueBackend.drain, if_neg hq]
          exact List.nil_sublist _
      · exact List.nil_sublist _
  | replay hr =>
      left
      simp only [Role.pending, Action.placedId]
      split_ifs with hid
      · exact List.Sublist.refl _
      · exact List.Sublist.refl _
  | skip =>
      left
      simp only [Role.pending, Action.placedId, Option.toList_none, List.nil_append]
      split_ifs with hid
      · exact List.sublist_cons_self _ _
      · exact List.Sublist.refl _
  | register hid hr =>
      rcases hr with rfl | ⟨-, rfl⟩
      · exact .inr (.inr ⟨_, _, rfl, rfl, rfl, hid⟩)
      · exact .inr (.inl rfl)
  | unregister hr =>
      rcases hr with heq | heq
      · cases heq
        exact .inr (.inl rfl)
      · cases heq
  | _ => exact .inr (.inl rfl)

/-- A channel exists because it did before or because its connection has just been registered. -/
theorem channel_of_apply (h : ((s.apply a).channels.lookup id).isSome = true) :
    (s.channels.lookup id).isSome = true ∨ a.registeredId = some id := by
  have hmodify : ∀ (id' : Uuid) (f : Channel → Channel),
      ((DashMap.modify s.channels id' f).lookup id).isSome = true → (s.channels.lookup id).isSome = true := by
    intro id' f hf
    rw [DashMap.lookup_modify] at hf
    split_ifs at hf with hid
    · subst hid
      simpa using hf
    · exact hf
  cases a with
  | register transport h' =>
      simp only [Service.apply, DashMap.lookup_insert] at h
      split_ifs at h with hid
      · exact .inr (congrArg some hid.symm)
      · exact .inl h
  | place | deliver | sendEnded => exact .inl (hmodify _ _ h)
  | _ => exact .inl h

/-- Only connections that were registered have channels, and only these have been put events on. -/
theorem registered_of_placed (h : Reaches (system U settings) ok (initial settings) c) :
    (∀ id, (c.shared.channels.lookup id).isSome = true → id ∈ c.shared.registeredIds) ∧
      ∀ id, ∀ x ∈ c.shared.placedIds id, id ∈ c.shared.registeredIds := by
  refine service_invariant (P := fun s =>
    (∀ id, (s.channels.lookup id).isSome = true → id ∈ s.registeredIds) ∧
      ∀ id, ∀ x ∈ s.placedIds id, id ∈ s.registeredIds) h
    ⟨by simp [initial], by simp [initial, Service.placedIds]⟩ ?_
  intro c i inp p a q _ hc _ _ _ hmove
  refine ⟨fun id hid => ?_, fun id x hx => ?_⟩
  · refine Service.mem_filterMap_apply.mpr ?_
    rcases channel_of_apply hid with hold | hreg
    · exact .inl (hc.1 id hold)
    · exact .inr hreg
  · refine Service.mem_filterMap_apply.mpr (.inl ?_)
    rw [placedIds_apply, List.mem_append, Option.mem_toList] at hx
    rcases hx with hx | hx
    · exact hc.2 id x hx
    · obtain ⟨hroom, -⟩ := hmove.source_of_placedId hx
      refine hc.1 id ?_
      simp only [Service.hasRoom, Service.isOpen, Bool.and_eq_true, Option.any_eq_true] at hroom
      obtain ⟨⟨ch, hch, -⟩, -⟩ := hroom
      rw [hch]
      rfl

end effects

/-! ### Everything stays in line -/

/-- The queues are in order, and so is what has been put on a channel followed by what is pending
for it. -/
structure Lined (E : Uuid → Prop) (c : Config Service Pc) : Prop where
  queue : ∀ key, Ordered E c.shared.history (c.shared.queueIds key)
  placed : ∀ id, Ordered E c.shared.history (c.shared.placedIds id)
  handlers : Holds (fun s p => ∀ id, Ordered E s.history (s.placedIds id ++ p.role.pending s id)) c

section step
variable {E : Uuid → Prop} {settings : Settings} {c : Config Service Pc} {inp : Input} {p : Pc} {a : Action}
  {q : Option Role}

/-- The event of a running dispatch has begun and has not returned. -/
theorem Dispatches.running (hd : Dispatches c) (hp : p ∈ c.threads) {e : NotificationEvent}
    {since : Option DateTime} (hrole : p.role = .dispatching e since) :
    e.id ∈ c.shared.beganIds ∧ e.id ∉ c.shared.returnedIds := by
  have hb : p.role.Begun c.shared := hd.begun p hp
  have hid : e.id ∈ p.role.eventId := by
    rw [hrole]
    rfl
  rw [hrole] at hb
  exact ⟨hb, hd.tokens.free e.id (List.mem_filterMap.mpr ⟨p, hp, hid⟩)⟩

/-- What begins has not begun before. -/
theorem Dispatches.begins (hd : Dispatches c) (hp : p ∈ c.threads)
    (hmove : Move settings inp c.shared p.role a q) : ∀ x ∈ a.beganId, x ∉ c.shared.beganIds := by
  intro x hx
  obtain ⟨call, hrole, rfl⟩ := hmove.waiting_of_beganId hx
  have hb : p.role.Begun c.shared := hd.begun p hp
  rw [hrole] at hb
  exact hb

/-- What is stored belongs to a running dispatch. -/
theorem Dispatches.stores (hd : Dispatches c) (hp : p ∈ c.threads)
    (hmove : Move settings inp c.shared p.role a q) :
    ∀ x ∈ a.storedId, x ∈ c.shared.beganIds ∧ x ∉ c.shared.returnedIds := by
  intro x hx
  obtain ⟨e, since, hrole, rfl⟩ := hmove.running_of_storedId hx
  exact hd.running hp hrole

theorem Lined.queue_step (hc : Lined E c) (hd : Dispatches c) (hp : p ∈ c.threads)
    (hmove : Move settings inp c.shared p.role a q) (key : String) :
    Ordered E c.shared.history ((c.shared.apply a).queueIds key) := by
  have hstores := hd.stores hp hmove
  have hqueue := hc.queue key
  rw [← List.append_nil (c.shared.queueIds key)] at hqueue
  have hgrown := hqueue.insert (o := a.storedId) (fun x hx => (hstores x hx).1)
    (fun x hx => (hstores x hx).2) (by simp)
  rw [List.append_nil] at hgrown
  exact hgrown.sublist (queueIds_apply key)

theorem Lined.placed_step (hc : Lined E c) (hd : Dispatches c) (hp : p ∈ c.threads)
    (hmove : Move settings inp c.shared p.role a q) (id : Uuid) :
    Ordered E c.shared.history ((c.shared.apply a).placedIds id) := by
  rw [placedIds_apply]
  cases hx : a.placedId id with
  | none =>
      rw [Option.toList_none, List.append_nil]
      exact hc.placed id
  | some x =>
      obtain ⟨-, ⟨e, since, m, hrole, rfl, -, -⟩ | ⟨-, l, hpending⟩⟩ := hmove.source_of_placedId hx
      · obtain ⟨hbegun, hrunning⟩ := hd.running hp hrole
        have hline := hc.placed id
        rw [← List.append_nil (c.shared.placedIds id)] at hline
        have hgrown := hline.insert (o := some e.id) (by rintro _ ⟨⟩; exact hbegun)
          (by rintro _ ⟨⟩; exact hrunning) (by simp)
        rwa [List.append_nil] at hgrown
      · -- a replayed event is the first of the pending ones
        have hline := hc.handlers p hp id
        rw [hpending] at hline
        exact hline.sublist ((List.singleton_sublist.mpr List.mem_cons_self).append_left _)

/-- The line of a handler that takes no step. -/
theorem Lined.other_step (hc : Lined E c) (hd : Dispatches c) (hp : p ∈ c.threads)
    (hmove : Move settings inp c.shared p.role a q) {p' : Pc} (hp' : p' ∈ c.threads)
    (hdifferent : ∀ id ∈ p.role.connection, id ∉ p'.role.connection)
    (horderly : ∀ id m, a = .place id m inp.now .direct → ∀ x ∈ p'.role.pending c.shared id,
      ∀ e ∈ m.event, E x → E e.id → ¬ Precedes x e.id c.shared.history) (id : Uuid) :
    Ordered E c.shared.history ((c.shared.apply a).placedIds id ++ p'.role.pending (c.shared.apply a) id) := by
  have hstores := hd.stores hp hmove
  have hline := hc.handlers p' hp' id
  cases hx : a.placedId id with
  | none =>
      rw [placedIds_apply, hx, Option.toList_none, List.append_nil]
      have hline' : Ordered E c.shared.history
          ((c.shared.placedIds id ++ p'.role.pending c.shared id) ++ []) := by
        rw [List.append_nil]
        exact hline
      have hgrown := hline'.insert (o := a.storedId) (fun x hx => (hstores x hx).1)
        (fun x hx => (hstores x hx).2) (by simp)
      rw [List.append_nil, List.append_assoc] at hgrown
      exact hgrown.sublist ((pending_apply).append_left _)
  | some x =>
      obtain ⟨-, ⟨e, since, m, hrole, rfl, ha, hm⟩ | ⟨hconn, -⟩⟩ := hmove.source_of_placedId hx
      · obtain ⟨hbegun, hrunning⟩ := hd.running hp hrole
        have hsame : (c.shared.apply a).queue = c.shared.queue := by
          rw [ha]
          rfl
        have hpending : p'.role.pending (c.shared.apply a) id = p'.role.pending c.shared id := by
          cases p'.role <;> simp only [Role.pending, Service.queueIds, hsame]
        rw [placedIds_apply, hx, hpending, List.append_assoc]
        refine hline.insert (by rintro _ ⟨⟩; exact hbegun) (by rintro _ ⟨⟩; exact hrunning) ?_
        rintro _ ⟨⟩ y hy he hey
        exact horderly id m ha y hy e hm hey he
      · -- a replay goes to the channel of its own handler
        have hempty : p'.role.pending (c.shared.apply a) id = [] :=
          List.eq_nil_iff_forall_not_mem.mpr (fun y hy => hdifferent id hconn (connection_of_pending hy))
        rw [hempty, List.append_nil]
        exact hc.placed_step hd hp hmove id

/-- The line of the handler that takes the step. -/
theorem Lined.own_step (hc : Lined E c) (hd : Dispatches c) (hp : p ∈ c.threads) {r' : Role}
    (hmove : Move settings inp c.shared p.role a (some r'))
    (hfresh : p.role = .connecting → c.shared.placedIds inp.fresh = []) (id : Uuid) :
    Ordered E c.shared.history ((c.shared.apply a).placedIds id ++ r'.pending (c.shared.apply a) id) := by
  rcases hmove.pending id with hsub | hempty | ⟨transport, h, rfl, rfl, hrole, hid⟩
  · rw [placedIds_apply, List.append_assoc]
    exact (hc.handlers p hp id).sublist (hsub.append_left _)
  · rw [hempty, List.append_nil]
    exact hc.placed_step hd hp hmove id
  · simp only [Role.pending]
    split_ifs with heq
    · have hnone : (c.shared.apply (.register transport h)).placedIds id = [] := by
        rw [placedIds_apply, ← heq, hid, hfresh hrole]
        rfl
      rw [hnone, List.nil_append]
      exact hc.queue_step hd hp hmove _
    · rw [List.append_nil]
      exact hc.placed_step hd hp hmove id

end step

section invariant
variable {E : Uuid → Prop} {U : UnicodeTables} {settings : Settings} {c : Config Service Pc}

theorem lined_of_reaches
    (h : Reaches (system U settings) (fun c e => Legal c e ∧ Orderly E U settings c e) (initial settings) c) :
    Lined E c := by
  refine h.invariant ⟨fun key => ?_, fun id => Ordered.nil, by simp [Holds, initial]⟩ ?_
  · rw [Service.queueIds, show (initial settings).shared.queue.messages key = [] from rfl]
    exact Ordered.nil
  intro c e c' hr hc he hn
  have hd := dispatches_of_reaches (fun _ _ h => h.1) hr
  have htokens := connections_of_reaches (fun _ _ h => h.1) hr
  obtain ⟨-, hregistered⟩ := registered_of_placed hr
  obtain ⟨op, rfl, rfl⟩ | ⟨i, inp, p, s, q, l₁, l₂, rfl, hi, hs, hl, rfl⟩ := System.next_cases hn
  · refine ⟨hc.queue, hc.placed, ?_⟩
    intro p hp id
    rcases List.mem_append.mp hp with hp | hp
    · exact hc.handlers p hp id
    · obtain rfl := List.mem_singleton.mp hp
      have hnone : ((system U settings).start op).role.pending c.shared id = [] := by
        cases op <;> rfl
      rw [hnone, List.append_nil]
      exact hc.placed id
  · obtain ⟨a, hstep, rfl, hmove⟩ := system_move hs
    have hp : p ∈ c.threads := List.mem_of_getElem? hi
    have hbegins := hd.begins hp hmove
    have horderly : ∀ id m, a = .place id m inp.now .direct → ∀ p' ∈ c.threads,
        ∀ x ∈ p'.role.pending c.shared id, ∀ e ∈ m.event, E x → E e.id →
          ¬ Precedes x e.id c.shared.history := by
      rintro id m rfl
      have hup : upcoming U settings c i inp = some (.place id m inp.now .direct, q) :=
        (upcoming_eq hi).trans hstep
      have horderly := he.2
      simp only [Orderly, hup] at horderly
      exact horderly
    have hfresh : p.role = .connecting → c.shared.placedIds inp.fresh = [] := by
      intro hrole
      refine List.eq_nil_iff_forall_not_mem.mpr (fun x hx => ?_)
      exact (he.1 p hi).1 (registers_of_connecting hrole) (hregistered _ x hx)
    have lift : ∀ {l}, Ordered E c.shared.history l → Ordered E (c.shared.apply a).history l := by
      intro l hl
      rw [Service.history_apply]
      exact hl.append hbegins
    refine ⟨fun key => lift (hc.queue_step hd hp hmove key),
      fun id => lift (hc.placed_step hd hp hmove id), ?_⟩
    have hother : ∀ p' ∈ l₁ ++ l₂, ∀ id, Ordered E (c.shared.apply a).history
        ((c.shared.apply a).placedIds id ++ p'.role.pending (c.shared.apply a) id) := by
      intro p' hp' id
      have hmem : p' ∈ c.threads := mem_of_split hl hp'
      exact lift (hc.other_step hd hp hmove hmem
        (fun id hid => htokens.not_mem_of_split hl hp' hid) (fun id m ha => horderly id m ha p' hmem) id)
    intro p' hp' id
    rcases mem_middle.mp hp' with hp' | hp'
    · obtain rfl : q = some p' := hp'
      exact lift (hc.own_step hd hp hmove hfresh id)
    · exact hother p' hp' id

/-- **In an orderly run every connection gets its notifications in order**: of two events of `E` on one
channel, the one whose dispatch returned before the dispatch of the other began comes first. -/
theorem delivered_in_order
    (h : Reaches (system U settings) (fun c e => Legal c e ∧ Orderly E U settings c e) (initial settings) c)
    (id : Uuid) :
    (c.shared.placedIds id).Pairwise (fun x y => E x → E y → ¬ Precedes y x c.shared.history) :=
  ((lined_of_reaches h).placed id).pairwise

end invariant

/-! ### Two notifications around a reconnect -/

section schedules

/-- A second event. -/
def resumed : NotificationEvent := { maintenance with id := 2, eventType := "system.resumed" }

/-- The first event is queued for `bob`, whose new connection is registered when the dispatch of
the second event begins and finds it. -/
def reconnectAndSend : List (Event ServiceCall Input) :=
  [.call (.dispatch ⟨maintenance, .user "bob", some "acme", true⟩), .run 0 tick, .run 0 tick,
    .run 0 tick, .run 0 tick, .call (.connect .webSocket ⟨"bob", [], some "acme"⟩), .run 0 tick,
    .call (.dispatch ⟨resumed, .user "bob", some "acme", true⟩), .run 1 tick, .run 1 tick]

/-- The connection drains and replays before the second event is sent. -/
theorem delivered_in_order_bob :
    ∃ c, Reaches (system .ascii .withQueue)
        (fun c e => Legal c e ∧ Orderly (fun _ => True) .ascii .withQueue c e) (initial .withQueue) c ∧
      c.shared.placedIds 0 = [1, 2] ∧ Precedes 1 2 c.shared.history ∧
      (c.shared.placedIds 0).Pairwise (fun x y => ¬ Precedes y x c.shared.history) := by
  have hseen : ((system .ascii .withQueue).play
      (fun c e => Legal c e ∧ Orderly (fun _ => True) .ascii .withQueue c e) (initial .withQueue)
        (reconnectAndSend ++ [.run 0 tick, .run 0 tick, .run 1 tick])).any (fun c =>
          decide (c.shared.placedIds 0 = [1, 2] ∧ Precedes 1 2 c.shared.history)) = true := by
    decide +kernel
  obtain ⟨c, hr, hc⟩ := exists_reaches_of_play hseen
  obtain ⟨hplaced, hprecedes⟩ := of_decide_eq_true hc
  have hpair := delivered_in_order hr 0
  exact ⟨c, hr, hplaced, hprecedes, hpair.imp (fun hxy => hxy trivial trivial)⟩

/-- The second event is sent before the connection drains, and overtakes the first, although both
are dispatched to the same user. -/
theorem overtaken_by_direct_send :
    ¬ ∀ (U : UnicodeTables) (settings : Settings), settings.Accepted U → settings.queue.enabled = true →
        ∀ i c, Reaches (system U settings) (fun c e => Legal c e ∧ OnlyTo i e) (initial settings) c →
          ∀ id, (c.shared.placedIds id).Pairwise (fun x y => ¬ Precedes y x c.shared.history) := by
  intro hall
  have hseen : ((system .ascii .withQueue).play (fun c e => Legal c e ∧ OnlyTo ⟨"acme", "bob"⟩ e)
      (initial .withQueue) (reconnectAndSend ++ [.run 1 tick, .run 0 tick, .run 0 tick])).any (fun c =>
        decide (c.shared.placedIds 0 = [2, 1] ∧ Precedes 1 2 c.shared.history)) = true := by
    decide +kernel
  obtain ⟨c, hr, hc⟩ := exists_reaches_of_play hseen
  obtain ⟨hplaced, hprecedes⟩ := of_decide_eq_true hc
  have hpair := hall .ascii .withQueue Settings.accepted_withQueue rfl _ c hr 0
  rw [hplaced] at hpair
  exact (List.pairwise_cons.mp hpair).1 1 (List.mem_singleton.mpr rfl) hprecedes

end schedules

end AraNotification
