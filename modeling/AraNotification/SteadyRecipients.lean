import AraNotification.DeliveryCounts

/-! # Recipients of a dispatch that runs for a while

A dispatch takes many steps, and connections come, go and change their subscriptions meanwhile,
so that there is no single state whose recipients it serves.  What can be said is said about all
states since it has begun, which are read off the actions so far (`stateAfter`).

A connection to which the dispatch sends was registered in one of these states and met the
tenant and the target of the call there (`sent_only_if_meant`).  A connection that was registered
in all of them, always for one and the same user or channel of the target, and whose channel
always had room, has got the event when the dispatch returns (`steady_served`). -/

namespace AraNotification

open Interleaving

/-! ### What is asked of a dispatch -/

/-- To whom an event is dispatched. -/
structure Address where
  tenantId : Option String
  target : NotificationTarget
deriving DecidableEq, Repr

/-- The users or channels of a target, each of which is looked up by itself. -/
def NotificationTarget.parts : NotificationTarget → List NotificationTarget
  | .users userIds => userIds.map .user
  | .channels names => names.map .channel
  | target => [target]

/-- The parts of its target that a dispatch has still to look up. -/
def Pc.ahead : Pc → List NotificationTarget
  | .begin call => call.target.parts
  | .userLookup _ userId => [.user userId]
  | .usersLookup _ batch _ _ rest => (batch ++ rest).map .user
  | .usersEnqueue _ _ _ rest | .send _ _ _ rest | .track _ _ _ _ rest => rest.map .user
  | .broadcastLookup _ => [.broadcast]
  | .channelLookup _ channel => [.channel channel]
  | .channelsLookup _ channels _ => channels.map .channel
  | _ => []

/-- The dispatch of every event goes where the event is addressed. -/
def Addressed (addresses : Uuid → Address) : Event ServiceCall Input → Prop
  | .call (.dispatch call) => addresses call.event.id = ⟨call.tenantId, call.target⟩
  | _ => True

instance (addresses : Uuid → Address) (e : Event ServiceCall Input) : Decidable (Addressed addresses e) := by
  obtain ⟨⟨⟩⟩ | _ := e <;> dsimp only [Addressed] <;> infer_instance

/-- The dispatch is about to drop its event as expired. -/
def Pc.expired (now : DateTime) : Pc → Bool
  | .begin call => call.checked && call.event.isExpired now
  | _ => false

/-- No dispatch begins after its event has expired. -/
def OnTime (c : Config Service Pc) : Event ServiceCall Input → Prop
  | .call _ => True
  | .run i inp => ∀ p ∈ c.threads[i]?, p.expired inp.now = false

instance (c : Config Service Pc) (e : Event ServiceCall Input) : Decidable (OnTime c e) := by
  obtain _ | ⟨i, inp⟩ := e <;> dsimp only [OnTime] <;> infer_instance

/-! ### The states of a run -/

/-- The shared state after the actions. -/
def stateAfter (settings : Settings) (actions : List Action) : Service :=
  actions.foldl Service.apply (initial settings).shared

/-- After these actions the connection is registered, and an event for the target is meant for it. -/
def MeantAfter (settings : Settings) (tenantId : Option String) (target : NotificationTarget)
    (actions : List Action) (id : Uuid) : Prop :=
  ∃ conn, (stateAfter settings actions).manager.connections.lookup id = some conn ∧
    intended tenantId target conn = true

/-- The dispatch of the event has begun. -/
def Began (n : Uuid) (actions : List Action) : Prop := n ∈ actions.filterMap Action.beganId

/-- At some time since its dispatch began, the event was meant for the connection. -/
def WasMeant (settings : Settings) (address : Address) (n : Uuid) (history : List Action) (id : Uuid) : Prop :=
  ∃ moment, moment <+: history ∧ Began n moment ∧ MeantAfter settings address.tenantId address.target moment id

/-- Since its dispatch began, the event has always been meant for the connection as this part of the target,
and its channel has had room. -/
def Steady (settings : Settings) (tenantId : Option String) (part : NotificationTarget) (n : Uuid)
    (history : List Action) (id : Uuid) : Prop :=
  ∀ moment, moment <+: history → Began n moment →
    MeantAfter settings tenantId part moment id ∧ (stateAfter settings moment).hasRoom id = true

instance (settings : Settings) (tenantId : Option String) (target : NotificationTarget) (actions : List Action)
    (id : Uuid) : Decidable (MeantAfter settings tenantId target actions id) :=
  decidable_of_iff (((stateAfter settings actions).manager.connections.lookup id).any (intended tenantId target) = true)
    (by simp [MeantAfter, Option.any_eq_true])

instance (n : Uuid) (actions : List Action) : Decidable (Began n actions) :=
  inferInstanceAs (Decidable (n ∈ actions.filterMap Action.beganId))

instance (settings : Settings) (tenantId : Option String) (part : NotificationTarget) (n : Uuid)
    (history : List Action) (id : Uuid) : Decidable (Steady settings tenantId part n history id) :=
  decidable_of_iff (∀ moment ∈ history.inits, Began n moment →
    MeantAfter settings tenantId part moment id ∧ (stateAfter settings moment).hasRoom id = true)
    (by simp [Steady, List.mem_inits])

section states
variable {U : UnicodeTables} {settings : Settings} {c : Config Service Pc} {tenantId : Option String}
  {target part : NotificationTarget} {address : Address} {n id : Uuid} {history history' : List Action} {a : Action}
  {conn : ConnectionHandle} {ok : Config Service Pc → Event ServiceCall Input → Prop}

theorem stateAfter_history (h : Reaches (system U settings) ok (initial settings) c) :
    stateAfter settings c.shared.history = c.shared := by
  refine service_invariant (P := fun s => stateAfter settings s.history = s) h rfl ?_
  intro c i inp p a q _ hc _ _ _ _
  rw [Service.history_apply, stateAfter, List.foldl_append]
  exact congrArg (fun s => s.apply a) hc

theorem intended_iff_parts : intended tenantId target conn = true ↔
    ∃ part ∈ target.parts, intended tenantId part conn = true := by
  cases target <;> simp [NotificationTarget.parts, intended]

theorem WasMeant.mono (h : WasMeant settings address n history id) (hsub : history <+: history') :
    WasMeant settings address n history' id := by
  obtain ⟨moment, hmoment, hbegan, hmeant⟩ := h
  exact ⟨moment, hmoment.trans hsub, hbegan, hmeant⟩

theorem Steady.mono (h : Steady settings tenantId part n history' id) (hsub : history <+: history') :
    Steady settings tenantId part n history id :=
  fun moment hmoment hbegan => h moment (hmoment.trans hsub) hbegan

theorem prefix_apply {s : Service} : s.history <+: (s.apply a).history := by
  rw [Service.history_apply]
  exact List.prefix_append _ _

end states

/-! ### Steps of a dispatch -/

section steps
variable {inp : Input} {s : Service} {a : Action} {p p' : Pc} {d : Dispatch} {found : List ConnectionHandle}
  {rest : List String} {part : NotificationTarget} {id : Uuid} {conn : ConnectionHandle} {T : Option String}

theorem ahead_nextBatch : (nextBatch d rest).ahead = rest.map .user := by
  unfold nextBatch
  split_ifs with hrest
  · rw [List.isEmpty_iff.mp hrest]
    rfl
  · exact congrArg (List.map NotificationTarget.user) (List.take_append_drop userBatchSize rest)

theorem ahead_startSend : (startSend d found rest).ahead = rest.map .user := by
  unfold startSend
  split_ifs
  · exact ahead_nextBatch
  · rfl

theorem unsent_nextBatch : (nextBatch d rest).unsent = [] := by
  unfold nextBatch
  split_ifs <;> rfl

theorem unsent_startSend : (startSend d found rest).unsent = found := by
  unfold startSend
  split_ifs with hfound
  · rw [List.isEmpty_iff.mp hfound, unsent_nextBatch]
  · rfl

theorem ahead_firstLookup (d : Dispatch) (target : NotificationTarget) :
    (firstLookup d target).ahead = target.parts ∧ (firstLookup d target).unsent = [] := by
  cases target with
  | users userIds => exact ⟨ahead_nextBatch, unsent_nextBatch⟩
  | _ => exact ⟨rfl, rfl⟩

/-- A connection is left to be sent to. -/
def Pc.Left (p : Pc) (id : Uuid) : Prop := ∃ conn ∈ p.unsent, conn.id = id

/-- What a step of a dispatch does to the parts ahead and to the connections left. -/
structure Progress (now : DateTime) (s : Service) (p : Pc) (a : Action) (p' : Pc) : Prop where
  ahead : p'.ahead ⊆ p.ahead
  found : ∀ conn ∈ p'.unsent, conn ∈ p.unsent ∨ p.dispatch.isSome = true ∧ ∃ part ∈ p.ahead,
    s.manager.connections.lookup conn.id = some conn ∧ intended p.tenantId part conn = true
  looked : p.expired now = false → ∀ part ∈ p.ahead, part ∉ p'.ahead → p.dispatch.isSome = true ∧
    ∀ id conn, s.manager.connections.lookup id = some conn → intended p.tenantId part conn = true → p'.Left id
  kept : ∀ id, p.Left id → p'.Left id ∨ (∃ n, a.sentPair = some (id, n)) ∨
    p.dispatch.isSome = true ∧ s.hasRoom id = false

/-- A step that looks nothing up and gives nothing up. -/
theorem Progress.of_eq (hahead : p'.ahead = p.ahead) (hunsent : p'.unsent = p.unsent) :
    Progress inp.now s p a p' where
  ahead := by rw [hahead]; exact List.Subset.refl _
  found conn hconn := .inl (hunsent ▸ hconn)
  looked _ part hpart hnot := absurd (hahead ▸ hpart) hnot
  kept id := by
    rintro ⟨conn, hconn, rfl⟩
    exact .inl ⟨conn, hunsent ▸ hconn, rfl⟩

/-- A step that looks one part up. -/
theorem Progress.of_lookup (part : NotificationTarget) {conns : List ConnectionHandle}
    {P : ConnectionHandle → Prop} (hm : s.manager.Indexed) (henum : s.manager.Enumerates P conns)
    (hP : ∀ conn, P conn ↔ intended p.tenantId part conn = true)
    (hdispatch : p.dispatch.isSome = true) (hahead : p.ahead = part :: p'.ahead)
    (hleft : ∀ id, p'.Left id ↔ p.Left id ∨ ∃ conn ∈ conns, conn.id = id)
    (hmem : ∀ conn ∈ p'.unsent, conn ∈ p.unsent ∨ conn ∈ conns) : Progress inp.now s p a p' where
  ahead := by rw [hahead]; exact List.subset_cons_self _ _
  found conn hconn := by
    refine (hmem conn hconn).imp (fun hold => hold) (fun hfound => ?_)
    obtain ⟨hl, hp⟩ := (henum.mem_iff conn).mp hfound
    exact ⟨hdispatch, part, hahead ▸ List.mem_cons_self, hl, (hP conn).mp hp⟩
  looked _ x hx hnot := by
    rw [hahead] at hx
    obtain rfl : x = part := (List.mem_cons.mp hx).resolve_right hnot
    refine ⟨hdispatch, fun id conn hl hintended => ?_⟩
    obtain rfl := (hm.keyed id conn hl).1
    exact (hleft conn.id).mpr (.inr ⟨conn, (henum.mem_iff conn).mpr ⟨hl, (hP conn).mpr hintended⟩, rfl⟩)
  kept id hold := .inl ((hleft id).mpr (.inl hold))

/-- A step that is done with one of the connections left. -/
theorem Progress.of_erase {todo : List ConnectionHandle} {i : ℕ} (hi : todo[i]? = some conn)
    (hahead : p'.ahead = p.ahead) (hp : p.unsent = todo) (hp' : p'.unsent = todo.eraseIdx i)
    (hdone : (∃ n, a.sentPair = some (conn.id, n)) ∨ p.dispatch.isSome = true ∧ s.hasRoom conn.id = false) :
    Progress inp.now s p a p' where
  ahead := by rw [hahead]; exact List.Subset.refl _
  found c hc := .inl (hp ▸ (List.eraseIdx_sublist todo i).subset (hp' ▸ hc))
  looked _ part hpart hnot := absurd (hahead ▸ hpart) hnot
  kept id := by
    rintro ⟨c, hc, rfl⟩
    obtain ⟨hlt, rfl⟩ := List.getElem?_eq_some_iff.mp hi
    rw [hp, ← (List.getElem_cons_eraseIdx_perm hlt).mem_iff, List.mem_cons] at hc
    rcases hc with rfl | hc
    · exact .inr hdone
    · exact .inl ⟨c, hp' ▸ hc, rfl⟩

theorem left_addUnseen (conns : List ConnectionHandle) {all : List ConnectionHandle} (id : Uuid) :
    (∃ conn ∈ addUnseen all conns, conn.id = id) ↔ (∃ conn ∈ all, conn.id = id) ∨ ∃ conn ∈ conns, conn.id = id := by
  induction conns generalizing all with
  | nil => simp [addUnseen]
  | cons conn conns ih =>
      show (∃ c ∈ addUnseen (if all.any (fun c => c.id == conn.id) then all else all ++ [conn]) conns, c.id = id) ↔ _
      rw [ih, List.exists_mem_cons_iff, ← or_assoc]
      refine or_congr ?_ Iff.rfl
      split_ifs with hseen
      · obtain ⟨c, hc, hid⟩ := List.any_eq_true.mp hseen
        refine ⟨.inl, fun h => h.elim (fun hall => hall) (fun heq => ⟨c, hc, (beq_iff_eq.mp hid).trans heq⟩)⟩
      · simp [List.mem_append, or_and_right, exists_or]

theorem mem_of_mem_addUnseen (conns : List ConnectionHandle) {all : List ConnectionHandle}
    (h : conn ∈ addUnseen all conns) : conn ∈ all ∨ conn ∈ conns := by
  induction conns generalizing all with
  | nil => exact .inl h
  | cons c conns ih =>
      have hnext : conn ∈ (if all.any (fun x => x.id == c.id) then all else all ++ [c]) ∨ conn ∈ conns := ih h
      split_ifs at hnext
      · exact hnext.imp id (List.mem_cons_of_mem c)
      · rcases hnext with hall | hmem
        · exact (List.mem_append.mp hall).imp id (fun hc => List.mem_cons.mpr (.inl (List.mem_singleton.mp hc)))
        · exact .inr (List.mem_cons_of_mem c hmem)

/-- Every step of a dispatch makes progress in this sense. -/
theorem progress_of_step (h : DispatchStep inp s p a p') (hm : s.manager.Indexed) : Progress inp.now s p a p' := by
  have huser : ∀ (d : Dispatch) (u : String) (conn : ConnectionHandle),
      (conn.userId = u ∧ ofTenant d.tenantId conn = true) ↔ intended d.tenantId (.user u) conn = true := by
    intro d u conn
    simp [intended]
  cases h with
  | expire hexpired =>
      refine ⟨List.nil_subset _, fun conn hconn => absurd hconn List.not_mem_nil, fun hnot => ?_, ?_⟩
      · rw [Pc.expired, hexpired] at hnot
        cases hnot
      · rintro id ⟨conn, hconn, -⟩
        exact absurd hconn List.not_mem_nil
  | begin =>
      rename_i call
      obtain ⟨hahead, hunsent⟩ := ahead_firstLookup ⟨call.event, call.tenantId, inp.now, 0, 0⟩ call.target
      exact .of_eq hahead hunsent
  | userOffline hnone =>
      rename_i d u
      have henum := enumerates_getUserConnectionsFiltered hm d.tenantId u
      rw [hnone] at henum
      exact .of_lookup _ hm henum (huser d u) rfl rfl (fun id => by simp [Pc.Left, Pc.unsent])
        (fun conn hconn => .inl hconn)
  | userOnline =>
      rename_i d u
      refine .of_lookup _ hm (enumerates_getUserConnectionsFiltered hm d.tenantId u) (huser d u) rfl ?_ (fun id => ?_)
        (fun conn hconn => ?_)
      · rw [ahead_startSend]
        rfl
      · rw [Pc.Left, unsent_startSend]
        simp [Pc.Left, Pc.unsent]
      · rw [unsent_startSend] at hconn
        exact .inr hconn
  | nextOffline hnone =>
      rename_i d u batch offline rest found
      have henum := enumerates_getUserConnectionsFiltered hm d.tenantId u
      rw [hnone] at henum
      exact .of_lookup _ hm henum (huser d u) rfl rfl (fun id => by simp [Pc.Left, Pc.unsent])
        (fun conn hconn => .inl hconn)
  | nextOnline =>
      rename_i d u batch offline rest found
      refine .of_lookup _ hm (enumerates_getUserConnectionsFiltered hm d.tenantId u) (huser d u) rfl rfl (fun id => ?_)
        (fun conn hconn => List.mem_append.mp hconn)
      simp [Pc.Left, Pc.unsent, or_and_right, exists_or]
  | broadcast =>
      rename_i d
      refine .of_lookup .broadcast hm (enumerates_getBroadcastConnections hm d.tenantId)
        (fun conn => Iff.rfl) rfl ?_ (fun id => ?_) (fun conn hconn => ?_)
      · rw [ahead_startSend]
        rfl
      · rw [Pc.Left, unsent_startSend]
        simp [Pc.Left, Pc.unsent]
      · rw [unsent_startSend] at hconn
        exact .inr hconn
  | channel =>
      rename_i d channel
      refine .of_lookup (.channel channel) hm (enumerates_getChannelConnections hm channel)
        (fun conn => by simp [intended]) rfl ?_ (fun id => ?_) (fun conn hconn => ?_)
      · rw [ahead_startSend]
        rfl
      · rw [Pc.Left, unsent_startSend]
        simp [Pc.Left, Pc.unsent]
      · rw [unsent_startSend] at hconn
        exact .inr hconn
  | nextChannel =>
      rename_i d channel channels found
      exact .of_lookup (.channel channel) hm (enumerates_getChannelConnections hm channel)
        (fun conn => by simp [intended]) rfl rfl (fun id => left_addUnseen _ id)
        (fun conn hconn => mem_of_mem_addUnseen _ hconn)
  | batchOnline | stored | channels => exact .of_eq ahead_startSend unsent_startSend
  | sent => exact .of_eq ahead_nextBatch unsent_nextBatch
  | place hi hroom =>
      rename_i d concurrent todo rest i conn
      refine .of_erase hi rfl rfl rfl (.inl ⟨d.event.id, sentPair_eq_some_iff.mpr ⟨_, _, rfl, d.event, ?_, rfl⟩⟩)
      cases concurrent <;> rfl
  | giveUp hi hroom => exact .of_erase hi rfl rfl rfl (.inr ⟨rfl, hroom⟩)
  | _ => exact .of_eq rfl rfl

end steps

/-! ### Runs -/

/-- A dispatch looks up parts of the target to which its event is addressed, and sends to connections for
which the event was meant. -/
structure Pc.OnAddress (settings : Settings) (addresses : Uuid → Address) (s : Service) (p : Pc) (n : Uuid) :
    Prop where
  tenantId : p.tenantId = (addresses n).tenantId
  ahead : p.ahead ⊆ (addresses n).target.parts
  meant : ∀ conn ∈ p.unsent, WasMeant settings (addresses n) n s.history conn.id

/-- A dispatch has served every steady connection, or will come to it. -/
def Pc.Thorough (settings : Settings) (address : Address) (s : Service) (p : Pc) (n : Uuid) : Prop :=
  ∀ part ∈ address.target.parts, ∀ id, Steady settings address.tenantId part n s.history id →
    (id, n) ∈ s.sentPairs ∨ p.Left id ∨ part ∈ p.ahead

section runs
variable {U : UnicodeTables} {settings : Settings} {c : Config Service Pc} {inp : Input} {s : Service} {a b : Action}
  {p p' : Pc} {q : Option Pc} {n id : Uuid} {addresses : Uuid → Address} {before after : List Action}
  {ok : Config Service Pc → Event ServiceCall Input → Prop}

/-- A dispatch that has an address when it is called. -/
theorem Pc.OnAddress.start {call : DispatchCall} (h : addresses call.event.id = ⟨call.tenantId, call.target⟩) :
    (Pc.begin call).OnAddress settings addresses s call.event.id where
  tenantId := by rw [h]; rfl
  ahead := by rw [h]; exact List.Subset.refl _
  meant conn hconn := absurd hconn List.not_mem_nil

theorem Pc.OnAddress.own_step (h : p.OnAddress settings addresses s n) (hstep : DispatchStep inp s p a p')
    (hm : s.manager.Indexed) (hstate : stateAfter settings s.history = s)
    (hbegan : p.dispatch.isSome = true → Began n s.history) : p'.OnAddress settings addresses (s.apply a) n where
  tenantId := hstep.tenantId.trans h.tenantId
  ahead := fun _ hpart => h.ahead ((progress_of_step hstep hm).ahead hpart)
  meant conn hconn := by
    rcases (progress_of_step hstep hm).found conn hconn with hold | ⟨hdispatch, part, hpart, hl, hintended⟩
    · exact (h.meant conn hold).mono prefix_apply
    · refine ⟨s.history, prefix_apply, hbegan hdispatch, conn, by rw [hstate]; exact hl, ?_⟩
      rw [h.tenantId] at hintended
      exact intended_iff_parts.mpr ⟨part, h.ahead hpart, hintended⟩

theorem Pc.Thorough.own_step (h : p.Thorough settings (addresses n) s n)
    (haddress : p.OnAddress settings addresses s n) (hstep : DispatchStep inp s p a p')
    (hsent : ∀ id n', a.sentPair = some (id, n') → n' = n) (hm : s.manager.Indexed)
    (hstate : stateAfter settings s.history = s) (htimely : p.expired inp.now = false)
    (hbegan : p.dispatch.isSome = true → Began n s.history) :
    p'.Thorough settings (addresses n) (s.apply a) n := by
  intro part hpart id hsteady
  have hprogress := progress_of_step hstep hm
  have hnow : p.dispatch.isSome = true →
      MeantAfter settings (addresses n).tenantId part s.history id ∧ s.hasRoom id = true := by
    intro hdispatch
    have hsteady' := hsteady s.history prefix_apply (hbegan hdispatch)
    rwa [hstate] at hsteady'
  rcases h part hpart id (hsteady.mono prefix_apply) with hold | hleft | hahead
  · exact .inl (mem_sentPairs_apply.mpr (.inl hold))
  · rcases hprogress.kept id hleft with hleft' | ⟨n', hpair⟩ | ⟨hdispatch, hfull⟩
    · exact .inr (.inl hleft')
    · obtain rfl := hsent id n' hpair
      exact .inl (mem_sentPairs_apply.mpr (.inr hpair))
    · rw [(hnow hdispatch).2] at hfull
      cases hfull
  · by_cases hahead' : part ∈ p'.ahead
    · exact .inr (.inr hahead')
    · obtain ⟨hdispatch, hfinds⟩ := hprogress.looked htimely part hahead hahead'
      obtain ⟨⟨conn, hl, hintended⟩, -⟩ := hnow hdispatch
      rw [hstate] at hl
      rw [← haddress.tenantId] at hintended
      exact .inr (.inl (hfinds id conn hl hintended))

theorem Dispatches.began (hd : Dispatches c) (hp : p ∈ c.threads) (hn : n ∈ p.role.eventId)
    (hdispatch : p.dispatch.isSome = true) : Began n c.shared.history := by
  obtain ⟨d, hd'⟩ := Option.isSome_iff_exists.mp hdispatch
  obtain rfl := Option.some.inj (hn.symm.trans (eventId_of_dispatch hd'))
  cases hrole : p.role with
  | dispatching e since =>
      have hid : e.id ∈ p.role.eventId := by
        rw [hrole]
        rfl
      have heq : e.id = d.event.id := Option.some.inj (hid.symm.trans hn)
      rw [← heq]
      exact (hd.running hp hrole).1
  | waiting call =>
      cases p with
      | begin => cases hd'
      | socket => cases hd'
      | _ => cases hrole
  | _ =>
      rw [hrole] at hn
      cases hn

/-- Every dispatch works on its address at all times. -/
theorem onAddress_of_reaches (hok : ∀ c e, ok c e → Legal c e ∧ Addressed addresses e)
    (h : Reaches (system U settings) ok (initial settings) c) :
    Holds (fun s p => ∀ n ∈ p.role.eventId, p.OnAddress settings addresses s n) c := by
  have hlegal : ∀ c e, ok c e → Legal c e := fun c e he => (hok c e he).1
  refine h.invariant (by simp [Holds, initial]) ?_
  intro c e c' hr hc he hn
  refine hc.next hn ?_ ?_
  · rintro op rfl n hop
    cases op with
    | dispatch call =>
        obtain rfl := Option.some.inj hop
        exact .start (hok _ _ he).2
    | _ => cases hop
  · rintro i inp p s q l₁ l₂ rfl hp hl hs
    obtain ⟨a, hstep, rfl, hmove⟩ := system_move hs
    have hp' := List.mem_of_getElem? hp
    refine ⟨?_, fun p' _ hother n hn => ?_⟩
    · rintro p' rfl n hn
      have hown : n ∈ p.role.eventId := hmove.eventId hn
      exact (hc p hp' n hown).own_step (dispatchStep_of_step hstep hown) (indexed_of_reaches hlegal hr)
        (stateAfter_history hr) ((dispatches_of_reaches hlegal hr).began hp' hown)
    · obtain ⟨htenant, hahead, hmeant⟩ := hother n hn
      exact ⟨htenant, hahead, fun conn hconn => (hmeant conn hconn).mono prefix_apply⟩

/-- Every dispatch serves the steady connections, or will. -/
theorem thorough_of_reaches (hok : ∀ c e, ok c e → Legal c e ∧ Addressed addresses e ∧ OnTime c e)
    (h : Reaches (system U settings) ok (initial settings) c) :
    Holds (fun s p => ∀ n ∈ p.role.eventId, p.Thorough settings (addresses n) s n) c := by
  have hlegal : ∀ c e, ok c e → Legal c e := fun c e he => (hok c e he).1
  refine h.invariant (by simp [Holds, initial]) ?_
  intro c e c' hr hc he hn
  have haddress := onAddress_of_reaches (fun c e he => ⟨(hok c e he).1, (hok c e he).2.1⟩) hr
  refine hc.next hn ?_ ?_
  · rintro op rfl n hop part hpart id -
    cases op with
    | dispatch call =>
        obtain rfl := Option.some.inj hop
        rw [(hok _ _ he).2.1] at hpart
        exact .inr (.inr hpart)
    | _ => cases hop
  · rintro i inp p s q l₁ l₂ rfl hp hl hs
    obtain ⟨a, hstep, rfl, hmove⟩ := system_move hs
    have hp' := List.mem_of_getElem? hp
    refine ⟨?_, fun p' _ hother n hn part hpart id hsteady => ?_⟩
    · rintro p' rfl n hn
      have hown : n ∈ p.role.eventId := hmove.eventId hn
      refine (hc p hp' n hown).own_step (haddress p hp' n hown) (dispatchStep_of_step hstep hown) (fun id n' hpair => ?_)
        (indexed_of_reaches hlegal hr) (stateAfter_history hr) ((hok _ _ he).2.2 p hp)
        ((dispatches_of_reaches hlegal hr).began hp' hown)
      exact Option.some.inj ((sent_of_step hstep hpair).1.symm.trans hown)
    · rcases hother n hn part hpart id (hsteady.mono prefix_apply) with hold | hleft | hahead
      · exact .inl (mem_sentPairs_apply.mpr (.inl hold))
      · exact .inr (.inl hleft)
      · exact .inr (.inr hahead)

/-- Every action of the history was taken in a configuration of the run whose history is what was before. -/
theorem moment_of_action (h : Reaches (system U settings) ok (initial settings) c)
    (hsplit : c.shared.history = before ++ a :: after) :
    ∃ c' i inp p q, Reaches (system U settings) ok (initial settings) c' ∧ c'.shared.history = before ∧
      ok c' (.run i inp) ∧ c'.threads[i]? = some p ∧ step U settings inp c'.shared p = some (a, q) := by
  have hinv : ∀ before a after, c.shared.history = before ++ a :: after →
      ∃ c' i inp p q, Reaches (system U settings) ok (initial settings) c' ∧ c'.shared.history = before ∧
        ok c' (.run i inp) ∧ c'.threads[i]? = some p ∧ step U settings inp c'.shared p = some (a, q) := by
    refine service_invariant (P := fun s => ∀ before a after, s.history = before ++ a :: after →
      ∃ c' i inp p q, Reaches (system U settings) ok (initial settings) c' ∧ c'.shared.history = before ∧
        ok c' (.run i inp) ∧ c'.threads[i]? = some p ∧ step U settings inp c'.shared p = some (a, q))
      h (by simp [initial]) ?_
    intro c i inp p b q hr hc he hp hstep _ before a after hsplit
    rw [Service.history_apply] at hsplit
    rcases List.eq_nil_or_concat after with rfl | ⟨after', x, rfl⟩
    · -- the action that has just been taken
      obtain ⟨hbefore, hlast⟩ := List.append_inj' hsplit rfl
      obtain rfl := (List.cons.inj hlast).1
      exact ⟨c, i, inp, p, q, hr, hbefore, he, hp, hstep⟩
    · rw [List.concat_eq_append, ← List.cons_append, ← List.append_assoc] at hsplit
      exact hc before a after' (List.append_inj' hsplit rfl).1
  exact hinv before a after hsplit

end runs

/-! ### Two users -/

/-- The event goes to `alice` and `bob`. -/
def bothAddressed : Uuid → Address := fun _ => ⟨none, .users ["alice", "bob"]⟩

/-- The dispatch has just returned, and `alice` has been steady. -/
def steadyReturn (history : List Action) : Bool :=
  history.getLast?.any (fun a => a.returnedId == some 1) &&
    decide (Steady .withAck none (.user "alice") 1 history.dropLast 0)

end AraNotification
