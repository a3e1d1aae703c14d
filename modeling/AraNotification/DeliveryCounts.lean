import AraNotification.AtMostOnce

/-! # What a dispatch reports

The caller of a dispatch gets back how many connections have taken the event.  While the
dispatch runs its counter is the number of its sends so far (`Counted`), also when sends of
many dispatches are mixed on many channels, and every send but the last has been tracked.
The result is therefore exact, and stays so: after a dispatch has returned nothing is sent or
tracked for its event any more (`result_accurate`). -/

namespace AraNotification

open Interleaving

/-- The notification that is tracked. -/
def Action.trackedId : Action → Option Uuid
  | .track n _ _ _ => some n
  | _ => none

namespace Service
variable (s : Service) (n : Uuid)

/-- How often dispatches have put the event on a channel. -/
def sends : ℕ := (s.sentPairs.map (·.2)).count n

/-- How often the event has been tracked. -/
def trackings : ℕ := (s.history.filterMap Action.trackedId).count n

end Service

/-- A dispatch that has begun, with its counts. -/
def Pc.dispatch : Pc → Option Dispatch
  | .userLookup d _ | .userEnqueue d _ | .usersLookup d _ _ _ _ | .usersEnqueue d _ _ _
  | .broadcastLookup d | .channelLookup d _ | .channelsLookup d _ _ | .send d _ _ _
  | .track d _ _ _ _ | .ret d => some d
  | _ => none

/-- The dispatch has sent to a connection that it has not tracked yet. -/
def Pc.awaitsTracking : Pc → Bool
  | .track _ _ _ _ _ => true
  | _ => false

/-- The counter of a dispatch is the number of its sends, and all but one at most are tracked. -/
def Pc.Counted (s : Service) (p : Pc) : Prop := ∀ d ∈ p.dispatch, d.delivered = s.sends d.event.id ∧
  s.trackings d.event.id + (if p.awaitsTracking then 1 else 0) = d.delivered

/-- The result reports the sends of its event, all of them tracked, and whether there were any. -/
structure DeliveryResult.Accurate (s : Service) (r : DeliveryResult) : Prop where
  sends : r.deliveredTo = s.sends r.notificationId
  trackings : r.deliveredTo = s.trackings r.notificationId
  success : r.success = true ↔ ∃ id, (id, r.notificationId) ∈ s.sentPairs

section counts
variable {U : UnicodeTables} {settings : Settings} {c : Config Service Pc} {inp : Input} {s : Service} {a : Action}
  {p p' : Pc} {q : Option Pc} {n : Uuid} {d : Dispatch} {found : List ConnectionHandle} {rest : List String}
  {ok : Config Service Pc → Event ServiceCall Input → Prop}

theorem sends_apply : (s.apply a).sends n = s.sends n + (a.sentPair.map (·.2)).toList.count n := by
  rw [Service.sends, Service.sentPairs, Service.history_apply, List.filterMap_append, List.map_append,
    List.count_append]
  cases h : a.sentPair <;> simp [h, Service.sends, Service.sentPairs]

theorem trackings_apply : (s.apply a).trackings n = s.trackings n + a.trackedId.toList.count n :=
  count_filterMap_apply

theorem dispatch_nextBatch : (nextBatch d rest).dispatch = some d ∧ (nextBatch d rest).awaitsTracking = false := by
  unfold nextBatch
  split_ifs <;> exact ⟨rfl, rfl⟩

theorem dispatch_startSend :
    (startSend d found rest).dispatch = some d ∧ (startSend d found rest).awaitsTracking = false := by
  unfold startSend
  split_ifs
  · exact dispatch_nextBatch
  · exact ⟨rfl, rfl⟩

theorem dispatch_firstLookup (d : Dispatch) (target : NotificationTarget) :
    (firstLookup d target).dispatch = some d ∧ (firstLookup d target).awaitsTracking = false := by
  cases target with
  | users userIds => exact dispatch_nextBatch
  | _ => exact ⟨rfl, rfl⟩

theorem eventId_of_dispatch (h : d ∈ p.dispatch) : d.event.id ∈ p.role.eventId := by
  cases p with
  | begin call => cases h
  | socket sock => cases h
  | _ => first | (cases h; rfl) | cases h

/-- An event is sent and tracked by its own dispatch only. -/
theorem quiet_of_step (h : step U settings inp s p = some (a, q)) (hn : n ∉ p.role.eventId) :
    (s.apply a).sends n = s.sends n ∧ (s.apply a).trackings n = s.trackings n := by
  rw [sends_apply, trackings_apply]
  refine ⟨?_, ?_⟩
  · cases ha : a.sentPair with
    | none => rfl
    | some x =>
        have hne : x.2 ≠ n := fun heq => hn (heq ▸ (sent_of_step h ha).1)
        simp [hne]
  · cases a with
    | track m u id t =>
        obtain ⟨d, concurrent, conn, todo, rest, rfl, rfl, -⟩ := track_of_track h
        have hne : d.event.id ≠ n := fun heq => hn (congrArg some heq)
        simp [Action.trackedId, hne]
    | _ => rfl

theorem began_of_waiting {call : DispatchCall} (hp : p.role = .waiting call)
    (h : step U settings inp s p = some (a, q)) : a = .began call.event := by
  cases p with
  | begin call' =>
      obtain rfl := Role.waiting.inj hp
      simp only [step] at h
      split_ifs at h <;> cases h <;> rfl
  | socket sock => cases hp
  | _ => cases hp

/-- Nothing is sent or tracked before the dispatch has begun. -/
theorem quiet_of_not_begun (hok : ∀ c e, ok c e → Legal c e)
    (h : Reaches (system U settings) ok (initial settings) c) :
    ∀ n, n ∉ c.shared.beganIds → c.shared.sends n = 0 ∧ c.shared.trackings n = 0 := by
  refine service_invariant (P := fun s => ∀ n, n ∉ s.beganIds → s.sends n = 0 ∧ s.trackings n = 0) h
    (fun n _ => ⟨rfl, rfl⟩) ?_
  intro c i inp p a q hr hc _ hp hstep _ n hn
  have hbefore : n ∉ c.shared.beganIds := fun hb => hn (Service.mem_filterMap_apply.mpr (.inl hb))
  have hown : n ∉ p.role.eventId := by
    intro hmem
    generalize hrole : p.role = r at hmem
    cases r with
    | waiting call =>
        refine hn (Service.mem_filterMap_apply.mpr (.inr ?_))
        rw [began_of_waiting hrole hstep]
        exact hmem
    | dispatching e since =>
        obtain rfl := Option.some.inj hmem
        exact hbefore ((dispatches_of_reaches hok hr).running (List.mem_of_getElem? hp) hrole).1
    | _ => cases hmem
  obtain ⟨hsends, htrackings⟩ := quiet_of_step hstep hown
  rw [hsends, htrackings]
  exact hc n hbefore

/-- Every step of a dispatch keeps its counter. -/
theorem Pc.Counted.own_step (h : DispatchStep inp s p a p') (hc : p.Counted s)
    (hbegin : ∀ call, p = .begin call → s.sends call.event.id = 0 ∧ s.trackings call.event.id = 0) :
    p'.Counted (s.apply a) := by
  intro d' hd'
  rw [sends_apply, trackings_apply]
  -- a silent step to where the dispatch goes on with its counts
  have hsilent : ∀ {d : Dispatch} {p' : Pc}, d ∈ p.dispatch → p.awaitsTracking = false →
      p'.dispatch = some d ∧ p'.awaitsTracking = false → d' ∈ p'.dispatch →
        d'.delivered = s.sends d'.event.id + 0 ∧
          s.trackings d'.event.id + 0 + (if p'.awaitsTracking then 1 else 0) = d'.delivered := by
    rintro d p' hd hnone ⟨hdispatch, hnone'⟩ hd'
    obtain rfl := Option.some.inj (hdispatch.symm.trans hd')
    have hcount := hc d hd
    rw [hnone] at hcount
    rw [hnone']
    exact hcount
  cases h with
  | expire =>
      obtain rfl := Option.some.inj hd'
      obtain ⟨hsends, htrackings⟩ := hbegin _ rfl
      exact ⟨hsends.symm, htrackings⟩
  | begin =>
      rename_i call
      obtain ⟨hdispatch, hnone⟩ := dispatch_firstLookup ⟨call.event, call.tenantId, inp.now, 0, 0⟩ call.target
      obtain rfl := Option.some.inj (hdispatch.symm.trans hd')
      obtain ⟨hsends, htrackings⟩ := hbegin _ rfl
      rw [hnone]
      exact ⟨hsends.symm, htrackings⟩
  | userOnline | batchOnline | stored | broadcast | channel | channels =>
      exact hsilent rfl rfl dispatch_startSend hd'
  | sent => exact hsilent rfl rfl dispatch_nextBatch hd'
  | place hi hroom =>
      rename_i d concurrent todo rest i conn
      obtain rfl := Option.some.inj hd'
      obtain ⟨hsends, htrackings⟩ := hc d rfl
      have hone : ((Action.place conn.id (outbound concurrent (.notification d.event)) inp.now .direct).sentPair.map
          (·.2)).toList.count d.event.id = 1 := by
        cases concurrent <;> exact List.count_singleton_self
      refine ⟨?_, ?_⟩
      · rw [hone, ← hsends]
      · exact congrArg (· + 1) htrackings
  | track =>
      rename_i d concurrent conn todo rest
      obtain rfl := Option.some.inj hd'
      obtain ⟨hsends, htrackings⟩ := hc d rfl
      refine ⟨hsends, ?_⟩
      rw [← htrackings, Action.trackedId, Option.toList_some, List.count_singleton_self]
      rfl
  | giveUp =>
      rename_i d concurrent todo rest i conn hi hroom
      obtain rfl := Option.some.inj hd'
      exact hc d rfl
  | _ => exact hsilent rfl rfl ⟨rfl, rfl⟩ hd'

theorem counted_of_reaches (hok : ∀ c e, ok c e → Legal c e)
    (h : Reaches (system U settings) ok (initial settings) c) : Holds (fun s p => p.Counted s) c := by
  refine h.invariant (by simp [Holds, initial]) ?_
  intro c e c' hr hc he hn
  have hd := dispatches_of_reaches hok hr
  refine hc.next hn ?_ ?_
  · rintro op rfl d hd'
    cases op <;> cases hd'
  · rintro i inp p s q l₁ l₂ rfl hp hl hs
    obtain ⟨a, hstep, rfl, hmove⟩ := system_move hs
    have hp' := List.mem_of_getElem? hp
    refine ⟨?_, fun p' hmem hcounted d hd' => ?_⟩
    · rintro p' rfl d hd'
      have hown : d.event.id ∈ p.role.eventId := hmove.eventId (eventId_of_dispatch hd')
      refine (hc p hp').own_step (dispatchStep_of_step hstep hown) ?_ d hd'
      rintro call rfl
      exact quiet_of_not_begun hok hr call.event.id (hd.begun _ hp')
    · have hnot : d.event.id ∉ p.role.eventId := fun hown =>
        hd.tokens.not_mem_of_split hl hmem hown (eventId_of_dispatch hd')
      obtain ⟨hsends, htrackings⟩ := quiet_of_step hstep hnot
      rw [hsends, htrackings]
      exact hcounted d hd'

theorem sends_pos_iff : 0 < s.sends n ↔ ∃ id, (id, n) ∈ s.sentPairs := by
  rw [Service.sends, List.count_pos_iff, List.mem_map]
  constructor
  · rintro ⟨⟨id, n⟩, hid, rfl⟩
    exact ⟨id, hid⟩
  · rintro ⟨id, hid⟩
    exact ⟨_, hid, rfl⟩

/-- **The result of a dispatch is exact, and stays so**: in every interleaving, a dispatch that has returned
reports how often its event has been put on a channel, each time with one tracking, and success when
there was such a channel. -/
theorem result_accurate (h : Reaches (system U settings) Legal (initial settings) c) :
    ∀ r, .returned r ∈ c.shared.history → r.Accurate c.shared := by
  have hok : ∀ (c : Config Service Pc) (e : Event ServiceCall Input), Legal c e → Legal c e := fun _ _ he => he
  refine service_invariant (P := fun s => ∀ r, .returned r ∈ s.history → r.Accurate s) h (by simp [initial]) ?_
  intro c i inp p a q hr hc _ hp hstep _ r hret
  have hp' := List.mem_of_getElem? hp
  rcases Service.mem_history_apply.mp hret with hold | rfl
  · -- a dispatch that has returned does not run any more
    have hreturned : r.notificationId ∈ c.shared.returnedIds := List.mem_filterMap.mpr ⟨_, hold, rfl⟩
    have hnot : r.notificationId ∉ p.role.eventId := fun hown =>
      (dispatches_of_reaches hok hr).tokens.free _ (List.mem_filterMap.mpr ⟨p, hp', hown⟩) hreturned
    obtain ⟨hsends, htrackings⟩ := quiet_of_step hstep hnot
    obtain ⟨hs, ht, hsuccess⟩ := hc r hold
    refine ⟨hs.trans hsends.symm, ht.trans htrackings.symm, ?_⟩
    rw [hsuccess, ← sends_pos_iff, ← sends_pos_iff, hsends]
  · obtain ⟨d, rfl, rfl⟩ := ret_of_returned hstep
    obtain ⟨hs, ht⟩ := counted_of_reaches hok hr _ hp' d rfl
    have hsends : d.delivered = (c.shared.apply (.returned (.new d.event.id d.delivered d.failed))).sends d.event.id := by
      rw [sends_apply]
      exact hs
    refine ⟨hsends, ?_, ?_⟩
    · rw [trackings_apply]
      exact ht.symm
    · rw [← sends_pos_iff]
      show decide (d.delivered > 0) = true ↔ 0 < Service.sends _ d.event.id
      rw [decide_eq_true_iff, ← hsends]

end counts

/-! ### Two users -/

/-- The number of connections that a dispatch reports. -/
def Action.reported : Action → Option ℕ
  | .returned r => some r.deliveredTo
  | _ => none

/-- The result of a notification to two users counts both. -/
theorem result_accurate_two_users :
    ∃ c r, Reaches (system .ascii .withAck) Legal (initial .withAck) c ∧ .returned r ∈ c.shared.history ∧
      r.deliveredTo = 2 ∧ r.Accurate c.shared := by
  have hseen : ((system .ascii .withAck).play Legal (initial .withAck)
      (twoConnections "alice" "bob" (.users ["alice", "bob"]) 10)).any (fun c =>
        decide (2 ∈ c.shared.history.filterMap Action.reported)) = true := by
    decide +kernel
  obtain ⟨c, hr, hc⟩ := exists_reaches_of_play hseen
  obtain ⟨a, ha, hreported⟩ := List.mem_filterMap.mp (of_decide_eq_true hc)
  cases a with
  | returned r => exact ⟨c, r, hr, ha, Option.some.inj hreported, result_accurate hr r ha⟩
  | _ => cases hreported

end AraNotification
