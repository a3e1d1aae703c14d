import AraNotification.AckDelivery
import AraNotification.DispatchRecipients
import AraNotification.NoLoss

/-! # No notification twice

A dispatch goes through its target in many steps, during which connections come and go.  What
it has still to do is read off its program counter: the users it has not come to yet or has
found offline (`Pc.users`), and the connections it has found and not sent to (`Pc.unsent`).
`Account` relates both to what has been sent and stored for the event so far: nobody who has
been served is among them, and nobody is among them twice.  Every step keeps the account
(`tidy_of_reaches`), provided that no list of users names a user twice, which nothing in the
service checks (`Distinct`).

Three results follow for every interleaving.  A dispatch puts its event on every channel at
most once, whatever its target (`sent_once`).  A stored message is replayed at most once, by
one handler, and is then in no queue and in no other backlog (`replayed_once`).  And when no two
identities share a queue key, no connection gets an event twice on whatever ways
(`received_once`). -/

namespace AraNotification

open Interleaving

/-! ### What has been sent and stored -/

/-- The connection and the event that a dispatch puts on its channel. -/
def Action.sentPair : Action → Option (Uuid × Uuid)
  | .place id m _ .direct => m.event.map (fun e => (id, e.id))
  | _ => none

/-- The identity for which an event is stored, with the event. -/
def Action.storedPair : Action → Option (Identity × Uuid)
  | .enqueue i m => some (i, m.event.id)
  | _ => none

/-- The stored message that is replayed. -/
def Action.replayedId : Action → Option Uuid
  | .place _ _ _ (.replay x) => some x
  | _ => none

namespace Service
variable (s : Service)

/-- The direct sends so far. -/
def sentPairs : List (Uuid × Uuid) := s.history.filterMap Action.sentPair

/-- The events stored so far. -/
def storedPairs : List (Identity × Uuid) := s.history.filterMap Action.storedPair

/-- The stored messages replayed so far. -/
def replayedIds : List Uuid := s.history.filterMap Action.replayedId

end Service

section actions
variable {s : Service} {a : Action} {id n : Uuid} {i : Identity}

theorem mem_sentPairs_apply {x : Uuid × Uuid} :
    x ∈ (s.apply a).sentPairs ↔ x ∈ s.sentPairs ∨ a.sentPair = some x :=
  Service.mem_filterMap_apply

theorem mem_storedPairs_apply {x : Identity × Uuid} :
    x ∈ (s.apply a).storedPairs ↔ x ∈ s.storedPairs ∨ a.storedPair = some x :=
  Service.mem_filterMap_apply

theorem sentPair_eq_some_iff : a.sentPair = some (id, n) ↔
    ∃ m now, a = .place id m now .direct ∧ ∃ e ∈ m.event, e.id = n := by
  constructor
  · intro h
    cases a with
    | place id' m now origin =>
        cases origin with
        | direct =>
            obtain ⟨e, he, heq⟩ := Option.map_eq_some_iff.mp h
            obtain ⟨rfl, rfl⟩ := Prod.mk.inj heq
            exact ⟨m, now, rfl, e, he, rfl⟩
        | _ => cases h
    | _ => cases h
  · rintro ⟨m, now, rfl, e, he, rfl⟩
    exact Option.map_eq_some_iff.mpr ⟨e, he, rfl⟩

theorem placedId_of_sentPair (h : a.sentPair = some (id, n)) : a.placedId id = some n := by
  obtain ⟨m, now, rfl, e, he, rfl⟩ := sentPair_eq_some_iff.mp h
  rw [Action.placedId, if_pos rfl, Option.mem_def.mp he]
  rfl

theorem placed_of_sent (h : (id, n) ∈ s.sentPairs) : n ∈ s.placedIds id := by
  obtain ⟨a, ha, hpair⟩ := List.mem_filterMap.mp h
  exact List.mem_filterMap.mpr ⟨a, ha, placedId_of_sentPair hpair⟩

theorem storedId_of_storedPair (h : a.storedPair = some (i, n)) : a.storedId = some n := by
  cases a with
  | enqueue i' m => exact congrArg some (Prod.mk.inj (Option.some.inj h)).2
  | _ => cases h

end actions

/-! ### The manager along a run -/

section manager
variable {U : UnicodeTables} {settings : Settings} {c : Config Service Pc} {inp : Input} {s : Service}
  {a : Action} {ok : Config Service Pc → Event ServiceCall Input → Prop}

theorem indexed_apply (hm : s.manager.Indexed) (hreg : ∀ transport h, a = .register transport h →
    s.manager.connections.lookup h.id = none ∧ h.subscriptions = []) : (s.apply a).manager.Indexed := by
  cases a with
  | register transport h =>
      obtain ⟨hnone, hsubs⟩ := hreg transport h rfl
      exact hm.insertHandle hnone hsubs
  | unregister id => exact hm.unregister id
  | updateActivity id now => exact hm.updateActivity id now
  | subscribe id key => exact hm.subscribeToChannel id key
  | unsubscribe id key => exact hm.unsubscribeFromChannel id key
  | _ => exact hm

theorem subscriptions_of_register {p : Pc} {q : Option Pc} {transport : Transport} {h : ConnectionHandle}
    (hstep : step U settings inp s p = some (.register transport h, q)) : h.subscriptions = [] := by
  obtain ⟨transport', claims, rfl⟩ := connect_of_role ((step_move hstep).fresh_of_registeredId rfl).1
  simp only [step, ConnectionManager.register] at hstep
  obtain ⟨e, he⟩ | ⟨-, -, he⟩ := s.manager.registerWithLimits_cases inp.fresh claims.sub
    claims.getTenantId claims.roles inp.now s.manager.limits
  · rw [he] at hstep
    cases hstep
  · rw [he] at hstep
    cases hstep
    rfl

/-- The indices of the manager are right at all times. -/
theorem indexed_of_reaches (hok : ∀ c e, ok c e → Legal c e)
    (h : Reaches (system U settings) ok (initial settings) c) : c.shared.manager.Indexed := by
  refine service_invariant (P := fun s => s.manager.Indexed) h (ConnectionManager.indexed_withLimits _) ?_
  intro c i inp p a q hr hc he hp hstep hmove
  refine indexed_apply hc ?_
  rintro transport h' rfl
  refine ⟨?_, subscriptions_of_register hstep⟩
  obtain ⟨hrole, hfresh⟩ := hmove.fresh_of_registeredId rfl
  by_contra hsome
  obtain ⟨conn, hl⟩ := Option.ne_none_iff_exists'.mp hsome
  obtain ⟨transport', h'', hreg, hid, -⟩ := (known_of_reaches hr).manager _ _ hl
  refine (hok _ _ he p hp).1 (registers_of_connecting hrole) (List.mem_filterMap.mpr ⟨_, hreg, ?_⟩)
  rw [Action.registeredId, hid, (hc.keyed _ _ hl).1, hfresh]

end manager

/-! ### How far a dispatch is -/

/-- The users that a target names. -/
def NotificationTarget.named : NotificationTarget → List String
  | .user userId => [userId]
  | .users userIds => userIds
  | _ => []

/-- The users whom a dispatch has not come to yet, or has found offline and not stored for. -/
def Pc.users : Pc → List String
  | .begin call => call.target.named
  | .userLookup _ userId | .userEnqueue _ userId => [userId]
  | .usersLookup _ batch _ offline rest => offline ++ (batch ++ rest)
  | .usersEnqueue _ offline _ rest => offline ++ rest
  | .send _ _ _ rest | .track _ _ _ _ rest => rest
  | _ => []

/-- The connections that a dispatch has found and not sent to. -/
def Pc.unsent : Pc → List ConnectionHandle
  | .usersLookup _ _ found _ _ | .usersEnqueue _ _ found _ | .channelsLookup _ _ found => found
  | .send _ _ todo _ | .track _ _ _ todo _ => todo
  | _ => []

/-- The dispatch has sent and stored nothing. -/
def Pc.unstarted : Pc → Bool
  | .begin _ | .broadcastLookup _ | .channelLookup _ _ | .channelsLookup _ _ _ => true
  | _ => false

/-- The tenant of a dispatch. -/
def Pc.tenantId : Pc → Option String
  | .begin call => call.tenantId
  | .userLookup d _ | .userEnqueue d _ | .usersLookup d _ _ _ _ | .usersEnqueue d _ _ _
  | .broadcastLookup d | .channelLookup d _ | .channelsLookup d _ _ | .send d _ _ _
  | .track d _ _ _ _ | .ret d => d.tenantId
  | _ => none

/-- The users and connections that are left for the event `n` are different, and nobody to whom it was
sent or for whom it was stored is among them. -/
structure Account (s : Service) (n : Uuid) (tenantId : String) (users : List String)
    (unsent : List ConnectionHandle) : Prop where
  nodup_users : users.Nodup
  nodup_unsent : (unsent.map (·.id)).Nodup
  apart : ∀ conn ∈ unsent, conn.userId ∉ users
  sent : ∀ id, (id, n) ∈ s.sentPairs →
    (∀ conn ∈ unsent, conn.id ≠ id) ∧ ∀ u ∈ s.owners id, u ∉ users
  stored : ∀ i, (i, n) ∈ s.storedPairs →
    i.tenantId = tenantId ∧ i.userId ∉ users ∧ ∀ conn ∈ unsent, conn.userId ≠ i.userId

/-- Nothing has been sent or stored for the event. -/
def Unserved (s : Service) (n : Uuid) : Prop :=
  (∀ id, (id, n) ∉ s.sentPairs) ∧ ∀ i, (i, n) ∉ s.storedPairs

/-- The account of a dispatch is in order. -/
def Pc.Tidy (s : Service) (p : Pc) : Prop := ∀ n ∈ p.role.eventId,
  Account s n (p.tenantId.getD defaultTenantId) p.users p.unsent ∧ (p.unstarted = true → Unserved s n)

section accounts
variable {s : Service} {a : Action} {n : Uuid} {t u : String} {users users' : List String}
  {unsent unsent' new : List ConnectionHandle} {conn : ConnectionHandle}

/-- Whatever is left less leaves the account in order. -/
theorem Account.mono (h : Account s n t users unsent) (hnodup : users'.Nodup) (husers : users' ⊆ users)
    (hunsent : unsent'.Sublist unsent) : Account s n t users' unsent' where
  nodup_users := hnodup
  nodup_unsent := h.nodup_unsent.sublist (hunsent.map _)
  apart conn hc hu := h.apart conn (hunsent.subset hc) (husers hu)
  sent id hid :=
    ⟨fun conn hc => (h.sent id hid).1 conn (hunsent.subset hc), fun u hu hmem => (h.sent id hid).2 u hu (husers hmem)⟩
  stored i hi :=
    ⟨(h.stored i hi).1, fun hu => (h.stored i hi).2.1 (husers hu),
      fun conn hc => (h.stored i hi).2.2 conn (hunsent.subset hc)⟩

theorem Account.of_unserved (h : Unserved s n) (husers : users.Nodup) (hunsent : (unsent.map (·.id)).Nodup)
    (hapart : ∀ conn ∈ unsent, conn.userId ∉ users) : Account s n t users unsent where
  nodup_users := husers
  nodup_unsent := hunsent
  apart := hapart
  sent id hid := absurd hid (h.1 id)
  stored i hi := absurd hi (h.2 i)

/-- The connections of the next user are different from everything before. -/
theorem Account.found (h : Account s n t (u :: users) unsent) (hregistered : s.registeredIds.Nodup)
    (hknown : ∀ conn ∈ unsent ++ new, Known s conn) (hnew : (new.map (·.id)).Nodup)
    (huser : ∀ conn ∈ new, conn.userId = u) : Account s n t users (unsent ++ new) where
  nodup_users := h.nodup_users.of_cons
  nodup_unsent := by
    rw [List.map_append, List.nodup_append]
    refine ⟨h.nodup_unsent, hnew, ?_⟩
    intro id hid id' hid' heq
    obtain ⟨conn, hc, rfl⟩ := List.mem_map.mp hid
    obtain ⟨conn', hc', rfl⟩ := List.mem_map.mp hid'
    have howner := (hknown conn (List.mem_append_left _ hc)).mem_owners
    have howner' := (hknown conn' (List.mem_append_right _ hc')).mem_owners
    rw [heq] at howner
    have hsame := owner_unique hregistered howner howner'
    exact h.apart conn hc (by rw [hsame, huser conn' hc']; exact List.mem_cons_self)
  apart conn hc hu := by
    rcases List.mem_append.mp hc with hc | hc
    · exact h.apart conn hc (List.mem_cons_of_mem _ hu)
    · rw [huser conn hc] at hu
      exact (List.nodup_cons.mp h.nodup_users).1 hu
  sent id hid := by
    obtain ⟨hunsent, husers⟩ := h.sent id hid
    refine ⟨fun conn hc heq => ?_, fun u' hu' hmem => husers u' hu' (List.mem_cons_of_mem _ hmem)⟩
    rcases List.mem_append.mp hc with hold | hnew
    · exact hunsent conn hold heq
    · have howner := (hknown conn hc).mem_owners
      rw [heq, huser conn hnew] at howner
      exact husers u howner List.mem_cons_self
  stored i hi := by
    obtain ⟨htenant, husers, hunsent⟩ := h.stored i hi
    refine ⟨htenant, fun hmem => husers (List.mem_cons_of_mem _ hmem), fun conn hc heq => ?_⟩
    rcases List.mem_append.mp hc with hc | hc
    · exact hunsent conn hc heq
    · rw [huser conn hc] at heq
      exact husers (heq ▸ List.mem_cons_self)

/-- The account after an action that serves nobody who is left. -/
theorem Account.apply (h : Account s n t users unsent)
    (hsent : ∀ id, a.sentPair = some (id, n) →
      (∀ conn ∈ unsent, conn.id ≠ id) ∧ ∀ u ∈ s.owners id, u ∉ users)
    (hstored : ∀ i, a.storedPair = some (i, n) →
      i.tenantId = t ∧ i.userId ∉ users ∧ ∀ conn ∈ unsent, conn.userId ≠ i.userId)
    (hregister : ∀ id ∈ a.registeredId, (id, n) ∉ s.sentPairs) : Account (s.apply a) n t users unsent where
  nodup_users := h.nodup_users
  nodup_unsent := h.nodup_unsent
  apart := h.apart
  sent id hid := by
    rcases mem_sentPairs_apply.mp hid with hold | hnew
    · refine ⟨(h.sent id hold).1, fun u hu => ?_⟩
      rcases mem_owners_apply.mp hu with hu | hu
      · exact (h.sent id hold).2 u hu
      · exact absurd hold (hregister id (registeredId_of_ownerOf hu))
    · refine ⟨(hsent id hnew).1, fun u hu => ?_⟩
      rcases mem_owners_apply.mp hu with hu | hu
      · exact (hsent id hnew).2 u hu
      · obtain ⟨m, now, rfl, -⟩ := sentPair_eq_some_iff.mp hnew
        cases hu
  stored i hi := by
    rcases mem_storedPairs_apply.mp hi with hold | hnew
    · exact h.stored i hold
    · exact hstored i hnew

theorem Unserved.apply (h : Unserved s n) (hsent : ∀ id, a.sentPair ≠ some (id, n))
    (hstored : ∀ i, a.storedPair ≠ some (i, n)) : Unserved (s.apply a) n := by
  refine ⟨fun id hid => ?_, fun i hi => ?_⟩
  · rcases mem_sentPairs_apply.mp hid with hold | hnew
    · exact h.1 id hold
    · exact hsent id hnew
  · rcases mem_storedPairs_apply.mp hi with hold | hnew
    · exact h.2 i hold
    · exact hstored i hnew

end accounts

/-! ### Steps of a dispatch -/

section steps
variable {U : UnicodeTables} {settings : Settings} {inp : Input} {s : Service} {a : Action} {p p' : Pc}
  {d : Dispatch} {n : Uuid} {t : String} {found : List ConnectionHandle} {rest : List String}

theorem account_nextBatch (h : Account s n t rest found) :
    Account s n t (nextBatch d rest).users (nextBatch d rest).unsent := by
  have hnil := List.nil_sublist found
  unfold nextBatch
  split_ifs
  · exact h.mono List.nodup_nil (List.nil_subset _) hnil
  · have husers : (Pc.usersLookup d (rest.take userBatchSize) [] [] (rest.drop userBatchSize)).users = rest :=
      List.take_append_drop userBatchSize rest
    rw [husers]
    exact h.mono h.nodup_users (List.Subset.refl _) hnil

theorem account_startSend (h : Account s n t rest found) :
    Account s n t (startSend d found rest).users (startSend d found rest).unsent := by
  unfold startSend
  split_ifs
  · exact account_nextBatch h
  · exact h

/-- Only connections with a new identifier are added. -/
theorem nodup_addUnseen (conns : List ConnectionHandle) {all : List ConnectionHandle}
    (h : (all.map (·.id)).Nodup) : ((addUnseen all conns).map (·.id)).Nodup := by
  induction conns generalizing all with
  | nil => exact h
  | cons conn conns ih =>
      show ((addUnseen (if all.any (fun c => c.id == conn.id) then all else all ++ [conn]) conns).map (·.id)).Nodup
      split_ifs with hseen
      · exact ih h
      · refine ih ?_
        rw [List.map_append, List.map_singleton, ← List.concat_eq_append]
        refine h.concat (fun hmem => hseen ?_)
        obtain ⟨c, hc, hid⟩ := List.mem_map.mp hmem
        exact List.any_eq_true.mpr ⟨c, hc, beq_iff_eq.mpr hid⟩

theorem tenantId_nextBatch : (nextBatch d rest).tenantId = d.tenantId := by
  unfold nextBatch
  split_ifs <;> rfl

theorem tenantId_startSend : (startSend d found rest).tenantId = d.tenantId := by
  unfold startSend
  split_ifs
  · exact tenantId_nextBatch
  · rfl

theorem unstarted_nextBatch : (nextBatch d rest).unstarted = false := by
  unfold nextBatch
  split_ifs <;> rfl

theorem unstarted_startSend : (startSend d found rest).unstarted = false := by
  unfold startSend
  split_ifs
  · exact unstarted_nextBatch
  · rfl

theorem tenantId_firstLookup (d : Dispatch) (target : NotificationTarget) :
    (firstLookup d target).tenantId = d.tenantId := by
  cases target with
  | users userIds => exact tenantId_nextBatch
  | _ => rfl

/-- What a dispatch can do next. -/
inductive DispatchStep (inp : Input) (s : Service) : Pc → Action → Pc → Prop
  | expire {call : DispatchCall} (hexpired : (call.checked && call.event.isExpired inp.now) = true) :
      DispatchStep inp s (.begin call) (.began call.event) (.ret ⟨call.event, call.tenantId, inp.now, 0, 0⟩)
  | begin {call : DispatchCall} : DispatchStep inp s (.begin call) (.began call.event)
      (firstLookup ⟨call.event, call.tenantId, inp.now, 0, 0⟩ call.target)
  | userOffline {d : Dispatch} {u : String} (hnone : getUserConnectionsFiltered s.manager u d.tenantId = []) :
      DispatchStep inp s (.userLookup d u) .silent (.userEnqueue d u)
  | userOnline {d : Dispatch} {u : String} : DispatchStep inp s (.userLookup d u) .silent
      (startSend d (getUserConnectionsFiltered s.manager u d.tenantId) [])
  | userStore {d : Dispatch} {u : String} : DispatchStep inp s (.userEnqueue d u)
      (.enqueue (queueIdentity d u) (.new inp.fresh inp.now d.event)) (.ret d)
  | nextOffline {d : Dispatch} {u : String} {batch offline rest : List String} {found : List ConnectionHandle}
      (hnone : getUserConnectionsFiltered s.manager u d.tenantId = []) :
      DispatchStep inp s (.usersLookup d (u :: batch) found offline rest) .silent
        (.usersLookup d batch found (offline ++ [u]) rest)
  | nextOnline {d : Dispatch} {u : String} {batch offline rest : List String} {found : List ConnectionHandle} :
      DispatchStep inp s (.usersLookup d (u :: batch) found offline rest) .silent
        (.usersLookup d batch (found ++ getUserConnectionsFiltered s.manager u d.tenantId) offline rest)
  | batchOffline {d : Dispatch} {offline rest : List String} {found : List ConnectionHandle} :
      DispatchStep inp s (.usersLookup d [] found offline rest) .silent (.usersEnqueue d offline found rest)
  | batchOnline {d : Dispatch} {offline rest : List String} {found : List ConnectionHandle} :
      DispatchStep inp s (.usersLookup d [] found offline rest) .silent (startSend d found rest)
  | store {d : Dispatch} {u : String} {offline rest : List String} {found : List ConnectionHandle} :
      DispatchStep inp s (.usersEnqueue d (u :: offline) found rest)
        (.enqueue (queueIdentity d u) (.new inp.fresh inp.now d.event)) (.usersEnqueue d offline found rest)
  | stored {d : Dispatch} {rest : List String} {found : List ConnectionHandle} :
      DispatchStep inp s (.usersEnqueue d [] found rest) .silent (startSend d found rest)
  | broadcast {d : Dispatch} : DispatchStep inp s (.broadcastLookup d) .silent
      (startSend d (getBroadcastConnections s.manager d.tenantId) [])
  | channel {d : Dispatch} {channel : String} : DispatchStep inp s (.channelLookup d channel) .silent
      (startSend d (s.manager.getChannelConnections channel) [])
  | nextChannel {d : Dispatch} {channel : String} {channels : List String} {found : List ConnectionHandle} :
      DispatchStep inp s (.channelsLookup d (channel :: channels) found) .silent
        (.channelsLookup d channels (addUnseen found (s.manager.getChannelConnections channel)))
  | channels {d : Dispatch} {found : List ConnectionHandle} :
      DispatchStep inp s (.channelsLookup d [] found) .silent (startSend d found [])
  | sent {d : Dispatch} {concurrent : Bool} {rest : List String} :
      DispatchStep inp s (.send d concurrent [] rest) .silent (nextBatch d rest)
  | place {d : Dispatch} {concurrent : Bool} {todo : List ConnectionHandle} {rest : List String} {i : ℕ}
      {conn : ConnectionHandle} (hi : todo[i]? = some conn) (hroom : s.hasRoom conn.id = true) :
      DispatchStep inp s (.send d concurrent todo rest)
        (.place conn.id (outbound concurrent (.notification d.event)) inp.now .direct)
        (.track { d with delivered := d.delivered + 1 } concurrent conn (todo.eraseIdx i) rest)
  | giveUp {d : Dispatch} {concurrent : Bool} {todo : List ConnectionHandle} {rest : List String} {i : ℕ}
      {conn : ConnectionHandle} (hi : todo[i]? = some conn) (hroom : s.hasRoom conn.id = false) :
      DispatchStep inp s (.send d concurrent todo rest) .silent
        (.send { d with failed := d.failed + 1 } concurrent (todo.eraseIdx i) rest)
  | track {d : Dispatch} {concurrent : Bool} {conn : ConnectionHandle} {todo : List ConnectionHandle}
      {rest : List String} : DispatchStep inp s (.track d concurrent conn todo rest)
        (.track d.event.id conn.userId conn.id inp.now) (.send d concurrent todo rest)

theorem dispatchStep_of_step (h : step U settings inp s p = some (a, some p')) (hn : n ∈ p.role.eventId) :
    DispatchStep inp s p a p' := by
  cases p with
  | begin call =>
      simp only [step] at h
      split_ifs at h with hexpired <;> cases h
      · exact .expire hexpired
      · exact .begin
  | userLookup d userId =>
      simp only [step] at h
      split_ifs at h with hempty <;> cases h
      · exact .userOffline (List.isEmpty_iff.mp (Bool.and_eq_true_iff.mp hempty).1)
      · exact .userOnline
  | userEnqueue d userId =>
      cases h
      exact .userStore
  | usersLookup d batch found offline rest =>
      cases batch <;> simp only [step] at h <;> split_ifs at h with hempty <;> cases h
      · exact .batchOffline
      · exact .batchOnline
      · exact .nextOffline (List.isEmpty_iff.mp hempty)
      · exact .nextOnline
  | usersEnqueue d offline found rest =>
      cases offline <;> cases h
      · exact .stored
      · exact .store
  | broadcastLookup d =>
      cases h
      exact .broadcast
  | channelLookup d channel =>
      cases h
      exact .channel
  | channelsLookup d channels found =>
      cases channels <;> cases h
      · exact .channels
      · exact .nextChannel
  | send d concurrent todo rest =>
      obtain ⟨rfl, rfl, hq⟩ | ⟨i, conn, hi, hroom, rfl, hq⟩ | ⟨i, conn, hi, hroom, rfl, hq⟩ := step_send_cases h
      · obtain rfl := Option.some.inj hq
        exact .sent
      · obtain rfl := Option.some.inj hq
        exact .place hi hroom
      · obtain rfl := Option.some.inj hq
        exact .giveUp hi hroom
  | track d concurrent conn todo rest =>
      cases h
      exact .track
  | ret d => cases h
  | _ => cases hn

/-- A dispatch that finds out whom to send to does so by a lookup; the account of what is left stays in
order. -/
theorem Account.step (h : DispatchStep inp s p a p') (hacc : Account s n t p.users p.unsent)
    (hunserved : p.unstarted = true → Unserved s n) (hm : s.manager.Indexed) (hregistered : s.registeredIds.Nodup)
    (hmanager : ∀ id conn, s.manager.connections.lookup id = some conn → Known s conn)
    (hfound : ∀ conn ∈ p.found, Known s conn) : Account s n t p'.users p'.unsent := by
  have hnil : Account s n t [] [] := hacc.mono List.nodup_nil (List.nil_subset _) (List.nil_sublist _)
  -- what a lookup of a user adds
  have hlookup : ∀ {u : String} {T : Option String} {users : List String} {found : List ConnectionHandle},
      Account s n t (u :: users) found → (∀ conn ∈ found, Known s conn) →
        Account s n t users (found ++ getUserConnectionsFiltered s.manager u T) := by
    intro u T users found hacc hfound
    have henum := enumerates_getUserConnectionsFiltered hm T u
    refine hacc.found hregistered (fun conn hc => ?_) henum.nodup (fun conn hc => ((henum.mem_iff conn).mp hc).2.1)
    rcases List.mem_append.mp hc with hc | hc
    · exact hfound conn hc
    · exact hmanager _ _ ((henum.mem_iff conn).mp hc).1
  -- what the other lookups find, before anything has been sent
  have hfresh : ∀ {conns : List ConnectionHandle}, p.unstarted = true → (conns.map (·.id)).Nodup →
      Account s n t [] conns := by
    intro conns hunstarted hnodup
    exact .of_unserved (hunserved hunstarted) List.nodup_nil hnodup (fun conn _ => List.not_mem_nil)
  cases h with
  | expire | userStore => exact hnil
  | begin =>
      rename_i call
      cases htarget : call.target with
      | user userId =>
          rw [Pc.users, htarget] at hacc
          exact hacc
      | users userIds =>
          rw [Pc.users, htarget] at hacc
          exact account_nextBatch hacc
      | broadcast | channel | channels => exact hnil
  | userOffline | batchOffline | track => exact hacc
  | userOnline => exact account_startSend (hlookup hacc hfound)
  | nextOffline hnone =>
      rename_i d u batch offline rest found
      have heq : (Pc.usersLookup d batch found (offline ++ [u]) rest).users = offline ++ (u :: batch ++ rest) := by
        simp [Pc.users]
      rw [heq]
      exact hacc
  | nextOnline =>
      rename_i d u batch offline rest found
      have hperm : (offline ++ (u :: batch ++ rest)).Perm (u :: (offline ++ (batch ++ rest))) := List.perm_middle
      have hnext : Account s n t (u :: (offline ++ (batch ++ rest))) found :=
        hacc.mono (hperm.nodup_iff.mp hacc.nodup_users) hperm.symm.subset (List.Sublist.refl _)
      exact hlookup hnext hfound
  | batchOnline => exact account_startSend (hacc.mono (List.Nodup.of_append_right hacc.nodup_users)
      (List.subset_append_right _ _) (List.Sublist.refl _))
  | store => exact hacc.mono hacc.nodup_users.of_cons (List.subset_cons_self _ _) (List.Sublist.refl _)
  | stored | channels => exact account_startSend hacc
  | broadcast => exact account_startSend (hfresh rfl (enumerates_getBroadcastConnections hm _).nodup)
  | channel => exact account_startSend (hfresh rfl (enumerates_getChannelConnections hm _).nodup)
  | nextChannel => exact hfresh rfl (nodup_addUnseen _ hacc.nodup_unsent)
  | sent => exact account_nextBatch hacc
  | place | giveUp => exact hacc.mono hacc.nodup_users (List.Subset.refl _) (List.eraseIdx_sublist _ _)

/-- A dispatch that has sent and stored nothing after a step had not before it, and its step sends and
stores nothing. -/
theorem DispatchStep.unstarted (h : DispatchStep inp s p a p') (hp' : p'.unstarted = true) :
    p.unstarted = true ∧ a.sentPair = none ∧ a.storedPair = none := by
  cases h with
  | begin | nextChannel => exact ⟨rfl, rfl, rfl⟩
  | userOnline | batchOnline | stored | broadcast | channel | channels =>
      rw [unstarted_startSend] at hp'
      cases hp'
  | sent =>
      rw [unstarted_nextBatch] at hp'
      cases hp'
  | _ => cases hp'

/-- A dispatch keeps its tenant. -/
theorem DispatchStep.tenantId (h : DispatchStep inp s p a p') : p'.tenantId = p.tenantId := by
  cases h with
  | begin => exact tenantId_firstLookup _ _
  | userOnline | batchOnline | stored | broadcast | channel | channels => exact tenantId_startSend
  | sent => exact tenantId_nextBatch
  | _ => rfl

/-- The connections that are left after one has been sent to are others. -/
theorem ne_of_mem_eraseIdx {todo : List ConnectionHandle} {i : ℕ} {conn : ConnectionHandle}
    (hnodup : (todo.map (·.id)).Nodup) (hi : todo[i]? = some conn) : ∀ c ∈ todo.eraseIdx i, c.id ≠ conn.id := by
  intro c hc heq
  obtain ⟨hlt, rfl⟩ := List.getElem?_eq_some_iff.mp hi
  have hmem : c.id ∈ (todo.eraseIdx i).map (·.id) := List.mem_map_of_mem hc
  have hi' : i < (todo.map (·.id)).length := by simpa using hlt
  rw [← List.eraseIdx_map, ← hnodup.erase_getElem i hi', heq, List.getElem_map] at hmem
  exact hnodup.not_mem_erase hmem

/-- A direct send goes to a connection that was left, and leaves only others. -/
theorem sent_of_step {id : Uuid} {q : Option Pc} (h : step U settings inp s p = some (a, q))
    (ha : a.sentPair = some (id, n)) : n ∈ p.role.eventId ∧ ∃ conn ∈ p.unsent, conn.id = id ∧ conn ∈ p.found ∧
      ((p.unsent.map (·.id)).Nodup → ∀ p' ∈ q, ∀ c ∈ p'.unsent, c.id ≠ id) ∧ ∀ p' ∈ q, p'.users = p.users := by
  obtain ⟨m, now, rfl, e, he, rfl⟩ := sentPair_eq_some_iff.mp ha
  obtain ⟨d, concurrent, todo, rest, rfl⟩ := send_of_direct h
  obtain ⟨-, heq, -⟩ | ⟨i, conn, hi, -, heq, rfl⟩ | ⟨i, conn, -, -, heq, -⟩ := step_send_cases h
  · cases heq
  · cases heq
    have hconn := List.mem_of_getElem? hi
    refine ⟨?_, conn, hconn, rfl, hconn, ?_, ?_⟩
    · cases concurrent <;> cases he <;> rfl
    · rintro hnodup p' ⟨⟩
      exact ne_of_mem_eraseIdx hnodup hi
    · rintro p' ⟨⟩
      rfl
  · cases heq

/-- An event is stored for a user who was left, and who is not any more. -/
theorem stored_of_step {i : Identity} {q : Option Pc} (h : step U settings inp s p = some (a, q))
    (ha : a.storedPair = some (i, n)) : n ∈ p.role.eventId ∧ i.tenantId = p.tenantId.getD defaultTenantId ∧
      i.userId ∈ p.users ∧ ∀ p' ∈ q, p'.unsent = p.unsent ∧ (p.users.Nodup → i.userId ∉ p'.users) := by
  cases a with
  | enqueue i' m =>
      obtain ⟨rfl, rfl⟩ := Prod.mk.inj (Option.some.inj ha)
      have hp := (fresh_of_enqueuedId h rfl).1
      cases p with
      | userEnqueue d userId =>
          cases h
          refine ⟨rfl, rfl, List.mem_cons_self, ?_⟩
          rintro p' ⟨⟩
          exact ⟨rfl, fun _ => List.not_mem_nil⟩
      | usersEnqueue d offline found rest =>
          cases offline with
          | nil => cases hp
          | cons userId offline =>
              cases h
              refine ⟨rfl, rfl, List.mem_cons_self, ?_⟩
              rintro p' ⟨⟩
              exact ⟨rfl, fun hnodup => (List.nodup_cons.mp hnodup).1⟩
      | _ => cases hp
  | _ => cases ha

end steps

/-! ### Runs without duplicates -/

/-- A list of users to whom an event is dispatched names nobody twice. -/
def Distinct : Event ServiceCall Input → Prop
  | .call (.dispatch call) => call.target.named.Nodup
  | _ => True

instance (e : Event ServiceCall Input) : Decidable (Distinct e) := by
  obtain ⟨⟨⟩⟩ | _ := e <;> dsimp only [Distinct] <;> infer_instance

/-- Nothing was sent or stored twice, and nothing both to and for one user. -/
structure Tally (s : Service) : Prop where
  sent : s.sentPairs.Nodup
  stored : s.storedPairs.Nodup
  apart : ∀ id i n, (id, n) ∈ s.sentPairs → (i, n) ∈ s.storedPairs → i.userId ∉ s.owners id
  tenant : ∀ i j n, (i, n) ∈ s.storedPairs → (j, n) ∈ s.storedPairs → i.tenantId = j.tenantId
  begun : ∀ n, n ∉ s.beganIds → Unserved s n

section runs
variable {U : UnicodeTables} {settings : Settings} {c : Config Service Pc} {inp : Input} {a : Action}
  {p : Pc} {q : Option Pc} {n : Uuid} {ok : Config Service Pc → Event ServiceCall Input → Prop}

/-- Only a connection that has been sent to before could be registered again, and identifiers are new. -/
theorem not_sent_of_register (hok : ∀ c e, ok c e → Legal c e)
    (hr : Reaches (system U settings) ok (initial settings) c) {i : ℕ} (he : ok c (.run i inp))
    (hp : c.threads[i]? = some p) {r : Option Role} (hmove : Move settings inp c.shared p.role a r) :
    ∀ id ∈ a.registeredId, ∀ n, (id, n) ∉ c.shared.sentPairs := by
  intro id hid n hsent
  obtain ⟨hrole, rfl⟩ := hmove.fresh_of_registeredId hid
  exact (hok _ _ he p hp).1 (registers_of_connecting hrole) ((registered_of_placed hr).2 _ n (placed_of_sent hsent))

/-- The account of the dispatch that takes the step. -/
theorem Pc.Tidy.own_step {p' : Pc} (ht : p.Tidy c.shared) (hp : p ∈ c.threads)
    (hstep : step U settings inp c.shared p = some (a, some p')) (hm : c.shared.manager.Indexed)
    (hregistered : c.shared.registeredIds.Nodup) (hknown : AllKnown c)
    (hnew : ∀ id ∈ a.registeredId, ∀ n, (id, n) ∉ c.shared.sentPairs) : p'.Tidy (c.shared.apply a) := by
  intro n hn'
  have hn : n ∈ p.role.eventId := (step_move hstep).eventId hn'
  obtain ⟨hacc, hunserved⟩ := ht n hn
  have hfound := hknown.found p hp
  have hdispatch := dispatchStep_of_step hstep hn
  have hnext := hacc.step hdispatch hunserved hm hregistered hknown.manager hfound
  rw [hdispatch.tenantId]
  refine ⟨hnext.apply (fun id hid => ?_) (fun i hi => ?_) (fun id hid => hnew id hid n), fun hp' => ?_⟩
  · obtain ⟨-, conn, hconn, rfl, hfoundConn, hleft, husers⟩ := sent_of_step hstep hid
    refine ⟨hleft hacc.nodup_unsent p' rfl, fun u hu => ?_⟩
    rw [husers p' rfl, owner_unique hregistered hu (hfound conn hfoundConn).mem_owners]
    exact hacc.apart conn hconn
  · obtain ⟨-, htenant, huser, hleft⟩ := stored_of_step hstep hi
    obtain ⟨hunsent, husers⟩ := hleft p' rfl
    refine ⟨htenant, husers hacc.nodup_users, fun conn hconn heq => ?_⟩
    rw [hunsent] at hconn
    exact hacc.apart conn hconn (heq ▸ huser)
  · obtain ⟨hstart, hsent, hstored⟩ := hdispatch.unstarted hp'
    exact (hunserved hstart).apply (by simp [hsent]) (by simp [hstored])

/-- The account of another dispatch. -/
theorem Pc.Tidy.other_step {s : Service} {p' : Pc} (ht : p'.Tidy s) (hstep : step U settings inp s p = some (a, q))
    (hdifferent : ∀ x ∈ p.role.eventId, x ∉ p'.role.eventId)
    (hnew : ∀ id ∈ a.registeredId, ∀ n, (id, n) ∉ s.sentPairs) : p'.Tidy (s.apply a) := by
  intro n hn
  have hsent : ∀ id, a.sentPair ≠ some (id, n) := fun id hid => hdifferent n (sent_of_step hstep hid).1 hn
  have hstored : ∀ i, a.storedPair ≠ some (i, n) := fun i hi => hdifferent n (stored_of_step hstep hi).1 hn
  obtain ⟨hacc, hunserved⟩ := ht n hn
  exact ⟨hacc.apply (fun id hid => absurd hid (hsent id)) (fun i hi => absurd hi (hstored i))
    (fun id hid => hnew id hid n), fun hp' => (hunserved hp').apply hsent hstored⟩

/-- A step of a dispatch whose account is in order sends and stores nothing twice. -/
theorem Tally.step (h : Tally c.shared) (ht : p.Tidy c.shared) (hp : p ∈ c.threads)
    (hstep : AraNotification.step U settings inp c.shared p = some (a, q)) (hd : Dispatches c) (hknown : AllKnown c)
    (hregistered : c.shared.registeredIds.Nodup)
    (hnew : ∀ id ∈ a.registeredId, ∀ n, (id, n) ∉ c.shared.sentPairs) : Tally (c.shared.apply a) where
  sent := by
    refine nodup_filterMap_apply h.sent ?_
    rintro ⟨id, n⟩ hid hold
    obtain ⟨hn, conn, hconn, rfl, -⟩ := sent_of_step hstep hid
    exact ((ht n hn).1.sent conn.id hold).1 conn hconn rfl
  stored := by
    refine nodup_filterMap_apply h.stored ?_
    rintro ⟨i, n⟩ hi hold
    obtain ⟨hn, -, huser, -⟩ := stored_of_step hstep hi
    exact ((ht n hn).1.stored i hold).2.1 huser
  apart id i n hid hi howner := by
    rcases mem_sentPairs_apply.mp hid with hid | hid
    · rcases mem_owners_apply.mp howner with howner | howner
      · rcases mem_storedPairs_apply.mp hi with hi | hi
        · exact h.apart id i n hid hi howner
        · obtain ⟨hn, -, huser, -⟩ := stored_of_step hstep hi
          exact ((ht n hn).1.sent id hid).2 _ howner huser
      · exact hnew id (registeredId_of_ownerOf howner) n hid
    · obtain ⟨hn, conn, hconn, rfl, hfound, -⟩ := sent_of_step hstep hid
      obtain ⟨m, now, rfl, -⟩ := sentPair_eq_some_iff.mp hid
      rcases mem_storedPairs_apply.mp hi with hi | hi
      · rcases mem_owners_apply.mp howner with howner | howner
        · refine ((ht n hn).1.stored i hi).2.2 conn hconn ?_
          exact owner_unique hregistered (hknown.found p hp conn hfound).mem_owners howner
        · cases howner
      · cases hi
  tenant i j n hi hj := by
    rcases mem_storedPairs_apply.mp hi with hi | hi <;> rcases mem_storedPairs_apply.mp hj with hj | hj
    · exact h.tenant i j n hi hj
    · obtain ⟨hn, htenant, -⟩ := stored_of_step hstep hj
      rw [htenant, ((ht n hn).1.stored i hi).1]
    · obtain ⟨hn, htenant, -⟩ := stored_of_step hstep hi
      rw [htenant, ((ht n hn).1.stored j hj).1]
    · rw [Option.some.inj (hi.symm.trans hj) |> Prod.mk.inj |> And.left]
  begun n hn := by
    have hbefore : n ∉ c.shared.beganIds := fun hb => hn (Service.mem_filterMap_apply.mpr (.inl hb))
    have hmove := step_move hstep
    refine (h.begun n hbefore).apply (fun id hid => hbefore ?_) (fun i hi => hbefore ?_)
    · obtain ⟨-, ⟨e, since, m, hrole, rfl, -⟩ | ⟨hconn, -⟩⟩ := hmove.source_of_placedId (placedId_of_sentPair hid)
      · exact (hd.running hp hrole).1
      · obtain ⟨d, concurrent, todo, rest, rfl⟩ : ∃ d concurrent todo rest, p = .send d concurrent todo rest := by
          obtain ⟨m, now, rfl, -⟩ := sentPair_eq_some_iff.mp hid
          exact send_of_direct hstep
        cases hconn
    · exact (hd.stores hp hmove n (storedId_of_storedPair hi)).1

theorem tidy_of_reaches (hok : ∀ c e, ok c e → Legal c e ∧ Distinct e)
    (h : Reaches (system U settings) ok (initial settings) c) : Tally c.shared ∧ Holds (fun s p => p.Tidy s) c := by
  have hlegal : ∀ c e, ok c e → Legal c e := fun c e he => (hok c e he).1
  refine h.invariant (I := fun c => Tally c.shared ∧ Holds (fun s p => p.Tidy s) c)
    ⟨⟨List.nodup_nil, List.nodup_nil, fun _ _ _ hid => absurd hid List.not_mem_nil,
      fun _ _ _ hi => absurd hi List.not_mem_nil, fun _ _ => ⟨fun _ => List.not_mem_nil, fun _ => List.not_mem_nil⟩⟩,
      by simp [Holds, initial]⟩ ?_
  rintro c e c' hr ⟨htally, htidy⟩ he hn
  have hd := dispatches_of_reaches hlegal hr
  have hknown := known_of_reaches hr
  have hregistered := (nodup_of_reaches hlegal hr).2
  refine ⟨?_, htidy.next hn ?_ ?_⟩
  · obtain ⟨op, rfl, rfl⟩ | ⟨i, inp, p, s, q, l₁, l₂, rfl, hp, hs, hl, rfl⟩ := System.next_cases hn
    · exact htally
    · obtain ⟨a, hstep, rfl, hmove⟩ := system_move hs
      have hp' := List.mem_of_getElem? hp
      exact htally.step (htidy p hp') hp' hstep hd hknown hregistered (not_sent_of_register hlegal hr he hp hmove)
  · rintro op rfl n hop
    cases op with
    | dispatch call =>
        obtain rfl := Option.some.inj hop
        have hunserved := htally.begun call.event.id (hok _ _ he).1.1
        exact ⟨.of_unserved hunserved (hok _ _ he).2 List.nodup_nil (fun conn hc => absurd hc List.not_mem_nil),
          fun _ => hunserved⟩
    | _ => cases hop
  · rintro i inp p s q l₁ l₂ rfl hp hl hs
    obtain ⟨a, hstep, rfl, hmove⟩ := system_move hs
    have hp' := List.mem_of_getElem? hp
    have hnew := not_sent_of_register hlegal hr he hp hmove
    refine ⟨?_, fun p' hmem ht => ?_⟩
    · rintro p' rfl
      exact (htidy p hp').own_step hp' hstep (indexed_of_reaches hlegal hr) hregistered hknown hnew
    · exact ht.other_step hstep (fun x hx => hd.tokens.not_mem_of_split hl hmem hx) hnew

/-- **A dispatch puts its event on every channel at most once**, in every interleaving and whatever its
target. -/
theorem sent_once (h : Reaches (system U settings) (fun c e => Legal c e ∧ Distinct e) (initial settings) c) :
    c.shared.sentPairs.Nodup :=
  (tidy_of_reaches (fun _ _ he => he) h).1.sent

end runs

/-! ### Replays -/

/-- How often a message is in a backlog. -/
def Pc.copies (x : Uuid) (p : Pc) : ℕ := (p.role.backlog.map (·.id)).count x

namespace Service

/-- The messages in a queue, oldest first. -/
def queuedIds (s : Service) (key : String) : List Uuid := (s.queue.messages key).map (·.id)

end Service

/-- Every message that is queued, in a backlog or replayed was stored, and is only counted once. -/
def Conserved (c : Config Service Pc) : Prop := ∀ key x,
  (c.shared.queuedIds key).count x + c.shared.replayedIds.count x + carried (Pc.copies x) c ≤
    c.shared.enqueuedIds.count x

section replays
variable {U : UnicodeTables} {settings : Settings} {c : Config Service Pc} {inp : Input} {s : Service} {a : Action}
  {r : Role} {q : Option Role} {x : Uuid} {key : String} {ok : Config Service Pc → Event ServiceCall Input → Prop}

theorem drained_sublist (now : DateTime) : (s.queue.drain key now).1.messages.Sublist (s.queue.messages key) := by
  by_cases hq : s.queue.config.enabled = true
  · rw [MemoryQueueBackend.drained_messages hq]
    exact List.filter_sublist
  · rw [MemoryQueueBackend.drain, if_neg hq]
    exact List.nil_sublist _

theorem count_filterMap_apply {f : Action → Option Uuid} :
    ((s.apply a).history.filterMap f).count x = (s.history.filterMap f).count x + (f a).toList.count x := by
  rw [Service.history_apply, List.filterMap_append, List.count_append]
  cases h : f a <;> simp [h]

theorem count_queuedIds_apply_le (key : String) : ((s.apply a).queuedIds key).count x ≤
    (s.queuedIds key).count x + a.enqueuedId.toList.count x := by
  have hstored : ((a.storedUnder key).toList.map (·.id)).Sublist a.enqueuedId.toList := by
    cases a with
    | enqueue i m =>
        simp only [Action.storedUnder, Action.enqueuedId]
        split_ifs
        · exact List.Sublist.refl _
        · exact List.nil_sublist _
    | _ => exact List.Sublist.refl _
  have hsub := (Service.messages_apply_sublist (s := s) (a := a) key).map (·.id)
  rw [List.map_append] at hsub
  have hcount := (hsub.trans (hstored.append_left _)).count_le x
  rwa [List.count_append] at hcount

/-- A drain takes its messages out of the queue. -/
theorem count_drain {key' : String} (now : DateTime) :
    ((s.apply (.drain key' now)).queuedIds key).count x +
        (if key = key' then ((s.queue.drain key' now).1.messages.map (·.id)).count x else 0) ≤
      (s.queuedIds key).count x := by
  have hsub : (s.queue.drain key' now).1.messages.Sublist (s.queue.messages key') := drained_sublist now
  have hdrained := (hsub.map (·.id)).count_le x
  unfold Service.queuedIds
  by_cases hq : s.queue.config.enabled = true
  · rw [Service.messages_apply_drain hq]
    split_ifs with hkey
    · subst hkey
      simpa using hdrained
    · exact le_rfl
  · rw [Service.queue_apply_of_disabled hq, MemoryQueueBackend.drain, if_neg hq]
    simp [DrainResult.empty]

/-- A move other than a drain takes what it replays from its own backlog. -/
theorem Move.copies (h : Move settings inp s r a q) (hdrain : ∀ key now, a ≠ .drain key now) :
    a.replayedId.toList.count x + q.elim 0 (fun r' => (r'.backlog.map (·.id)).count x) ≤
      (r.backlog.map (·.id)).count x := by
  cases h with
  | quiet ha =>
      have hnone : a.replayedId = none := by
        cases a <;> first | exact ha.elim | rfl
      simp [hnone]
  | drain => exact absurd rfl (hdrain _ _)
  | replay hroom => simp [Action.replayedId, Role.backlog, List.count_cons, Nat.add_comm]
  | skip => simp [Action.replayedId, Role.backlog, List.count_cons]
  | register hid hr => rcases hr with rfl | ⟨-, rfl⟩ <;> exact Nat.zero_le _
  | unregister hr => rcases hr with rfl | rfl <;> exact Nat.zero_le _
  | «end» ha => rcases ha with rfl | rfl <;> exact Nat.zero_le _
  | _ => exact Nat.zero_le _

/-- A message is in the queue of one key only. -/
theorem key_of_queued (hok : ∀ c e, ok c e → Legal c e)
    (h : Reaches (system U settings) ok (initial settings) c) {key' : String} (hx : x ∈ c.shared.queuedIds key)
    (hx' : x ∈ c.shared.queuedIds key') : key = key' := by
  obtain ⟨m, hm, hid⟩ := List.mem_map.mp hx
  obtain ⟨m', hm', hid'⟩ := List.mem_map.mp hx'
  obtain ⟨i, hi, rfl⟩ := (sourced_of_reaches h).queue key m hm
  obtain ⟨i', hi', rfl⟩ := (sourced_of_reaches h).queue key' m' hm'
  have hsame := eq_of_nodup (nodup_of_reaches hok h).1 hi hi' (congrArg some hid) (congrArg some hid')
  rw [(Action.enqueue.inj hsame).1]

theorem conserved_of_reaches (hok : ∀ c e, ok c e → Legal c e)
    (h : Reaches (system U settings) ok (initial settings) c) : Conserved c := by
  refine h.invariant (fun key x => ?_) ?_
  · simp [Service.queuedIds, initial, MemoryQueueBackend.messages_new, Service.replayedIds, carried]
  intro c e c' hr hc he hn key x
  obtain ⟨op, -, hs, hcarried⟩ | ⟨i, inp, p, s, q, -, hp, hstep, hs, hcarried⟩ := carried_next hn
  · have hnone : Pc.copies x ((system U settings).start op) = 0 := by
      cases op <;> rfl
    rw [hs, hcarried, hnone]
    exact hc key x
  · obtain ⟨a, -, rfl, hmove⟩ := system_move hstep
    have hcarried := hcarried (Pc.copies x)
    have henqueued := count_filterMap_apply (s := c.shared) (a := a) (x := x) (f := Action.enqueuedId)
    have hreplayed := count_filterMap_apply (s := c.shared) (a := a) (x := x) (f := Action.replayedId)
    rw [hs, Service.enqueuedIds, Service.replayedIds, henqueued, hreplayed]
    by_cases hdrain : ∃ key' now, a = .drain key' now
    · obtain ⟨key', now, rfl⟩ := hdrain
      have hqueued : ((c.shared.apply (.drain key' now)).queuedIds key).count x +
          (if key = key' then ((c.shared.queue.drain key' now).1.messages.map (·.id)).count x else 0) ≤
            (c.shared.queuedIds key).count x := count_drain now
      have hcopies : q.elim 0 (Pc.copies x) =
          ((c.shared.queue.drain key' now).1.messages.map (·.id)).count x := by
        obtain ⟨r', hr', hbacklog⟩ := hmove.backlog_of_drain
        obtain ⟨p', rfl, rfl⟩ := Option.map_eq_some_iff.mp hr'
        rw [Option.elim_some, Pc.copies, hbacklog]
      simp only [Action.enqueuedId, Action.replayedId, Option.toList_none, List.count_nil, Nat.add_zero]
      rw [hcopies] at hcarried
      split_ifs at hqueued with hkey
      · have hbefore := hc key x
        unfold Service.enqueuedIds Service.replayedIds at hbefore
        omega
      · -- a message that is drained from another queue is not in this one
        have hsub : (c.shared.queue.drain key' now).1.messages.Sublist (c.shared.queue.messages key') :=
          drained_sublist now
        have hdrained := (hsub.map (·.id)).count_le x
        by_cases hx : x ∈ c.shared.queuedIds key'
        · have hnot : x ∉ c.shared.queuedIds key := fun hx' => hkey (key_of_queued hok hr hx' hx)
          have hzero := List.count_eq_zero_of_not_mem hnot
          have hbefore := hc key' x
          unfold Service.enqueuedIds Service.replayedIds Service.queuedIds at hbefore
          omega
        · have hzero := List.count_eq_zero_of_not_mem hx
          have hbefore := hc key x
          unfold Service.enqueuedIds Service.replayedIds at hbefore
          unfold Service.queuedIds at hzero
          omega
    · have hcopies := hmove.copies (x := x) (fun key now ha => hdrain ⟨key, now, ha⟩)
      have hqueued := count_queuedIds_apply_le (s := c.shared) (a := a) (x := x) key
      have hbefore := hc key x
      have hq : (q.map Pc.role).elim 0 (fun r' => (r'.backlog.map (·.id)).count x) = q.elim 0 (Pc.copies x) := by
        cases q <;> rfl
      rw [hq] at hcopies
      unfold Service.enqueuedIds Service.replayedIds at hbefore
      unfold Pc.copies at hcarried hbefore hcopies ⊢
      omega

theorem nodup_replayedIds (hok : ∀ c e, ok c e → Legal c e)
    (h : Reaches (system U settings) ok (initial settings) c) : c.shared.replayedIds.Nodup := by
  refine List.nodup_iff_count_le_one.mpr (fun x => ?_)
  have hbound := conserved_of_reaches hok h "" x
  have hone := List.nodup_iff_count_le_one.mp (nodup_of_reaches hok h).1 x
  omega

/-- **A stored message is replayed at most once**, by any handler and in every interleaving; then it is in
no queue and in no backlog any more. -/
theorem replayed_once (h : Reaches (system U settings) Legal (initial settings) c) :
    c.shared.replayedIds.Nodup ∧ ∀ x ∈ c.shared.replayedIds, x ∈ c.shared.enqueuedIds ∧
      (∀ key, ∀ m ∈ c.shared.queue.messages key, m.id ≠ x) ∧ ∀ p ∈ c.threads, ∀ m ∈ p.role.backlog, m.id ≠ x := by
  have hok : ∀ (c : Config Service Pc) (e : Event ServiceCall Input), Legal c e → Legal c e := fun _ _ he => he
  refine ⟨nodup_replayedIds hok h, fun x hx => ?_⟩
  have hconserved := conserved_of_reaches hok h
  have hone := List.nodup_iff_count_le_one.mp (nodup_of_reaches hok h).1 x
  have hpos := List.count_pos_iff.mpr hx
  refine ⟨?_, fun key m hm hid => ?_, fun p hp m hm hid => ?_⟩
  · have hbound := hconserved "" x
    exact List.count_pos_iff.mp (by omega)
  · have hbound := hconserved key x
    have hqueued : 0 < (c.shared.queuedIds key).count x :=
      List.count_pos_iff.mpr (List.mem_map.mpr ⟨m, hm, hid⟩)
    omega
  · have hbound := hconserved "" x
    have hcopy : 0 < Pc.copies x p := List.count_pos_iff.mpr (List.mem_map.mpr ⟨m, hm, hid⟩)
    have hcarried : Pc.copies x p ≤ carried (Pc.copies x) c := List.le_sum_of_mem (List.mem_map_of_mem hp)
    omega

end replays

/-! ### Everything that comes on a channel -/

/-- What was replayed was stored for an identity with the queue key of the connection. -/
def Action.Replays (s : Service) : Action → Prop
  | .place id msg _ (.replay x) => ∃ transport h i m, .register transport h ∈ s.history ∧ h.id = id ∧
      .enqueue i m ∈ s.history ∧ m.id = x ∧ msg.event = some m.event ∧ i.key = h.identity.key
  | _ => True

section received
variable {U : UnicodeTables} {settings : Settings} {c : Config Service Pc} {inp : Input} {s : Service} {a b : Action}
  {r : Role} {q : Option Role} {S : Set Identity} {ok : Config Service Pc → Event ServiceCall Input → Prop}

theorem Action.Replays.apply (h : b.Replays s) : b.Replays (s.apply a) := by
  unfold Action.Replays at h ⊢
  split
  · obtain ⟨transport, h', i, m, hreg, hid, henq, hx, hevent, hkey⟩ := h
    exact ⟨transport, h', i, m, Service.mem_history_of_mem hreg, hid, Service.mem_history_of_mem henq, hx, hevent, hkey⟩
  · trivial

theorem Move.replays (h : Move settings inp s r a q) (hr : r.Sourced s) : a.Replays (s.apply a) := by
  cases h with
  | replay hroom =>
      rename_i transport h start m backlog
      obtain ⟨hreg, hback⟩ := hr
      obtain ⟨i, henq, hkey⟩ := hback m List.mem_cons_self
      exact ⟨transport, h, i, m, Service.mem_history_of_mem hreg, rfl, Service.mem_history_of_mem henq, rfl, rfl, hkey⟩
  | quiet ha => cases a <;> trivial
  | «end» ha => rcases ha with rfl | rfl <;> trivial
  | _ => trivial

theorem replays_of_reaches (h : Reaches (system U settings) ok (initial settings) c) :
    ∀ b ∈ c.shared.history, b.Replays c.shared := by
  refine service_invariant (P := fun s => ∀ b ∈ s.history, b.Replays s) h (by simp [initial]) ?_
  intro c i inp p a q hr hc _ hp _ hmove b hb
  rcases Service.mem_history_apply.mp hb with hold | rfl
  · exact (hc b hold).apply
  · exact hmove.replays ((sourced_of_reaches hr).handlers p (List.mem_of_getElem? hp))

/-- What is put on a channel is sent directly or replayed. -/
theorem origin_of_placedId {id n : Uuid} (h : a.placedId id = some n) : a.sentPair = some (id, n) ∨
    ∃ msg now x, a = .place id msg now (.replay x) ∧ ∃ e ∈ msg.event, e.id = n := by
  cases a with
  | place id' msg now origin =>
      cases origin with
      | direct | replay =>
          simp only [Action.placedId] at h
          split_ifs at h with hid
          subst hid
          obtain ⟨e, he, rfl⟩ := Option.map_eq_some_iff.mp h
          first
            | exact .inl (sentPair_eq_some_iff.mpr ⟨msg, now, rfl, e, he, rfl⟩)
            | exact .inr ⟨msg, now, _, rfl, e, he, rfl⟩
      | _ => cases h
  | _ => cases h

/-- Within a tenant, different users have different queue keys. -/
theorem eq_of_key_eq {i j : Identity} (ht : i.tenantId = j.tenantId) (hk : i.key = j.key) : i = j := by
  rcases key_eq_iff.mp hk with heq | hcollide
  · exact heq
  · have hlength : ∀ {i j : Identity}, i.tenantId = j.tenantId → ¬ CollideLeft i j := by
      rintro i j ht (⟨hi, hj, -⟩ | ⟨-, part, hj, -⟩)
      · exact hj (ht ▸ hi)
      · have hl := congrArg (fun s => s.toList.length) (ht.trans hj)
        simp at hl
    exact (hcollide.elim (hlength ht) (hlength ht.symm)).elim

/-- An event is stored at most once for the identities that share the queue key of a connection, so two
replays of it there are replays of one message. -/
theorem eq_of_replays (ht : Tally c.shared) (hreplays : ∀ b ∈ c.shared.history, b.Replays c.shared)
    (hregistered : c.shared.registeredIds.Nodup) {id x y : Uuid} {msg msg' : OutboundMessage}
    {now now' : DateTime} {e e' : NotificationEvent} (hx : .place id msg now (.replay x) ∈ c.shared.history)
    (hy : .place id msg' now' (.replay y) ∈ c.shared.history) (he : e ∈ msg.event) (he' : e' ∈ msg'.event)
    (hid : e.id = e'.id) : x = y := by
  obtain ⟨transport, h, i, m, hreg, hh, henq, rfl, hm, hkey⟩ := hreplays _ hx
  obtain ⟨transport', h', i', m', hreg', hh', henq', rfl, hm', hkey'⟩ := hreplays _ hy
  obtain ⟨-, rfl⟩ := Action.register.inj
    (eq_of_nodup hregistered hreg hreg' (congrArg some hh) (congrArg some hh'))
  obtain rfl := Option.some.inj (hm.symm.trans he)
  obtain rfl := Option.some.inj (hm'.symm.trans he')
  have hstored : (i, m.event.id) ∈ c.shared.storedPairs := List.mem_filterMap.mpr ⟨_, henq, rfl⟩
  have hstored' : (i', m.event.id) ∈ c.shared.storedPairs := by
    rw [hid]
    exact List.mem_filterMap.mpr ⟨_, henq', rfl⟩
  obtain rfl := eq_of_key_eq (ht.tenant i i' _ hstored hstored') (hkey.trans hkey'.symm)
  have hsame := eq_of_nodup ht.stored henq henq' rfl
    (by rw [hid]; rfl : Action.storedPair (.enqueue i m') = some (i, m.event.id))
  rw [(Action.enqueue.inj hsame).2]

/-- An event that is replayed to a connection was not sent to it. -/
theorem not_sent_of_replay (ht : Tally c.shared) (hreplays : ∀ b ∈ c.shared.history, b.Replays c.shared)
    (hS : ∀ i ∈ S, ∀ j ∈ S, ¬ Collide i j) (hstored : ∀ i m, .enqueue i m ∈ c.shared.history → i ∈ S)
    (hregistered : ∀ transport h, .register transport h ∈ c.shared.history → h.identity ∈ S) {id x : Uuid}
    {msg : OutboundMessage} {now : DateTime} {e : NotificationEvent}
    (hx : .place id msg now (.replay x) ∈ c.shared.history) (he : e ∈ msg.event) :
    (id, e.id) ∉ c.shared.sentPairs := by
  intro hsent
  obtain ⟨transport, h, i, m, hreg, rfl, henq, -, hm, hkey⟩ := hreplays _ hx
  obtain rfl := Option.some.inj (hm.symm.trans he)
  have hi : i = h.identity := by
    rcases key_eq_iff.mp hkey with heq | hcollide
    · exact heq
    · exact absurd hcollide (hS _ (hstored _ _ henq) _ (hregistered _ _ hreg))
  refine ht.apart h.id i m.event.id hsent (List.mem_filterMap.mpr ⟨_, henq, rfl⟩) ?_
  rw [hi]
  exact mem_owners.mpr ⟨transport, h, hreg, rfl, rfl⟩

end received

/-! ### Two runs -/

section schedules

/-- A notification to two users of the default tenant with three devices goes once to each. -/
theorem sent_once_two_users :
    ∃ c, Reaches (system .ascii .withAck) (fun c e => Legal c e ∧ Distinct e) (initial .withAck) c ∧
      c.shared.sentPairs = [(0, 1), (1, 1)] ∧ c.shared.sentPairs.Nodup := by
  have hseen : ((system .ascii .withAck).play (fun c e => Legal c e ∧ Distinct e) (initial .withAck)
      (twoConnections "alice" "bob" (.users ["alice", "bob"]) 10)).any (fun c =>
        decide (c.shared.sentPairs = [(0, 1), (1, 1)])) = true := by
    decide +kernel
  obtain ⟨c, hr, hc⟩ := exists_reaches_of_play hseen
  exact ⟨c, hr, of_decide_eq_true hc, sent_once hr⟩

/-- The stored event of `bob` is replayed once. -/
theorem replayed_once_bob :
    ∃ c, Reaches (system .ascii .withQueue) Legal (initial .withQueue) c ∧ c.shared.replayedIds = [0] ∧
      c.shared.replayedIds.Nodup ∧ ∀ key, ∀ m ∈ c.shared.queue.messages key, m.id ≠ 0 := by
  have hseen : ((system .ascii .withQueue).play Legal (initial .withQueue) storedThenSent).any
      (fun c => decide (c.shared.replayedIds = [0])) = true := by
    decide +kernel
  obtain ⟨c, hr, hc⟩ := exists_reaches_of_play hseen
  have hreplayed := of_decide_eq_true hc
  obtain ⟨hnodup, hgone⟩ := replayed_once hr
  refine ⟨c, hr, hreplayed, hnodup, (hgone 0 ?_).2.1⟩
  rw [hreplayed]
  exact List.mem_cons_self

instance (S : Set Identity) [hS : DecidablePred (· ∈ S)] : (a : Action) → Decidable (a.Among S)
  | .enqueue i _ => hS i
  | .register _ h => hS h.identity
  | .silent | .began _ | .returned _ | .unregister _ | .updateActivity _ _ | .subscribe _ _ | .unsubscribe _ _
  | .drain _ _ | .place _ _ _ _ | .deliver _ | .sendEnded _ | .recvEnded _ | .track _ _ _ _
  | .acknowledge _ _ _ => isTrue trivial

instance (S : Set Identity) [DecidablePred (· ∈ S)] (U : UnicodeTables) (settings : Settings)
    (c : Config Service Pc) (e : Event ServiceCall Input) : Decidable (Among S U settings c e) := by
  obtain _ | ⟨i, inp⟩ := e <;> dsimp only [Among] <;> infer_instance

end schedules

end AraNotification
