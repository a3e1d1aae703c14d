import AraNotification.Lib.Interleaving
import AraNotification.Queue

/-! # Concurrent calls on the in-memory queue

The calls of `MemoryQueueBackend` as programs of map accesses.  An enqueue stamps its message
and then updates the entry of the user under its lock; a drain and a clear remove the entry
in one access, after which its messages belong to the call alone.  The clean-up takes the
list of keys and goes through it: the expired messages of a user are removed under the entry
lock, the lock is dropped, and a queue found empty is removed by a second access
(`removeEmpty`).

The shared state carries two records beside the backend: the messages that enqueues have
stored, and the messages that left the store with the reason for it.  A message stored
between the two accesses of a clean-up is in neither place afterwards: it is removed with
the queue that was empty before (`lost_to_cleanup`).  In runs where no clean-up removes a
queue that has been filled again (`Undisturbed`), the stored messages and those that left
for a reason are together the accepted ones, user by user (`accounted_of_undisturbed`). -/

namespace AraNotification

namespace QueueRace

open Interleaving

/-! ### The programs -/

/-- The reasons for which a message leaves the store. -/
inductive Fate where
  | returned
  | expired (now : DateTime)
  | cleared
  | dropped
deriving DecidableEq, Repr

/-- The backend, the messages stored so far for each user, and those that left the store. -/
structure Shared where
  backend : MemoryQueueBackend
  accepted : String → List StoredMessage
  departed : String → List (StoredMessage × Fate)

namespace Shared
variable (s : Shared)

/-- A message has been stored. -/
def accept (key : String) (m : StoredMessage) : Shared :=
  { s with accepted := Function.update s.accepted key (s.accepted key ++ [m]) }

/-- Messages have left the store. -/
def depart (key : String) (gone : List (StoredMessage × Fate)) : Shared :=
  { s with departed := Function.update s.departed key (s.departed key ++ gone) }

/-- Replace the backend. -/
def setBackend (b : MemoryQueueBackend) : Shared := { s with backend := b }

/-- The stored messages of a user that have expired. -/
def expiredMessages (key : String) (now : DateTime) : List StoredMessage :=
  (s.backend.messages key).filter (·.isExpired now s.backend.config.messageTtlSeconds)

end Shared

/-- The calls. -/
inductive Call where
  | enqueue (key : String) (id : Uuid) (event : NotificationEvent)
  | drain (key : String)
  | clearUserQueue (key : String)
  | cleanupExpired

/-- Program counters, named after the access that comes next. -/
inductive Pc where
  | stamp (key : String) (id : Uuid) (event : NotificationEvent)
  | entry (key : String) (m : StoredMessage)
  | drain (key : String)
  | clear (key : String)
  | snapshot
  | retain (keys : List String)
  | removeEmpty (key : String) (keys : List String)

def start : Call → Pc
  | .enqueue key id event => .stamp key id event
  | .drain key => .drain key
  | .clearUserQueue key => .clear key
  | .cleanupExpired => .snapshot

/-- The message that an append to a full queue drops. -/
def overflow (bound : ℕ) (queue : List StoredMessage) : List StoredMessage :=
  if queue.length ≥ bound then queue.head?.toList else []

/-- One access at the clock reading `now`. -/
def step (now : DateTime) (s : Shared) : Pc → Option (Shared × Option Pc)
  | .stamp key id event =>
      some (s, if s.backend.isEnabled then some (.entry key (.new id now event)) else none)
  | .entry key m =>
      some (((s.setBackend (s.backend.appendEntry key m)).accept key m).depart key
        ((overflow s.backend.config.maxQueueSizePerUser (s.backend.messages key)).map (·, .dropped)), none)
  | .drain key =>
      if s.backend.isEnabled then
        some ((s.setBackend (s.backend.drain key now).2).depart key
          ((s.backend.drain key now).1.messages.map (·, .returned) ++
            (s.expiredMessages key now).map (·, .expired now)), none)
      else some (s, none)
  | .clear key =>
      some ((s.setBackend (s.backend.clearUserQueue key).2).depart key
        ((s.backend.messages key).map (·, .cleared)), none)
  | .snapshot => some (s, some (.retain s.backend.queues.keys))
  | .retain [] => some (s, none)
  | .retain (key :: keys) =>
      match s.backend.queues.lookup key with
      | none => some (s, some (.retain keys))
      | some _ =>
          let retained := s.backend.retainEntry now key
          some ((s.setBackend retained).depart key ((s.expiredMessages key now).map (·, .expired now)),
            some (if retained.queueSize key = 0 then .removeEmpty key keys else .retain keys))
  | .removeEmpty key keys => some (s.setBackend (s.backend.removeKey key), some (.retain keys))

/-- The calls of the backend as concurrent programs. -/
def system : System Shared Call DateTime Pc where
  start := start
  step := step

/-- The empty backend with no call running. -/
def initial (config : QueueConfig) : Config Shared Pc :=
  ⟨⟨.new config, fun _ => [], fun _ => []⟩, []⟩

/-- A queue that a clean-up removes holds no message at that moment. -/
def Undisturbed (c : Config Shared Pc) : Event Call DateTime → Prop
  | .call _ => True
  | .run i _ =>
      match c.threads[i]? with
      | some (.removeEmpty key _) => c.shared.backend.messages key = []
      | _ => True

instance (c : Config Shared Pc) (e : Event Call DateTime) : Decidable (Undisturbed c e) := by
  unfold Undisturbed
  split
  · infer_instance
  · split
    · exact decidable_of_iff _ List.isEmpty_iff
    · infer_instance

/-! ### Every accepted message is accounted for -/

/-- The accepted messages of every user are those in the store and those that left it, and
what was counted as expired had expired. -/
structure Accounted (s : Shared) : Prop where
  perm : ∀ key, (s.accepted key).Perm (s.backend.messages key ++ (s.departed key).map Prod.fst)
  expired : ∀ key m now, (m, Fate.expired now) ∈ s.departed key →
    m.isExpired now s.backend.config.messageTtlSeconds = true

section steps
variable {s s' : Shared} {key : String} {now : DateTime}

theorem accepted_accept (m : StoredMessage) (key' : String) :
    (s.accept key m).accepted key' = if key' = key then s.accepted key ++ [m] else s.accepted key' := by
  simp only [Shared.accept, Function.update_apply]

theorem departed_depart (gone : List (StoredMessage × Fate)) (key' : String) :
    (s.depart key gone).departed key' = if key' = key then s.departed key ++ gone else s.departed key' := by
  simp only [Shared.depart, Function.update_apply]

/-- What comes in under one key is stored or leaves again. -/
theorem Accounted.update (h : Accounted s) {stored new : List StoredMessage}
    {gone : List (StoredMessage × Fate)}
    (hconfig : s'.backend.config = s.backend.config)
    (hstored : ∀ k, s'.backend.messages k = if k = key then stored else s.backend.messages k)
    (haccepted : ∀ k, s'.accepted k = if k = key then s.accepted key ++ new else s.accepted k)
    (hdeparted : ∀ k, s'.departed k = if k = key then s.departed key ++ gone else s.departed k)
    (hperm : (s.backend.messages key ++ new).Perm (stored ++ gone.map Prod.fst))
    (hexpired : ∀ m now, (m, Fate.expired now) ∈ gone →
      m.isExpired now s.backend.config.messageTtlSeconds = true) : Accounted s' where
  perm := by
    intro k
    rw [hstored, haccepted, hdeparted]
    split_ifs with hk
    · have hold : (s.accepted key ++ new).Perm
          (s.backend.messages key ++ ((s.departed key).map Prod.fst ++ new)) := by
        rw [← List.append_assoc]
        exact (h.perm key).append_right new
      have hnew : (s.backend.messages key ++ ((s.departed key).map Prod.fst ++ new)).Perm
          (stored ++ ((s.departed key).map Prod.fst ++ gone.map Prod.fst)) := by
        refine (List.perm_append_comm_assoc _ _ _).trans ?_
        refine (hperm.append_left _).trans ?_
        exact List.perm_append_comm_assoc _ _ _
      rw [List.map_append]
      exact hold.trans hnew
    · exact h.perm k
  expired := by
    intro k m now hm
    rw [hconfig]
    rw [hdeparted] at hm
    split_ifs at hm with hk
    · rcases List.mem_append.mp hm with hm | hm
      · exact h.expired key m now hm
      · exact hexpired m now hm
    · exact h.expired k m now hm

/-- Messages of one user leave the store. -/
theorem Accounted.leave (h : Accounted s) {b : MemoryQueueBackend} {stored : List StoredMessage}
    {gone : List (StoredMessage × Fate)} (hconfig : b.config = s.backend.config)
    (hstored : ∀ k, b.messages k = if k = key then stored else s.backend.messages k)
    (hperm : (s.backend.messages key).Perm (stored ++ gone.map Prod.fst))
    (hexpired : ∀ m now, (m, Fate.expired now) ∈ gone →
      m.isExpired now s.backend.config.messageTtlSeconds = true) :
    Accounted ((s.setBackend b).depart key gone) := by
  have haccepted : ∀ k, ((s.setBackend b).depart key gone).accepted k =
      if k = key then s.accepted key ++ [] else s.accepted k := by
    intro k
    rw [List.append_nil]
    split_ifs with hk
    · rw [hk]
      rfl
    · rfl
  refine h.update hconfig hstored haccepted (departed_depart gone) ?_ hexpired
  rw [List.append_nil]
  exact hperm

theorem perm_pushBack (bound : ℕ) (queue : List StoredMessage) (m : StoredMessage) :
    (queue ++ [m]).Perm (MemoryQueueBackend.pushBack bound queue m ++ overflow bound queue) := by
  unfold MemoryQueueBackend.pushBack overflow
  split_ifs with hfull
  · cases queue with
    | nil => exact List.Perm.refl _
    | cons x queue =>
        rw [List.tail_cons, List.head?_cons, Option.toList_some, List.cons_append]
        exact (List.perm_append_singleton x (queue ++ [m])).symm
  · rw [List.append_nil]

/-- The messages of a user are those that have expired and those that have not. -/
theorem perm_expired :
    (s.backend.messages key).Perm
      ((s.backend.messages key).filter (fun m => !m.isExpired now s.backend.config.messageTtlSeconds) ++
        s.expiredMessages key now) :=
  (List.filter_append_perm _ _).symm.trans List.perm_append_comm

theorem map_fst_map (ms : List StoredMessage) (fate : Fate) :
    (ms.map (·, fate)).map Prod.fst = ms := by
  rw [List.map_map]
  exact List.map_id ms

theorem expired_of_mem {m : StoredMessage} {t : DateTime}
    (h : (m, Fate.expired t) ∈ (s.expiredMessages key now).map (·, Fate.expired now)) :
    m.isExpired t s.backend.config.messageTtlSeconds = true := by
  obtain ⟨m', hm, heq⟩ := List.mem_map.mp h
  obtain ⟨rfl, hfate⟩ := Prod.mk.inj heq
  obtain rfl := Fate.expired.inj hfate
  exact (List.mem_filter.mp hm).2

/-- A message whose reason is another one did not expire. -/
theorem not_expired_of_mem {ms : List StoredMessage} {fate : Fate} {m : StoredMessage} {t : DateTime}
    (hf : fate ≠ .expired t) : (m, Fate.expired t) ∉ ms.map (·, fate) := by
  intro h
  obtain ⟨m', -, heq⟩ := List.mem_map.mp h
  exact hf (Prod.mk.inj heq).2

/-- One access keeps the account, if it does not remove a queue that holds messages. -/
theorem Accounted.step {p : Pc} {q : Option Pc} (h : Accounted s)
    (hp : ∀ key keys, p = .removeEmpty key keys → s.backend.messages key = [])
    (hs : QueueRace.step now s p = some (s', q)) : Accounted s' := by
  cases p with
  | stamp key id event =>
      cases hs
      exact h
  | entry key m =>
      cases hs
      refine h.update rfl MemoryQueueBackend.messages_appendEntry (accepted_accept m)
        (departed_depart _) ?_ ?_
      · rw [map_fst_map]
        exact perm_pushBack _ _ m
      · exact fun _ _ hm => absurd hm (not_expired_of_mem (by simp))
  | drain key =>
      simp only [QueueRace.step] at hs
      split_ifs at hs with he
      · cases hs
        refine h.leave MemoryQueueBackend.config_drain (MemoryQueueBackend.messages_drain he) ?_ ?_
        · rw [List.map_append, map_fst_map, map_fst_map, List.nil_append,
            MemoryQueueBackend.drained_messages he]
          exact perm_expired
        · intro m t hm
          rcases List.mem_append.mp hm with hm | hm
          · exact absurd hm (not_expired_of_mem (by simp))
          · exact expired_of_mem hm
      · cases hs
        exact h
  | clear key =>
      cases hs
      refine h.leave MemoryQueueBackend.config_clearUserQueue
        MemoryQueueBackend.messages_clearUserQueue ?_ ?_
      · rw [map_fst_map, List.nil_append]
      · exact fun _ _ hm => absurd hm (not_expired_of_mem (by simp))
  | snapshot =>
      cases hs
      exact h
  | retain keys =>
      cases keys with
      | nil =>
          cases hs
          exact h
      | cons key keys =>
          simp only [QueueRace.step] at hs
          split at hs
          · cases hs
            exact h
          · cases hs
            refine h.leave rfl MemoryQueueBackend.messages_retainEntry ?_ (fun _ _ => expired_of_mem)
            rw [map_fst_map]
            exact perm_expired
  | removeEmpty key keys =>
      -- Nothing is recorded here, so nothing may be stored.
      cases hs
      have hempty := hp key keys rfl
      refine ⟨fun k => ?_, h.expired⟩
      have hstored : (s.backend.removeKey key).messages k = s.backend.messages k := by
        rw [MemoryQueueBackend.messages_removeKey]
        split_ifs with hk
        · rw [hk, hempty]
        · rfl
      show (s.accepted k).Perm ((s.backend.removeKey key).messages k ++ _)
      rw [hstored]
      exact h.perm k

end steps

/-! ### Runs -/

/-- **In a run where no clean-up removes a queue that was filled again, the accepted messages
are those in the store and those returned, expired, cleared or dropped for capacity.** -/
theorem accounted_of_undisturbed {config : QueueConfig} {c : Config Shared Pc}
    (h : Reaches system Undisturbed (initial config) c) : Accounted c.shared := by
  have hempty : Accounted (initial config).shared :=
    ⟨fun _ => List.Perm.refl _, fun _ _ _ hm => absurd hm List.not_mem_nil⟩
  refine h.shared_invariant hempty ?_
  intro c i now p s q _ hc hok hp hs
  refine hc.step ?_ hs
  rintro key keys rfl
  rw [Undisturbed, hp] at hok
  exact hok

/-- An event for a user who is offline. -/
def invitation : NotificationEvent :=
  ⟨9, 0, "team.invitation", .null, ⟨"http-api", .normal, none, none, none⟩⟩

/-- Messages expire after a second. -/
def shortTtl : QueueConfig := ⟨true, 100, 1, 300⟩

/-- A message for `alice` expires and a clean-up finds the queue empty; `between` runs before
it removes the queue. -/
def cleanupSchedule (between : List (Event Call DateTime)) : List (Event Call DateTime) :=
  [.call (.enqueue "alice" 1 invitation), .run 0 0, .run 0 0,
    .call .cleanupExpired, .run 0 2000000000, .run 0 2000000000] ++ between ++ [.run 0 2000000000]

/-- The clean-up is left alone: the message is on record as expired. -/
theorem accounted_after_cleanup :
    ∃ c, Reaches system Undisturbed (initial shortTtl) c ∧
      (c.shared.accepted "alice").length = 1 ∧ (c.shared.departed "alice").length = 1 ∧
      Accounted c.shared := by
  have hseen : (system.play Undisturbed (initial shortTtl) (cleanupSchedule [])).any (fun c => decide
      ((c.shared.accepted "alice").length = 1 ∧ (c.shared.departed "alice").length = 1)) = true := by
    decide +kernel
  obtain ⟨c, hr, hc⟩ := exists_reaches_of_play hseen
  obtain ⟨haccepted, hdeparted⟩ := of_decide_eq_true hc
  exact ⟨c, hr, haccepted, hdeparted, accounted_of_undisturbed hr⟩

/-- A message stored after a clean-up found the queue empty, and before it removed the queue,
is lost without having expired. -/
theorem lost_to_cleanup :
    ¬ ∀ (config : QueueConfig) (c : Config Shared Pc), config.enabled = true →
        Reaches system (fun _ _ => True) (initial config) c →
        ∀ key, ∀ m ∈ c.shared.accepted key,
          m ∈ c.shared.backend.messages key ∨ ∃ fate, (m, fate) ∈ c.shared.departed key := by
  intro hall
  have hseen : (system.play (fun _ _ => True) (initial shortTtl)
      (cleanupSchedule [.call (.enqueue "alice" 2 invitation), .run 1 2000000000, .run 1 2000000000])).any
      (fun c => decide ((∃ m ∈ c.shared.accepted "alice", m.id = 2) ∧
        (∀ m ∈ c.shared.backend.messages "alice", m.id ≠ 2) ∧
        ∀ p ∈ c.shared.departed "alice", p.1.id ≠ 2)) = true := by
    decide +kernel
  obtain ⟨c, hr, hc⟩ := exists_reaches_of_play hseen
  obtain ⟨⟨m, hm, hid⟩, hstored, hdeparted⟩ := of_decide_eq_true hc
  rcases hall shortTtl c rfl hr "alice" m hm with hin | ⟨fate, hgone⟩
  · exact hstored m hin hid
  · exact hdeparted _ hgone hid

end QueueRace

end AraNotification
