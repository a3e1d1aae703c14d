import AraNotification.Lib.Interleaving
import AraNotification.PersistentQueue

/-! # Concurrent drains of a Redis stream

Tasks of any number of service instances work on the same streams, and each Redis command is
a step.  An enqueue stamps and serialises its message and appends it with `XADD`, here
without trimming; a drain reads the stream with `XRANGE`, sorts out what has expired at its
clock reading and deletes the key with `DEL`.

What a drain returns is what it read, and what it deletes is what is there when the `DEL`
arrives.  A message appended in between is lost, and two drains that read the same entries
both return them (`lost_or_doubled`).  In runs where every `DEL` finds the stream as its
drain has read it (`Unraced`), each accepted message is exactly once in the stream, in the
result of a drain or among the expired ones (`drained_once`). -/

namespace AraNotification

namespace RedisRace

open Interleaving

/-! ### The programs -/

/-- The store, and for every stream the messages appended so far, the results of the drains,
and the messages that a drain sorted out at its clock reading. -/
structure Shared where
  store : RedisStore
  accepted : String → List StoredMessage
  returned : String → List (List StoredMessage)
  expired : String → List (StoredMessage × DateTime)

/-- The calls. -/
inductive Call where
  | enqueue (userId : String) (id : Uuid) (event : NotificationEvent)
  | drain (userId : String)

/-- What the environment supplies: a clock reading, and the identifier of a new entry. -/
structure Input where
  now : DateTime
  entryId : String

/-- Program counters, named after what comes next. -/
inductive Pc where
  | stamp (userId : String) (id : Uuid) (event : NotificationEvent)
  | xadd (key : String) (m : StoredMessage) (text : String)
  | xrange (key : String)
  | sift (key : String) (entries : List StreamEntry)
  | del (key : String) (entries : List StreamEntry) (now : DateTime)

section programs
variable (b : RedisQueueBackend)

def start : Call → Pc
  | .enqueue userId id event => .stamp userId id event
  | .drain userId => .xrange (b.queueKey userId)

/-- The messages among the entries that have expired. -/
def expiredIn (entries : List StreamEntry) (now : DateTime) : List StoredMessage :=
  (b.messagesIn entries).filter (·.isExpired now b.config.messageTtlSeconds)

/-- One command, or one computation between commands. -/
def step (inp : Input) (s : Shared) : Pc → Option (Shared × Option Pc)
  | .stamp userId id event =>
      let m := StoredMessage.new id inp.now event
      if b.config.enabled then
        some (s, (b.serde.write m).map (.xadd (b.queueKey userId) m))
      else some (s, none)
  | .xadd key m text =>
      some ({ s with
        store := s.store.xaddMaxlen key b.config.maxQueueSizePerUser 0
          (RedisQueueBackend.entry inp.entryId text)
        accepted := Function.update s.accepted key (s.accepted key ++ [m]) }, none)
  | .xrange key =>
      if b.config.enabled then
        let entries := s.store.xrangeAll key
        some (s, if entries.isEmpty then none else some (.sift key entries))
      else some (s, none)
  | .sift key entries =>
      some (s, if RedisQueueBackend.found (b.sift entries inp.now) then some (.del key entries inp.now)
        else none)
  | .del key entries now =>
      some ({ s with
        store := s.store.del key
        returned := Function.update s.returned key (s.returned key ++ [(b.sift entries now).messages])
        expired := Function.update s.expired key (s.expired key ++ (expiredIn b entries now).map (·, now)) },
        none)

/-- The calls of the backend as concurrent programs. -/
def system : System Shared Call Input Pc where
  start := start b
  step := step b

end programs

/-- Empty streams and no call running. -/
def initial : Config Shared Pc := ⟨⟨⟨∅⟩, fun _ => [], fun _ => [], fun _ => []⟩, []⟩

/-- A stream that a drain deletes is as the drain has read it. -/
def Unraced (c : Config Shared Pc) : Event Call Input → Prop
  | .call _ => True
  | .run i _ =>
      match c.threads[i]? with
      | some (.del key entries _) => c.shared.store.xrangeAll key = entries
      | _ => True

instance (c : Config Shared Pc) (e : Event Call Input) : Decidable (Unraced c e) := by
  unfold Unraced
  split
  · infer_instance
  · split <;> infer_instance

/-! ### Every accepted message is in one place -/

/-- The accepted messages are those in the stream, those that drains have returned and those
that have expired. -/
structure Drained (b : RedisQueueBackend) (s : Shared) (key : String) : Prop where
  perm : (s.accepted key).Perm
    (b.messagesIn (s.store.xrangeAll key) ++ ((s.returned key).flatten ++ (s.expired key).map Prod.fst))
  expired : ∀ p ∈ s.expired key, p.1.isExpired p.2 b.config.messageTtlSeconds = true

section steps
variable {b : RedisQueueBackend} {s s' : Shared} {key : String} {inp : Input}

theorem Drained.initial (key : String) : Drained b RedisRace.initial.shared key :=
  ⟨List.Perm.refl _, fun _ hp => absurd hp List.not_mem_nil⟩

/-- An appended message is in the stream. -/
theorem Drained.xadd {key' : String} {m : StoredMessage} {text : String} {q : Option Pc}
    (h : Drained b s key) (hr : key = key' → b.serde.Reads m) (hw : b.serde.write m = some text)
    (hs : step b inp s (.xadd key' m text) = some (s', q)) : Drained b s' key := by
  cases hs
  refine ⟨?_, h.expired⟩
  simp only [Function.update_apply, RedisStore.xrangeAll_xaddMaxlen, Nat.zero_min, List.drop_zero]
  split_ifs with hk
  · subst hk
    have hparse := RedisQueueBackend.parse_entry (hr rfl) hw inp.entryId
    rw [RedisQueueBackend.messagesIn_concat hparse, List.append_assoc]
    refine (h.perm.append_right [m]).trans ?_
    rw [List.append_assoc]
    exact List.perm_append_comm.append_left _
  · exact h.perm

/-- What was in the stream goes to the results and to the expired messages. -/
theorem perm_settle {α : Type} {stream live dead returned expired : List α}
    (h : stream.Perm (live ++ dead)) :
    (stream ++ (returned ++ expired)).Perm ((returned ++ live) ++ (expired ++ dead)) := by
  refine (h.append_right _).trans (List.perm_append_comm.trans ?_)
  rw [List.append_assoc, List.append_assoc]
  exact (List.perm_append_comm_assoc _ _ _).append_left _

/-- A drain that deletes what it has read accounts for all of it. -/
theorem Drained.del {key' : String} {entries : List StreamEntry} {now : DateTime} {q : Option Pc}
    (h : Drained b s key) (hread : s.store.xrangeAll key' = entries)
    (hs : step b inp s (.del key' entries now) = some (s', q)) : Drained b s' key := by
  cases hs
  by_cases hk : key = key'
  · subst hk hread
    constructor
    · simp only [Function.update_self, RedisStore.xrangeAll_del, if_true, List.flatten_append,
        List.flatten_singleton, List.map_append, List.map_map]
      have hsplit : (b.messagesIn (s.store.xrangeAll key)).Perm
          ((b.sift (s.store.xrangeAll key) now).messages ++ expiredIn b (s.store.xrangeAll key) now) :=
        (List.filter_append_perm _ _).symm.trans List.perm_append_comm
      have hid : (expiredIn b (s.store.xrangeAll key) now).map (Prod.fst ∘ (·, now)) =
          expiredIn b (s.store.xrangeAll key) now := List.map_id _
      rw [hid]
      exact h.perm.trans (perm_settle hsplit)
    · intro p hp
      simp only [Function.update_self] at hp
      rcases List.mem_append.mp hp with hp | hp
      · exact h.expired p hp
      · obtain ⟨m, hm, rfl⟩ := List.mem_map.mp hp
        exact (List.mem_filter.mp hm).2
  · constructor
    · simp only [Function.update_of_ne hk, RedisStore.xrangeAll_del, if_neg hk]
      exact h.perm
    · simp only [Function.update_of_ne hk]
      exact h.expired

/-- The text that an enqueue appends is that of its message. -/
def Written (b : RedisQueueBackend) : Pc → Prop
  | .xadd _ m text => b.serde.write m = some text
  | _ => True

theorem written_step {p : Pc} {q : Option Pc} (hs : step b inp s p = some (s', q)) :
    ∀ r ∈ q, Written b r := by
  intro r hr
  cases p with
  | stamp userId id event =>
      simp only [step] at hs
      split_ifs at hs
      · cases hs
        obtain ⟨text, htext, rfl⟩ := Option.map_eq_some_iff.mp hr
        exact htext
      · cases hs
        cases hr
  | xrange key =>
      simp only [step] at hs
      split_ifs at hs <;> cases hs <;> cases hr
      trivial
  | sift key entries =>
      cases hs
      split_ifs at hr <;> cases hr
      trivial
  | xadd key m text | del key entries now =>
      cases hs
      cases hr

/-- The accepted messages only grow. -/
theorem accepted_step {p : Pc} {q : Option Pc} (hs : step b inp s p = some (s', q)) {m : StoredMessage}
    (hm : m ∈ s.accepted key) : m ∈ s'.accepted key := by
  cases p with
  | xadd key' m' text =>
      cases hs
      simp only [Function.update_apply]
      split_ifs with hk
      · subst hk
        exact List.mem_append_left _ hm
      · exact hm
  | stamp userId id event | xrange key =>
      simp only [step] at hs
      split_ifs at hs <;> cases hs <;> exact hm
  | sift key entries | del key entries now =>
      cases hs
      exact hm

/-- One step keeps the account, if a stream is only deleted as it was read. -/
theorem Drained.step {p : Pc} {q : Option Pc} (h : Drained b s key) (hw : Written b p)
    (hp : ∀ key entries now, p = .del key entries now → s.store.xrangeAll key = entries)
    (hr : ∀ m ∈ s'.accepted key, b.serde.Reads m)
    (hs : RedisRace.step b inp s p = some (s', q)) : Drained b s' key := by
  cases p with
  | xadd key' m text =>
      refine h.xadd (fun hk => hr m ?_) hw hs
      cases hs
      subst hk
      simp
  | del key' entries now => exact h.del (hp key' entries now rfl) hs
  | stamp userId id event | xrange key' =>
      simp only [RedisRace.step] at hs
      split_ifs at hs <;> cases hs <;> exact h
  | sift key' entries =>
      cases hs
      exact h

end steps

/-! ### Runs -/

section runs
variable {b : RedisQueueBackend} {c : Config Shared Pc}

theorem written_of_reaches {ok : Config Shared Pc → Event Call Input → Prop}
    (h : Reaches (system b) ok initial c) : Holds (fun _ => Written b) c := by
  refine h.invariant (fun _ hp => absurd hp List.not_mem_nil) ?_
  intro c e c' _ hc _ hn
  refine hc.next hn ?_ ?_
  · rintro (⟨userId, id, event⟩ | ⟨userId⟩) - <;> trivial
  · intro i inp p s q l₁ l₂ _ _ _ hs
    exact ⟨written_step hs, fun _ _ h => h⟩

/-- **In a run where every stream is deleted as it was read, each accepted message is exactly
once in the stream, in the result of a drain or among the expired messages.** -/
theorem drained_once (h : Reaches (system b) Unraced initial c) (key : String)
    (hr : ∀ m ∈ c.shared.accepted key, b.serde.Reads m) : Drained b c.shared key := by
  refine h.invariant (I := fun c => (∀ m ∈ c.shared.accepted key, b.serde.Reads m) →
    Drained b c.shared key) (fun _ => Drained.initial key) ?_ hr
  intro c e c' hreach hc hok hn hreads
  have hwritten := written_of_reaches hreach
  obtain ⟨op, rfl, rfl⟩ | ⟨i, inp, p, s, q, l₁, l₂, rfl, hp, hs, hl, rfl⟩ := System.next_cases hn
  · exact hc hreads
  · have hmem : p ∈ c.threads := List.mem_of_getElem? hp
    have hbefore := hc (fun m hm => hreads m (accepted_step hs hm))
    refine hbefore.step (hwritten p hmem) ?_ hreads hs
    rintro key' entries now rfl
    rw [Unraced, hp] at hok
    exact hok

end runs

/-! ### Lost and doubled messages -/

section schedules

/-- An event for a user who is offline. -/
def welcome : NotificationEvent :=
  ⟨9, 0, "account.welcome", .null, ⟨"http-api", .normal, none, none, none⟩⟩

/-- Message `id` with the event `welcome`, queued at second `id - 1`. -/
def welcomeMessage (id : Uuid) : StoredMessage := .new id ((id - 1 : ℕ) * nanosPerSecond) welcome

/-- The text of such a message, for identifiers of one digit. -/
def welcomeText (id : Uuid) : String :=
  "\x7b\"id\":\"00000000-0000-0000-0000-00000000000" ++ toString id ++
    "\",\"event\":\x7b\"id\":\"00000000-0000-0000-0000-000000000009\"," ++
    "\"occurred_at\":\"1970-01-01T00:00:00Z\",\"event_type\":\"account.welcome\",\"payload\":null," ++
    "\"metadata\":\x7b\"source\":\"http-api\",\"priority\":\"Normal\"\x7d\x7d," ++
    "\"queued_at\":\"1970-01-01T00:00:0" ++ toString (id - 1) ++ "Z\",\"attempts\":0\x7d"

/-- Serialisation of the messages 1 and 2. -/
def welcomeSerde : Serde StoredMessage String where
  write m := some (welcomeText m.id)
  read text :=
    if text = welcomeText 1 then some (welcomeMessage 1)
    else if text = welcomeText 2 then some (welcomeMessage 2)
    else none

set_option maxRecDepth 10000 in
theorem reads_welcome {m : StoredMessage} (h : m = welcomeMessage 1 ∨ m = welcomeMessage 2) :
    welcomeSerde.Reads m := by
  rcases h with rfl | rfl <;> rfl

/-- A backend for the default tenant. -/
def defaultBackend : RedisQueueBackend := ⟨⟨true, 100, 3600, 300⟩, "ara:queue", "default", welcomeSerde⟩

/-- The stream of `alice`. -/
def aliceKey : String := defaultBackend.queueKey "alice"

/-- A step at time zero. -/
def tick (i : ℕ) : Event Call Input := .run i ⟨0, "0-1"⟩

/-- Message 1 is stored, and a drain of it is left alone. -/
def quietSchedule : List (Event Call Input) :=
  [.call (.enqueue "alice" 1 welcome), tick 0, tick 0, .call (.drain "alice"), tick 0, tick 0, tick 0]

set_option maxRecDepth 10000 in
/-- The drain returns the message, and it is in no other place. -/
theorem drained_once_quiet :
    ∃ c, Reaches (system defaultBackend) Unraced initial c ∧
      (c.shared.returned aliceKey).flatten.length = 1 ∧ Drained defaultBackend c.shared aliceKey := by
  have hplay : ∃ c, (system defaultBackend).play Unraced initial quietSchedule = some c ∧
      c.shared.accepted aliceKey = [welcomeMessage 1] ∧
      (c.shared.returned aliceKey).flatten.length = 1 := ⟨_, rfl, rfl, rfl⟩
  obtain ⟨c, hc, haccepted, hreturned⟩ := hplay
  have hr := reaches_of_play quietSchedule hc
  refine ⟨c, hr, hreturned, drained_once hr aliceKey ?_⟩
  intro m hm
  rw [haccepted, List.mem_singleton] at hm
  exact reads_welcome (.inl hm)

/-- Message 2 is appended after the drain has read the stream. -/
def lostSchedule : List (Event Call Input) :=
  [.call (.enqueue "alice" 1 welcome), tick 0, tick 0, .call (.drain "alice"), tick 0, tick 0,
    .call (.enqueue "alice" 2 welcome), .run 1 ⟨1000000000, "1-1"⟩, tick 1, tick 0]

/-- Two drains read the stream before one of them deletes it. -/
def doubledSchedule : List (Event Call Input) :=
  [.call (.enqueue "alice" 1 welcome), tick 0, tick 0, .call (.drain "alice"), .call (.drain "alice"),
    tick 0, tick 1, tick 0, tick 0, tick 0, tick 0]

set_option maxRecDepth 10000 in
/-- Concurrent calls can lose an accepted message, and they can return one twice. -/
theorem lost_or_doubled :
    (¬ ∀ (b : RedisQueueBackend) (c : Config Shared Pc), Reaches (system b) (fun _ _ => True) initial c →
        ∀ key, (∀ m ∈ c.shared.accepted key, b.serde.Reads m) → ∀ m ∈ c.shared.accepted key,
          m ∈ b.messagesIn (c.shared.store.xrangeAll key) ∨ (∃ r ∈ c.shared.returned key, m ∈ r) ∨
            ∃ now, (m, now) ∈ c.shared.expired key) ∧
      ¬ ∀ (b : RedisQueueBackend) (c : Config Shared Pc), Reaches (system b) (fun _ _ => True) initial c →
        ∀ key, (∀ m ∈ c.shared.accepted key, b.serde.Reads m) →
          ((c.shared.accepted key).map (·.id)).Nodup →
          ((c.shared.returned key).flatten.map (·.id)).Nodup := by
  constructor
  · intro hall
    have hplay : ∃ c, (system defaultBackend).play (fun _ _ => True) initial lostSchedule = some c ∧
        c.shared.accepted aliceKey = [welcomeMessage 1, welcomeMessage 2] ∧
        c.shared.store.xrangeAll aliceKey = [] ∧
        c.shared.returned aliceKey = [[welcomeMessage 1]] ∧ c.shared.expired aliceKey = [] :=
      ⟨_, rfl, rfl, rfl, rfl, rfl⟩
    obtain ⟨c, hc, haccepted, hstream, hreturned, hexpired⟩ := hplay
    have hlost := hall defaultBackend c (reaches_of_play lostSchedule hc) aliceKey
    rw [haccepted, hstream, hreturned, hexpired] at hlost
    have hnot := hlost (fun m hm => reads_welcome (by simpa using hm)) (welcomeMessage 2) (by simp)
    simp [RedisQueueBackend.messagesIn, welcomeMessage, StoredMessage.new] at hnot
  · intro hall
    have hplay : ∃ c, (system defaultBackend).play (fun _ _ => True) initial doubledSchedule = some c ∧
        c.shared.accepted aliceKey = [welcomeMessage 1] ∧
        c.shared.returned aliceKey = [[welcomeMessage 1], [welcomeMessage 1]] := ⟨_, rfl, rfl, rfl⟩
    obtain ⟨c, hc, haccepted, hreturned⟩ := hplay
    have hdoubled := hall defaultBackend c (reaches_of_play doubledSchedule hc) aliceKey
    rw [haccepted, hreturned] at hdoubled
    have hnodup := hdoubled (fun m hm => reads_welcome (.inl (List.mem_singleton.mp hm))) (by simp)
    simp [welcomeMessage, StoredMessage.new] at hnodup

end schedules

end RedisRace

end AraNotification
