import AraNotification.BucketLimits
import AraNotification.ConnectionRace
import AraNotification.Lib.Runs

/-! # Shutdown

`GracefulShutdown::execute` notifies the clients, signals the background tasks, waits for the queues to drain
and then for the connections to close (`shutdown/mod.rs`).  Meanwhile the tasks of the connections go on:
they are the concurrent calls of `ConnectionRace.lean`, access by access.  `step` is one event, of those
tasks or of `execute`:

1. `proceed`: `execute` takes its next step, which reads the number of connections in `count`, `sleeping`
   and `recount`;
2. `sent`, `queue`: the answers to a notification and to a query of the queue;
3. `timeout`: the phase has taken too long.

The number of connections is read once before the wait, and all later readings are subtracted from it.
An upgrade that is still in progress registers its connection after the first reading, so the difference
may be negative.  The accounts are right exactly when no reading comes at a time at which more connections
have been registered than unregistered since the first (`accounted_iff`). -/

namespace AraNotification

open Interleaving

/-- The difference of two unsigned numbers of some width; `none` is a panic. -/
def Build.difference (build : Build) (width a b : ℕ) : Option ℕ :=
  if b ≤ a then some (a - b)
  else match build with
    | .debug => none
    | .release => some (a + 2 ^ width - b)

namespace GracefulShutdown

/-- Result of a graceful shutdown operation. -/
structure ShutdownResult where
  success : Bool
  clientsNotified : ℕ
  connectionsClosed : ℕ
  queueDrained : Bool
deriving DecidableEq, Repr

/-- `ShutdownResult::default`. -/
def ShutdownResult.default : ShutdownResult := ⟨false, 0, 0, false⟩

/-- What `execute` does next; `initial` is the number of connections before the wait. -/
inductive Phase where
  | notify
  | notifying (pending notified : ℕ)
  | signal
  | drain
  | draining
  | count
  | sleeping (initial : ℕ)
  | recount (initial : ℕ)
  | finished (initial : ℕ)
  | panicked
deriving DecidableEq, Repr

/-- The connection manager with the tasks that use it, and the shutdown. -/
structure Server where
  others : Config ConnectionRace.Shared ConnectionRace.Pc
  phase : Phase
  result : ShutdownResult

/-- An event of the other tasks or of the shutdown. -/
inductive Event where
  | other (e : Interleaving.Event ConnectionRace.Call Unit)
  | proceed
  | sent (ok : Bool)
  | queue (enabled : Bool) (totalMessages : ℕ)
  | timeout

/-- The event is one of the shutdown itself. -/
def Event.own : Event → Bool
  | .other _ => false
  | _ => true

/-- A subtraction that is performed, with its result. -/
structure Subtraction where
  initial : ℕ
  current : ℕ
  difference : Option ℕ
deriving DecidableEq, Repr

namespace Server
variable (s : Server)

/-- Before `execute`. -/
def start (others : Config ConnectionRace.Shared ConnectionRace.Pc) : Server := ⟨others, .notify, .default⟩

/-- The number of connections in the statistics. -/
def totalConnections : ℕ := s.others.shared.manager.connections.len

def notifyClients (notified : ℕ) : Server :=
  { s with phase := .signal, result := { s.result with clientsNotified := notified } }

def drainQueues (drained : Bool) : Server :=
  { s with phase := .count, result := { s.result with queueDrained := drained } }

/-- The wait returns, and with it `execute`. -/
def finish (initial closed : ℕ) : Server :=
  { s with phase := .finished initial, result := { s.result with connectionsClosed := closed, success := true } }

/-- The subtraction of the present number of connections from the initial one. -/
def subtract (build : Build) (initial : ℕ) : Subtraction :=
  ⟨initial, s.totalConnections, build.difference 64 initial s.totalConnections⟩

end Server

/-- `execute` goes on. -/
def proceed (build : Build) (s : Server) : Option Subtraction × Server :=
  match s.phase with
  | .notify =>
      let total := s.others.shared.manager.getAllConnections.length
      (none, if total = 0 then s.notifyClients 0 else { s with phase := .notifying total 0 })
  | .signal => (none, { s with phase := .drain })
  | .count =>
      let initial := s.totalConnections
      (none, if initial = 0 then s.finish 0 0 else { s with phase := .sleeping initial })
  | .sleeping initial =>
      let sub := s.subtract build initial
      (some sub, match sub.difference with
        | none => { s with phase := .panicked }
        | some _ => { s with phase := if sub.current = 0 then .recount initial else .sleeping initial })
  | .recount initial =>
      let sub := s.subtract build initial
      (some sub, match sub.difference with
        | none => { s with phase := .panicked }
        | some closed => s.finish initial closed)
  | .notifying _ _ | .drain | .draining | .finished _ | .panicked => (none, s)

/-- One event. -/
def step (build : Build) (s : Server) : Event → Option Subtraction × Server
  | .other e => (none, { s with others := (ConnectionRace.system.next s.others e).getD s.others })
  | .proceed => proceed build s
  | .sent ok =>
      match s.phase with
      | .notifying pending notified =>
          let notified := if ok then notified + 1 else notified
          (none, if pending ≤ 1 then s.notifyClients notified
            else { s with phase := .notifying (pending - 1) notified })
      | _ => (none, s)
  | .queue enabled totalMessages =>
      match s.phase with
      | .drain =>
          (none, if !enabled || totalMessages == 0 then s.drainQueues true else { s with phase := .draining })
      | .draining => (none, if totalMessages = 0 then s.drainQueues true else s)
      | _ => (none, s)
  | .timeout =>
      match s.phase with
      | .notifying _ notified => (none, s.notifyClients notified)
      | .draining => (none, s.drainQueues false)
      | .sleeping initial => (none, { s with phase := .recount initial })
      | _ => (none, s)

/-! ### The accounts -/

/-- An entry of the history of a run. -/
abbrev Entry := Runs.Entry Server Event (Option Subtraction)

/-- The initial count of the wait. -/
def Phase.waiting : Phase → Option ℕ
  | .sleeping initial | .recount initial => some initial
  | _ => none

/-- An event of another task registers a connection. -/
def registers (c : Config ConnectionRace.Shared ConnectionRace.Pc) : Interleaving.Event ConnectionRace.Call Unit → Bool
  | .call _ => false
  | .run i _ =>
      match c.threads[i]? with
      | some (.insert _) => true
      | _ => false

/-- An event of another task unregisters a connection. -/
def unregisters (c : Config ConnectionRace.Shared ConnectionRace.Pc) :
    Interleaving.Event ConnectionRace.Call Unit → Bool
  | .call _ => false
  | .run i _ =>
      match c.threads[i]? with
      | some (.removeEntry id) => decide (id ∉ c.shared.guards) && (c.shared.manager.connections.lookup id).isSome
      | _ => false

/-- During the wait, an event of another task has some effect. -/
def during (effect : Config ConnectionRace.Shared ConnectionRace.Pc → Interleaving.Event ConnectionRace.Call Unit → Bool)
    (e : Entry) : Bool :=
  match e.input with
  | .other ev => e.before.phase.waiting.isSome && effect e.before.others ev
  | _ => false

/-- How many connections have been registered since the first reading. -/
def registered (history : List Entry) : ℕ := history.countP (during registers)

/-- How many connections have been unregistered since the first reading. -/
def unregistered (history : List Entry) : ℕ := history.countP (during unregisters)

/-- An event in which the number of connections is subtracted. -/
def Reads (e : Entry) : Prop := e.before.phase.waiting ≠ none ∧ e.input = .proceed

/-- `execute` has not panicked, and has reported at most the initial number of connections as closed. -/
structure Sound (s : Server) : Prop where
  returns : s.phase ≠ .panicked
  closed : ∀ initial, s.phase = .finished initial → s.result.connectionsClosed ≤ initial

/-- What is subtracted is at most the initial number, and the result of each subtraction is exact. -/
def Accounted (history : List Entry) : Prop :=
  ∀ e ∈ history, (∀ sub, e.output = some sub →
    sub.current ≤ sub.initial ∧ sub.difference = some (sub.initial - sub.current)) ∧ Sound e.after

/-- At every reading, at most as many connections have been registered as unregistered since the first. -/
def Dwindling (history : List Entry) : Prop :=
  ∀ earlier e rest, history = earlier ++ e :: rest → Reads e → registered earlier ≤ unregistered earlier

/-- The other tasks draw fresh identifiers. -/
def Allowed (s : Server) : Event → Prop
  | .other e => ConnectionRace.Legal s.others e
  | _ => True

instance (s : Server) : ∀ e, Decidable (Allowed s e)
  | .other e => inferInstanceAs (Decidable (ConnectionRace.Legal s.others e))
  | .proceed | .sent _ | .queue _ _ | .timeout => isTrue trivial

/-! ### What an event does to the number of connections -/

section balance
variable {c c' : Config ConnectionRace.Shared ConnectionRace.Pc} {ev : Interleaving.Event ConnectionRace.Call Unit}

/-- A step that leaves its identifier where it was neither registers nor unregisters. -/
theorem idle_of_absent {i : ℕ} (inp : Unit) {p : ConnectionRace.Pc} {s : ConnectionRace.Shared}
    {q : Option ConnectionRace.Pc} (hp : c.threads[i]? = some p)
    (hs : ConnectionRace.step c.shared p = some (s, q)) (hq : ∀ r ∈ q, r.absent = p.absent) :
    registers c (.run i inp) = false ∧ unregisters c (.run i inp) = false := by
  simp only [registers, unregisters, hp]
  cases p with
  | insert r =>
      cases hs
      cases hq _ rfl
  | removeEntry id =>
      refine ⟨rfl, ?_⟩
      simp only [ConnectionRace.step] at hs
      split_ifs at hs with hmem
      split at hs
      · rename_i hlookup
        simp [hlookup]
      · cases hs
        cases hq _ rfl
  | _ => exact ⟨rfl, rfl⟩

/-- Connections come and go one by one. -/
theorem len_next (hfresh : ConnectionRace.Fresh c) (hnext : ConnectionRace.system.next c ev = some c') :
    c'.shared.manager.connections.len + (if unregisters c ev then 1 else 0) =
      c.shared.manager.connections.len + (if registers c ev then 1 else 0) := by
  obtain ⟨op, rfl, rfl⟩ | ⟨i, inp, p, s, q, l₁, l₂, rfl, hp, hs, hl, rfl⟩ := System.next_cases hnext
  · rfl
  have hs : ConnectionRace.step c.shared p = some (s, q) := hs
  obtain ⟨-, ⟨r, rfl, rfl, heq⟩ | ⟨id, r, rfl, rfl, -, hl', heq⟩ | ⟨hq, heq⟩⟩ := ConnectionRace.step_connections hs
  · have habsent : c.shared.manager.connections.lookup r.id = none :=
      hfresh.free r.id (List.mem_filterMap.mpr ⟨_, List.mem_of_getElem? hp, rfl⟩)
    simp [registers, unregisters, hp, heq, DashMap.len_insert_of_lookup_none r.handle habsent]
  · obtain ⟨h, hlookup⟩ := Option.ne_none_iff_exists'.mp hl'
    have hguard : id ∉ c.shared.guards := by
      intro hmem
      simp [ConnectionRace.step, hmem] at hs
    have hlen := DashMap.len_erase_of_lookup_some hlookup
    simp [registers, unregisters, hp, hguard, hlookup, heq, hlen]
  · obtain ⟨hreg, hunreg⟩ := idle_of_absent inp hp hs hq
    rw [hreg, hunreg]
    obtain heq | ⟨id, f, -, heq⟩ := heq
    · rw [heq]
    · rw [heq, DashMap.len_modify]

/-- An event that is not possible has no effect. -/
theorem idle_of_next_none (hnext : ConnectionRace.system.next c ev = none) :
    registers c ev = false ∧ unregisters c ev = false := by
  cases ev with
  | call op => cases hnext
  | run i inp =>
      simp only [System.next] at hnext
      split at hnext
      · rename_i hp
        simp [registers, unregisters, hp]
      · rename_i p hp
        have hs : ConnectionRace.step c.shared p = none := Option.map_eq_none_iff.mp hnext
        simp only [registers, unregisters, hp]
        cases p with
        | insert r => cases hs
        | removeEntry id =>
            refine ⟨rfl, ?_⟩
            simp only [ConnectionRace.step] at hs
            split_ifs at hs with hmem
            · simp [hmem]
            · split at hs <;> cases hs
        | _ => exact ⟨rfl, rfl⟩

end balance

/-! ### Runs -/

section runs
variable {build : Build} {s : Server} {e : Event} {events : List Event}

/-- In the wait, the initial number is the present one without those registered and with those
unregistered since the first reading. -/
def Balanced (s : Server) (registered unregistered : ℕ) : Prop :=
  match s.phase with
  | .sleeping initial | .recount initial => s.totalConnections + unregistered = initial + registered
  | .finished _ | .panicked => True
  | _ => registered = 0 ∧ unregistered = 0

theorem Balanced.waiting {r u initial : ℕ} (h : Balanced s r u) (hwait : s.phase.waiting = some initial) :
    s.totalConnections + u = initial + r := by
  obtain ⟨others, phase, result⟩ := s
  cases phase with
  | sleeping i | recount i =>
      cases hwait
      exact h
  | _ => cases hwait

/-- Events of other tasks keep the balance. -/
theorem Balanced.other {r u : ℕ} {ev : Interleaving.Event ConnectionRace.Call Unit} (h : Balanced s r u)
    (hfresh : ConnectionRace.Fresh s.others) :
    Balanced (step build s (.other ev)).2
      (r + if during registers (Runs.entry (step build) s (.other ev)) then 1 else 0)
      (u + if during unregisters (Runs.entry (step build) s (.other ev)) then 1 else 0) := by
  have hlen : (step build s (.other ev)).2.totalConnections + (if unregisters s.others ev then 1 else 0) =
      s.totalConnections + (if registers s.others ev then 1 else 0) := by
    cases hnext : ConnectionRace.system.next s.others ev with
    | none =>
        obtain ⟨hreg, hunreg⟩ := idle_of_next_none hnext
        simp [step, hnext, hreg, hunreg]
    | some c' =>
        simp only [step, hnext, Option.getD_some]
        exact len_next hfresh hnext
  obtain ⟨others, phase, result⟩ := s
  cases phase with
  | sleeping initial | recount initial =>
      have hbal : (⟨others, .sleeping initial, result⟩ : Server).totalConnections + u = initial + r := h
      simp only [during, Runs.entry, Phase.waiting, Option.isSome_some, Bool.true_and]
      show (step build _ (.other ev)).2.totalConnections + _ = initial + _
      simp only [Server.totalConnections] at hbal hlen ⊢
      omega
  | finished initial | panicked => trivial
  | _ => exact h

/-- Events of the shutdown keep the balance; the first reading starts it. -/
theorem Balanced.own {r u : ℕ} (h : Balanced s r u) (hown : e.own = true) :
    Balanced (step build s e).2 r u := by
  obtain ⟨others, phase, result⟩ := s
  cases e with
  | other ev => cases hown
  | proceed =>
      cases phase with
      | notify =>
          simp only [step, proceed]
          split_ifs <;> exact h
      | count =>
          obtain ⟨rfl, rfl⟩ := h
          simp only [step, proceed]
          split_ifs
          · trivial
          · rfl
      | sleeping initial =>
          simp only [step, proceed]
          split
          · trivial
          · split_ifs <;> exact h
      | recount initial =>
          simp only [step, proceed]
          split <;> trivial
      | _ => exact h
  | sent ok =>
      cases phase with
      | notifying pending notified =>
          simp only [step]
          split_ifs <;> exact h
      | _ => exact h
  | queue enabled totalMessages =>
      cases phase with
      | drain | draining =>
          simp only [step]
          split_ifs <;> exact h
      | _ => exact h
  | timeout =>
      cases phase <;> exact h

/-- `execute` itself does not touch the connections. -/
theorem others_own (hown : e.own = true) : (step build s e).2.others = s.others := by
  cases e with
  | other ev => cases hown
  | proceed =>
      simp only [step, proceed]
      split <;> (repeat' split) <;> rfl
  | sent ok | queue enabled totalMessages | timeout =>
      simp only [step]
      split <;> (repeat' split) <;> rfl

/-- Fresh identifiers stay fresh. -/
theorem fresh_step (hfresh : ConnectionRace.Fresh s.others) (hok : Allowed s e) :
    ConnectionRace.Fresh (step build s e).2.others := by
  cases e with
  | other ev =>
      simp only [step]
      cases hnext : ConnectionRace.system.next s.others ev with
      | none => exact hfresh
      | some c' => exact hfresh.next hok hnext
  | _ =>
      rw [others_own rfl]
      exact hfresh

/-- Only a reading in the wait subtracts. -/
theorem output_eq_some_iff {sub : Subtraction} : (step build s e).1 = some sub ↔
    e = .proceed ∧ ∃ initial, s.phase.waiting = some initial ∧ sub = s.subtract build initial := by
  obtain ⟨others, phase, result⟩ := s
  cases e with
  | proceed => cases phase <;> simp [step, proceed, Phase.waiting, eq_comm]
  | other ev => simp [step]
  | sent ok | queue enabled totalMessages | timeout => cases phase <;> simp [step]

theorem subtract_of_le {initial : ℕ} (h : s.totalConnections ≤ initial) :
    (s.subtract build initial).difference = some (initial - s.totalConnections) :=
  if_pos h

/-- Nothing goes wrong in a step whose subtraction does not underflow. -/
theorem Sound.step (hs : Sound s) (hle : ∀ sub, (step build s e).1 = some sub → sub.current ≤ sub.initial) :
    Sound (step build s e).2 := by
  obtain ⟨others, phase, result⟩ := s
  cases e with
  | other ev => exact ⟨hs.returns, hs.closed⟩
  | proceed =>
      cases phase with
      | notify =>
          simp only [GracefulShutdown.step, proceed]
          split_ifs <;> exact ⟨nofun, nofun⟩
      | signal => exact ⟨nofun, nofun⟩
      | count =>
          simp only [GracefulShutdown.step, proceed]
          split_ifs
          · exact ⟨nofun, fun _ _ => Nat.zero_le _⟩
          · exact ⟨nofun, nofun⟩
      | sleeping initial =>
          have hdiff : (Server.subtract ⟨others, .sleeping initial, result⟩ build initial).difference = some _ :=
            subtract_of_le (hle _ rfl)
          simp only [GracefulShutdown.step, proceed, hdiff]
          split_ifs <;> exact ⟨nofun, nofun⟩
      | recount initial =>
          have hdiff : (Server.subtract ⟨others, .recount initial, result⟩ build initial).difference = some _ :=
            subtract_of_le (hle _ rfl)
          simp only [GracefulShutdown.step, proceed, hdiff]
          refine ⟨nofun, fun i hi => ?_⟩
          cases hi
          exact Nat.sub_le _ _
      | _ => exact hs
  | sent ok =>
      cases phase with
      | notifying pending notified =>
          simp only [GracefulShutdown.step]
          split_ifs <;> exact ⟨nofun, nofun⟩
      | _ => exact hs
  | queue enabled totalMessages =>
      cases phase with
      | drain | draining =>
          simp only [GracefulShutdown.step]
          split_ifs <;> exact ⟨nofun, nofun⟩
      | _ => exact hs
  | timeout =>
      cases phase with
      | finished initial | panicked => exact hs
      | _ => exact ⟨nofun, nofun⟩

/-- The balance holds after every run. -/
theorem balanced_final {c : Config ConnectionRace.Shared ConnectionRace.Pc} (hfresh : ConnectionRace.Fresh c)
    (hok : Runs.Admissible (step build) Allowed (.start c) events) :
    ConnectionRace.Fresh (Runs.final (step build) (.start c) events).others ∧
      Balanced (Runs.final (step build) (.start c) events) (registered (Runs.trace (step build) (.start c) events))
        (unregistered (Runs.trace (step build) (.start c) events)) := by
  induction events using List.reverseRecOn with
  | nil => exact ⟨hfresh, rfl, rfl⟩
  | append_singleton events e ih =>
      obtain ⟨hok, he⟩ := (Runs.admissible_snoc _ _ _).mp hok
      obtain ⟨hfresh, hbal⟩ := ih hok
      rw [Runs.final_snoc, Runs.trace_snoc]
      refine ⟨fresh_step hfresh he, ?_⟩
      simp only [registered, unregistered, List.countP_append, List.countP_singleton]
      cases e with
      | other ev => exact hbal.other hfresh
      | _ => exact hbal.own rfl

/-- A reading does not underflow exactly when no more connections have been registered than unregistered
since the first. -/
theorem subtraction_iff {r u : ℕ} (h : Balanced s r u) :
    (∀ sub, (step build s e).1 = some sub → sub.current ≤ sub.initial) ↔
      (Reads (Runs.entry (step build) s e) → r ≤ u) := by
  constructor
  · rintro hsub ⟨hwait, rfl⟩
    obtain ⟨initial, hwait⟩ := Option.ne_none_iff_exists'.mp hwait
    have hle : s.totalConnections ≤ initial :=
      hsub _ (output_eq_some_iff.mpr ⟨rfl, initial, hwait, rfl⟩)
    have hbal := h.waiting hwait
    omega
  · rintro hreads sub hsub
    obtain ⟨rfl, initial, hwait, rfl⟩ := output_eq_some_iff.mp hsub
    have hbal := h.waiting hwait
    have hle := hreads ⟨by simp [Runs.entry, hwait], rfl⟩
    show s.totalConnections ≤ initial
    omega

theorem dwindling_of_none {history : List Entry} (h : registered history = 0) : Dwindling history := by
  rintro earlier e rest rfl -
  have hle : registered earlier ≤ registered (earlier ++ e :: rest) := (List.sublist_append_left _ _).countP_le
  omega

/-- **The accounts of a shutdown are right in a run if and only if at every reading at most as many
connections have been registered as unregistered since the first reading.** -/
theorem accounted_iff {limits : ConnectionLimits} {c : Config ConnectionRace.Shared ConnectionRace.Pc}
    (hc : Reaches ConnectionRace.system ConnectionRace.Legal (ConnectionRace.initial limits) c) (build : Build)
    (events : List Event) (hok : Runs.Admissible (step build) Allowed (.start c) events) :
    Accounted (Runs.trace (step build) (.start c) events) ↔
      Dwindling (Runs.trace (step build) (.start c) events) := by
  have hfresh : ConnectionRace.Fresh c := ConnectionRace.fresh_of_reaches (fun _ _ h => h) hc
  have hstart : Sound (.start c) := ⟨nofun, nofun⟩
  suffices h : (Accounted (Runs.trace (step build) (.start c) events) ↔
      Dwindling (Runs.trace (step build) (.start c) events)) ∧
      (Accounted (Runs.trace (step build) (.start c) events) →
        Sound (Runs.final (step build) (.start c) events)) from h.1
  induction events using List.reverseRecOn with
  | nil => exact ⟨⟨fun _ _ _ _ h => by simp [Runs.trace] at h, fun _ _ h => absurd h List.not_mem_nil⟩, fun _ => hstart⟩
  | append_singleton events e ih =>
      obtain ⟨hok, -⟩ := (Runs.admissible_snoc _ _ _).mp hok
      obtain ⟨hiff, hsound⟩ := ih hok
      have hbal := (balanced_final hfresh hok).2
      rw [Runs.trace_snoc, Runs.final_snoc, Dwindling, Runs.forall_split_snoc]
      simp only [Accounted, List.forall_mem_append, List.forall_mem_singleton]
      refine ⟨⟨?_, ?_⟩, fun h => h.2.2⟩
      · rintro ⟨hacc, hsub, -⟩
        exact ⟨hiff.mp hacc, (subtraction_iff hbal).mp (fun sub h => (hsub sub h).1)⟩
      · rintro ⟨hdwindling, hreads⟩
        have hacc := hiff.mpr hdwindling
        have hsub := (subtraction_iff hbal).mpr hreads
        refine ⟨hacc, fun sub h => ⟨hsub sub h, ?_⟩, (hsound hacc).step hsub⟩
        obtain ⟨rfl, initial, -, rfl⟩ := output_eq_some_iff.mp h
        exact subtract_of_le (hsub _ h)

/-- A connection is registered and an upgrade is in progress. -/
def upgrading : Config ConnectionRace.Shared ConnectionRace.Pc :=
  ⟨⟨(ConnectionManager.withLimits .default).insertHandle (.new 1 "alice" "acme" [] 0), []⟩,
    [.checkTotal ⟨2, "bob", "acme", [], 0⟩]⟩

theorem reaches_upgrading :
    Reaches ConnectionRace.system ConnectionRace.Legal (ConnectionRace.initial .default) upgrading :=
  reaches_of_play [.call (.register ⟨1, "alice", "acme", [], 0⟩), .run 0 (), .run 0 (), .run 0 (), .run 0 (), .run 0 (),
    .call (.register ⟨2, "bob", "acme", [], 0⟩)] rfl

/-- The first four phases, up to the first reading. -/
def toFirstReading : List Event := [.proceed, .sent true, .proceed, .queue false 0, .proceed]

/-- The connection closes during the wait, and the upgrade does not get on. -/
theorem accounted_leaving :
    Accounted (Runs.trace (step .release) (.start upgrading)
      (toFirstReading ++ [.other (.call (.unregister 1)), .other (.run 1 ()), .proceed, .proceed])) :=
  (accounted_iff reaches_upgrading .release _ (by decide)).mpr (dwindling_of_none (by decide))

/-- The upgrade registers its connection during the wait: the subtraction is `1 - 2`. -/
theorem not_accounted_upgraded : ¬ ∀ (limits : ConnectionLimits) (c : Config ConnectionRace.Shared ConnectionRace.Pc),
    Reaches ConnectionRace.system ConnectionRace.Legal (ConnectionRace.initial limits) c →
      ∀ (build : Build) (events : List Event), Runs.Admissible (step build) Allowed (.start c) events →
        Accounted (Runs.trace (step build) (.start c) events) := by
  intro hall
  have hacc := hall _ _ reaches_upgrading .release
    (toFirstReading ++ [.other (.run 0 ()), .other (.run 0 ()), .other (.run 0 ()), .timeout, .proceed]) (by decide)
  have hwrapped : some ⟨1, 2, some (2 ^ 64 - 1)⟩ ∈ Runs.outputs (step .release) (.start upgrading)
      (toFirstReading ++ [.other (.run 0 ()), .other (.run 0 ()), .other (.run 0 ()), .timeout, .proceed]) := by
    decide
  obtain ⟨e, he, hout⟩ := List.mem_map.mp hwrapped
  exact absurd ((hacc e he).1 _ hout).1 (by decide)

end runs

end GracefulShutdown

end AraNotification
