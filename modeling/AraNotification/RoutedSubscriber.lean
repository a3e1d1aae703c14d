import AraNotification.ClusterRouting
import AraNotification.Lib.Runs

/-! # The loop of the subscriber of routed messages

`RoutedMessageSubscriber::run` subscribes to the routing channels of its server, handles what
arrives there, and after an error waits and tries again.  `Task` is the task that runs it, with one
phase for each place at which it waits or another thread can come in between, and `step` what one
event does to it.

It differs from the Redis subscriber (`SubscriberLoop.lean`) in three ways.  Its shutdown receiver
is made with it, before it runs, and it keeps it.  The inner `select!` is `biased`: it polls the
receiver (`poll`) and then the stream, which has a message, has ended, or has nothing for it
(`idle`).  And the end of the stream is an error like others.  The `select!` of the delay takes any
branch that is ready.

`stopped_by_shutdown`: nothing but a shutdown signal stops it, and the delay is doubled after every
error up to its bound, never to be reset.  `shutdown_heeded`: a signal that is sent at whatever time is
received; the task has few steps left to make then, which only the end of a delay that is
taken in its place can prolong. -/

namespace AraNotification

namespace RoutedMessageSubscriber

/-- Where the task is. -/
inductive Phase where
  | spawned
  | connecting
  | subscribing (rest : List String)
  | selecting
  | polling
  | handling
  | delayed
  | returned
deriving DecidableEq, Repr

/-- The task that runs `run`: whether a value waits in its shutdown receiver, and `retry_delay` in
milliseconds. -/
structure Task where
  phase : Phase
  shutdown : Bool
  retryDelay : ℕ
deriving DecidableEq, Repr

/-- What happens to the task; a message without a payload cannot be read. -/
inductive Event where
  | send
  | run
  | connected (ok : Bool)
  | subscribed (ok : Bool)
  | poll
  | message (payload : Option String)
  | idle
  | streamEnded
  | handled
  | receive
  | wake
deriving DecidableEq, Repr

/-- What the task is seen to do. -/
inductive Action where
  | sent
  | attempt
  | subscribe (channel : String)
  | handle (payload : String)
  | shutdown
deriving DecidableEq, Repr

/-- The task as it is spawned. -/
def new : Task := ⟨.spawned, false, 100⟩

def maxRetryDelay : ℕ := 30000

namespace Task

/-- The subscription to the next channel is requested. -/
def subscribe (s : Task) : List String → Option Action × Task
  | [] => (none, { s with phase := .selecting })
  | channel :: rest => (some (.subscribe channel), { s with phase := .subscribing (channel :: rest) })

/-- A connection is requested. -/
def connect (s : Task) : Option Action × Task := (some .attempt, { s with phase := .connecting })

/-- What an event does; one that cannot happen in the phase does nothing. -/
def step (server : ClusterServer) (s : Task) (e : Event) : Option Action × Task :=
  match e, s.phase with
  | .send, _ => (some .sent, { s with shutdown := true })
  | .run, .spawned => if server.enabled then s.connect else (none, { s with phase := .returned })
  | .connected true, .connecting => s.subscribe server.subscriptions
  | .connected false, .connecting => (none, { s with phase := .delayed })
  | .subscribed true, .subscribing (_ :: rest) => s.subscribe rest
  | .subscribed false, .subscribing (_ :: _) => (none, { s with phase := .delayed })
  | .poll, .selecting =>
      if s.shutdown then (some .shutdown, { s with phase := .returned, shutdown := false })
      else (none, { s with phase := .polling })
  | .message (some payload), .polling => (some (.handle payload), { s with phase := .handling })
  | .message none, .polling => (none, { s with phase := .selecting })
  | .idle, .polling => (none, { s with phase := .selecting })
  | .streamEnded, .polling => (none, { s with phase := .delayed })
  | .handled, .handling => (none, { s with phase := .selecting })
  | .receive, .delayed =>
      if s.shutdown then (some .shutdown, { s with phase := .returned, shutdown := false }) else (none, s)
  | .wake, .delayed => { s with retryDelay := min (s.retryDelay * 2) maxRetryDelay }.connect
  | _, _ => (none, s)

end Task

abbrev Entry := Runs.Entry Task Event (Option Action)

namespace Entry

/-- The task makes a step. -/
def moves (e : Entry) : Bool := decide (e.before.phase ≠ e.after.phase)

/-- The end of a delay is taken. -/
def wakes (e : Entry) : Bool := decide (e.input = .wake ∧ e.before.phase = .delayed)

/-- The end of a delay is taken though a signal waits. -/
def oversleeps (e : Entry) : Bool := e.wakes && e.before.shutdown

/-- A message is handled. -/
def handles (e : Entry) : Bool :=
  match e.output with
  | some (.handle _) => true
  | _ => false

/-- A connection attempt begins. -/
def attempts (e : Entry) : Bool := decide (e.output = some .attempt)

end Entry

/-! ### What a run must do -/

/-- Without a signal the subscription is there, or can still come. -/
def Task.GoesOn (server : ClusterServer) (s : Task) : Prop :=
  ∃ events, Event.send ∉ events ∧ (Runs.final (Task.step server) s events).phase = .selecting

/-- The task returns only after it has received a signal that was sent, goes on as long as none was, and
waits after its errors for 100 ms, twice as long each time, and never more than 30 s. -/
structure StoppedByShutdown (server : ClusterServer) (history : List Entry) : Prop where
  returns : ∀ earlier e later, history = earlier ++ e :: later → e.after.phase = .returned →
    (∃ e' ∈ earlier ++ [e], e'.output = some .shutdown) ∧ ∃ e' ∈ earlier ++ [e], e'.output = some .sent
  goesOn : ∀ earlier e later, history = earlier ++ e :: later →
    (∀ e' ∈ earlier ++ [e], e'.output ≠ some .sent) → e.after.GoesOn server
  delays : ∀ earlier e later, history = earlier ++ e :: later →
    e.after.retryDelay = min (100 * 2 ^ (earlier ++ [e]).countP Entry.wakes) maxRetryDelay

/-- Nothing but a signal can be done to the task. -/
def Task.Stuck (server : ClusterServer) (s : Task) : Prop :=
  ∀ e, e ≠ .send → (s.step server e).2.phase = s.phase

/-- After a signal that is sent before the task has returned, it waits to be received, the task can make
steps until it has returned, and it makes few of them. -/
structure ShutdownHeeded (server : ClusterServer) (history : List Entry) : Prop where
  waits : ∀ earlier e later, history = earlier ++ e :: later → e.output = some .sent →
    ∀ e' ∈ later, e'.after.shutdown = true ∨ e'.after.phase = .returned
  ends : ∀ earlier e later, history = earlier ++ e :: later → e.output = some .sent →
    ∀ e' ∈ later, e'.after.Stuck server → e'.after.phase = .returned
  handles : ∀ earlier e later, history = earlier ++ e :: later → e.output = some .sent →
    later.countP Entry.handles ≤ 1
  attempts : ∀ earlier e later, history = earlier ++ e :: later → e.output = some .sent →
    later.countP Entry.attempts ≤ 1 + later.countP Entry.oversleeps
  moves : ∀ earlier e later, history = earlier ++ e :: later → e.output = some .sent →
    later.countP Entry.moves ≤ 5 + 4 * later.countP Entry.oversleeps

/-! ### One event -/

namespace Task

/-- A subscription that is waited for is one of the channels of a server. -/
def Fit (s : Task) : Prop := ∀ rest, s.phase = .subscribing rest → rest ≠ [] ∧ rest.length ≤ 2

/-- A signal waits, or the task has returned. -/
def Heeding (s : Task) : Prop := s.shutdown = true ∨ s.phase = .returned

end Task

/-- How many steps there can be when a signal waits and no delay ends. -/
def Phase.stepsLeft : Phase → ℕ
  | .spawned => 5
  | .connecting => 4
  | .subscribing rest => rest.length + 1
  | .polling => 3
  | .handling => 2
  | .selecting | .delayed => 1
  | .returned => 0

section events
variable {server : ClusterServer} {s : Task} {e : Event}

theorem length_subscriptions_le (server : ClusterServer) : server.subscriptions.length ≤ 2 := by
  unfold ClusterServer.subscriptions
  split <;> simp

namespace Task

theorem fit_of_phase (h : ∀ rest, s.phase ≠ .subscribing rest) : s.Fit := fun rest hrest => absurd hrest (h rest)

/-- What an event makes of a task: a signal comes, the signal that waits is received, `run` leaves at once, a
delay ends, or the task goes on in its phase or another one. -/
inductive Turn (server : ClusterServer) (s : Task) (e : Event) : Option Action × Task → Prop where
  | sends (he : e = .send) : Turn server s e (some .sent, { s with shutdown := true })
  | receives (hsignal : s.shutdown = true) :
      Turn server s e (some .shutdown, { s with phase := .returned, shutdown := false })
  | leaves (hdisabled : server.enabled = false) : Turn server s e (none, { s with phase := .returned })
  | wakes (he : e = .wake) (hdelayed : s.phase = .delayed) : Turn server s e
      (some .attempt, { s with phase := .connecting, retryDelay := min (s.retryDelay * 2) maxRetryDelay })
  | goes {out : Option Action} {phase : Phase} (hwake : ¬ (e = .wake ∧ s.phase = .delayed))
      (hout : out ≠ some .sent) (hphase : phase = s.phase ∨ phase ≠ .returned)
      (hfit : s.Fit → Task.Fit { s with phase := phase }) : Turn server s e (out, { s with phase := phase })

theorem turn_subscribe {channels : List String} (hwake : ¬ (e = .wake ∧ s.phase = .delayed))
    (hlen : s.Fit → channels.length ≤ 2) : Turn server s e (s.subscribe channels) := by
  cases channels with
  | nil => exact .goes hwake (by simp) (.inr (by simp)) (fun _ => fit_of_phase (by simp))
  | cons channel channels =>
      refine .goes hwake (by simp) (.inr (by simp)) (fun hfit rest hrest => ?_)
      obtain rfl : channel :: channels = rest := by simpa using hrest
      exact ⟨List.cons_ne_nil _ _, hlen hfit⟩

theorem turn (server : ClusterServer) (s : Task) (e : Event) : Turn server s e (s.step server e) := by
  by_cases hwake : e = .wake ∧ s.phase = .delayed
  · obtain ⟨rfl, hdelayed⟩ := hwake
    have hstep : s.step server .wake =
        (some .attempt, { s with phase := .connecting, retryDelay := min (s.retryDelay * 2) maxRetryDelay }) := by
      simp [step, connect, hdelayed]
    exact hstep ▸ .wakes rfl hdelayed
  · have hstays : Turn server s e (none, s) := .goes hwake (by simp) (.inl rfl) id
    unfold step
    split
    · exact .sends rfl
    · split_ifs with henabled
      · exact .goes hwake (by simp) (.inr (by simp)) (fun _ => fit_of_phase (by simp))
      · exact .leaves (Bool.eq_false_of_not_eq_true henabled)
    · exact turn_subscribe hwake (fun _ => length_subscriptions_le server)
    · exact .goes hwake (by simp) (.inr (by simp)) (fun _ => fit_of_phase (by simp))
    · next hp => exact turn_subscribe hwake (fun hfit => (Nat.le_succ _).trans (hfit _ hp).2)
    · exact .goes hwake (by simp) (.inr (by simp)) (fun _ => fit_of_phase (by simp))
    · split_ifs with hsignal
      · exact .receives hsignal
      · exact .goes hwake (by simp) (.inr (by simp)) (fun _ => fit_of_phase (by simp))
    · exact .goes hwake (by simp) (.inr (by simp)) (fun _ => fit_of_phase (by simp))
    · exact .goes hwake (by simp) (.inr (by simp)) (fun _ => fit_of_phase (by simp))
    · exact .goes hwake (by simp) (.inr (by simp)) (fun _ => fit_of_phase (by simp))
    · exact .goes hwake (by simp) (.inr (by simp)) (fun _ => fit_of_phase (by simp))
    · exact .goes hwake (by simp) (.inr (by simp)) (fun _ => fit_of_phase (by simp))
    · split_ifs with hsignal
      · exact .receives hsignal
      · exact hstays
    · next hp => exact absurd ⟨rfl, hp⟩ hwake
    · exact hstays

theorem Fit.step (h : s.Fit) : (s.step server e).2.Fit := by
  have hturn := turn server s e
  generalize s.step server e = r at hturn ⊢
  cases hturn with
  | sends => exact h
  | receives | leaves | wakes => exact fit_of_phase (by simp)
  | goes _ _ _ hfit => exact hfit h

theorem eq_send_of_sent (h : (s.step server e).1 = some .sent) : e = .send := by
  have hturn := turn server s e
  generalize s.step server e = r at hturn h
  cases hturn with
  | sends he => exact he
  | receives | leaves | wakes => cases h
  | goes _ hout => exact absurd h hout

theorem heeding_send (h : e = .send) : (s.step server e).2.Heeding := by
  subst h
  exact .inl rfl

theorem Heeding.step (h : s.Heeding) : (s.step server e).2.Heeding := by
  rcases h with h | h
  · have hturn := turn server s e
    generalize s.step server e = r at hturn ⊢
    cases hturn with
    | sends => exact .inl rfl
    | receives | leaves => exact .inr rfl
    | wakes | goes => exact .inl h
  · exact .inr (by cases e <;> simp [Task.step, h])

/-- Where nothing but a signal can be done, the task has returned. -/
theorem returned_of_stuck (hfit : s.Fit) (h : s.Stuck server) : s.phase = .returned := by
  cases hp : s.phase with
  | returned => rfl
  | spawned =>
      have hrun := h .run (by simp)
      simp only [step, hp] at hrun
      split at hrun <;> cases hrun
  | connecting => simpa [step, hp] using h (.connected false) (by simp)
  | subscribing rest =>
      obtain ⟨channel, rest', rfl⟩ := List.exists_cons_of_ne_nil (hfit rest hp).1
      simpa [step, hp] using h (.subscribed false) (by simp)
  | selecting =>
      have hpoll := h .poll (by simp)
      simp only [step, hp] at hpoll
      split at hpoll <;> cases hpoll
  | polling => simpa [step, hp] using h .idle (by simp)
  | handling => simpa [step, hp] using h .handled (by simp)
  | delayed => simpa [step, hp, connect] using h .wake (by simp)

theorem stepsLeft_le (h : s.Fit) : s.phase.stepsLeft ≤ 5 := by
  cases hp : s.phase with
  | subscribing rest =>
      have := (h rest hp).2
      simp only [Phase.stepsLeft]
      omega
  | _ => simp [Phase.stepsLeft]

end Task

/-- What a step does when a signal waits: the phase stays, the end of a delay is taken, or there are fewer
steps left. -/
inductive Entry.Progress (e : Entry) : Prop where
  | stays (hphase : e.before.phase = e.after.phase) (hhandles : e.handles = false) (hattempts : e.attempts = false)
  | wakes (hsleeps : e.oversleeps = true) (hnext : e.after.phase = .connecting) (hhandles : e.handles = false)
  | advances (hleft : e.after.phase.stepsLeft < e.before.phase.stepsLeft) (hpolling : e.after.phase ≠ .polling)
      (hspawned : e.after.phase ≠ .spawned) (hhandles : e.handles = true → e.before.phase = .polling)
      (hattempts : e.attempts = true → e.before.phase = .spawned)

theorem Entry.Progress.of_idle
    (h : s.step server e = (none, s) ∨ s.step server e = (some .sent, { s with shutdown := true })) :
    Entry.Progress (Runs.entry (Task.step server) s e) := by
  rcases h with h | h <;> exact .stays (by simp [Runs.entry, h]) (by simp [Runs.entry, Entry.handles, h])
    (by simp [Runs.entry, Entry.attempts, h])

theorem Entry.Progress.of_step
    (h : (s.step server e).2.phase.stepsLeft < s.phase.stepsLeft ∧ (s.step server e).2.phase ≠ .polling ∧
      (s.step server e).2.phase ≠ .spawned)
    (hhandles : (∀ payload, (s.step server e).1 ≠ some (.handle payload)) ∨ s.phase = .polling)
    (hattempts : (s.step server e).1 ≠ some .attempt ∨ s.phase = .spawned) :
    Entry.Progress (Runs.entry (Task.step server) s e) := by
  refine .advances h.1 h.2.1 h.2.2 ?_ ?_
  · intro hout
    refine hhandles.resolve_left fun hne => ?_
    unfold Runs.entry Entry.handles at hout
    split at hout
    · exact hne _ ‹_›
    · cases hout
  · intro hout
    exact hattempts.resolve_left fun hne => hne (of_decide_eq_true hout)

theorem Entry.Progress.of_subscribe {channels : List String} (h : s.step server e = s.subscribe channels)
    (hleft : channels.length + 1 < s.phase.stepsLeft) : Entry.Progress (Runs.entry (Task.step server) s e) := by
  cases channels <;> exact .of_step (by simpa [h, Task.subscribe, Phase.stepsLeft] using hleft)
    (.inl (by simp [h, Task.subscribe])) (.inl (by simp [h, Task.subscribe]))

/-- What a step does when a signal waits. -/
theorem Task.Heeding.progress (hfit : s.Fit) (h : s.Heeding) : Entry.Progress (Runs.entry (Task.step server) s e) := by
  have hshutdown (hne : s.phase ≠ .returned) : s.shutdown = true := h.resolve_right hne
  have hsilent (hstep : (s.step server e).1 = none ∧ (s.step server e).2.phase.stepsLeft < s.phase.stepsLeft ∧
      (s.step server e).2.phase ≠ .polling ∧ (s.step server e).2.phase ≠ .spawned) :
      Entry.Progress (Runs.entry (Task.step server) s e) :=
    .of_step hstep.2 (.inl (by simp [hstep.1])) (.inl (by simp [hstep.1]))
  cases hp : s.phase with
  | spawned =>
      cases e with
      | run =>
          by_cases henabled : server.enabled = true
          · exact .of_step (by simp [Task.step, Task.connect, hp, henabled, Phase.stepsLeft])
              (.inl (by simp [Task.step, Task.connect, hp, henabled])) (.inr hp)
          · exact hsilent (by simp [Task.step, hp, henabled, Phase.stepsLeft])
      | _ => exact .of_idle (by simp [Task.step, hp])
  | connecting =>
      cases e with
      | connected ok =>
          cases ok with
          | true =>
              have hlen := length_subscriptions_le server
              have hstep : s.step server (.connected true) = s.subscribe server.subscriptions := by simp [Task.step, hp]
              exact .of_subscribe hstep (by simp only [hp, Phase.stepsLeft]; omega)
          | false => exact hsilent (by simp [Task.step, hp, Phase.stepsLeft])
      | _ => exact .of_idle (by simp [Task.step, hp])
  | subscribing rest =>
      obtain ⟨channel, rest, rfl⟩ := List.exists_cons_of_ne_nil (hfit rest hp).1
      cases e with
      | subscribed ok =>
          cases ok with
          | true =>
              have hstep : s.step server (.subscribed true) = s.subscribe rest := by simp [Task.step, hp]
              exact .of_subscribe hstep (by simp [hp, Phase.stepsLeft])
          | false => exact hsilent (by simp [Task.step, hp, Phase.stepsLeft])
      | _ => exact .of_idle (by simp [Task.step, hp])
  | selecting =>
      cases e with
      | poll =>
          have hsignal := hshutdown (by simp [hp])
          exact .of_step (by simp [Task.step, hp, hsignal, Phase.stepsLeft]) (.inl (by simp [Task.step, hp, hsignal]))
            (.inl (by simp [Task.step, hp, hsignal]))
      | _ => exact .of_idle (by simp [Task.step, hp])
  | polling =>
      cases e with
      | message payload =>
          cases payload with
          | none => exact hsilent (by simp [Task.step, hp, Phase.stepsLeft])
          | some payload =>
              exact .of_step (by simp [Task.step, hp, Phase.stepsLeft]) (.inr hp) (.inl (by simp [Task.step, hp]))
      | idle | streamEnded => exact hsilent (by simp [Task.step, hp, Phase.stepsLeft])
      | _ => exact .of_idle (by simp [Task.step, hp])
  | handling =>
      cases e with
      | handled => exact hsilent (by simp [Task.step, hp, Phase.stepsLeft])
      | _ => exact .of_idle (by simp [Task.step, hp])
  | delayed =>
      have hsignal := hshutdown (by simp [hp])
      cases e with
      | receive =>
          exact .of_step (by simp [Task.step, hp, hsignal, Phase.stepsLeft]) (.inl (by simp [Task.step, hp, hsignal]))
            (.inl (by simp [Task.step, hp, hsignal]))
      | wake =>
          exact .wakes (by simp [Runs.entry, Entry.oversleeps, Entry.wakes, hp, hsignal])
            (by simp [Runs.entry, Task.step, Task.connect, hp])
            (by simp [Runs.entry, Task.step, Task.connect, hp, Entry.handles])
      | _ => exact .of_idle (by simp [Task.step, hp])
  | returned => exact .of_idle (by cases e <;> simp [Task.step, hp])

end events

/-! ### Runs -/

section runs
variable {server : ClusterServer} {s : Task}

theorem fit_final (h : s.Fit) (events : List Event) : (Runs.final (Task.step server) s events).Fit :=
  Runs.final_invariant h events (fun _ _ hs => hs.step)

theorem heeding_final (h : s.Heeding) (events : List Event) : (Runs.final (Task.step server) s events).Heeding :=
  Runs.final_invariant h events (fun _ _ hs => hs.step)

/-- What happens when a signal waits is bounded by a potential that no step adds to but the end of a delay. -/
theorem countP_le_of_progress (p : Entry → Bool) (potential : Phase → ℕ) (k : ℕ) (hfit : s.Fit) (h : s.Heeding)
    (events : List Event) (hstep : ∀ e : Entry, e.Progress → (if p e then 1 else 0) + potential e.after.phase ≤
      potential e.before.phase + k * if e.oversleeps then 1 else 0) :
    (Runs.trace (Task.step server) s events).countP p ≤
      potential s.phase + k * (Runs.trace (Task.step server) s events).countP Entry.oversleeps := by
  refine (Nat.le_add_right _ _).trans (Runs.countP_add_potential_le (I := fun s : Task => s.Fit ∧ s.Heeding)
    (fun s : Task => potential s.phase) ⟨hfit, h⟩ events ?_ ?_)
  · exact fun _ _ hs => ⟨hs.1.step, hs.2.step⟩
  · exact fun _ _ hs => hstep _ (hs.2.progress hs.1)

theorem handles_le (hfit : s.Fit) (h : s.Heeding) (events : List Event) :
    (Runs.trace (Task.step server) s events).countP Entry.handles ≤ 1 := by
  refine (countP_le_of_progress Entry.handles (fun phase => if phase = .polling then 1 else 0) 0 hfit h events
    ?_).trans ?_
  · intro e he
    cases he with
    | stays hphase hhandles _ => simp [hphase, hhandles]
    | wakes _ hnext hhandles => simp [hnext, hhandles]
    | advances _ hpolling _ hhandles _ =>
        by_cases hout : e.handles = true
        · simp [hout, hpolling, hhandles hout]
        · simp [hout, hpolling]
  · split <;> omega

theorem attempts_le (hfit : s.Fit) (h : s.Heeding) (events : List Event) :
    (Runs.trace (Task.step server) s events).countP Entry.attempts ≤
      1 + (Runs.trace (Task.step server) s events).countP Entry.oversleeps := by
  refine (countP_le_of_progress Entry.attempts (fun phase => if phase = .spawned then 1 else 0) 1 hfit h events
    ?_).trans ?_
  · intro e he
    cases he with
    | stays hphase _ hattempts => simp [hphase, hattempts]
    | wakes hsleeps hnext _ =>
        simp only [hnext, hsleeps, if_true, reduceCtorEq, if_false]
        split_ifs <;> omega
    | advances _ _ hspawned _ hattempts =>
        by_cases hout : e.attempts = true
        · simp [hout, hspawned, hattempts hout]
        · simp [hout, hspawned]
  · split <;> omega

theorem moves_le (hfit : s.Fit) (h : s.Heeding) (events : List Event) :
    (Runs.trace (Task.step server) s events).countP Entry.moves ≤
      5 + 4 * (Runs.trace (Task.step server) s events).countP Entry.oversleeps := by
  refine (countP_le_of_progress Entry.moves Phase.stepsLeft 4 hfit h events ?_).trans ?_
  · intro e he
    cases he with
    | stays hphase _ _ => simp [Entry.moves, hphase]
    | wakes hsleeps hnext _ =>
        have hdelayed : e.before.phase = .delayed := by simp_all [Entry.oversleeps, Entry.wakes]
        simp [hsleeps, hnext, hdelayed, Phase.stepsLeft, Entry.moves]
    | advances hleft _ _ _ _ => split_ifs <;> omega
  · exact Nat.add_le_add_right (Task.stepsLeft_le hfit) _

/-- After a signal the run goes on from a state in which it waits. -/
theorem after_sent {events : List Event} {earlier later : List Entry} {e : Entry}
    (heq : Runs.trace (Task.step server) new events = earlier ++ e :: later) (hsent : e.output = some .sent) :
    ∃ s ks, s.Fit ∧ s.Heeding ∧ later = Runs.trace (Task.step server) s ks := by
  obtain ⟨js, i, ks, -, -, rfl, rfl⟩ := Runs.trace_split heq
  have hfit : (Runs.final (Task.step server) new js).Fit := fit_final (Task.fit_of_phase (by simp [new])) js
  exact ⟨_, ks, hfit.step, Task.heeding_send (Task.eq_send_of_sent hsent), rfl⟩

/-- **A shutdown signal is heeded, whenever it is sent.**  It is never lost, and after it at most one message
is handled; the task is done in five steps, with four more and one more attempt each time that the end of a
delay is taken in its place. -/
theorem shutdown_heeded (server : ClusterServer) (events : List Event) :
    ShutdownHeeded server (Runs.trace (Task.step server) new events) where
  waits earlier e later heq hsent e' he' := by
    obtain ⟨s, ks, -, hheed, rfl⟩ := after_sent heq hsent
    obtain ⟨js, i, rfl⟩ := Runs.exists_of_mem_trace he'
    exact (heeding_final hheed js).step
  ends earlier e later heq hsent e' he' hstuck := by
    obtain ⟨s, ks, hfit, -, rfl⟩ := after_sent heq hsent
    obtain ⟨js, i, rfl⟩ := Runs.exists_of_mem_trace he'
    exact Task.returned_of_stuck (fit_final hfit js).step hstuck
  handles earlier e later heq hsent := by
    obtain ⟨s, ks, hfit, hheed, rfl⟩ := after_sent heq hsent
    exact handles_le hfit hheed ks
  attempts earlier e later heq hsent := by
    obtain ⟨s, ks, hfit, hheed, rfl⟩ := after_sent heq hsent
    exact attempts_le hfit hheed ks
  moves earlier e later heq hsent := by
    obtain ⟨s, ks, hfit, hheed, rfl⟩ := after_sent heq hsent
    exact moves_le hfit hheed ks

/-! ### What stops the task -/

/-- The task returns when it receives a signal that waits. -/
theorem returned_step (henabled : server.enabled = true) {s : Task} {e : Event}
    (h : (s.step server e).2.phase = .returned) :
    s.phase = .returned ∨ (s.shutdown = true ∧ (s.step server e).1 = some .shutdown) := by
  have hturn := Task.turn server s e
  generalize s.step server e = r at hturn h ⊢
  cases hturn with
  | sends => exact .inl h
  | receives hsignal => exact .inr ⟨hsignal, rfl⟩
  | leaves hdisabled => simp [henabled] at hdisabled
  | wakes => cases h
  | goes _ _ hphase _ => exact .inl (hphase.elim (fun heq => heq ▸ h) (fun hne => absurd h hne))

/-- A signal waits only when it has been sent. -/
theorem shutdown_step {s : Task} {e : Event} (h : (s.step server e).2.shutdown = true) :
    s.shutdown = true ∨ (s.step server e).1 = some .sent := by
  have hturn := Task.turn server s e
  generalize s.step server e = r at hturn h ⊢
  cases hturn with
  | sends => exact .inr rfl
  | receives => cases h
  | leaves | wakes | goes => exact .inl h

theorem heeding_step (henabled : server.enabled = true) {s : Task} {e : Event} (h : (s.step server e).2.Heeding) :
    s.Heeding ∨ (s.step server e).1 = some .sent := by
  rcases h with h | h
  · exact (shutdown_step h).imp_left .inl
  · rcases returned_step henabled h with h | ⟨h, -⟩
    · exact .inl (.inr h)
    · exact .inl (.inl h)

/-- The end of a delay doubles it, up to its bound. -/
theorem retryDelay_step (s : Task) (e : Event) : (s.step server e).2.retryDelay =
    if e = .wake ∧ s.phase = .delayed then min (s.retryDelay * 2) maxRetryDelay else s.retryDelay := by
  by_cases hwake : e = .wake ∧ s.phase = .delayed
  · rw [if_pos hwake]
    obtain ⟨rfl, hp⟩ := hwake
    simp [Task.step, Task.connect, hp]
  · rw [if_neg hwake]
    have hturn := Task.turn server s e
    generalize s.step server e = r at hturn ⊢
    cases hturn with
    | wakes he hdelayed => exact absurd ⟨he, hdelayed⟩ hwake
    | sends | receives | leaves | goes => rfl

theorem retryDelay_final (events : List Event) : (Runs.final (Task.step server) new events).retryDelay =
    min (100 * 2 ^ (Runs.trace (Task.step server) new events).countP Entry.wakes) maxRetryDelay := by
  induction events using List.reverseRecOn with
  | nil => rfl
  | append_singleton events e ih =>
      rw [Runs.final_snoc, Runs.trace_snoc, retryDelay_step, ih, List.countP_append, List.countP_singleton]
      by_cases hwake : e = .wake ∧ (Runs.final (Task.step server) new events).phase = .delayed
      · have htrue : Entry.wakes (Runs.entry (Task.step server) (Runs.final (Task.step server) new events) e) :=
          decide_eq_true hwake
        rw [if_pos hwake, if_pos htrue, pow_succ, maxRetryDelay]
        omega
      · have hfalse : ¬ Entry.wakes (Runs.entry (Task.step server) (Runs.final (Task.step server) new events) e) :=
          fun h => hwake (of_decide_eq_true h)
        rw [if_neg hwake, if_neg hfalse, Nat.add_zero]

theorem Task.GoesOn.of_step {e : Event} (he : e ≠ .send) (h : (s.step server e).2.GoesOn server) :
    s.GoesOn server := by
  obtain ⟨events, hsend, hfinal⟩ := h
  exact ⟨e :: events, by simpa [Ne.symm he] using hsend, hfinal⟩

theorem goesOn_of_selecting (h : s.phase = .selecting) : s.GoesOn server := ⟨[], List.not_mem_nil, h⟩

theorem goesOn_subscribe (channels : List String) (s : Task) : (s.subscribe channels).2.GoesOn server := by
  induction channels generalizing s with
  | nil => exact goesOn_of_selecting rfl
  | cons channel channels ih => exact .of_step (e := .subscribed true) (by simp) (ih _)

theorem goesOn_of_connecting (h : s.phase = .connecting) : s.GoesOn server := by
  have hstep : s.step server (.connected true) = s.subscribe server.subscriptions := by simp [Task.step, h]
  exact .of_step (e := .connected true) (by simp) (hstep ▸ goesOn_subscribe _ s)

/-- Without a signal the subscription can come. -/
theorem goesOn_of_not_heeding (henabled : server.enabled = true) (hfit : s.Fit) (h : ¬ s.Heeding) :
    s.GoesOn server := by
  cases hp : s.phase with
  | spawned =>
      refine .of_step (e := .run) (by simp) (goesOn_of_connecting ?_)
      simp [Task.step, Task.connect, hp, henabled]
  | connecting => exact goesOn_of_connecting hp
  | subscribing rest =>
      obtain ⟨channel, rest, rfl⟩ := List.exists_cons_of_ne_nil (hfit rest hp).1
      have hstep : s.step server (.subscribed true) = s.subscribe rest := by simp [Task.step, hp]
      exact .of_step (e := .subscribed true) (by simp) (hstep ▸ goesOn_subscribe rest s)
  | selecting => exact goesOn_of_selecting hp
  | polling => exact .of_step (e := .idle) (by simp) (goesOn_of_selecting (by simp [Task.step, hp]))
  | handling => exact .of_step (e := .handled) (by simp) (goesOn_of_selecting (by simp [Task.step, hp]))
  | delayed =>
      exact .of_step (e := .wake) (by simp) (goesOn_of_connecting (by simp [Task.step, Task.connect, hp]))
  | returned => exact absurd (.inr hp) h

/-- A task that heeds a signal was sent one. -/
theorem sent_of_heeding (henabled : server.enabled = true) {events : List Event}
    (h : (Runs.final (Task.step server) new events).Heeding) :
    ∃ e ∈ Runs.trace (Task.step server) new events, e.output = some .sent :=
  Runs.exists_of_final (Q := Task.Heeding) (by simp [Task.Heeding, new]) (fun _ _ hs => heeding_step henabled hs) h

/-- **Nothing but a shutdown signal stops the subscriber of routed messages.**  It returns after it has received a
signal that was sent, and without one it never comes to a state from which its subscription cannot stand again; it
waits 100 ms after its first error, and twice as long after each further one up to 30 s, whatever came in
between. -/
theorem stopped_by_shutdown (henabled : server.enabled = true) (events : List Event) :
    StoppedByShutdown server (Runs.trace (Task.step server) new events) where
  returns earlier e later heq hret := by
    obtain ⟨js, hplace, hafter⟩ := Runs.trace_place heq
    rw [hafter] at hret
    rw [hplace]
    refine ⟨?_, sent_of_heeding henabled (.inr hret)⟩
    refine Runs.exists_of_final (Q := fun s => s.phase = .returned) (by simp [new]) (fun _ _ hs => ?_) hret
    exact (returned_step henabled hs).imp_right (·.2)
  goesOn earlier e later heq hnone := by
    obtain ⟨js, hplace, hafter⟩ := Runs.trace_place heq
    rw [hplace] at hnone
    rw [hafter]
    refine goesOn_of_not_heeding henabled (fit_final (Task.fit_of_phase (by simp [new])) js) (fun hheed => ?_)
    obtain ⟨e', he', hsent⟩ := sent_of_heeding henabled hheed
    exact hnone e' he' hsent
  delays earlier e later heq := by
    obtain ⟨js, hplace, hafter⟩ := Runs.trace_place heq
    rw [hplace, hafter]
    exact retryDelay_final js

/-- The first attempt fails, and the signal is sent during the second one. -/
theorem stopped_by_shutdown_second_attempt :
    StoppedByShutdown ((twoServers true).server "ara-1") (Runs.trace (Task.step ((twoServers true).server "ara-1")) new
      [.run, .connected false, .wake, .connected true, .send, .subscribed true, .subscribed true, .poll]) :=
  stopped_by_shutdown ((twoServers true).enabled "ara-1" (by decide)) _

end runs

end RoutedMessageSubscriber

end AraNotification
