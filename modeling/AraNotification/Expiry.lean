import AraNotification.OpenSocket

/-! # Delivery and the TTL of an event

An event with a TTL is checked once, when `dispatch_for_tenant` begins; the channel endpoints
do not check it, and neither does the replay, which only respects the TTL of the queue.  An
event with a short TTL that waits in the queue is therefore delivered long after it has
expired (`late_replay`), and so is one whose dispatch takes its time between the check and
the send.

`Prompt slack` describes the runs in which this cannot happen.  A dispatch begins only with
an event that does not expire within `slack` (or that it drops), a drain returns only such
events, and what a dispatch or a replay puts on a channel it puts there within `slack` of
its begin or of the drain.  The invariant keeps the first two facts at the program counters
(`Ahead`), and the history of a prompt run has no late delivery (`delivered_in_time`). -/

namespace AraNotification

open Interleaving

/-- A notification that a dispatch or a replay puts on a channel has not expired. -/
def Action.InTime : Action → Prop
  | .place _ m now .direct | .place _ m now (.replay _) => ∀ e ∈ m.event, ∀ x ∈ e.expiry, now ≤ x
  | _ => True

instance (a : Action) : Decidable a.InTime := by
  unfold Action.InTime
  split <;> infer_instance

/-- The event does not expire within `slack`. -/
def NotificationEvent.Lasts (e : NotificationEvent) (slack : Duration) (now : DateTime) : Prop :=
  ∀ x ∈ e.expiry, now + slack ≤ x

instance (e : NotificationEvent) (slack : Duration) (now : DateTime) : Decidable (e.Lasts slack now) :=
  inferInstanceAs (Decidable (∀ x ∈ e.expiry, now + slack ≤ x))

/-- The step begins, drains or delivers early enough. -/
def Prompt (slack : Duration) (U : UnicodeTables) (settings : Settings) (c : Config Service Pc) :
    Event ServiceCall Input → Prop
  | .call _ => True
  | .run i inp =>
      match c.threads[i]?.map Pc.role with
      | some (.waiting call) =>
          (call.checked = true ∧ call.event.isExpired inp.now = true) ∨ call.event.Lasts slack inp.now
      | some (.dispatching _ (some start)) =>
          match upcoming U settings c i inp with
          | some (.place _ _ now _, _) => now ≤ start + slack
          | _ => True
      | some (.registered _ h) =>
          ∀ m ∈ c.shared.queue.messages h.identity.key,
            m.isExpired inp.now c.shared.queue.config.messageTtlSeconds = false → m.event.Lasts slack inp.now
      | some (.replaying _ _ start _) =>
          match upcoming U settings c i inp with
          | some (.place _ _ now _, _) => now ≤ start + slack
          | _ => True
      | _ => True

instance (slack : Duration) (U : UnicodeTables) (settings : Settings) (c : Config Service Pc)
    (e : Event ServiceCall Input) : Decidable (Prompt slack U settings c e) := by
  obtain _ | ⟨i, inp⟩ := e <;> dsimp only [Prompt]
  · infer_instance
  · obtain _ | ⟨⟨⟩⟩ := c.threads[i]?.map Pc.role
    case some.dispatching since =>
      obtain _ | start := since <;> dsimp only
      · infer_instance
      · obtain _ | ⟨⟨⟩, _⟩ := upcoming U settings c i inp <;> dsimp only <;> infer_instance
    case some.replaying =>
      dsimp only
      obtain _ | ⟨⟨⟩, _⟩ := upcoming U settings c i inp <;> dsimp only <;> infer_instance
    all_goals dsimp only; infer_instance

section invariant
variable {U : UnicodeTables} {settings : Settings} {c : Config Service Pc} {slack : Duration}

/-- What the program is going to deliver does not expire within `slack` of its start. -/
def Role.Ahead (slack : Duration) : Role → Prop
  | .dispatching e (some start) => e.Lasts slack start
  | .replaying _ _ start backlog => ∀ m ∈ backlog, m.event.Lasts slack start
  | _ => True

theorem NotificationEvent.Lasts.le_expiry {e : NotificationEvent} {start now : DateTime}
    (h : e.Lasts slack start) (hnow : now ≤ start + slack) : ∀ x ∈ e.expiry, now ≤ x :=
  fun x hx => hnow.trans (h x hx)

/-- A prompt step that starts ahead stays ahead and delivers in time. -/
theorem ahead_of_step {i : ℕ} {inp : Input} {p : Pc} {a : Action} {q : Option Pc}
    (hp : c.threads[i]? = some p) (hstep : step U settings inp c.shared p = some (a, q))
    (hprompt : Prompt slack U settings c (.run i inp)) (hahead : p.role.Ahead slack) :
    a.InTime ∧ ∀ r ∈ q.map Pc.role, r.Ahead slack := by
  have hmove := step_move hstep
  have hup : upcoming U settings c i inp = some (a, q) := (upcoming_eq hp).trans hstep
  simp only [Prompt, hp, Option.map_some, hup] at hprompt
  generalize p.role = r at hmove hprompt hahead
  generalize q.map Pc.role = r' at hmove
  cases hmove with
  | quiet ha =>
      refine ⟨?_, by rintro _ ⟨⟩; exact hahead⟩
      cases a <;> trivial
  | begin hs he =>
      refine ⟨trivial, ?_⟩
      rintro _ ⟨⟩
      rcases hs with rfl | rfl
      · rcases hprompt with ⟨hc, hexp⟩ | hlasts
        · cases he hc hexp
        · exact hlasts
      · trivial
  | enqueue hs =>
      refine ⟨trivial, ?_⟩
      rintro _ ⟨⟩
      rcases hs with rfl | rfl
      · exact hahead
      · trivial
  | place hr hm =>
      refine ⟨?_, by rintro _ ⟨⟩; exact hahead⟩
      intro e he
      obtain rfl : _ = e := Option.some.inj (hm.symm.trans he)
      exact hahead.le_expiry hprompt
  | drain =>
      refine ⟨trivial, ?_⟩
      rintro _ ⟨⟩ m hm
      obtain ⟨hmem, hlive⟩ := MemoryQueueBackend.mem_drain hm
      exact hprompt m hmem hlive
  | replay hr =>
      rename_i transport h start m backlog
      refine ⟨?_, ?_⟩
      · rintro _ ⟨⟩
        exact (hahead m List.mem_cons_self).le_expiry hprompt
      · rintro _ ⟨⟩ m' hm'
        exact hahead m' (List.mem_cons_of_mem _ hm')
  | skip =>
      refine ⟨trivial, ?_⟩
      rintro _ ⟨⟩ m' hm'
      exact hahead m' (List.mem_cons_of_mem _ hm')
  | register hid hr =>
      refine ⟨trivial, ?_⟩
      rintro _ ⟨⟩
      rcases hr with rfl | ⟨-, rfl⟩ <;> trivial
  | «end» ha =>
      refine ⟨?_, by rintro _ ⟨⟩; trivial⟩
      rcases ha with rfl | rfl <;> trivial
  | unregister hr =>
      refine ⟨trivial, ?_⟩
      rcases hr with rfl | rfl
      · rintro _ ⟨⟩
        trivial
      · rintro _ ⟨⟩
  | _ =>
      refine ⟨trivial, ?_⟩
      rintro _ ⟨⟩ <;> trivial

theorem ahead_of_reaches (h : Reaches (system U settings) (Prompt slack U settings) (initial settings) c) :
    Holds (fun _ p => p.role.Ahead slack) c := by
  refine h.invariant (by simp [Holds, initial]) ?_
  intro c e c' _ hc he hn
  refine hc.next hn ?_ ?_
  · rintro op rfl
    cases op <;> trivial
  · rintro i inp p s q l₁ l₂ rfl hp hl hs
    obtain ⟨a, hstep, rfl, -⟩ := system_move hs
    obtain ⟨-, hq⟩ := ahead_of_step hp hstep he (hc p (List.mem_of_getElem? hp))
    refine ⟨?_, fun _ _ h => h⟩
    intro r hr
    exact hq r.role (Option.mem_map_of_mem Pc.role hr)

/-- **In a prompt run nothing is delivered after its TTL**: whatever a dispatch or a replay has put on
a channel, it has put there before the expiry of the event. -/
theorem delivered_in_time
    (h : Reaches (system U settings) (Prompt slack U settings) (initial settings) c) :
    ∀ a ∈ c.shared.history, a.InTime := by
  refine service_invariant (P := fun s => ∀ a ∈ s.history, a.InTime) h (by simp [initial]) ?_
  intro c i inp p a q hr hc he hp hstep _ b hb
  obtain ⟨ha, -⟩ := ahead_of_step hp hstep he (ahead_of_reaches hr p (List.mem_of_getElem? hp))
  rcases Service.mem_history_apply.mp hb with hb | rfl
  · exact hc b hb
  · exact ha

end invariant

/-! ### Two replays of an event with a TTL -/

section schedules

/-- An event that expires after ten seconds. -/
def shortLived : NotificationEvent :=
  { maintenance with metadata := { maintenance.metadata with ttl := some 10 } }

/-- The event is stored for `bob` as it occurs, and `bob` connects some seconds later; his handler
registers, drains and replays it. -/
def replayAfter (secs : ℤ) : List (Event ServiceCall Input) :=
  [.call (.dispatch ⟨shortLived, .user "bob", none, true⟩), .run 0 tick, .run 0 tick, .run 0 tick,
    .run 0 tick, .call (.connect .webSocket ⟨"bob", [], none⟩), .run 0 (tickAt secs),
    .run 0 (tickAt secs), .run 0 (tickAt (secs + 1))]

/-- The event is replayed after four seconds. -/
theorem delivered_in_time_bob :
    ∃ c, Reaches (system .ascii .withQueue) (Prompt (5 * nanosPerSecond) .ascii .withQueue)
        (initial .withQueue) c ∧
      (c.shared.buffer 0).length = 1 ∧ ∀ a ∈ c.shared.history, a.InTime := by
  have hseen : ((system .ascii .withQueue).play (Prompt (5 * nanosPerSecond) .ascii .withQueue)
      (initial .withQueue) (replayAfter 3)).any (fun c => decide ((c.shared.buffer 0).length = 1)) =
        true := by
    decide +kernel
  obtain ⟨c, hr, hc⟩ := exists_reaches_of_play hseen
  exact ⟨c, hr, of_decide_eq_true hc, delivered_in_time hr⟩

/-- The event is replayed after a hundred seconds, although its TTL is ten. -/
theorem late_replay :
    ¬ ∀ (U : UnicodeTables) (settings : Settings), settings.Accepted U →
        ∀ c, Reaches (system U settings) Legal (initial settings) c → ∀ a ∈ c.shared.history, a.InTime := by
  intro hall
  have hseen : ((system .ascii .withQueue).play Legal (initial .withQueue) (replayAfter 99)).any (fun c =>
      decide (∃ a ∈ c.shared.history, ¬ a.InTime)) = true := by
    decide +kernel
  obtain ⟨c, hr, hc⟩ := exists_reaches_of_play hseen
  obtain ⟨a, ha, hlate⟩ := of_decide_eq_true hc
  exact hlate (hall .ascii .withQueue Settings.accepted_withQueue c hr a ha)

end schedules

end AraNotification
