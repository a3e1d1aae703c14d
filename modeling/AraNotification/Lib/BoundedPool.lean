import Mathlib.Algebra.Order.Group.Multiset
import Mathlib.Logic.Relation

/-! # A pool of bounded width

Jobs are put into a pool one after the other.  Whenever a counter says that the pool is full, the next
job is put in only after one has left it; when all jobs are in the pool, it is emptied.  Jobs leave in
any order, and `finish` adds the result of one that leaves to an accumulator.

The counter is kept by hand: it goes up with every job and down with every job that leaves while others
are to be put in, but is not touched while the pool is emptied.  `Reaches.sound` is the invariant: until
then the counter is the number of jobs in the pool, which is at most the limit, and no job is lost or
duplicated.  Every run ends (`wellFounded_step`), and only when all jobs have left (`exists_step`); the
accumulator is then that of the jobs in the order in which they left (`Reaches.ends`). -/

namespace BoundedPool

/-- Where a run is: before putting in a job, at the test of the counter, emptying the pool, or at the end. -/
inductive Control where
  | push
  | wait
  | drain
  | done
deriving DecidableEq, Repr

/-- The state of a run; `finished` has the jobs that have left, in their order. -/
structure Pool (ι α : Type) where
  control : Control
  todo : List ι
  inFlight : Multiset ι
  pending : ℕ
  finished : List ι
  acc : α

variable {ι α : Type} (limit : ℕ) (finish : α → ι → α)

/-- One step of a run. -/
inductive Step : Pool ι α → Pool ι α → Prop
  | push (i : ι) (todo : List ι) (inFlight : Multiset ι) (pending : ℕ) (finished : List ι) (acc : α) :
      Step ⟨.push, i :: todo, inFlight, pending, finished, acc⟩
        ⟨.wait, todo, i ::ₘ inFlight, pending + 1, finished, acc⟩
  | pushed (inFlight : Multiset ι) (pending : ℕ) (finished : List ι) (acc : α) :
      Step ⟨.push, [], inFlight, pending, finished, acc⟩ ⟨.drain, [], inFlight, pending, finished, acc⟩
  | room (todo : List ι) (inFlight : Multiset ι) (pending : ℕ) (finished : List ι) (acc : α) (h : pending < limit) :
      Step ⟨.wait, todo, inFlight, pending, finished, acc⟩ ⟨.push, todo, inFlight, pending, finished, acc⟩
  | leave (i : ι) (todo : List ι) (inFlight : Multiset ι) (pending : ℕ) (finished : List ι) (acc : α)
      (h : limit ≤ pending) :
      Step ⟨.wait, todo, i ::ₘ inFlight, pending, finished, acc⟩
        ⟨.wait, todo, inFlight, pending - 1, finished ++ [i], finish acc i⟩
  | empty (todo : List ι) (pending : ℕ) (finished : List ι) (acc : α) (h : limit ≤ pending) :
      Step ⟨.wait, todo, 0, pending, finished, acc⟩ ⟨.push, todo, 0, pending, finished, acc⟩
  | drain (i : ι) (todo : List ι) (inFlight : Multiset ι) (pending : ℕ) (finished : List ι) (acc : α) :
      Step ⟨.drain, todo, i ::ₘ inFlight, pending, finished, acc⟩
        ⟨.drain, todo, inFlight, pending, finished ++ [i], finish acc i⟩
  | done (todo : List ι) (pending : ℕ) (finished : List ι) (acc : α) :
      Step ⟨.drain, todo, 0, pending, finished, acc⟩ ⟨.done, todo, 0, pending, finished, acc⟩

/-- The state before the first job is put in. -/
def start (jobs : List ι) (acc : α) : Pool ι α := ⟨.push, jobs, 0, 0, [], acc⟩

/-- A run of steps. -/
def Reaches : Pool ι α → Pool ι α → Prop := Relation.ReflTransGen (Step limit finish)

/-! ### The invariant -/

/-- The counter counts the jobs in the pool while jobs are put in; the pool is not too full; every job
is still to be put in, in the pool, or has left it. -/
structure Sound (jobs : List ι) (acc₀ : α) (s : Pool ι α) : Prop where
  counted : s.control = .push ∨ s.control = .wait → s.pending = Multiset.card s.inFlight
  room : s.control = .push → Multiset.card s.inFlight < limit
  bounded : Multiset.card s.inFlight ≤ limit
  kept : (s.finished : Multiset ι) + s.inFlight + (s.todo : Multiset ι) = (jobs : Multiset ι)
  acc_eq : s.acc = s.finished.foldl finish acc₀
  drained : s.control = .drain ∨ s.control = .done → s.todo = []
  emptied : s.control = .done → s.inFlight = 0

variable {limit : ℕ} {finish : α → ι → α} {jobs : List ι} {acc₀ : α} {s s' : Pool ι α}

theorem sound_start (hlimit : 0 < limit) : Sound limit finish jobs acc₀ (start jobs acc₀) where
  counted _ := rfl
  room _ := hlimit
  bounded := Nat.zero_le _
  kept := by simp [start]
  acc_eq := rfl
  drained h := by simp [start] at h
  emptied h := by simp [start] at h

/-- A job that leaves is one more at the end of those that have left. -/
theorem kept_leave {i : ι} {todo finished : List ι} {inFlight : Multiset ι}
    (h : (finished : Multiset ι) + (i ::ₘ inFlight) + (todo : Multiset ι) = (jobs : Multiset ι)) :
    ((finished ++ [i] : List ι) : Multiset ι) + inFlight + (todo : Multiset ι) = (jobs : Multiset ι) := by
  rw [← h, ← Multiset.coe_add, Multiset.coe_singleton, add_assoc (finished : Multiset ι), Multiset.singleton_add]

theorem acc_leave {i : ι} {finished : List ι} {acc : α} (h : acc = finished.foldl finish acc₀) :
    finish acc i = (finished ++ [i]).foldl finish acc₀ := by
  rw [List.foldl_append, ← h]
  rfl

theorem Step.sound (h : Step limit finish s s') (hlimit : 0 < limit) (hs : Sound limit finish jobs acc₀ s) :
    Sound limit finish jobs acc₀ s' := by
  obtain ⟨hcounted, hroom, hbounded, hkept, hacc, hdrained, hemptied⟩ := hs
  cases h with
  | push i todo inFlight pending finished acc =>
      have hpending : pending = Multiset.card inFlight := hcounted (.inl rfl)
      have hless : Multiset.card inFlight < limit := hroom rfl
      refine ⟨fun _ => ?_, fun h => by simp at h, ?_, ?_, hacc, fun h => by simp at h, fun h => by simp at h⟩
      · simp [hpending]
      · show Multiset.card (i ::ₘ inFlight) ≤ limit
        rw [Multiset.card_cons]
        exact hless
      · rw [← hkept]
        simp only [← Multiset.cons_coe, Multiset.add_cons, Multiset.cons_add]
  | pushed inFlight pending finished acc =>
      exact ⟨fun h => by simp at h, fun h => by simp at h, hbounded, hkept, hacc, fun _ => rfl, fun h => by simp at h⟩
  | room todo inFlight pending finished acc hless =>
      have hpending : pending = Multiset.card inFlight := hcounted (.inr rfl)
      exact ⟨fun _ => hpending, fun _ => hpending ▸ hless, hbounded, hkept, hacc, fun h => by simp at h,
        fun h => by simp at h⟩
  | leave i todo inFlight pending finished acc hfull =>
      have hpending : pending = Multiset.card (i ::ₘ inFlight) := hcounted (.inr rfl)
      rw [Multiset.card_cons] at hpending
      have hsmall : Multiset.card inFlight + 1 ≤ limit := by simpa using hbounded
      refine ⟨fun _ => ?_, fun h => by simp at h, ?_, kept_leave hkept, acc_leave hacc, fun h => by simp at h,
        fun h => by simp at h⟩
      · show pending - 1 = Multiset.card inFlight
        omega
      · show Multiset.card inFlight ≤ limit
        omega
  | empty todo pending finished acc hfull =>
      have hpending : pending = 0 := hcounted (.inr rfl)
      omega
  | drain i todo inFlight pending finished acc =>
      have hsmall : Multiset.card inFlight + 1 ≤ limit := by simpa using hbounded
      refine ⟨fun h => by simp at h, fun h => by simp at h, ?_, kept_leave hkept, acc_leave hacc,
        fun _ => hdrained (.inl rfl), fun h => by simp at h⟩
      show Multiset.card inFlight ≤ limit
      omega
  | done todo pending finished acc =>
      exact ⟨fun h => by simp at h, fun h => by simp at h, hbounded, hkept, hacc, fun _ => hdrained (.inl rfl),
        fun _ => rfl⟩

/-- The invariant holds in every state of a run. -/
theorem Reaches.sound (hlimit : 0 < limit) (h : Reaches limit finish (start jobs acc₀) s) :
    Sound limit finish jobs acc₀ s := by
  induction h with
  | refl => exact sound_start hlimit
  | tail _ hstep ih => exact hstep.sound hlimit ih

/-- When a run has ended, all jobs have left, and the accumulator is theirs. -/
theorem Reaches.ends (hlimit : 0 < limit) (h : Reaches limit finish (start jobs acc₀) s) (hdone : s.control = .done) :
    s.finished.Perm jobs ∧ s.acc = s.finished.foldl finish acc₀ := by
  have hsound := h.sound hlimit
  refine ⟨?_, hsound.acc_eq⟩
  have hkept := hsound.kept
  rw [hsound.emptied hdone, hsound.drained (.inr hdone), Multiset.coe_nil, add_zero, add_zero] at hkept
  exact Multiset.coe_eq_coe.mp hkept

/-! ### Every run ends -/

/-- A run that has not ended goes on. -/
theorem exists_step (limit : ℕ) (finish : α → ι → α) (h : s.control ≠ .done) : ∃ s', Step limit finish s s' := by
  obtain ⟨control, todo, inFlight, pending, finished, acc⟩ := s
  cases control with
  | push =>
      cases todo with
      | nil => exact ⟨_, .pushed inFlight pending finished acc⟩
      | cons i todo => exact ⟨_, .push i todo inFlight pending finished acc⟩
  | wait =>
      by_cases hfull : limit ≤ pending
      · rcases inFlight.empty_or_exists_mem with rfl | ⟨i, hi⟩
        · exact ⟨_, .empty todo pending finished acc hfull⟩
        · obtain ⟨rest, rfl⟩ := Multiset.exists_cons_of_mem hi
          exact ⟨_, .leave i todo rest pending finished acc hfull⟩
      · exact ⟨_, .room todo inFlight pending finished acc (Nat.lt_of_not_le hfull)⟩
  | drain =>
      rcases inFlight.empty_or_exists_mem with rfl | ⟨i, hi⟩
      · exact ⟨_, .done todo pending finished acc⟩
      · obtain ⟨rest, rfl⟩ := Multiset.exists_cons_of_mem hi
        exact ⟨_, .drain i todo rest pending finished acc⟩
  | done => exact absurd rfl h

/-- How far a control point is from the end, for the same jobs. -/
def Control.rank : Control → ℕ
  | .push => 2
  | .wait => 3
  | .drain => 1
  | .done => 0

/-- What is left to do. -/
def Pool.measure (s : Pool ι α) : ℕ := 4 * s.todo.length + 2 * Multiset.card s.inFlight + s.control.rank

theorem Step.measure_lt (h : Step limit finish s s') : s'.measure < s.measure := by
  cases h <;> simp only [Pool.measure, Control.rank, List.length_cons, List.length_nil, Multiset.card_cons,
    Multiset.card_zero] <;> omega

/-- There is no infinite run. -/
theorem wellFounded_step (limit : ℕ) (finish : α → ι → α) :
    WellFounded (fun s' s : Pool ι α => Step limit finish s s') :=
  Subrelation.wf (fun h => h.measure_lt) (measure (fun s : Pool ι α => s.measure)).wf

/-- Every run can be continued to its end. -/
theorem exists_done (limit : ℕ) (finish : α → ι → α) (s : Pool ι α) :
    ∃ s', Reaches limit finish s s' ∧ s'.control = .done := by
  induction s using (wellFounded_step limit finish).induction with
  | _ s ih =>
      by_cases hdone : s.control = .done
      · exact ⟨s, .refl, hdone⟩
      · obtain ⟨next, hnext⟩ := exists_step limit finish hdone
        obtain ⟨s', hreach, hend⟩ := ih next hnext
        exact ⟨s', .head hnext hreach, hend⟩

end BoundedPool
