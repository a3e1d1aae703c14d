import Mathlib.Algebra.BigOperators.Group.Multiset.Basic
import Mathlib.Algebra.Order.BigOperators.Group.Multiset
import Mathlib.Data.Multiset.AddSub
import Mathlib.Logic.Relation

/-! # Work that is done in any order

Pieces of work `ι` are pending, and a step takes any of them, emits results `ο` and leaves new
pieces; where `mayDrop` allows it, a step takes a piece away and does nothing.  So the pieces may
be messages that arrive in any order and after any delay, and a dropped piece is a message that
is lost.

When every piece has a value, the results that it leads to in the end (`Valued`), what has been
emitted and the values of what is pending add up to the same results throughout
(`Reaches.total_eq`), or to fewer when pieces are dropped (`Reaches.total_le`).  Pieces that only
leave smaller ones come to an end (`exists_finished`, `wellFounded_step`). -/

namespace Worklist

/-- What a piece of work emits and leaves. -/
structure System (ι ο : Type) where
  process : ι → Multiset ο × Multiset ι

/-- What is pending and what has been emitted. -/
structure Config (ι ο : Type) where
  pending : Multiset ι
  done : Multiset ο

variable {ι ο : Type} {M : System ι ο} {mayDrop : ι → Prop} {c c' : Config ι ο}

/-- One piece is processed or dropped. -/
inductive Step (M : System ι ο) (mayDrop : ι → Prop) : Config ι ο → Config ι ο → Prop
  | process (i : ι) (rest : Multiset ι) (done : Multiset ο) :
      Step M mayDrop ⟨i ::ₘ rest, done⟩ ⟨(M.process i).2 + rest, done + (M.process i).1⟩
  | drop (i : ι) (rest : Multiset ι) (done : Multiset ο) (h : mayDrop i) :
      Step M mayDrop ⟨i ::ₘ rest, done⟩ ⟨rest, done⟩

/-- A run of steps. -/
def Reaches (M : System ι ο) (mayDrop : ι → Prop) : Config ι ο → Config ι ο → Prop :=
  Relation.ReflTransGen (Step M mayDrop)

/-- Nothing is pending. -/
def Config.Finished (c : Config ι ο) : Prop := c.pending = 0

/-! ### What a run emits -/

/-- The value of a piece is what it emits and the values of what it leaves. -/
def Valued (M : System ι ο) (value : ι → Multiset ο) : Prop :=
  ∀ i, value i = (M.process i).1 + ((M.process i).2.map value).sum

section total
variable {value : ι → Multiset ο}

/-- What has been emitted and will be. -/
def Config.total (value : ι → Multiset ο) (c : Config ι ο) : Multiset ο := c.done + (c.pending.map value).sum

theorem total_of_finished (h : c.Finished) : c.total value = c.done := by
  rw [Config.total, h, Multiset.map_zero, Multiset.sum_zero, add_zero]

theorem total_process (hvalue : Valued M value) (i : ι) (rest : Multiset ι) (done : Multiset ο) :
    (⟨(M.process i).2 + rest, done + (M.process i).1⟩ : Config ι ο).total value =
      (⟨i ::ₘ rest, done⟩ : Config ι ο).total value := by
  unfold Config.total
  rw [Multiset.map_add, Multiset.sum_add, Multiset.map_cons, Multiset.sum_cons, hvalue i]
  simp only [add_assoc]

theorem Step.total_eq (hvalue : Valued M value) (h : Step M (fun _ => False) c c') :
    c'.total value = c.total value := by
  cases h with
  | process i rest done => exact total_process hvalue i rest done
  | drop _ _ _ h => exact h.elim

theorem Step.total_le (hvalue : Valued M value) (h : Step M mayDrop c c') :
    c'.total value ≤ c.total value := by
  cases h with
  | process i rest done => exact (total_process hvalue i rest done).le
  | drop i rest done _ =>
      unfold Config.total
      rw [Multiset.map_cons, Multiset.sum_cons]
      exact add_le_add_right (Multiset.le_add_left _ _) _

/-- Without losses the results are those of the beginning, in every order. -/
theorem Reaches.total_eq (hvalue : Valued M value) (h : Reaches M (fun _ => False) c c') :
    c'.total value = c.total value := by
  induction h with
  | refl => rfl
  | tail _ hs ih => exact (hs.total_eq hvalue).trans ih

/-- With losses there are no other results. -/
theorem Reaches.total_le (hvalue : Valued M value) (h : Reaches M mayDrop c c') :
    c'.total value ≤ c.total value := by
  induction h with
  | refl => exact le_rfl
  | tail _ hs ih => exact (hs.total_le hvalue).trans ih

theorem Reaches.done_eq (hvalue : Valued M value) (h : Reaches M (fun _ => False) c c')
    (hfin : c'.Finished) : c'.done = c.total value := by
  rw [← h.total_eq hvalue, total_of_finished hfin]

theorem Reaches.done_le (hvalue : Valued M value) (h : Reaches M mayDrop c c') :
    c'.done ≤ c.total value :=
  (Multiset.le_add_right _ _).trans (h.total_le hvalue)

end total

/-! ### Every run ends -/

/-- What a piece leaves is smaller. -/
def Shrinks (M : System ι ο) (size : ι → ℕ) : Prop := ∀ i, ((M.process i).2.map size).sum < size i

section ending
variable {size : ι → ℕ}

theorem Step.size_lt (hsize : Shrinks M size) (h : Step M mayDrop c c') :
    (c'.pending.map size).sum < (c.pending.map size).sum := by
  cases h with
  | process i rest done =>
      rw [Multiset.map_add, Multiset.sum_add, Multiset.map_cons, Multiset.sum_cons]
      exact Nat.add_lt_add_right (hsize i) _
  | drop i rest done _ =>
      rw [Multiset.map_cons, Multiset.sum_cons]
      exact Nat.lt_add_of_pos_left (Nat.lt_of_le_of_lt (Nat.zero_le _) (hsize i))

/-- There is no infinite run. -/
theorem wellFounded_step (hsize : Shrinks M size) (mayDrop : ι → Prop) :
    WellFounded (fun c' c : Config ι ο => Step M mayDrop c c') :=
  Subrelation.wf (fun h => h.size_lt hsize)
    (measure (fun c : Config ι ο => (c.pending.map size).sum)).wf

/-- Every run can be continued until nothing is pending. -/
theorem exists_finished (hsize : Shrinks M size) (mayDrop : ι → Prop) (c : Config ι ο) :
    ∃ c', Reaches M mayDrop c c' ∧ c'.Finished := by
  induction c using (wellFounded_step hsize mayDrop).induction with
  | _ c ih =>
      obtain ⟨pending, done⟩ := c
      rcases pending.empty_or_exists_mem with rfl | ⟨i, hi⟩
      · exact ⟨_, .refl, rfl⟩
      · obtain ⟨rest, rfl⟩ := Multiset.exists_cons_of_mem hi
        obtain ⟨c', hreach, hfin⟩ := ih _ (.process i rest done)
        exact ⟨c', .head (.process i rest done) hreach, hfin⟩

end ending

end Worklist
