import AraNotification.Lib.Runs
import Mathlib.Data.List.Pairwise

/-! # Repetitions found by a key

A list is gone through in its order, and an element is taken for a repetition when one before it has
the same key.  `Alike` is what the key shows and `Same` what is meant; the same elements have the same
key.  The repetitions found are those that are meant exactly when alike elements of the list are the
same (`finds_iff`): if not, the first element that is like one before it without being the same is
taken for a repetition by mistake. -/

namespace Repetition

variable {α : Type} {Alike Same : α → α → Prop} {l : List α} {x : α}

/-- Every element that is like one before it is the same as one before it, and conversely. -/
def Finds (Alike Same : α → α → Prop) (l : List α) : Prop :=
  ∀ earlier x rest, l = earlier ++ x :: rest → ((∃ y ∈ earlier, Alike y x) ↔ ∃ y ∈ earlier, Same y x)

theorem finds_nil : Finds Alike Same [] :=
  fun _ _ _ h => absurd h.symm (by simp)

theorem finds_snoc : Finds Alike Same (l ++ [x]) ↔
    Finds Alike Same l ∧ ((∃ y ∈ l, Alike y x) ↔ ∃ y ∈ l, Same y x) :=
  Runs.forall_split_snoc

/-- The repetitions found by the key are those that are meant exactly when alike elements are the same. -/
theorem finds_iff (hsub : ∀ x y, Same x y → Alike x y) (hsymm : ∀ x y, Same x y → Same y x)
    (htrans : ∀ x y z, Same x y → Same y z → Same x z) (hsymm' : ∀ x y, Alike x y → Alike y x)
    (htrans' : ∀ x y z, Alike x y → Alike y z → Alike x z) :
    Finds Alike Same l ↔ l.Pairwise (fun x y => Alike x y → Same x y) := by
  induction l using List.reverseRecOn with
  | nil => exact iff_of_true finds_nil List.Pairwise.nil
  | append_singleton l x ih =>
      rw [finds_snoc, ih, List.pairwise_append]
      constructor
      · rintro ⟨hpair, hlast⟩
        refine ⟨hpair, List.pairwise_singleton _ _, fun y hy z hz hlike => ?_⟩
        obtain rfl := List.mem_singleton.mp hz
        obtain ⟨w, hw, hsame⟩ := hlast.mp ⟨y, hy, hlike⟩
        -- `w` is the same as the last element and like `y`, which stands before it as `w` does
        have hwy : Alike w y := htrans' _ _ _ (hsub _ _ hsame) (hsymm' _ _ hlike)
        have : Std.Symm (fun x y => Alike x y → Same x y) :=
          ⟨fun x y h hl => hsymm _ _ (h (hsymm' _ _ hl))⟩
        by_cases hne : w = y
        · exact hne ▸ hsame
        · exact htrans _ _ _ (hsymm _ _ (hpair.forall hw hy hne hwy)) hsame
      · rintro ⟨hpair, -, hcross⟩
        refine ⟨hpair, fun ⟨y, hy, hlike⟩ => ?_, fun ⟨y, hy, hsame⟩ => ⟨y, hy, hsub _ _ hsame⟩⟩
        exact ⟨y, hy, hcross y hy x (List.mem_singleton_self _) hlike⟩

end Repetition
