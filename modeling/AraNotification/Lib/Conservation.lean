import AraNotification.Lib.Interleaving
import Mathlib.Algebra.BigOperators.Group.List.Basic

/-! # Conserved quantities of interleavings

Concurrent calls move things between a shared state and what they hold at their program
counters: rows that a call has taken and not returned yet, for instance.  The things are
elements of a commutative monoid, multisets say, so that neither subtraction nor an order is
needed.  `Conserved μ β f c` says that what the shared state has (`μ`), with what the running
calls hold (`f`), is what has ever been brought in (`β`).

Proof rule `Conserved.next`: a step may move things between the shared state and its own program
counter, and bring in new ones. -/

namespace Interleaving

variable {σ ω ι π A : Type} [AddCommMonoid A] {M : System σ ω ι π}

/-- What all running calls hold together. -/
def heldBy (f : π → A) (threads : List π) : A := (threads.map f).sum

/-- What the shared state has and the running calls hold is what was brought in. -/
def Conserved (μ β : σ → A) (f : π → A) (c : Config σ π) : Prop :=
  μ c.shared + heldBy f c.threads = β c.shared

section conserved
variable {μ β : σ → A} {f : π → A} {c c' : Config σ π} {e : Event ω ι}

theorem heldBy_append (l₁ l₂ : List π) : heldBy f (l₁ ++ l₂) = heldBy f l₁ + heldBy f l₂ := by
  rw [heldBy, List.map_append, List.sum_append]
  rfl

theorem heldBy_middle (l₁ l₂ : List π) (q : Option π) :
    heldBy f (l₁ ++ (q.toList ++ l₂)) = q.elim 0 f + heldBy f (l₁ ++ l₂) := by
  rw [heldBy_append, heldBy_append, heldBy_append, add_left_comm]
  cases q <;> simp [heldBy]

/-- A step moves what it holds and what the shared state has, and may bring in more. -/
theorem Conserved.next (h : Conserved μ β f c) (hn : M.next c e = some c')
    (hcall : ∀ op, e = .call op → f (M.start op) = 0)
    (hrun : ∀ i inp p s q, e = .run i inp → c.threads[i]? = some p → M.step inp c.shared p = some (s, q) →
      ∃ new, β s = β c.shared + new ∧ μ s + q.elim 0 f = μ c.shared + f p + new) :
    Conserved μ β f c' := by
  unfold Conserved at h ⊢
  obtain ⟨op, rfl, rfl⟩ | ⟨i, inp, p, s, q, l₁, l₂, rfl, hp, hs, hl, rfl⟩ := System.next_cases hn
  · have hone : heldBy f [M.start op] = 0 := by simp [heldBy, hcall op rfl]
    rw [heldBy_append, hone, add_zero]
    exact h
  · obtain ⟨new, hβ, hμ⟩ := hrun i inp p s q rfl hp hs
    have hbefore : heldBy f c.threads = f p + heldBy f (l₁ ++ l₂) := by
      rw [hl]
      exact heldBy_middle l₁ l₂ (some p)
    calc μ s + heldBy f (l₁ ++ (q.toList ++ l₂))
        = (μ s + q.elim 0 f) + heldBy f (l₁ ++ l₂) := by rw [heldBy_middle, add_assoc]
      _ = (μ c.shared + f p + new) + heldBy f (l₁ ++ l₂) := by rw [hμ]
      _ = (μ c.shared + (f p + heldBy f (l₁ ++ l₂))) + new := by rw [add_right_comm, add_assoc (μ c.shared)]
      _ = β s := by rw [← hbefore, h, hβ]

end conserved

end Interleaving
