import Mathlib.Tactic

/-! # Digits of a number

`Nat.toDigits b n` writes `n` in base `b` with the digits `0`–`9` and `a`–`f`.  Up to base 16
the digits determine the number (`toDigits_inj`), and a character that is none of the digits does
not occur (`not_mem_toDigits`), so that it can separate such numbers. -/

namespace Digits

variable {b m n : ℕ}

/-- The characters of the first sixteen digits are different. -/
theorem digitChar_inj (hm : m < 16) (hn : n < 16) (h : m.digitChar = n.digitChar) : m = n := by
  have hall : ∀ i : Fin 16, ∀ j : Fin 16, i.val.digitChar = j.val.digitChar → i = j := by decide
  have := hall ⟨m, hm⟩ ⟨n, hn⟩ h
  exact congrArg Fin.val this

/-- A character that is not the character of a digit below the base does not occur. -/
theorem not_mem_toDigits {c : Char} (hb : 1 < b) (hc : ∀ d < b, d.digitChar ≠ c) (n : ℕ) :
    c ∉ Nat.toDigits b n := by
  induction n using Nat.strong_induction_on with
  | _ n ih =>
      rw [Nat.toDigits_eq_if hb]
      split_ifs with h
      · simpa using (hc n h).symm
      · have hlt : n / b < n := Nat.div_lt_self (by omega) hb
        have hlast := hc (n % b) (Nat.mod_lt n (by omega))
        simp only [List.mem_append, List.mem_singleton, not_or]
        exact ⟨ih (n / b) hlt, hlast.symm⟩

/-- The digits determine the number. -/
theorem toDigits_inj (hb : 1 < b) (hb' : b ≤ 16) (h : Nat.toDigits b m = Nat.toDigits b n) : m = n := by
  induction m using Nat.strong_induction_on generalizing n with
  | _ m ih =>
      have hone : ∀ k, (Nat.toDigits b k).length = 1 ↔ k < b := by
        intro k
        have hle := Nat.length_toDigits_le_iff (n := k) hb Nat.one_pos
        have hpos := Nat.length_toDigits_pos (b := b) (n := k)
        rw [Nat.pow_one] at hle
        omega
      by_cases hm : m < b
      · have hn : n < b := (hone n).mp (h ▸ (hone m).mpr hm)
        rw [Nat.toDigits_of_lt_base hm, Nat.toDigits_of_lt_base hn] at h
        exact digitChar_inj (by omega) (by omega) (List.singleton_inj.mp h)
      · have hn : ¬ n < b := fun hn => hm ((hone m).mp (h ▸ (hone n).mpr hn))
        rw [Nat.toDigits_of_base_le hb (not_lt.mp hm), Nat.toDigits_of_base_le hb (not_lt.mp hn)] at h
        obtain ⟨hinit, hlast⟩ := List.append_inj' h rfl
        have hdiv : m / b = n / b := ih _ (Nat.div_lt_self (by omega) hb) hinit
        have hmod : m % b = n % b :=
          digitChar_inj ((Nat.mod_lt m (by omega)).trans_le hb') ((Nat.mod_lt n (by omega)).trans_le hb')
            (List.singleton_inj.mp hlast)
        rw [← Nat.div_add_mod m b, ← Nat.div_add_mod n b, hdiv, hmod]

end Digits
