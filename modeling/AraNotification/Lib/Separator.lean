import Mathlib.Data.List.Basic
import Mathlib.Tactic.Tauto

/-! # Sequences joined by a separator

Two sequences joined by a separator `c` can be taken apart again only as far as the parts do
not contain `c` themselves.  `join_eq_join_iff` lists the ways in which two joined pairs can
coincide: they are equal, or a piece of one moves across the separator of the other.
`splitLast` takes a sequence apart at its last separator; it inverts the joining of `a` and
`b` exactly when `b` has no separator (`splitLast_eq_some_iff`).

Several parts are joined by `List.intercalate`.  Where a run of parts is left out, two separators
in a row stand for it, and the parts before and after the gap can still be read off
(`elided_inj`). -/

namespace Separator

variable {α : Type} {c : α} {a b x y l : List α}

/-- Two joined pairs are equal when the pairs are, or when one of the separators falls inside
a part of the other pair. -/
theorem join_eq_join_iff :
    a ++ c :: x = b ++ c :: y ↔
      (a = b ∧ x = y) ∨ (∃ d, b = a ++ c :: d ∧ x = d ++ c :: y) ∨
        (∃ d, a = b ++ c :: d ∧ y = d ++ c :: x) := by
  constructor
  · intro h
    rcases List.append_eq_append_iff.mp h with ⟨d, hb, hx⟩ | ⟨d, ha, hy⟩
    · cases d with
      | nil => exact .inl ⟨by simpa using hb.symm, by simpa using hx⟩
      | cons e d =>
          obtain ⟨rfl, hd⟩ := List.cons.inj hx
          exact .inr (.inl ⟨d, hb, hd⟩)
    · cases d with
      | nil => exact .inl ⟨by simpa using ha, by simpa using hy.symm⟩
      | cons e d =>
          obtain ⟨rfl, hd⟩ := List.cons.inj hy
          exact .inr (.inr ⟨d, ha, hd⟩)
  · rintro (⟨rfl, rfl⟩ | ⟨d, rfl, rfl⟩ | ⟨d, rfl, rfl⟩) <;> simp

/-- Joining is injective on pairs whose second parts have no separator. -/
theorem join_inj_right (hx : c ∉ x) (hy : c ∉ y) : a ++ c :: x = b ++ c :: y ↔ a = b ∧ x = y := by
  rw [join_eq_join_iff]
  constructor
  · rintro (h | ⟨d, -, rfl⟩ | ⟨d, -, rfl⟩)
    · exact h
    · exact absurd (by simp) hx
    · exact absurd (by simp) hy
  · exact .inl

/-- Joining is injective on pairs whose first parts have no separator. -/
theorem join_inj_left (ha : c ∉ a) (hb : c ∉ b) : a ++ c :: x = b ++ c :: y ↔ a = b ∧ x = y := by
  rw [join_eq_join_iff]
  constructor
  · rintro (h | ⟨d, rfl, -⟩ | ⟨d, rfl, -⟩)
    · exact h
    · exact absurd (by simp) hb
    · exact absurd (by simp) ha
  · exact .inl

variable [DecidableEq α]

/-- The parts before and after the last separator. -/
def splitLast (c : α) : List α → Option (List α × List α)
  | [] => none
  | e :: l =>
      match splitLast c l with
      | some (a, b) => some (e :: a, b)
      | none => if e = c then some ([], l) else none

theorem splitLast_eq_none_iff : splitLast c l = none ↔ c ∉ l := by
  induction l with
  | nil => simp [splitLast]
  | cons e l ih =>
      simp only [splitLast]
      cases h : splitLast c l with
      | some p =>
          have hm : c ∈ l := not_not.mp (fun hn => by simp [ih.mpr hn] at h)
          simp [hm]
      | none =>
          have hn : c ∉ l := ih.mp h
          by_cases he : e = c
          · simp [he]
          · simp [he, hn, Ne.symm he]

theorem splitLast_eq_some_iff : splitLast c l = some (a, b) ↔ l = a ++ c :: b ∧ c ∉ b := by
  induction l generalizing a b with
  | nil => simp [splitLast]
  | cons e l ih =>
      simp only [splitLast]
      cases h : splitLast c l with
      | some p =>
          obtain ⟨hl, hp⟩ := ih.mp h
          simp only [Option.some.injEq, Prod.mk.injEq]
          constructor
          · rintro ⟨rfl, rfl⟩
            exact ⟨by simp [hl], hp⟩
          · rintro ⟨he, hb⟩
            rw [hl, ← List.cons_append, join_inj_right hp hb] at he
            exact he
      | none =>
          have hn : c ∉ l := splitLast_eq_none_iff.mp h
          constructor
          · intro hs
            split_ifs at hs with he
            simp only [Option.some.injEq, Prod.mk.injEq] at hs
            obtain ⟨rfl, rfl⟩ := hs
            exact ⟨by simp [he], hn⟩
          · rintro ⟨he, -⟩
            cases a with
            | nil =>
                obtain ⟨rfl, rfl⟩ := List.cons.inj he
                rw [if_pos rfl]
            | cons f a =>
                obtain ⟨-, rfl⟩ := List.cons.inj he
                simp at hn

/-! ### Several parts -/

/-- Parts that can be joined: none is empty and none has a separator. -/
def Parts (c : α) (ps : List (List α)) : Prop := ∀ p ∈ ps, p ≠ [] ∧ c ∉ p

/-- Joined parts split into the parts again; no parts give one empty piece. -/
theorem splitOn_intercalate {ps : List (List α)} (h : Parts c ps) :
    ([c].intercalate ps).splitOn c = if ps = [] then [[]] else ps := by
  split_ifs with hps
  · rw [hps]
    simp [List.intercalate_nil]
  · exact List.splitOn_intercalate c (fun p hp => (h p hp).2) hps

/-- Two separators in a row are an empty piece. -/
theorem splitOn_elided {ps qs : List (List α)} (hp : Parts c ps) (hq : Parts c qs) :
    ([c].intercalate ps ++ c :: c :: [c].intercalate qs).splitOn c =
      (if ps = [] then [[]] else ps) ++ [] :: (if qs = [] then [[]] else qs) := by
  have hgap : (c :: [c].intercalate qs).splitOn c = [] :: ([c].intercalate qs).splitOn c := by
    rw [List.splitOn_cons_eq_if_modifyHead, beq_self_eq_true, if_pos rfl]
  rw [List.splitOn_append_cons_self, hgap, splitOn_intercalate hp, splitOn_intercalate hq]

theorem intercalate_inj {ps qs : List (List α)} (hp : Parts c ps) (hq : Parts c qs)
    (h : [c].intercalate ps = [c].intercalate qs) : ps = qs := by
  have hs := congrArg (List.splitOn c) h
  rw [splitOn_intercalate hp, splitOn_intercalate hq] at hs
  split_ifs at hs with hps hqs hqs
  · rw [hps, hqs]
  · exact absurd rfl (hq [] (hs ▸ List.mem_singleton_self _)).1
  · exact absurd rfl (hp [] (hs ▸ List.mem_singleton_self _)).1
  · exact hs

/-- Joined parts have no gap. -/
theorem intercalate_ne_elided {ps qs rs : List (List α)} (hp : Parts c ps) (hne : ps ≠ [])
    (hq : Parts c qs) (hr : Parts c rs) :
    [c].intercalate ps ≠ [c].intercalate qs ++ c :: c :: [c].intercalate rs := by
  intro h
  have hs := congrArg (List.splitOn c) h
  rw [splitOn_intercalate hp, splitOn_elided hq hr, if_neg hne] at hs
  exact (hp [] (by simp [hs])).1 rfl

omit [DecidableEq α] in
/-- The parts before the gap are those before the first empty piece. -/
theorem takeWhile_pieces {ps rest : List (List α)} (hp : Parts c ps) :
    ((if ps = [] then [[]] else ps) ++ [] :: rest).takeWhile (fun p => !p.isEmpty) = ps := by
  split_ifs with hps
  · simp [hps]
  · rw [List.takeWhile_append_of_pos (fun p hm => by simpa using (hp p hm).1)]
    simp

/-- The parts before and after a gap are determined. -/
theorem elided_inj {ps qs ps' qs' : List (List α)} (hp : Parts c ps) (hq : Parts c qs)
    (hp' : Parts c ps') (hq' : Parts c qs')
    (h : [c].intercalate ps ++ c :: c :: [c].intercalate qs =
      [c].intercalate ps' ++ c :: c :: [c].intercalate qs') : ps = ps' ∧ qs = qs' := by
  have hs := congrArg (List.splitOn c) h
  rw [splitOn_elided hp hq, splitOn_elided hp' hq'] at hs
  have hps : ps = ps' := by
    have ht := congrArg (List.takeWhile (fun p => !p.isEmpty)) hs
    rwa [takeWhile_pieces hp, takeWhile_pieces hp'] at ht
  subst hps
  refine ⟨rfl, intercalate_inj hq hq' ?_⟩
  have htail := List.append_cancel_left h
  simpa using htail

end Separator
