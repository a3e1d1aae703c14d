import AraNotification.Lib.Separator

/-! # Masking between two separators

A text is masked up to its first `d`: what follows the last `c` there is replaced by a cover.  The positions
are those of a search from the left and of one from the right (`lastIdxOf?`).

`Piece` takes a text apart into what the cover hides and what it leaves in sight, and every text has such a
piece (`exists_piece`).  A masked text shows everything outside its piece, and nothing of it
(`covered_inj`): two texts look alike exactly when they are the same outside of their pieces
(`SameOutside`). -/

namespace Masking

variable {α : Type} [DecidableEq α]

/-- The position of the last `c`. -/
def lastIdxOf? (c : α) (l : List α) : Option ℕ := (Separator.splitLast c l).map (fun p => p.1.length)

/-- Put a cover for what follows the last `c`. -/
def coverLast (c : α) (cover l : List α) : List α :=
  match Separator.splitLast c l with
  | some (a, _) => a ++ c :: cover
  | none => l

/-! ### Positions -/

section positions
variable {c : α} {a b l cover : List α}

theorem idxOf?_join (h : c ∉ a) : (a ++ c :: b).idxOf? c = some a.length := by
  induction a with
  | nil => simp [List.idxOf?_cons]
  | cons e a ih =>
      obtain ⟨he, ha⟩ := List.ne_and_not_mem_of_not_mem_cons h
      rw [List.cons_append, List.idxOf?_cons, if_neg (by simpa using he.symm), ih ha, Option.map_some, List.length_cons]

theorem lastIdxOf?_join (h : c ∉ b) : lastIdxOf? c (a ++ c :: b) = some a.length := by
  rw [lastIdxOf?, Separator.splitLast_eq_some_iff.mpr ⟨rfl, h⟩, Option.map_some]

theorem lastIdxOf?_eq_none (h : c ∉ l) : lastIdxOf? c l = none := by
  rw [lastIdxOf?, Separator.splitLast_eq_none_iff.mpr h, Option.map_none]

theorem coverLast_join (h : c ∉ b) : coverLast c cover (a ++ c :: b) = a ++ c :: cover := by
  rw [coverLast, Separator.splitLast_eq_some_iff.mpr ⟨rfl, h⟩]

theorem coverLast_of_not_mem (h : c ∉ l) : coverLast c cover l = l := by
  rw [coverLast, Separator.splitLast_eq_none_iff.mpr h]

/-- A text with a `c` can be taken apart at the last one. -/
theorem exists_last (h : c ∈ l) : ∃ a b, l = a ++ c :: b ∧ c ∉ b := by
  cases hs : Separator.splitLast c l with
  | none => exact absurd h (Separator.splitLast_eq_none_iff.mp hs)
  | some p => exact ⟨p.1, p.2, Separator.splitLast_eq_some_iff.mp hs⟩

end positions

/-! ### The hidden piece -/

section pieces
variable {c d : α} {lead hidden tail lead' tail' front cover rest p q : List α}

/-- The hidden piece of a text follows the beginning or a `c`, and goes up to the first `d` or to the end. -/
structure Piece (c d : α) (lead hidden tail : List α) : Prop where
  before : d ∉ lead
  start : lead = [] ∨ ∃ a, lead = a ++ [c]
  noFirst : c ∉ hidden
  noSecond : d ∉ hidden
  stop : tail = [] ∨ ∃ b, tail = d :: b

/-- Two texts are the same but for their hidden pieces. -/
def SameOutside (c d : α) (p q : List α) : Prop :=
  ∃ lead hidden hidden' tail, Piece c d lead hidden tail ∧ Piece c d lead hidden' tail ∧
    p = lead ++ hidden ++ tail ∧ q = lead ++ hidden' ++ tail

/-- Up to the first `d`, the hidden piece follows the last `c`. -/
theorem exists_piece_of_not_mem (h : d ∉ p) :
    ∃ lead hidden, p = lead ++ hidden ∧ d ∉ lead ∧ d ∉ hidden ∧ c ∉ hidden ∧ (lead = [] ∨ ∃ a, lead = a ++ [c]) := by
  by_cases hc : c ∈ p
  · obtain ⟨a, b, rfl, hb⟩ := exists_last hc
    rw [List.append_cons, List.mem_append, not_or] at h
    exact ⟨a ++ [c], b, by simp, h.1, h.2, hb, .inr ⟨a, rfl⟩⟩
  · exact ⟨[], p, rfl, List.not_mem_nil, h, hc, .inl rfl⟩

theorem exists_piece (c d : α) (p : List α) :
    ∃ lead hidden tail, Piece c d lead hidden tail ∧ p = lead ++ hidden ++ tail := by
  by_cases hd : d ∈ p
  · obtain ⟨a, b, rfl, ha⟩ := List.eq_append_cons_of_mem hd
    obtain ⟨lead, hidden, rfl, hlead, hd', hc, hstart⟩ := exists_piece_of_not_mem (c := c) ha
    exact ⟨lead, hidden, d :: b, ⟨hlead, hstart, hc, hd', .inr ⟨b, rfl⟩⟩, rfl⟩
  · obtain ⟨lead, hidden, rfl, hlead, hd', hc, hstart⟩ := exists_piece_of_not_mem (c := c) hd
    exact ⟨lead, hidden, [], ⟨hlead, hstart, hc, hd', .inl rfl⟩, (List.append_nil _).symm⟩

theorem SameOutside.refl (p : List α) : SameOutside c d p p := by
  obtain ⟨lead, hidden, tail, hp, heq⟩ := exists_piece c d p
  exact ⟨lead, hidden, hidden, tail, hp, hp, heq, heq⟩

omit [DecidableEq α] in
/-- Behind a piece and a `d`, the first `d` is that of the piece. -/
theorem Piece.exists_rest (h : Piece c d lead hidden tail) (rest : List α) :
    ∃ b, tail ++ d :: rest = d :: b := by
  rcases h.stop with rfl | ⟨b, rfl⟩
  · exact ⟨rest, rfl⟩
  · exact ⟨b ++ d :: rest, rfl⟩

/-- The cover stands for the piece, and for nothing else. -/
theorem Piece.coverLast (h : Piece c d lead hidden tail) :
    coverLast c cover (front ++ c :: (lead ++ hidden)) = front ++ c :: (lead ++ cover) := by
  rcases h.start with rfl | ⟨a, rfl⟩
  · exact coverLast_join h.noFirst
  · have hjoin : front ++ c :: (a ++ [c] ++ hidden) = (front ++ c :: a) ++ c :: hidden := by simp
    rw [hjoin, coverLast_join h.noFirst]
    simp

omit [DecidableEq α] in
/-- What a covered text shows determines everything outside of the piece. -/
theorem covered_inj (hne : c ≠ d) (hfront : d ∉ front) (hcover : d ∉ cover) {hidden' : List α}
    (h : Piece c d lead hidden tail) (h' : Piece c d lead' hidden' tail')
    (heq : front ++ c :: (lead ++ cover) ++ (tail ++ d :: rest) =
      front ++ c :: (lead' ++ cover) ++ (tail' ++ d :: rest)) : lead = lead' ∧ tail = tail' := by
  obtain ⟨b, hb⟩ := h.exists_rest rest
  obtain ⟨b', hb'⟩ := h'.exists_rest rest
  have hfree : ∀ {l : List α}, d ∉ l → d ∉ front ++ c :: (l ++ cover) := by
    simp [hfront, hcover, hne.symm]
  rw [hb, hb'] at heq
  obtain ⟨hshown, rfl⟩ := (Separator.join_inj_left (hfree h.before) (hfree h'.before)).mp heq
  refine ⟨?_, List.append_cancel_right (hb.trans hb'.symm)⟩
  exact List.append_cancel_right (List.cons.inj (List.append_cancel_left hshown)).2

end pieces

end Masking
