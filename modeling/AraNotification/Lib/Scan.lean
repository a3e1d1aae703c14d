import Mathlib.Data.List.Basic
import Mathlib.Data.List.Infix
import Mathlib.Data.List.Perm.Basic
import Mathlib.Tactic.SplitIfs

/-! # Replacing by rules

A rule is a pattern with its replacement.  `scan` goes over a text once from the left: where the pattern of
a rule begins, it puts the replacement and goes on behind the occurrence, and it keeps everything else.
With one rule this is the replacement of all occurrences that do not overlap, and `sequential` does that
for one rule after the other, in the text that the rules before have left.

Two things can make a difference between the two.  Occurrences of two patterns may overlap, when one can
begin inside the other (`Meets`).  And a replacement may make a new occurrence of a pattern, when it can
stand between a beginning and an end of it (`Touches`): either an occurrence begins inside the
replacement, or it begins before it and reaches into it (`Reaches`).

Proof rules:

* `rules_induction`: a text is read as a scan reads it;
* `scan_append_of_match`, `scan_append_of_silent`, `scan_cons_of_none`: the steps of a scan;
* `scan_scan`: one rule before the others, when it touches none of them;
* `sequential_eq_scan_of_perm`: separate rules one after the other, in any order;
* `sequential_eq_scan_iff`: for patterns that cannot overlap, no other rules can be applied so. -/

namespace Scan

variable {α : Type} [DecidableEq α]

/-- A pattern and its replacement. -/
abbrev Rule (α : Type) := List α × List α

/-- The first rule whose pattern begins a text. -/
def ruleAt (rules : List (Rule α)) (s : List α) : Option (Rule α) := rules.find? (fun r => decide (r.1 <+: s))

/-- Scan a text; the first `skip` elements belong to an occurrence that has been replaced. -/
def scanFrom (rules : List (Rule α)) : ℕ → List α → List α
  | _, [] => []
  | skip + 1, _ :: s => scanFrom rules skip s
  | 0, c :: s =>
      match ruleAt rules (c :: s) with
      | some r => r.2 ++ scanFrom rules (r.1.length - 1) s
      | none => c :: scanFrom rules 0 s

/-- Scan a text once from the left. -/
def scan (rules : List (Rule α)) (s : List α) : List α := scanFrom rules 0 s

/-- Replace the occurrences of one pattern after the other. -/
def sequential (rules : List (Rule α)) (s : List α) : List α := rules.foldl (fun s r => scan [r] s) s

/-! ### Overlaps -/

section overlaps

omit [DecidableEq α]

variable {u v q t X : List α} {rules : List (Rule α)}

/-- One is a beginning of the other. -/
def Comparable (x y : List α) : Prop := x <+: y ∨ y <+: x

/-- An occurrence of `q` can begin inside `u`. -/
def Meets (u q : List α) : Prop := ∃ t, t <:+ u ∧ t ≠ [] ∧ Comparable t q

/-- An occurrence of `q` that begins before `v` can reach into it. -/
def Reaches (v q : List α) : Prop := ∃ t, t <:+ q ∧ t ≠ [] ∧ t ≠ q ∧ Comparable t v

/-- Between a beginning and an end of `q`, neither of them all of `q`, the text `v` makes an occurrence. -/
def Touches (v q : List α) : Prop := ∃ x y, x <+: q ∧ y <:+ q ∧ x ≠ q ∧ y ≠ q ∧ q <:+: x ++ v ++ y

/-- No occurrence of a pattern can begin inside another pattern. -/
def ClashFree (rules : List (Rule α)) : Prop := ∀ r ∈ rules, ∀ q ∈ rules, r ≠ q → ¬ Meets r.1 q.1

/-- No pattern is empty. -/
def Nonempty (rules : List (Rule α)) : Prop := ∀ r ∈ rules, r.1 ≠ []

/-- The patterns do not overlap, and no replacement touches another pattern, unless that is its own
replacement. -/
def Separate (rules : List (Rule α)) : Prop :=
  ∀ r ∈ rules, ∀ q ∈ rules, r ≠ q → ¬ Meets r.1 q.1 ∧ (q.2 = q.1 ∨ ¬ Touches r.2 q.1)

/-- No occurrence of a pattern can begin inside any pattern, except with it. -/
structure Apart (rules : List (Rule α)) : Prop where
  same : ∀ r ∈ rules, ∀ q ∈ rules, Comparable r.1 q.1 → r = q
  inside : ∀ r ∈ rules, ∀ q ∈ rules, ¬ Reaches r.1 q.1

theorem Comparable.symm (h : Comparable t q) : Comparable q t := Or.symm h

theorem comparable_of_prefix_append (h : q <+: t ++ X) : Comparable t q :=
  List.prefix_or_prefix_of_prefix (List.prefix_append t X) h

/-- A beginning of a joined text ends in the first part or reaches into the second. -/
theorem prefix_within_or_beyond (h : q <+: t ++ X) : q <+: t ∨ ∃ e, q = t ++ e ∧ e ≠ [] ∧ e <+: X := by
  rcases comparable_of_prefix_append h with ⟨e, rfl⟩ | hq
  · cases e with
    | nil => exact .inl (by simp)
    | cons c e => exact .inr ⟨c :: e, rfl, by simp, (List.prefix_append_right_inj t).mp h⟩
  · exact .inl hq

/-- Where no occurrence can begin, none begins. -/
theorem not_prefix_of_not_meets (h : ¬ Meets u q) (ht : t <:+ u) (hne : t ≠ []) : ¬ q <+: t ++ X :=
  fun hq => h ⟨t, ht, hne, comparable_of_prefix_append hq⟩

theorem touches_of_meets (h : Meets v q) (hq : q ≠ []) : Touches v q := by
  obtain ⟨t, ⟨w, rfl⟩, hne, ⟨e, rfl⟩ | ⟨e, rfl⟩⟩ := h
  · refine ⟨[], e, List.nil_prefix, List.suffix_append _ _, hq.symm, ?_, ⟨w, [], by simp⟩⟩
    exact fun h => hne (List.self_eq_append_left.mp h)
  · exact ⟨[], [], List.nil_prefix, List.nil_suffix, hq.symm, hq.symm, ⟨w, e, by simp⟩⟩

theorem touches_of_reaches (h : Reaches v q) : Touches v q := by
  obtain ⟨t, ⟨w, rfl⟩, hne, hnq, h⟩ := h
  have hw : w ≠ [] := fun h => hnq (by simp [h])
  have hx : w ≠ w ++ t := fun h => hne (List.self_eq_append_right.mp h)
  obtain ⟨e, rfl⟩ | ⟨e, rfl⟩ := h
  · refine ⟨w, [], List.prefix_append _ _, List.nil_suffix, hx, ?_, ⟨[], e, by simp⟩⟩
    exact fun h => hw (List.append_eq_nil_iff.mp h.symm).1
  · refine ⟨w, e, List.prefix_append _ _, ⟨w ++ v, by simp⟩, hx, ?_, ⟨[], [], by simp⟩⟩
    intro h
    have hlen := congrArg List.length h
    have hpos := List.length_pos_of_ne_nil hw
    simp only [List.length_append] at hlen
    omega

theorem Separate.clashFree (h : Separate rules) : ClashFree rules := fun r hr q hq hne => (h r hr q hq hne).1

theorem Apart.clashFree (h : Apart rules) : ClashFree rules := by
  rintro r hr q hq hne ⟨t, ht, htne, hc⟩
  by_cases he : t = r.1
  · exact hne (h.same r hr q hq (he ▸ hc))
  · exact h.inside q hq r hr ⟨t, ht, htne, he, hc⟩

/-- In a clash-free list the rule of an occurrence is determined. -/
theorem ClashFree.unique (h : ClashFree rules) (hn : Nonempty rules) {r q : Rule α} {s : List α} (hr : r ∈ rules)
    (hq : q ∈ rules) (hrs : r.1 <+: s) (hqs : q.1 <+: s) : r = q := by
  by_contra hne
  exact h r hr q hq hne ⟨r.1, List.suffix_rfl, hn r hr, List.prefix_or_prefix_of_prefix hrs hqs⟩

/-- No pattern begins in a beginning of another that goes on with an occurrence. -/
theorem Apart.not_prefix_lead (ha : Apart rules) {r q k : Rule α} {x : List α} (hr : r ∈ rules) (hq : q ∈ rules)
    (hk : k ∈ rules) (hx : x <+: q.1) (hxq : x ≠ q.1) (ht : t <:+ x) (hne : t ≠ []) : ¬ k.1 <+: t ++ (r.1 ++ X) := by
  intro hpre
  obtain ⟨a, rfl⟩ := ht
  obtain ⟨z, hz⟩ := hx
  rcases prefix_within_or_beyond hpre with hpre | ⟨e, he, hnil, hep⟩
  · by_cases hnil : a = []
    · subst hnil
      have hkq : k = q := ha.same k hk q hq (.inl (hz ▸ hpre.trans (List.prefix_append _ _)))
      subst hkq
      exact hxq (List.IsPrefix.eq_of_length_le ⟨z, hz⟩ hpre.length_le)
    · refine ha.inside k hk q hq ⟨t ++ z, ⟨a, by simp [← hz]⟩, by simp [hne], ?_, ?_⟩
      · intro h
        rw [← hz, List.append_assoc] at h
        exact hnil (List.self_eq_append_left.mp h)
      · exact .inr (hpre.trans (List.prefix_append _ _))
  · refine ha.inside r hr k hk ⟨e, ⟨t, he.symm⟩, hnil, ?_, (comparable_of_prefix_append hep).symm⟩
    exact fun h => hne (List.self_eq_append_left.mp (h.trans he))

theorem ClashFree.mono {rules' : List (Rule α)} (h : ClashFree rules) (hsub : rules' ⊆ rules) : ClashFree rules' :=
  fun r hr q hq => h r (hsub hr) q (hsub hq)

theorem Nonempty.mono {rules' : List (Rule α)} (h : Nonempty rules) (hsub : rules' ⊆ rules) : Nonempty rules' :=
  fun r hr => h r (hsub hr)

end overlaps

/-! ### The steps of a scan -/

section steps
variable {rules rules' : List (Rule α)} {r q : Rule α} {c : α} {s u : List α}

theorem ruleAt_eq_none_iff : ruleAt rules s = none ↔ ∀ r ∈ rules, ¬ r.1 <+: s := by
  simp [ruleAt]

theorem of_ruleAt (h : ruleAt rules s = some r) : r ∈ rules ∧ r.1 <+: s :=
  ⟨List.mem_of_find?_eq_some h, by simpa using List.find?_some h⟩

/-- The only rule that begins a text is the one. -/
theorem ruleAt_eq_some (hr : r ∈ rules) (hrs : r.1 <+: s) (h : ∀ q ∈ rules, q.1 <+: s → q = r) :
    ruleAt rules s = some r := by
  cases hf : ruleAt rules s with
  | none => exact absurd hrs (ruleAt_eq_none_iff.mp hf r hr)
  | some q => rw [h q (of_ruleAt hf).1 (of_ruleAt hf).2]

@[simp] theorem scan_nil : scan rules [] = [] := rfl

theorem scanFrom_eq (n : ℕ) (s : List α) : scanFrom rules n s = scan rules (s.drop n) := by
  induction n generalizing s with
  | zero => rfl
  | succ n ih =>
      cases s with
      | nil => rfl
      | cons c s => exact ih s

theorem scan_cons_of_none (h : ∀ r ∈ rules, ¬ r.1 <+: c :: s) : scan rules (c :: s) = c :: scan rules s := by
  simp only [scan, scanFrom, ruleAt_eq_none_iff.mpr h]

/-- An occurrence is replaced. -/
theorem scan_append_of_match (hr : r ∈ rules) (hne : r.1 ≠ []) (h : ∀ q ∈ rules, q.1 <+: r.1 ++ s → q = r) :
    scan rules (r.1 ++ s) = r.2 ++ scan rules s := by
  obtain ⟨c, w, hc⟩ := List.exists_cons_of_ne_nil hne
  have hat : ruleAt rules (c :: (w ++ s)) = some r := by
    rw [← List.cons_append, ← hc]
    exact ruleAt_eq_some hr (List.prefix_append _ _) h
  calc scan rules (r.1 ++ s) = r.2 ++ scanFrom rules (r.1.length - 1) (w ++ s) := by
        rw [hc, List.cons_append, scan, scanFrom, hat]
        simp only [hc]
    _ = r.2 ++ scan rules s := by
        rw [scanFrom_eq, hc, List.length_cons, Nat.add_sub_cancel, List.drop_left]

theorem ClashFree.scan_append (h : ClashFree rules) (hn : Nonempty rules) (hr : r ∈ rules) :
    scan rules (r.1 ++ s) = r.2 ++ scan rules s :=
  scan_append_of_match hr (hn r hr) (fun _ hq hqs => h.unique hn hq hr hqs (List.prefix_append _ _))

/-- Where no occurrence begins the text is kept. -/
theorem scan_append_of_none_begins (h : ∀ t, t <:+ u → t ≠ [] → ∀ q ∈ rules, ¬ q.1 <+: t ++ s) :
    scan rules (u ++ s) = u ++ scan rules s := by
  induction u with
  | nil => rfl
  | cons c u ih =>
      have hnone : ∀ q ∈ rules, ¬ q.1 <+: c :: (u ++ s) := h (c :: u) List.suffix_rfl (by simp)
      rw [List.cons_append, scan_cons_of_none hnone, ih (fun t ht => h t (ht.trans (List.suffix_cons c u))),
        List.cons_append]

theorem scan_append_of_silent (h : ∀ q ∈ rules, ¬ Meets u q.1) : scan rules (u ++ s) = u ++ scan rules s :=
  scan_append_of_none_begins (fun _ ht hne q hq => not_prefix_of_not_meets (h q hq) ht hne)

/-- A text without occurrences is kept. -/
theorem scan_of_none_begins (h : ∀ t, t <:+ s → t ≠ [] → ∀ q ∈ rules, ¬ q.1 <+: t) : scan rules s = s := by
  have happ : scan rules (s ++ []) = s ++ scan rules [] :=
    scan_append_of_none_begins (by simpa using h)
  simpa using happ

/-- A scan reads a text occurrence by occurrence and, between them, element by element. -/
theorem rules_induction (hn : Nonempty rules) {P : List α → Prop} (nil : P [])
    (hit : ∀ r ∈ rules, ∀ s, P s → P (r.1 ++ s))
    (miss : ∀ c s, (∀ r ∈ rules, ¬ r.1 <+: c :: s) → P s → P (c :: s)) (s : List α) : P s := by
  induction hlen : s.length using Nat.strong_induction_on generalizing s with
  | _ n ih =>
      subst hlen
      by_cases hm : ∃ r ∈ rules, r.1 <+: s
      · obtain ⟨r, hr, w, rfl⟩ := hm
        have hpos := List.length_pos_of_ne_nil (hn r hr)
        exact hit r hr w (ih _ (by simp only [List.length_append]; omega) w rfl)
      · push Not at hm
        cases s with
        | nil => exact nil
        | cons c s => exact miss c s hm (ih _ (by simp) s rfl)

theorem scan_congr (h : ∀ s : List α, ruleAt rules s = ruleAt rules' s) (s : List α) :
    scan rules s = scan rules' s := by
  have hfrom : ∀ n, scanFrom rules n s = scanFrom rules' n s := by
    induction s with
    | nil => simp [scanFrom]
    | cons c s ih =>
        intro n
        cases n with
        | zero => simp only [scanFrom, h, ih]
        | succ n => exact ih n
  exact hfrom 0

/-- Rules without clashes can be given in any order. -/
theorem scan_perm (h : ClashFree rules) (hn : Nonempty rules) (hp : rules.Perm rules') (s : List α) :
    scan rules s = scan rules' s := by
  refine scan_congr (fun s => ?_) s
  cases hat : ruleAt rules s with
  | none =>
      have hnone := ruleAt_eq_none_iff.mp hat
      exact (ruleAt_eq_none_iff.mpr (fun q hq => hnone q (hp.mem_iff.mpr hq))).symm
  | some r =>
      obtain ⟨hr, hrs⟩ := of_ruleAt hat
      exact (ruleAt_eq_some (hp.mem_iff.mp hr) hrs
        (fun q hq hqs => h.unique hn (hp.mem_iff.mpr hq) hr hqs hrs)).symm

end steps

/-! ### One rule -/

section single
variable {r : Rule α} {c : α} {s : List α}

theorem scan_single_append (hne : r.1 ≠ []) : scan [r] (r.1 ++ s) = r.2 ++ scan [r] s :=
  scan_append_of_match (List.mem_singleton_self r) hne (fun _ hq _ => List.mem_singleton.mp hq)

theorem scan_single_cons (h : ¬ r.1 <+: c :: s) : scan [r] (c :: s) = c :: scan [r] s :=
  scan_cons_of_none (by simpa using h)

theorem single_induction (hne : r.1 ≠ []) {P : List α → Prop} (nil : P []) (hit : ∀ s, P s → P (r.1 ++ s))
    (miss : ∀ c s, ¬ r.1 <+: c :: s → P s → P (c :: s)) (s : List α) : P s := by
  have hn : Nonempty [r] := by
    simpa [Nonempty] using hne
  induction s using rules_induction hn with
  | nil => exact nil
  | hit q hq s ih =>
      obtain rfl : q = r := List.mem_singleton.mp hq
      exact hit s ih
  | miss c s hs ih => exact miss c s (hs r (List.mem_singleton_self r)) ih

theorem scan_self (hne : r.1 ≠ []) (h : r.2 = r.1) (s : List α) : scan [r] s = s := by
  induction s using single_induction hne with
  | nil => rfl
  | hit s ih => rw [scan_single_append hne, ih, h]
  | miss c s hs ih => rw [scan_single_cons hs, ih]

/-- Replacing by something shorter makes nothing longer. -/
theorem length_scan_le (hne : r.1 ≠ []) (h : r.2.length ≤ r.1.length) (s : List α) :
    (scan [r] s).length ≤ s.length := by
  induction s using single_induction hne with
  | nil => simp
  | hit s ih =>
      rw [scan_single_append hne]
      simp only [List.length_append]
      omega
  | miss c s hs ih =>
      rw [scan_single_cons hs]
      simpa using ih

theorem le_length_scan (hne : r.1 ≠ []) (h : r.1.length ≤ r.2.length) (s : List α) :
    s.length ≤ (scan [r] s).length := by
  induction s using single_induction hne with
  | nil => simp
  | hit s ih =>
      rw [scan_single_append hne]
      simp only [List.length_append]
      omega
  | miss c s hs ih =>
      rw [scan_single_cons hs]
      simpa using ih

/-- A text with an occurrence is changed by every replacement but one. -/
theorem eq_of_scan_eq (hne : r.1 ≠ []) (hs : r.1 <:+: s) (h : scan [r] s = s) : r.2 = r.1 := by
  induction s using single_induction hne with
  | nil => exact absurd (List.infix_nil.mp hs) hne
  | hit s ih =>
      rw [scan_single_append hne] at h
      have hlen := congrArg List.length h
      simp only [List.length_append] at hlen
      have heq : r.2.length = r.1.length := by
        rcases Nat.le_total r.2.length r.1.length with hle | hle
        · have := length_scan_le hne hle s
          omega
        · have := le_length_scan hne hle s
          omega
      exact (List.append_inj h heq).1
  | miss c s hnone ih =>
      rw [scan_single_cons hnone] at h
      rcases List.infix_cons_iff.mp hs with hpre | hinf
      · exact absurd hpre hnone
      · exact ih hinf (List.cons.inj h).2

end single

/-! ### One rule before the others -/

section before
variable {rules : List (Rule α)} {r q : Rule α} {p t s : List α}

/-- A text that a single rule does not reach has no more beginnings of it than before: an occurrence of `p`
that begins before the replaced text was there before. -/
theorem prefix_of_prefix_scan (hne : r.1 ≠ []) (h : ¬ Reaches r.2 p) (ht : t ≠ []) (hp : p <+: t ++ scan [r] s) :
    p <+: t ++ s := by
  induction s using single_induction hne generalizing t with
  | nil => simpa using hp
  | hit s ih =>
      rw [scan_single_append hne] at hp
      rcases prefix_within_or_beyond hp with hp | ⟨e, rfl, hnil, hep⟩
      · exact hp.trans (List.prefix_append _ _)
      · refine absurd ⟨e, List.suffix_append _ _, hnil, ?_, (comparable_of_prefix_append hep).symm⟩ h
        exact fun he => ht (List.self_eq_append_left.mp he)
  | miss c s hs ih =>
      rw [scan_single_cons hs, List.append_cons] at hp
      rw [List.append_cons]
      exact ih (by simp) hp

/-- A rule that touches no other can be applied before them. -/
theorem scan_scan (hc : ClashFree (r :: rules)) (hn : Nonempty (r :: rules)) (hr : r ∉ rules)
    (h : ∀ q ∈ rules, ¬ Touches r.2 q.1) (s : List α) : scan rules (scan [r] s) = scan (r :: rules) s := by
  have hsub : rules ⊆ r :: rules := List.subset_cons_self r rules
  have hne : r.1 ≠ [] := hn r List.mem_cons_self
  induction s using rules_induction hn with
  | nil => rfl
  | hit q hq s ih =>
      rw [hc.scan_append hn hq, ← ih]
      rcases List.mem_cons.mp hq with rfl | hq
      · rw [scan_single_append hne]
        exact scan_append_of_silent (fun q' hq' hm => h q' hq' (touches_of_meets hm (hn q' (hsub hq'))))
      · have hqr : q ≠ r := fun he => hr (he ▸ hq)
        have hsilent : scan [r] (q.1 ++ s) = q.1 ++ scan [r] s :=
          scan_append_of_silent (by simpa using hc q (hsub hq) r List.mem_cons_self hqr)
        rw [hsilent, (hc.mono hsub).scan_append (hn.mono hsub) hq]
  | miss c s hs ih =>
      have hnone : ∀ q ∈ rules, ¬ q.1 <+: c :: scan [r] s := by
        intro q hq hqs
        have hreach : ¬ Reaches r.2 q.1 := fun hreach => h q hq (touches_of_reaches hreach)
        exact hs q (hsub hq) (prefix_of_prefix_scan (t := [c]) hne hreach (by simp) hqs)
      rw [scan_single_cons (hs r List.mem_cons_self), scan_cons_of_none hnone, ih, scan_cons_of_none hs]

/-- A pattern that is its own replacement can be left out. -/
theorem scan_filter (keep : Rule α → Bool) (hc : ClashFree rules) (hn : Nonempty rules)
    (h : ∀ q ∈ rules, keep q = false → q.2 = q.1) (s : List α) : scan (rules.filter keep) s = scan rules s := by
  have hsub : rules.filter keep ⊆ rules := List.filter_subset_self rules
  induction s using rules_induction hn with
  | nil => rfl
  | hit q hq s ih =>
      rw [hc.scan_append hn hq, ← ih]
      cases hk : keep q with
      | true => exact (hc.mono hsub).scan_append (hn.mono hsub) (List.mem_filter.mpr ⟨hq, hk⟩)
      | false =>
          rw [h q hq hk]
          refine scan_append_of_silent (fun r hr => hc q hq r (hsub hr) ?_)
          rintro rfl
          simp [hk] at hr
  | miss c s hs ih =>
      rw [scan_cons_of_none hs, scan_cons_of_none (fun q hq => hs q (hsub hq)), ih]

end before

/-! ### All rules -/

section all
variable {rules : List (Rule α)} {r : Rule α} {s : List α}

@[simp] theorem sequential_cons : sequential (r :: rules) s = sequential rules (scan [r] s) := rfl

theorem sequential_append (rules' : List (Rule α)) :
    sequential (rules ++ rules') s = sequential rules' (sequential rules s) :=
  List.foldl_append

theorem sequential_filter (keep : Rule α → Bool) (hn : Nonempty rules)
    (h : ∀ q ∈ rules, keep q = false → q.2 = q.1) (s : List α) :
    sequential (rules.filter keep) s = sequential rules s := by
  induction rules generalizing s with
  | nil => rfl
  | cons r rules ih =>
      have hrest : ∀ s, sequential (rules.filter keep) s = sequential rules s :=
        ih (hn.mono (List.subset_cons_self _ _)) (fun q hq => h q (List.mem_cons_of_mem r hq))
      cases hk : keep r with
      | true => simp only [List.filter_cons, hk, if_true, sequential_cons, hrest]
      | false =>
          have hs : scan [r] s = s := scan_self (hn r List.mem_cons_self) (h r List.mem_cons_self hk) s
          simp [hk, hrest, hs]

theorem sequential_eq_scan_of_not_touches (hc : ClashFree rules) (hn : Nonempty rules) (hnd : rules.Nodup)
    (h : ∀ r ∈ rules, ∀ q ∈ rules, r ≠ q → ¬ Touches r.2 q.1) (s : List α) :
    sequential rules s = scan rules s := by
  induction rules generalizing s with
  | nil => exact (scan_of_none_begins (by simp)).symm
  | cons r rules ih =>
      have hsub : rules ⊆ r :: rules := List.subset_cons_self r rules
      obtain ⟨hr, hnd⟩ := List.nodup_cons.mp hnd
      have hr' : ∀ q ∈ rules, ¬ Touches r.2 q.1 := fun q hq =>
        h r List.mem_cons_self q (hsub hq) (fun he => hr (he ▸ hq))
      rw [sequential_cons, ih (hc.mono hsub) (hn.mono hsub) hnd (fun r hr q hq => h r (hsub hr) q (hsub hq)),
        scan_scan hc hn hr hr']

/-- Rules that are separate can be applied one after the other. -/
theorem sequential_eq_scan (h : Separate rules) (hn : Nonempty rules) (hnd : rules.Nodup) (s : List α) :
    sequential rules s = scan rules s := by
  let keep : Rule α → Bool := fun q => decide (q.2 ≠ q.1)
  have hsub : rules.filter keep ⊆ rules := List.filter_subset_self rules
  have hkeep : ∀ q ∈ rules, keep q = false → q.2 = q.1 := by
    simp [keep]
  rw [← sequential_filter keep hn hkeep, ← scan_filter keep h.clashFree hn hkeep]
  refine sequential_eq_scan_of_not_touches (h.clashFree.mono hsub) (hn.mono hsub) (hnd.filter keep) ?_ s
  intro r hr q hq hne
  have hq' : q.2 ≠ q.1 := by
    simpa [keep] using (List.mem_filter.mp hq).2
  exact (h r (hsub hr) q (hsub hq) hne).2.resolve_left hq'

theorem sequential_eq_scan_of_perm {rules' : List (Rule α)} (h : Separate rules) (hn : Nonempty rules)
    (hnd : rules.Nodup) (hp : rules'.Perm rules) (s : List α) : sequential rules' s = scan rules s := by
  have h' : Separate rules' := fun r hr q hq => h r (hp.subset hr) q (hp.subset hq)
  rw [sequential_eq_scan h' (hn.mono hp.subset) (hp.nodup_iff.mpr hnd), scan_perm h'.clashFree (hn.mono hp.subset) hp]

end all

/-! ### A rule that touches another -/

section touching
variable {rules chosen : List (Rule α)} {r q : Rule α} {x y : List α}

section between
variable (ha : Apart rules) (hn : Nonempty rules) (hr : r ∈ rules) (hq : q ∈ rules) (hx : x <+: q.1) (hxq : x ≠ q.1)
  (hy : y <:+ q.1) (hyq : y ≠ q.1) (hsub : chosen ⊆ rules)
include ha hn hr hq hx hxq hy hyq hsub

/-- Between a beginning and an end of a pattern, another pattern is the only occurrence. -/
theorem scan_between :
    scan chosen (x ++ (r.1 ++ y)) = x ++ ((if r ∈ chosen then r.2 else r.1) ++ y) := by
  have hinside : ∀ t, t <:+ r.1 → t ≠ [] → ∀ k ∈ chosen, k.1 <+: t ++ y → k = r := by
    intro t ht hne k hk hpre
    by_cases he : t = r.1
    · exact (ha.same r hr k (hsub hk) (comparable_of_prefix_append (he ▸ hpre))).symm
    · exact absurd ⟨t, ht, hne, he, comparable_of_prefix_append hpre⟩ (ha.inside k (hsub hk) r hr)
  have hend : scan chosen y = y := by
    refine scan_of_none_begins (fun t ht hne k hk hpre => ?_)
    refine ha.inside k (hsub hk) q hq ⟨t, ht.trans hy, hne, ?_, .inr hpre⟩
    exact fun he => hyq (hy.eq_of_length_le (he ▸ ht).length_le)
  rw [scan_append_of_none_begins (fun t ht hne k hk => ha.not_prefix_lead hr hq (hsub hk) hx hxq ht hne)]
  split_ifs with hmem
  · rw [scan_append_of_match hmem (hn r hr) (hinside r.1 List.suffix_rfl (hn r hr)), hend]
  · rw [scan_append_of_none_begins (fun t ht hne k hk hpre => hmem (hinside t ht hne k hk hpre ▸ hk)), hend]

theorem sequential_between (hmem : r ∉ chosen) :
    sequential chosen (x ++ (r.1 ++ y)) = x ++ (r.1 ++ y) := by
  induction chosen with
  | nil => rfl
  | cons k chosen ih =>
      rw [List.cons_subset] at hsub
      rw [List.mem_cons, not_or] at hmem
      have hk : scan [k] (x ++ (r.1 ++ y)) = x ++ (r.1 ++ y) := by
        rw [scan_between ha hn hr hq hx hxq hy hyq (by simpa using hsub.1), if_neg (by simpa using hmem.1)]
      rw [sequential_cons, hk, ih hsub.2 hmem.2]

end between

/-- If every order of the rules makes a single scan, then a pattern that another replacement touches is its
own replacement. -/
theorem eq_of_touches (ha : Apart rules) (hn : Nonempty rules) (hnd : rules.Nodup) (hr : r ∈ rules) (hq : q ∈ rules)
    (hne : r ≠ q) (h : ∀ rules', rules'.Perm rules → ∀ s, sequential rules' s = scan rules s)
    (ht : Touches r.2 q.1) : q.2 = q.1 := by
  obtain ⟨x, y, hx, hy, hxq, hyq, hocc⟩ := ht
  let rest := (rules.erase r).erase q
  have hsub : rest ⊆ rules := fun k hk => List.mem_of_mem_erase (List.mem_of_mem_erase hk)
  have hmem : r ∉ rest := fun hk => hnd.not_mem_erase (List.mem_of_mem_erase hk)
  have hperm : (rest ++ [r, q]).Perm rules := by
    have hqr : q ∈ rules.erase r := (List.mem_erase_of_ne hne.symm).mpr hq
    have hrest : (r :: q :: rest).Perm (r :: rules.erase r) := (List.perm_cons_erase hqr).symm.cons r
    exact List.perm_append_comm.trans (hrest.trans (List.perm_cons_erase hr).symm)
  have hscan : ∀ {chosen : List (Rule α)}, chosen ⊆ rules → r ∈ chosen →
      scan chosen (x ++ (r.1 ++ y)) = x ++ (r.2 ++ y) := fun hsub hmem => by
    rw [scan_between ha hn hr hq hx hxq hy hyq hsub, if_pos hmem]
  have hlast : scan [q] (x ++ (r.2 ++ y)) = x ++ (r.2 ++ y) := by
    calc scan [q] (x ++ (r.2 ++ y)) = scan [q] (scan [r] (x ++ (r.1 ++ y))) := by
          rw [hscan (by simpa using hr) (List.mem_singleton_self r)]
      _ = sequential (rest ++ [r, q]) (x ++ (r.1 ++ y)) := by
          rw [sequential_append, sequential_between ha hn hr hq hx hxq hy hyq hsub hmem]
          rfl
      _ = x ++ (r.2 ++ y) := by
          rw [h _ hperm, hscan (List.Subset.refl rules) hr]
  exact eq_of_scan_eq (hn q hq) (by simpa using hocc) hlast

/-- For patterns that cannot overlap, the order of the rules makes no difference exactly when they are
separate. -/
theorem sequential_eq_scan_iff (ha : Apart rules) (hn : Nonempty rules) (hnd : rules.Nodup) :
    (∀ rules', rules'.Perm rules → ∀ s, sequential rules' s = scan rules s) ↔ Separate rules := by
  constructor
  · intro h r hr q hq hne
    refine ⟨ha.clashFree r hr q hq hne, ?_⟩
    by_cases ht : Touches r.2 q.1
    · exact .inl (eq_of_touches ha hn hnd hr hq hne h ht)
    · exact .inr ht
  · exact fun h rules' hp s => sequential_eq_scan_of_perm h hn hnd hp s

end touching

end Scan
