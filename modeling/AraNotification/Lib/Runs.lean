import Mathlib.Data.List.Basic
import Mathlib.Data.List.Induction
import Mathlib.Order.Basic

/-! # Runs of a deterministic component

A component with states `σ` that answers calls `ι` with `ο` is a function
`step : σ → ι → ο × σ`.  Calls do not overlap, so a run is a list of calls; `final` is the
state after it and `trace` its history, in which every entry has the states before and after
the call.  A call may carry a clock reading `now : ι → τ`, and `Clocked` says that the
readings of a run do not decrease.

Proof rules:

* `trace_snoc`, `final_snoc`: how a further call extends a history, for induction from the
  end of a run;
* `snoc_split_cases`, `forall_split_snoc`: the places in a history that has been extended;
* `trace_split`, `trace_place`: a place in a history is a call in the state that the calls before it lead to;
* `exists_of_final`: what comes about in a run is brought about by a call;
* `countP_add_potential_le`: what the calls take out of a potential is bounded by what they put into it;
* `outputs_eq_of_simulation`, `simulation`: two components give the same answers when a relation
  between their states, which may depend on the time, is preserved;
* `Admissible.invariant`, `goal_of_late`: what admissible calls preserve, and a goal that is reached by the
  time of a deadline which no call puts off;
* `outputs_purge`, `observed_purge`: the calls that an observer sees are answered as if other calls had not been
  made, when those calls do not touch what the observer's view of the state is. -/

namespace Runs

/-- One call of a run. -/
structure Entry (σ ι ο : Type) where
  before : σ
  input : ι
  output : ο
  after : σ

variable {σ σ' ι ο τ : Type} (step : σ → ι → ο × σ) (step' : σ' → ι → ο × σ')

/-- The entry that a call adds to the history. -/
def entry (s : σ) (i : ι) : Entry σ ι ο := ⟨s, i, (step s i).1, (step s i).2⟩

/-- The state after a list of calls. -/
def final : σ → List ι → σ
  | s, [] => s
  | s, i :: is => final (step s i).2 is

/-- The history of a list of calls. -/
def trace : σ → List ι → List (Entry σ ι ο)
  | _, [] => []
  | s, i :: is => entry step s i :: trace (step s i).2 is

/-- The answers to a list of calls. -/
def outputs (s : σ) (is : List ι) : List ο := (trace step s is).map (·.output)

/-- Every call satisfies `ok` in the state in which it is made. -/
def Admissible (ok : σ → ι → Prop) : σ → List ι → Prop
  | _, [] => True
  | s, i :: is => ok s i ∧ Admissible ok (step s i).2 is

instance decidableAdmissible {ok : σ → ι → Prop} [∀ s i, Decidable (ok s i)] :
    ∀ (s : σ) (is : List ι), Decidable (Admissible step ok s is)
  | _, [] => isTrue trivial
  | s, i :: is =>
      have : Decidable (Admissible step ok (step s i).2 is) := decidableAdmissible _ is
      inferInstanceAs (Decidable (ok s i ∧ Admissible step ok (step s i).2 is))

/-- Clock readings do not decrease from `t` on. -/
def Clocked [LE τ] (now : ι → τ) : τ → List ι → Prop
  | _, [] => True
  | t, i :: is => t ≤ now i ∧ Clocked now (now i) is

instance decidableClocked [LE τ] [DecidableLE τ] {now : ι → τ} : ∀ (t : τ) (is : List ι), Decidable (Clocked now t is)
  | _, [] => isTrue trivial
  | t, i :: is =>
      have : Decidable (Clocked now (now i) is) := decidableClocked _ is
      inferInstanceAs (Decidable (t ≤ now i ∧ Clocked now (now i) is))

/-- The answers to the calls that an observer sees. -/
def observed (see : ι → Bool) (s : σ) (is : List ι) : List ο :=
  ((trace step s is).filter (fun e => see e.input)).map (·.output)

variable {step step'} {ok : σ → ι → Prop} {s : σ}

/-! ### Histories -/

theorem final_snoc (s : σ) (is : List ι) (i : ι) :
    final step s (is ++ [i]) = (step (final step s is) i).2 := by
  induction is generalizing s with
  | nil => rfl
  | cons j is ih => exact ih (step s j).2

/-- What every call preserves holds at the end. -/
theorem final_invariant {I : σ → Prop} (h0 : I s) (is : List ι) (hstep : ∀ s i, I s → I (step s i).2) :
    I (final step s is) := by
  induction is generalizing s with
  | nil => exact h0
  | cons i is ih => exact ih (hstep s i h0)

theorem trace_snoc (s : σ) (is : List ι) (i : ι) :
    trace step s (is ++ [i]) = trace step s is ++ [entry step (final step s is) i] := by
  induction is generalizing s with
  | nil => rfl
  | cons j is ih => exact congrArg _ (ih (step s j).2)

/-- A further call is admissible in the state after the others. -/
theorem admissible_snoc (s : σ) (is : List ι) (i : ι) :
    Admissible step ok s (is ++ [i]) ↔ Admissible step ok s is ∧ ok (final step s is) i := by
  induction is generalizing s with
  | nil => simp [Admissible, final]
  | cons j is ih =>
      simp only [List.cons_append, Admissible, final, ih, and_assoc]

section places
variable {α : Type} {l earlier rest : List α} {x y : α}

/-- A place in an extended history is its last one or a place in the history. -/
theorem snoc_split_cases (h : l ++ [x] = earlier ++ y :: rest) :
    (earlier = l ∧ y = x ∧ rest = []) ∨ ∃ rest', rest = rest' ++ [x] ∧ l = earlier ++ y :: rest' := by
  rcases List.eq_nil_or_concat' rest with rfl | ⟨rest', z, rfl⟩
  · obtain ⟨rfl, hy⟩ := List.append_inj' h rfl
    exact .inl ⟨rfl, (List.singleton_inj.mp hy).symm, rfl⟩
  · rw [← List.cons_append, ← List.append_assoc] at h
    obtain ⟨rfl, hz⟩ := List.append_inj' h rfl
    obtain rfl := List.singleton_inj.mp hz
    exact .inr ⟨rest', rfl, rfl⟩

/-- What holds at every place, given the places before it. -/
theorem forall_split_snoc {P : List α → α → Prop} :
    (∀ earlier y rest, l ++ [x] = earlier ++ y :: rest → P earlier y) ↔
      (∀ earlier y rest, l = earlier ++ y :: rest → P earlier y) ∧ P l x := by
  constructor
  · intro h
    refine ⟨fun earlier y rest hl => ?_, h l x [] rfl⟩
    exact h earlier y (rest ++ [x]) (by rw [hl, List.append_assoc, List.cons_append])
  · rintro ⟨h, hlast⟩ earlier y rest hl
    rcases snoc_split_cases hl with ⟨rfl, rfl, -⟩ | ⟨rest', -, hl'⟩
    · exact hlast
    · exact h earlier y rest' hl'

end places

/-- A place in a history is a call in the state that the calls before it lead to. -/
theorem trace_split {is : List ι} {earlier later : List (Entry σ ι ο)} {e : Entry σ ι ο}
    (h : trace step s is = earlier ++ e :: later) :
    ∃ js i ks, is = js ++ i :: ks ∧ earlier = trace step s js ∧ e = entry step (final step s js) i ∧
      later = trace step (step (final step s js) i).2 ks := by
  induction is generalizing s earlier with
  | nil => simp [trace] at h
  | cons j is ih =>
      cases earlier with
      | nil =>
          obtain ⟨rfl, rfl⟩ := List.cons.inj h
          exact ⟨[], j, is, rfl, rfl, rfl, rfl⟩
      | cons e' earlier =>
          obtain ⟨rfl, htail⟩ := List.cons.inj h
          obtain ⟨js, i, ks, rfl, rfl, rfl, rfl⟩ := ih htail
          exact ⟨j :: js, i, ks, rfl, rfl, rfl, rfl⟩

/-- What has been done up to a place in a history, and the state there. -/
theorem trace_place {is : List ι} {earlier later : List (Entry σ ι ο)} {e : Entry σ ι ο}
    (h : trace step s is = earlier ++ e :: later) :
    ∃ js, earlier ++ [e] = trace step s js ∧ e.after = final step s js := by
  obtain ⟨js, i, ks, -, rfl, rfl, -⟩ := trace_split h
  exact ⟨js ++ [i], (trace_snoc s js i).symm, (final_snoc s js i).symm⟩

/-- The entry of a history is a call in a state that the calls before it lead to. -/
theorem exists_of_mem_trace {is : List ι} {e : Entry σ ι ο} (h : e ∈ trace step s is) :
    ∃ js i, e = entry step (final step s js) i := by
  obtain ⟨earlier, later, heq⟩ := List.append_of_mem h
  obtain ⟨js, i, -, -, -, he, -⟩ := trace_split heq
  exact ⟨js, i, he⟩

/-- What does not hold at first and holds at the end has been brought about by a call. -/
theorem exists_of_final {Q : σ → Prop} {R : Entry σ ι ο → Prop} (h0 : ¬ Q s) {is : List ι}
    (hstep : ∀ s i, Q (step s i).2 → Q s ∨ R (entry step s i)) (h : Q (final step s is)) :
    ∃ e ∈ trace step s is, R e := by
  induction is generalizing s with
  | nil => exact absurd h h0
  | cons i is ih =>
      by_cases hnext : Q (step s i).2
      · exact ⟨_, List.mem_cons_self, (hstep s i hnext).resolve_left h0⟩
      · obtain ⟨e, he, hR⟩ := ih hnext h
        exact ⟨e, List.mem_cons_of_mem _ he, hR⟩

/-! ### Potentials -/

/-- The entries that `p` counts take 1 each out of a potential, and those that `q` counts put `k` each
into it. -/
theorem countP_add_potential_le {I : σ → Prop} {p q : Entry σ ι ο → Bool} {k : ℕ} (potential : σ → ℕ) (h0 : I s)
    (is : List ι) (hinv : ∀ s i, I s → I (step s i).2)
    (hstep : ∀ s i, I s → (if p (entry step s i) then 1 else 0) + potential (step s i).2 ≤
      potential s + k * if q (entry step s i) then 1 else 0) :
    (trace step s is).countP p + potential (final step s is) ≤ potential s + k * (trace step s is).countP q := by
  induction is generalizing s with
  | nil => simp [trace, final]
  | cons i is ih =>
      have hcall := hstep s i h0
      have hrest := ih (hinv s i h0)
      rw [trace, final, List.countP_cons, List.countP_cons, Nat.mul_add]
      omega

/-! ### Clocks -/

section clocks
variable [Preorder τ] {now : ι → τ} {t t' : τ} {is : List ι}

theorem Clocked.of_le (h : Clocked now t is) (ht : t' ≤ t) : Clocked now t' is := by
  cases is with
  | nil => trivial
  | cons i is => exact ⟨ht.trans h.1, h.2⟩

/-- No reading is before the start. -/
theorem Clocked.le (h : Clocked now t is) : ∀ i ∈ is, t ≤ now i := by
  induction is generalizing t with
  | nil => simp
  | cons i is ih =>
      intro j hj
      rcases List.mem_cons.mp hj with rfl | hj
      · exact h.1
      · exact ih (h.2.of_le h.1) j hj

end clocks

/-! ### Deadlines -/

/-- What every admissible call preserves holds at the end. -/
theorem Admissible.invariant {I : σ → Prop} {is : List ι} (hok : Admissible step ok s is) (h0 : I s)
    (hstep : ∀ s i, I s → ok s i → I (step s i).2) : I (final step s is) := by
  induction is generalizing s with
  | nil => exact h0
  | cons i is ih => exact ih hok.2 (hstep s i h0 hok.1)

/-- A goal that is kept once it is reached is reached by the time `t` when each state before it has a deadline
up to `t`, after which no call is made and which no call puts off. -/
theorem goal_of_late [Preorder τ] {now : ι → τ} {I : σ → Prop} (goal : σ → Prop) (deadline : σ → τ) {t : τ} {is : List ι}
    (hok : Admissible step ok s is) (hI : I s) (h0 : goal s ∨ deadline s ≤ t)
    (hinv : ∀ s i, I s → ok s i → I (step s i).2)
    (hkeep : ∀ s i, I s → ok s i → goal s → goal (step s i).2)
    (hdue : ∀ s i, I s → ok s i → ¬ goal s →
      now i ≤ deadline s ∧ (goal (step s i).2 ∨ deadline (step s i).2 ≤ deadline s)) :
    goal (final step s is) ∨ ∀ i ∈ is, now i ≤ t := by
  induction is generalizing s with
  | nil => exact .inr (fun i hi => absurd hi List.not_mem_nil)
  | cons i is ih =>
      by_cases hgoal : goal s
      · have hfinal : I (final step s (i :: is)) ∧ goal (final step s (i :: is)) := by
          refine hok.invariant (I := fun s => I s ∧ goal s) ⟨hI, hgoal⟩ ?_
          intro s' j hs' hj
          exact ⟨hinv s' j hs'.1 hj, hkeep s' j hs'.1 hj hs'.2⟩
        exact .inl hfinal.2
      · obtain ⟨hnow, hnext⟩ := hdue s i hI hok.1 hgoal
        have ht : deadline s ≤ t := h0.resolve_left hgoal
        have hnext' : goal (step s i).2 ∨ deadline (step s i).2 ≤ t := hnext.imp_right (fun h => h.trans ht)
        refine (ih hok.2 (hinv s i hI hok.1) hnext').imp_right fun hrest j hj => ?_
        rcases List.mem_cons.mp hj with rfl | hj
        · exact hnow.trans ht
        · exact hrest j hj

/-! ### Simulations -/

/-- Related components that stay related give the same answers. -/
theorem outputs_eq_of_simulation [LE τ] {now : ι → τ} {R : τ → σ → σ' → Prop} {t : τ} {s' : σ'}
    {is : List ι} (h0 : R t s s') (hclock : Clocked now t is) (hok : Admissible step ok s is)
    (hstep : ∀ t s s' i, R t s s' → t ≤ now i → ok s i →
      (step s i).1 = (step' s' i).1 ∧ R (now i) (step s i).2 (step' s' i).2) :
    outputs step s is = outputs step' s' is := by
  induction is generalizing s s' t with
  | nil => rfl
  | cons i is ih =>
      obtain ⟨hout, hnext⟩ := hstep t s s' i h0 hclock.1 hok.1
      have htail := ih hnext hclock.2 hok.2
      unfold outputs at htail ⊢
      simp only [trace, entry, List.map_cons, hout, htail]

/-- Without clocks, and with the states reached. -/
theorem simulation {R : σ → σ' → Prop} {s' : σ'} {is : List ι} (h0 : R s s') (hok : Admissible step ok s is)
    (hstep : ∀ s s' i, R s s' → ok s i → (step s i).1 = (step' s' i).1 ∧ R (step s i).2 (step' s' i).2) :
    outputs step s is = outputs step' s' is ∧ R (final step s is) (final step' s' is) := by
  induction is generalizing s s' with
  | nil => exact ⟨rfl, h0⟩
  | cons i is ih =>
      obtain ⟨hout, hnext⟩ := hstep s s' i h0 hok.1
      obtain ⟨htail, hfinal⟩ := ih hnext hok.2
      refine ⟨?_, hfinal⟩
      unfold outputs at htail ⊢
      simp only [trace, entry, List.map_cons, hout, htail]

/-! ### Calls of others -/

theorem observed_cons (see : ι → Bool) (s : σ) (i : ι) (is : List ι) :
    observed step see s (i :: is) =
      if see i then (step s i).1 :: observed step see (step s i).2 is else observed step see (step s i).2 is := by
  unfold observed
  by_cases h : see i <;> simp [trace, entry, h]

/-- Calls that keep a relation by themselves can be left out of a run; the relation may depend on the
time, and the calls that are kept are made in states in which they are admissible. -/
theorem outputs_purge [LE τ] {now : ι → τ} {R : τ → σ → σ → Prop} {Same : ο → ο → Prop} {keep : ι → Bool} {t : τ}
    {s' : σ} {is : List ι} (h0 : R t s s') (hclock : Clocked now t is)
    (hok : Admissible step ok s' (is.filter keep))
    (hdrop : ∀ t s s' i, R t s s' → t ≤ now i → keep i = false → R (now i) (step s i).2 s')
    (hkeep : ∀ t s s' i, R t s s' → t ≤ now i → keep i = true → ok s' i →
      Same (step s i).1 (step s' i).1 ∧ R (now i) (step s i).2 (step s' i).2) :
    List.Forall₂ Same (observed step keep s is) (outputs step s' (is.filter keep)) := by
  induction is generalizing s s' t with
  | nil => exact .nil
  | cons i is ih =>
      rw [observed_cons]
      by_cases hi : keep i = true
      · rw [List.filter_cons_of_pos hi] at hok ⊢
        obtain ⟨hsame, hnext⟩ := hkeep t s s' i h0 hclock.1 hi hok.1
        rw [if_pos hi]
        exact .cons hsame (ih hnext hclock.2 hok.2)
      · rw [List.filter_cons_of_neg hi] at hok ⊢
        rw [if_neg hi]
        exact ih (hdrop t s s' i h0 hclock.1 (Bool.eq_false_iff.mpr hi)) hclock.2 hok

/-- With related states, the calls that are not kept can be left out of a run: they are not
observed and keep the relation by themselves, and the calls that are kept keep it together. -/
theorem observed_purge {R : σ → σ → Prop} {Same : ο → ο → Prop} {keep see : ι → Bool} {s s' : σ}
    {is : List ι} (hs : R s s') (hsee : ∀ i, see i = true → keep i = true)
    (hdrop : ∀ s s', ∀ i ∈ is, R s s' → keep i = false → R (step s i).2 s')
    (hkeep : ∀ s s', ∀ i ∈ is, R s s' → keep i = true →
      R (step s i).2 (step s' i).2 ∧ (see i = true → Same (step s i).1 (step s' i).1)) :
    List.Forall₂ Same (observed step see s is) (observed step see s' (is.filter keep)) := by
  induction is generalizing s s' with
  | nil => exact .nil
  | cons i is ih =>
      have hdrop' := fun s s' j (hj : j ∈ is) => hdrop s s' j (List.mem_cons_of_mem i hj)
      have hkeep' := fun s s' j (hj : j ∈ is) => hkeep s s' j (List.mem_cons_of_mem i hj)
      rw [observed_cons]
      by_cases hi : keep i = true
      · obtain ⟨hnext, hout⟩ := hkeep s s' i List.mem_cons_self hs hi
        rw [List.filter_cons_of_pos hi, observed_cons]
        split_ifs with hv
        · exact .cons (hout hv) (ih hnext hdrop' hkeep')
        · exact ih hnext hdrop' hkeep'
      · have hnext := hdrop s s' i List.mem_cons_self hs (Bool.not_eq_true _ ▸ hi)
        rw [List.filter_cons_of_neg hi, if_neg (fun hv => hi (hsee i hv))]
        exact ih hnext hdrop' hkeep'

/-- The relation holds again at the end. -/
theorem final_purge {R : σ → σ → Prop} {keep : ι → Bool} {s s' : σ} {is : List ι} (hs : R s s')
    (hdrop : ∀ s s', ∀ i ∈ is, R s s' → keep i = false → R (step s i).2 s')
    (hkeep : ∀ s s', ∀ i ∈ is, R s s' → keep i = true → R (step s i).2 (step s' i).2) :
    R (final step s is) (final step s' (is.filter keep)) := by
  induction is generalizing s s' with
  | nil => exact hs
  | cons i is ih =>
      have hdrop' := fun s s' j (hj : j ∈ is) => hdrop s s' j (List.mem_cons_of_mem i hj)
      have hkeep' := fun s s' j (hj : j ∈ is) => hkeep s s' j (List.mem_cons_of_mem i hj)
      by_cases hi : keep i = true
      · rw [List.filter_cons_of_pos hi]
        exact ih (hkeep s s' i List.mem_cons_self hs hi) hdrop' hkeep'
      · rw [List.filter_cons_of_neg hi]
        exact ih (hdrop s s' i List.mem_cons_self hs (Bool.not_eq_true _ ▸ hi)) hdrop' hkeep'

end Runs
