import Mathlib.Algebra.Order.BigOperators.Group.List
import Mathlib.Algebra.Order.Ring.Nat

/-! # Interleavings of atomic steps

A `System` describes calls that run concurrently over a shared state `σ`.  A call `op : ω`
begins at the program counter `start op`; `step inp s p` is its next atomic step from the
program counter `p`, where the input `inp : ι` carries whatever the environment decides at
that moment (a clock reading, a fresh identifier, the outcome of a send).  The step changes
the shared state and either moves to a new program counter or returns (`none` in the second
component); a result `none` means that the step cannot be taken now.

A configuration is the shared state with the program counters of all running calls, any
number of them.  `Reaches M ok c₀ c` says that some schedule leads from `c₀` to `c` in which
every event satisfies `ok` in the configuration where it happens, so that assumptions about
the environment and conditions on a run are both choices of `ok`.

Proof rules:

* `Reaches.invariant`: what every admissible event preserves holds in every reached
  configuration;
* `Reaches.shared_invariant`: the same for the shared state, which only steps change;
* `countP_middle`: how a step changes the number of calls in some stage;
* `Within.next`: a quantity of the shared state never exceeds a bound when the calls that are
  going to add to it reserve their share before;
* `Budget.next`: the same for a bound that is itself a quantity of the shared state, when what
  calls carry is accounted for at every step;
* `Holds.next`: assertions attached to program counters (each step establishes its own next
  assertion and does not disturb those of other calls);
* `Tokens.next`: tokens that at most one running call holds;
* `Covered.next`: deficits of the shared state that are always the obligation of some
  running call, so that there is none when no call is running (`Covered.quiescent`). -/

namespace Interleaving

/-- Calls `ω` with program counters `π`, running over a shared state `σ` with inputs `ι`. -/
structure System (σ ω ι π : Type) where
  start : ω → π
  step : ι → σ → π → Option (σ × Option π)

/-- The shared state and the program counters of the running calls. -/
structure Config (σ π : Type) where
  shared : σ
  threads : List π

/-- A new call, or one step of the `i`-th running call. -/
inductive Event (ω ι : Type) where
  | call (op : ω)
  | run (i : ℕ) (inp : ι)

variable {σ ω ι π : Type} (M : System σ ω ι π)

/-- The configuration after an event; `none` when the event is not possible. -/
def System.next (c : Config σ π) : Event ω ι → Option (Config σ π)
  | .call op => some ⟨c.shared, c.threads ++ [M.start op]⟩
  | .run i inp =>
      match c.threads[i]? with
      | none => none
      | some p => (M.step inp c.shared p).map (fun r =>
          ⟨r.1, c.threads.take i ++ (r.2.toList ++ c.threads.drop (i + 1))⟩)

/-- `c` is reached from `c₀` by events that satisfy `ok`. -/
inductive Reaches (ok : Config σ π → Event ω ι → Prop) (c₀ : Config σ π) : Config σ π → Prop
  | refl : Reaches ok c₀ c₀
  | step {c c' : Config σ π} {e : Event ω ι} :
      Reaches ok c₀ c → ok c e → M.next c e = some c' → Reaches ok c₀ c'

/-- Run a schedule, checking `ok` at every event. -/
def System.play (ok : Config σ π → Event ω ι → Prop) [∀ c e, Decidable (ok c e)] :
    Config σ π → List (Event ω ι) → Option (Config σ π)
  | c, [] => some c
  | c, e :: es => if ok c e then (M.next c e).bind (fun c' => System.play ok c' es) else none

variable {M}

/-! ### Runs -/

section runs
variable {ok ok' : Config σ π → Event ω ι → Prop} {c₀ c c' : Config σ π}

theorem Reaches.trans {c₁ : Config σ π} (h₁ : Reaches M ok c₀ c₁) (h₂ : Reaches M ok c₁ c) :
    Reaches M ok c₀ c := by
  induction h₂ with
  | refl => exact h₁
  | step _ hok hn ih => exact ih.step hok hn

theorem Reaches.mono (h : Reaches M ok c₀ c) (hok : ∀ c e, ok c e → ok' c e) :
    Reaches M ok' c₀ c := by
  induction h with
  | refl => exact .refl
  | step _ he hn ih => exact ih.step (hok _ _ he) hn

theorem reaches_of_play [∀ c e, Decidable (ok c e)] :
    ∀ (es : List (Event ω ι)) {c₀ c : Config σ π}, M.play ok c₀ es = some c → Reaches M ok c₀ c
  | [], c₀, c, h => by
      simp only [System.play, Option.some.injEq] at h
      subst h
      exact .refl
  | e :: es, c₀, c, h => by
      simp only [System.play] at h
      split_ifs at h with hok
      obtain ⟨c₁, hn, hp⟩ := Option.bind_eq_some_iff.mp h
      exact (Reaches.step .refl hok hn).trans (reaches_of_play es hp)

/-- What a schedule is seen to produce is reached. -/
theorem exists_reaches_of_play [∀ c e, Decidable (ok c e)] {es : List (Event ω ι)}
    {P : Config σ π → Bool} (h : (M.play ok c₀ es).any P = true) :
    ∃ c, Reaches M ok c₀ c ∧ P c = true := by
  cases hp : M.play ok c₀ es with
  | none => simp [hp] at h
  | some c =>
      rw [hp] at h
      exact ⟨c, reaches_of_play es hp, h⟩

/-- An invariant of every admissible event holds in every reached configuration. -/
theorem Reaches.invariant {I : Config σ π → Prop} (h : Reaches M ok c₀ c) (h0 : I c₀)
    (hstep : ∀ c e c', Reaches M ok c₀ c → I c → ok c e → M.next c e = some c' → I c') : I c := by
  induction h with
  | refl => exact h0
  | step hr hok hn ih => exact hstep _ _ _ hr ih hok hn

end runs

/-! ### What an event can do -/

section events
variable {c c' : Config σ π} {e : Event ω ι}

/-- An event starts a call or replaces one program counter by its successor. -/
theorem System.next_cases (h : M.next c e = some c') :
    (∃ op, e = .call op ∧ c' = ⟨c.shared, c.threads ++ [M.start op]⟩) ∨
    (∃ i inp p s q l₁ l₂, e = .run i inp ∧ c.threads[i]? = some p ∧
      M.step inp c.shared p = some (s, q) ∧ c.threads = l₁ ++ p :: l₂ ∧
      c' = ⟨s, l₁ ++ (q.toList ++ l₂)⟩) := by
  cases e with
  | call op =>
      simp only [System.next, Option.some.injEq] at h
      exact .inl ⟨op, rfl, h.symm⟩
  | run i inp =>
      right
      simp only [System.next] at h
      cases hp : c.threads[i]? with
      | none => simp [hp] at h
      | some p =>
          simp only [hp, Option.map_eq_some_iff] at h
          obtain ⟨⟨s, q⟩, hs, rfl⟩ := h
          obtain ⟨hi, rfl⟩ := List.getElem?_eq_some_iff.mp hp
          refine ⟨i, inp, _, s, q, c.threads.take i, c.threads.drop (i + 1), rfl, hp, hs, ?_, rfl⟩
          rw [← List.drop_eq_getElem_cons hi, List.take_append_drop]

/-- An invariant of the shared state that every admissible step preserves holds in every reached
configuration. -/
theorem Reaches.shared_invariant {ok : Config σ π → Event ω ι → Prop} {c₀ : Config σ π} {P : σ → Prop}
    (h : Reaches M ok c₀ c) (h0 : P c₀.shared)
    (hstep : ∀ c i inp p s q, Reaches M ok c₀ c → P c.shared → ok c (.run i inp) →
      c.threads[i]? = some p → M.step inp c.shared p = some (s, q) → P s) : P c.shared := by
  refine h.invariant (I := fun c => P c.shared) h0 ?_
  intro c e c' hr hc hok hn
  obtain ⟨op, rfl, rfl⟩ | ⟨i, inp, p, s, q, l₁, l₂, rfl, hp, hs, -, rfl⟩ := System.next_cases hn
  · exact hc
  · exact hstep c i inp p s q hr hc hok hp hs

/-- The calls that do not take the step are running ones. -/
theorem mem_of_split {p r : π} {l₁ l₂ : List π} (hl : c.threads = l₁ ++ p :: l₂) (hr : r ∈ l₁ ++ l₂) :
    r ∈ c.threads := by
  rw [hl]
  simp only [List.mem_append, List.mem_cons] at hr ⊢
  tauto

/-- A running call that goes on keeps its place. -/
theorem System.next_run {i : ℕ} {inp : ι} {p q : π} {s : σ} (hp : c.threads[i]? = some p)
    (hs : M.step inp c.shared p = some (s, some q)) :
    ∃ c', M.next c (.run i inp) = some c' ∧ c'.shared = s ∧ c'.threads[i]? = some q := by
  obtain ⟨hi, -⟩ := List.getElem?_eq_some_iff.mp hp
  refine ⟨⟨s, c.threads.take i ++ (q :: c.threads.drop (i + 1))⟩, ?_, rfl, ?_⟩
  · simp [System.next, hp, hs]
  · have hlen : (c.threads.take i).length = i := List.length_take_of_le (Nat.le_of_lt hi)
    rw [List.getElem?_append_right (Nat.le_of_eq hlen), hlen, Nat.sub_self]
    rfl

end events

/-! ### Counting running calls -/

/-- The calls in some stage are the one that takes the step, if it is, and others. -/
theorem countP_middle (f : π → Bool) (l₁ l₂ : List π) (p : π) :
    (l₁ ++ p :: l₂).countP f = (l₁ ++ l₂).countP f + if f p then 1 else 0 := by
  rw [List.countP_append, List.countP_append, List.countP_cons]
  omega

/-- The quantity `μ`, with one for every call that is in the stage of adding to it, respects
the bound. -/
def Within (μ : σ → ℕ) (stage : π → Bool) (N : ℕ) (c : Config σ π) : Prop :=
  μ c.shared + c.threads.countP stage ≤ N

/-- A step adds to the quantity only what it has reserved, or reserves one when there is
room. -/
theorem Within.next {μ : σ → ℕ} {stage : π → Bool} {N : ℕ} {c c' : Config σ π} {e : Event ω ι}
    (h : Within μ stage N c) (hn : M.next c e = some c')
    (hcall : ∀ op, e = .call op → stage (M.start op) = false)
    (hrun : ∀ i inp p s q, e = .run i inp → c.threads[i]? = some p → M.step inp c.shared p = some (s, q) →
      μ s + q.toList.countP stage ≤ μ c.shared + (if stage p then 1 else 0) ∨
        (μ s ≤ μ c.shared ∧ μ c.shared + c.threads.countP stage + 1 ≤ N)) :
    Within μ stage N c' := by
  unfold Within at h ⊢
  obtain ⟨op, rfl, rfl⟩ | ⟨i, inp, p, s, q, l₁, l₂, rfl, hp, hs, hl, rfl⟩ := System.next_cases hn
  · have hstart : [M.start op].countP stage = 0 := by
      rw [List.countP_singleton, hcall op rfl]
      rfl
    rw [List.countP_append, hstart]
    exact h
  · have hbefore := countP_middle stage l₁ l₂ p
    have hafter : (l₁ ++ (q.toList ++ l₂)).countP stage =
        (l₁ ++ l₂).countP stage + q.toList.countP stage := by
      rw [List.countP_append, List.countP_append, List.countP_append]
      omega
    have hone : q.toList.countP stage ≤ 1 := by
      have hlen := List.countP_le_length (p := stage) (l := q.toList)
      have hle : q.toList.length ≤ 1 := by cases q <;> simp
      omega
    rw [← hl] at hbefore
    dsimp only
    rw [hafter]
    rcases hrun i inp p s q rfl hp hs with hown | ⟨hle, hroom⟩
    · omega
    · omega

/-- What all running calls carry together. -/
def carried (f : π → ℕ) (c : Config σ π) : ℕ := (c.threads.map f).sum

/-- A step changes what is carried by the difference between its program counters. -/
theorem carried_next {c c' : Config σ π} {e : Event ω ι} (hn : M.next c e = some c') :
    (∃ op, e = .call op ∧ c'.shared = c.shared ∧ ∀ f, carried f c' = carried f c + f (M.start op)) ∨
    (∃ i inp p s q, e = .run i inp ∧ c.threads[i]? = some p ∧ M.step inp c.shared p = some (s, q) ∧
      c'.shared = s ∧ ∀ f, carried f c' + f p = carried f c + q.elim 0 f) := by
  obtain ⟨op, rfl, rfl⟩ | ⟨i, inp, p, s, q, l₁, l₂, rfl, hp, hs, hl, rfl⟩ := System.next_cases hn
  · exact .inl ⟨op, rfl, rfl, fun f => by simp [carried]⟩
  · refine .inr ⟨i, inp, p, s, q, rfl, hp, hs, rfl, ?_⟩
    intro f
    unfold carried
    rw [hl]
    cases q <;> simp <;> omega

/-- The quantity `μ`, with what running calls carry, is within the budget. -/
def Budget (μ β : σ → ℕ) (f : π → ℕ) (c : Config σ π) : Prop := μ c.shared + carried f c ≤ β c.shared

/-- A step adds no more to the quantity than it brings along or adds to the budget. -/
theorem Budget.next {μ β : σ → ℕ} {f : π → ℕ} {c c' : Config σ π} {e : Event ω ι}
    (h : Budget μ β f c) (hn : M.next c e = some c') (hcall : ∀ op, e = .call op → f (M.start op) = 0)
    (hrun : ∀ i inp p s q, e = .run i inp → c.threads[i]? = some p → M.step inp c.shared p = some (s, q) →
      μ s + q.elim 0 f + β c.shared ≤ μ c.shared + f p + β s) :
    Budget μ β f c' := by
  unfold Budget at h ⊢
  obtain ⟨op, he, hs, hc⟩ | ⟨i, inp, p, s, q, he, hp, hstep, hs, hc⟩ := carried_next hn
  · rw [hs, hc f, hcall op he]
    exact h
  · have hlocal := hrun i inp p s q he hp hstep
    have hcarried := hc f
    rw [hs]
    omega

/-! ### Assertions at program counters -/

/-- Every running call satisfies the assertion of its program counter. -/
def Holds (A : σ → π → Prop) (c : Config σ π) : Prop := ∀ p ∈ c.threads, A c.shared p

/-- A step must establish the assertion of its successor and keep those of all other calls. -/
theorem Holds.next {A : σ → π → Prop} {c c' : Config σ π} {e : Event ω ι} (h : Holds A c)
    (hn : M.next c e = some c')
    (hcall : ∀ op, e = .call op → A c.shared (M.start op))
    (hrun : ∀ i inp p s q l₁ l₂, e = .run i inp → c.threads[i]? = some p →
      c.threads = l₁ ++ p :: l₂ → M.step inp c.shared p = some (s, q) →
      (∀ r ∈ q, A s r) ∧ ∀ r ∈ l₁ ++ l₂, A c.shared r → A s r) :
    Holds A c' := by
  obtain ⟨op, rfl, rfl⟩ | ⟨i, inp, p, s, q, l₁, l₂, rfl, hp, hs, hl, rfl⟩ := System.next_cases hn
  · intro r hr
    rcases List.mem_append.mp hr with hr | hr
    · exact h r hr
    · rw [List.mem_singleton.mp hr]
      exact hcall op rfl
  · obtain ⟨hown, hother⟩ := hrun i inp p s q l₁ l₂ rfl hp hl hs
    have keep : ∀ r ∈ l₁ ++ l₂, A s r := fun r hr => hother r hr (h r (mem_of_split hl hr))
    intro r hr
    simp only [List.mem_append, Option.mem_toList] at hr
    rcases hr with hr | hr | hr
    · exact keep r (List.mem_append_left _ hr)
    · exact hown r hr
    · exact keep r (List.mem_append_right _ hr)

/-! ### Tokens -/

/-- Running calls hold at most one token each, all different, and a token that is held is free
in the shared state. -/
structure Tokens {χ : Type} (f : π → Option χ) (Free : σ → χ → Prop) (c : Config σ π) : Prop where
  nodup : (c.threads.filterMap f).Nodup
  free : ∀ x ∈ c.threads.filterMap f, Free c.shared x

section tokens
variable {χ : Type} {f : π → Option χ} {Free : σ → χ → Prop} {c c' : Config σ π} {e : Event ω ι}

theorem nodup_middle {A B : List χ} {o : Option χ} :
    (A ++ (o.toList ++ B)).Nodup ↔ (A ++ B).Nodup ∧ ∀ x ∈ o, x ∉ A ++ B := by
  cases o with
  | none => simp
  | some y =>
      rw [Option.toList_some, List.singleton_append, List.perm_middle.nodup_iff, List.nodup_cons]
      simp [and_comm]

theorem mem_middle {A B : List χ} {o : Option χ} {x : χ} :
    x ∈ A ++ (o.toList ++ B) ↔ x ∈ o ∨ x ∈ A ++ B := by
  simp only [List.mem_append, Option.mem_toList]
  tauto

theorem filterMap_middle (g : π → Option χ) (l₁ l₂ : List π) (p : π) :
    (l₁ ++ p :: l₂).filterMap g = l₁.filterMap g ++ ((g p).toList ++ l₂.filterMap g) := by
  cases hg : g p <;> simp [hg]

/-- No other call holds the token of a call. -/
theorem Tokens.not_mem_of_split (h : Tokens f Free c) {p r : π} {l₁ l₂ : List π}
    (hl : c.threads = l₁ ++ p :: l₂) (hr : r ∈ l₁ ++ l₂) {x : χ} (hx : x ∈ f p) : x ∉ f r := by
  intro hxr
  have hnd := h.nodup
  rw [hl, filterMap_middle, nodup_middle] at hnd
  refine hnd.2 x hx ?_
  rw [← List.filterMap_append]
  exact List.mem_filterMap.mpr ⟨r, hr, hxr⟩

/-- A step may keep its token, give it up, or take one that was not free before, and must leave
free what other calls hold. -/
theorem Tokens.next_of_held (h : Tokens f Free c) (hn : M.next c e = some c')
    (hcall : ∀ op, e = .call op → ∀ x ∈ f (M.start op),
      Free c.shared x ∧ x ∉ c.threads.filterMap f)
    (hrun : ∀ i inp p s q, e = .run i inp → c.threads[i]? = some p →
      M.step inp c.shared p = some (s, q) → (∀ x ∈ f p, Free c.shared x) →
        (∀ x ∈ q.bind f, (x ∈ f p ∨ ¬ Free c.shared x) ∧ Free s x) ∧
        ∀ x, Free c.shared x → x ∉ f p → (∃ r ∈ c.threads, x ∈ f r) → Free s x) :
    Tokens f Free c' := by
  obtain ⟨op, rfl, rfl⟩ | ⟨i, inp, p, s, q, l₁, l₂, rfl, hp, hs, hl, rfl⟩ := System.next_cases hn
  · have e1 : (c.threads ++ [M.start op]).filterMap f =
        c.threads.filterMap f ++ ((f (M.start op)).toList ++ []) := filterMap_middle f c.threads [] (M.start op)
    refine ⟨?_, ?_⟩
    · dsimp only
      rw [e1, nodup_middle, List.append_nil]
      exact ⟨h.nodup, fun x hx => (hcall op rfl x hx).2⟩
    · intro x hx
      dsimp only at hx
      rw [e1, mem_middle, List.append_nil] at hx
      rcases hx with hx | hx
      · exact (hcall op rfl x hx).1
      · exact h.free x hx
  · have e1 : c.threads.filterMap f = l₁.filterMap f ++ ((f p).toList ++ l₂.filterMap f) := by
      rw [hl, filterMap_middle]
    have e2 : (l₁ ++ (q.toList ++ l₂)).filterMap f =
        l₁.filterMap f ++ ((q.bind f).toList ++ l₂.filterMap f) := by
      cases q with
      | none => simp
      | some r => exact filterMap_middle f l₁ l₂ r
    obtain ⟨hnd, hfr⟩ := h
    rw [e1, nodup_middle] at hnd
    rw [e1] at hfr
    obtain ⟨htake, hkeep⟩ := hrun i inp p s q rfl hp hs (fun x hx => hfr x (mem_middle.mpr (.inl hx)))
    refine ⟨?_, ?_⟩
    · dsimp only
      rw [e2, nodup_middle]
      refine ⟨hnd.1, fun x hx hm => ?_⟩
      rcases (htake x hx).1 with hold | hnot
      · exact hnd.2 x hold hm
      · exact hnot (hfr x (mem_middle.mpr (.inr hm)))
    · intro x hx
      dsimp only at hx
      rw [e2, mem_middle] at hx
      rcases hx with hx | hx
      · exact (htake x hx).2
      · refine hkeep x (hfr x (mem_middle.mpr (.inr hx))) (fun hold => hnd.2 x hold hx) ?_
        rw [← List.filterMap_append] at hx
        obtain ⟨r, hr, hfx⟩ := List.mem_filterMap.mp hx
        exact ⟨r, mem_of_split hl hr, hfx⟩

/-- A step may keep its token, give it up, or take one that was not free before. -/
theorem Tokens.next (h : Tokens f Free c) (hn : M.next c e = some c')
    (hcall : ∀ op, e = .call op → ∀ x ∈ f (M.start op),
      Free c.shared x ∧ x ∉ c.threads.filterMap f)
    (hrun : ∀ i inp p s q, e = .run i inp → c.threads[i]? = some p →
      M.step inp c.shared p = some (s, q) → (∀ x ∈ f p, Free c.shared x) →
        (∀ x ∈ q.bind f, (x ∈ f p ∨ ¬ Free c.shared x) ∧ Free s x) ∧
        ∀ x, Free c.shared x → x ∉ f p → Free s x) :
    Tokens f Free c' := by
  refine h.next_of_held hn hcall ?_
  intro i inp p s q he hp hs hown
  obtain ⟨htake, hkeep⟩ := hrun i inp p s q he hp hs hown
  exact ⟨htake, fun x hx hnot _ => hkeep x hx hnot⟩

end tokens

/-! ### Deficits and obligations -/

section obligations
variable {χ : Type} {Bad : σ → χ → Prop} {Owes : π → χ → Prop} {c c' : Config σ π}
  {e : Event ω ι}

/-- Every deficit of the shared state is the obligation of a running call. -/
def Covered (Bad : σ → χ → Prop) (Owes : π → χ → Prop) (c : Config σ π) : Prop :=
  ∀ x, Bad c.shared x → ∃ p ∈ c.threads, Owes p x

/-- A step may leave a deficit that it was not the one to make good, leave one to another
running call, or take a new one on itself. -/
theorem Covered.next (h : Covered Bad Owes c) (hn : M.next c e = some c')
    (hrun : ∀ i inp p s q, e = .run i inp → c.threads[i]? = some p → M.step inp c.shared p = some (s, q) →
      ∀ x, Bad s x → (Bad c.shared x ∧ ¬ Owes p x) ∨ (∃ r ∈ c.threads, r ≠ p ∧ Owes r x) ∨
        ∃ r ∈ q, Owes r x) :
    Covered Bad Owes c' := by
  obtain ⟨op, rfl, rfl⟩ | ⟨i, inp, p, s, q, l₁, l₂, rfl, hp, hs, hl, rfl⟩ := System.next_cases hn
  · intro x hx
    obtain ⟨r, hr, ho⟩ := h x hx
    exact ⟨r, List.mem_append_left _ hr, ho⟩
  · intro x hx
    have keep : ∀ r ∈ c.threads, r ≠ p → r ∈ l₁ ++ (q.toList ++ l₂) := by
      intro r hr hne
      simp only [hl, List.mem_append, List.mem_cons] at hr ⊢
      tauto
    rcases hrun i inp p s q rfl hp hs x hx with ⟨hb, hno⟩ | ⟨r, hr, hne, ho⟩ | ⟨r, hr, ho⟩
    · obtain ⟨r, hr, ho⟩ := h x hb
      exact ⟨r, keep r hr (fun he => hno (he ▸ ho)), ho⟩
    · exact ⟨r, keep r hr hne, ho⟩
    · refine ⟨r, ?_, ho⟩
      simp only [List.mem_append, Option.mem_toList]
      exact .inr (.inl hr)

/-- With no obligation left there is no deficit. -/
theorem Covered.quiescent (h : Covered Bad Owes c) (hq : ∀ p ∈ c.threads, ∀ x, ¬ Owes p x) (x : χ) :
    ¬ Bad c.shared x := by
  intro hb
  obtain ⟨p, hp, ho⟩ := h x hb
  exact hq p hp x ho

end obligations

end Interleaving
