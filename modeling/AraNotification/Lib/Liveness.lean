import AraNotification.Lib.Interleaving
import Mathlib.Data.Prod.Lex

/-! # Fair executions

An `Execution` of a system is an infinite sequence of admissible events, and `x.LeadsTo P Q` says
that whenever `P` holds, `Q` holds then or later.  What is eventually done is said of *tasks*: a
function `label` names the task to which a step from a program counter belongs, one call can
have several tasks, and not every step needs to belong to one.  `x.Fair label t` is weak
fairness: a task that can take a step from some time on takes one.

Proof rules:

* `Execution.leadsTo_of_fair`: what lasts until the task takes a step is left when it does;
* `Execution.leadsTo_of_rank`: a rank that goes down again and again, until the goal;
* `Execution.finishes`: a call of which there is one, which can always take a step, and whose
  rank goes down with every one of them, comes to its end;
* `Execution.stable`: what every event keeps holds for good;
* `Execution.lasts`: a running call has some property until the goal is reached.

`Execution.ofPlay` continues a finite schedule by the same call for ever, which is fair when
nothing is left to do (`fair_ofPlay`). -/

namespace Interleaving

variable {σ ω ι π τ : Type} (M : System σ ω ι π) (ok : Config σ π → Event ω ι → Prop)

/-- An infinite sequence of admissible events. -/
structure Execution (c₀ : Config σ π) where
  config : ℕ → Config σ π
  event : ℕ → Event ω ι
  start : config 0 = c₀
  admissible : ∀ k, ok (config k) (event k)
  next : ∀ k, M.next (config k) (event k) = some (config (k + 1))

/-- The event is a step of the task. -/
def Taken (label : π → ι → Option τ) (t : τ) (c : Config σ π) (e : Event ω ι) : Prop :=
  ∃ i inp p, e = .run i inp ∧ c.threads[i]? = some p ∧ label p inp = some t

/-- The task can take a step. -/
def Enabled (label : π → ι → Option τ) (t : τ) (c : Config σ π) : Prop :=
  ∃ e, ok c e ∧ Taken label t c e ∧ (M.next c e).isSome = true

variable {M ok}

namespace Execution
variable {c₀ : Config σ π} (x : Execution M ok c₀)

/-- Whenever `P` holds, `Q` holds then or later. -/
def LeadsTo (P Q : Config σ π → Prop) : Prop := ∀ k, P (x.config k) → ∃ k', k ≤ k' ∧ Q (x.config k')

/-- A task that can take a step from some time on takes one. -/
def Fair (label : π → ι → Option τ) (t : τ) : Prop :=
  ∀ k, (∀ k', k ≤ k' → Enabled M ok label t (x.config k')) →
    ∃ k', k ≤ k' ∧ Taken label t (x.config k') (x.event k')

variable {x} {P Q R : Config σ π → Prop}

/-- Every configuration of an execution is reached. -/
theorem reaches (k : ℕ) : Reaches M ok c₀ (x.config k) := by
  induction k with
  | zero =>
      rw [x.start]
      exact .refl
  | succ k ih => exact ih.step (x.admissible k) (x.next k)

/-- What every event of the execution keeps holds from then on. -/
theorem stable (hstep : ∀ k, P (x.config k) → P (x.config (k + 1))) {k k' : ℕ} (hk : k ≤ k')
    (h : P (x.config k)) : P (x.config k') := by
  induction k', hk using Nat.le_induction with
  | base => exact h
  | succ k' _ ih => exact hstep k' ih

theorem LeadsTo.of_imp (h : ∀ k, P (x.config k) → Q (x.config k)) : x.LeadsTo P Q :=
  fun k hk => ⟨k, le_rfl, h k hk⟩

theorem LeadsTo.trans (h : x.LeadsTo P Q) (h' : x.LeadsTo Q R) : x.LeadsTo P R := by
  intro k hk
  obtain ⟨k₁, hk₁, hq⟩ := h k hk
  obtain ⟨k₂, hk₂, hr⟩ := h' k₁ hq
  exact ⟨k₂, hk₁.trans hk₂, hr⟩

/-- `P` lasts until `Q` holds, the task can take a step as long as it lasts, and its step leads to `Q`. -/
theorem leadsTo_of_fair {label : π → ι → Option τ} {t : τ} (hfair : x.Fair label t)
    (henabled : ∀ k, P (x.config k) → Enabled M ok label t (x.config k))
    (hlasts : ∀ k, P (x.config k) → P (x.config (k + 1)) ∨ Q (x.config (k + 1)))
    (htaken : ∀ k, P (x.config k) → Taken label t (x.config k) (x.event k) → Q (x.config (k + 1))) :
    x.LeadsTo P Q := by
  intro k hk
  by_contra hnever
  have hnot : ∀ k', k ≤ k' → ¬ Q (x.config k') := fun k' hk' hq => hnever ⟨k', hk', hq⟩
  have hP : ∀ k', k ≤ k' → P (x.config k') := by
    intro k' hk'
    induction k', hk' using Nat.le_induction with
    | base => exact hk
    | succ k' hk' ih => exact (hlasts k' ih).resolve_right (hnot (k' + 1) (by omega))
  obtain ⟨k', hk', ht⟩ := hfair k (fun k' hk' => henabled k' (hP k' hk'))
  exact hnot (k' + 1) (by omega) (htaken k' (hP k' hk') ht)

/-- Every rank leads to the goal or to a smaller rank. -/
theorem leadsTo_of_rank {α : Type} [LT α] [WellFoundedLT α] {P : α → Config σ π → Prop}
    (h : ∀ a, x.LeadsTo (P a) (fun c => Q c ∨ ∃ b, b < a ∧ P b c)) (a : α) : x.LeadsTo (P a) Q := by
  induction a using WellFoundedLT.induction with
  | ind a ih =>
      intro k hk
      obtain ⟨k₁, hk₁, hq | ⟨b, hb, hp⟩⟩ := h a k hk
      · exact ⟨k₁, hk₁, hq⟩
      · obtain ⟨k₂, hk₂, hq⟩ := ih b hb k₁ hp
        exact ⟨k₂, hk₁.trans hk₂, hq⟩

/-- When every step of a call with some property keeps the property or reaches the goal, there is such a call
until the goal is reached. -/
theorem lasts {A : π → Prop} {k : ℕ} (h : ∃ p ∈ (x.config k).threads, A p)
    (hstep : ∀ inp p q, A p → p ∈ (x.config k).threads →
      M.step inp (x.config k).shared p = some ((x.config (k + 1)).shared, q) →
        (∃ p' ∈ q, A p') ∨ Q (x.config (k + 1))) :
    (∃ p ∈ (x.config (k + 1)).threads, A p) ∨ Q (x.config (k + 1)) := by
  obtain ⟨p, hp, ha⟩ := h
  obtain ⟨op, -, hc⟩ | ⟨i, inp, p₁, s, q, l₁, l₂, -, hi, hs, hl, hc⟩ := System.next_cases (x.next k)
  · exact .inl ⟨p, by rw [hc]; exact List.mem_append_left _ hp, ha⟩
  · have hshared : s = (x.config (k + 1)).shared := by rw [hc]
    rw [hl, List.mem_append, List.mem_cons] at hp
    rw [hc]
    rcases hp with hp | rfl | hp
    · exact .inl ⟨p, List.mem_append_left _ hp, ha⟩
    · rcases hstep inp p q ha (List.mem_of_getElem? hi) (hshared ▸ hs) with ⟨p', hp', ha'⟩ | hq
      · exact .inl ⟨p', by simp [Option.mem_def.mp hp'], ha'⟩
      · exact .inr (hc ▸ hq)
    · exact .inl ⟨p, List.mem_append_right _ (List.mem_append_right _ hp), ha⟩

/-- The step that a task takes. -/
theorem step_of_taken {label : π → ι → Option τ} {t : τ} {k : ℕ} (h : Taken label t (x.config k) (x.event k)) :
    ∃ (i : ℕ) (inp : ι) (p : π) (q : Option π), label p inp = some t ∧ (x.config k).threads[i]? = some p ∧
      M.step inp (x.config k).shared p = some ((x.config (k + 1)).shared, q) := by
  obtain ⟨i, inp, p, he, hi, ht⟩ := h
  obtain ⟨op, he', -⟩ | ⟨i', inp', p', s, q, l₁, l₂, he', hi', hs, -, hc⟩ := System.next_cases (x.next k)
  · rw [he] at he'
    cases he'
  · rw [he] at he'
    cases he'
    obtain rfl := Option.some.inj (hi.symm.trans hi')
    refine ⟨i, inp, p, q, ht, hi, ?_⟩
    rw [hc]
    exact hs

section finishing
variable {α : Type} [LT α] {label : π → ι → Option τ} {t : τ} {mine : π → Prop} {rank : π → α}

/-- An event leaves the call as it is, or lowers its rank, or ends it. -/
theorem step_of_mine (hmine : ∀ p inp, label p inp = some t → mine p)
    (hone : ∀ k l₁ p l₂, (x.config k).threads = l₁ ++ p :: l₂ → mine p → ∀ r ∈ l₁ ++ l₂, ¬ mine r)
    (hstep : ∀ k inp p q, mine p → p ∈ (x.config k).threads →
      M.step inp (x.config k).shared p = some ((x.config (k + 1)).shared, q) →
        (∃ p', q = some p' ∧ mine p' ∧ rank p' < rank p) ∨ (q = none ∧ Q (x.config (k + 1))))
    {k : ℕ} {p : π} (hp : p ∈ (x.config k).threads) (hm : mine p) :
    (p ∈ (x.config (k + 1)).threads ∧ ¬ Taken label t (x.config k) (x.event k)) ∨ Q (x.config (k + 1)) ∨
      ∃ p' ∈ (x.config (k + 1)).threads, mine p' ∧ rank p' < rank p := by
  obtain ⟨op, he, hc⟩ | ⟨i, inp, p₁, s, q, l₁, l₂, he, hi, hs, hl, hc⟩ := System.next_cases (x.next k)
  · left
    refine ⟨by rw [hc]; exact List.mem_append_left _ hp, ?_⟩
    rintro ⟨i, inp, p', he', -⟩
    rw [he] at he'
    cases he'
  · by_cases hm₁ : mine p₁
    · have hown : p = p₁ := by
        rw [hl, List.mem_append, List.mem_cons] at hp
        rcases hp with hp | rfl | hp
        · exact absurd hm (hone k l₁ p₁ l₂ hl hm₁ p (List.mem_append_left _ hp))
        · rfl
        · exact absurd hm (hone k l₁ p₁ l₂ hl hm₁ p (List.mem_append_right _ hp))
      subst hown
      have hshared : s = (x.config (k + 1)).shared := by rw [hc]
      right
      rcases hstep k inp p q hm hp (hshared ▸ hs) with ⟨p', rfl, hm', hlt⟩ | ⟨-, hq⟩
      · exact .inr ⟨p', by rw [hc]; simp, hm', hlt⟩
      · exact .inl hq
    · left
      constructor
      · rw [hl, List.mem_append, List.mem_cons] at hp
        rw [hc]
        rcases hp with hp | rfl | hp
        · exact List.mem_append_left _ hp
        · exact absurd hm hm₁
        · exact List.mem_append_right _ (List.mem_append_right _ hp)
      · rintro ⟨i', inp', p', he', hi', ht⟩
        rw [he] at he'
        cases he'
        rw [hi] at hi'
        cases hi'
        exact hm₁ (hmine _ _ ht)

variable (rank) in
/-- The one call that `mine` picks out can always take a step, every step of it lowers its rank, and
it ends in `Q`. -/
theorem finishes [WellFoundedLT α] (hfair : x.Fair label t) (hlabel : ∀ p inp, mine p → label p inp = some t)
    (hmine : ∀ p inp, label p inp = some t → mine p)
    (hone : ∀ k l₁ p l₂, (x.config k).threads = l₁ ++ p :: l₂ → mine p → ∀ r ∈ l₁ ++ l₂, ¬ mine r)
    (henabled : ∀ k i p, (x.config k).threads[i]? = some p → mine p →
      ∃ inp, ok (x.config k) (.run i inp) ∧ (M.step inp (x.config k).shared p).isSome = true)
    (hstep : ∀ k inp p q, mine p → p ∈ (x.config k).threads →
      M.step inp (x.config k).shared p = some ((x.config (k + 1)).shared, q) →
        (∃ p', q = some p' ∧ mine p' ∧ rank p' < rank p) ∨ (q = none ∧ Q (x.config (k + 1)))) :
    x.LeadsTo (fun c => ∃ p ∈ c.threads, mine p) Q := by
  have hranked : ∀ a, x.LeadsTo (fun c => ∃ p ∈ c.threads, mine p ∧ rank p = a) Q := by
    refine leadsTo_of_rank (fun a => leadsTo_of_fair hfair ?_ ?_ ?_)
    · rintro k ⟨p, hp, hm, -⟩
      obtain ⟨i, hi⟩ := List.mem_iff_getElem?.mp hp
      obtain ⟨inp, hok, hsome⟩ := henabled k i p hi hm
      refine ⟨.run i inp, hok, ⟨i, inp, p, rfl, hi, hlabel p inp hm⟩, ?_⟩
      simpa [System.next, hi] using hsome
    · rintro k ⟨p, hp, hm, rfl⟩
      rcases step_of_mine hmine hone hstep hp hm with ⟨hp', -⟩ | hq | ⟨p', hp', hm', hlt⟩
      · exact .inl ⟨p, hp', hm, rfl⟩
      · exact .inr (.inl hq)
      · exact .inr (.inr ⟨rank p', hlt, p', hp', hm', rfl⟩)
    · rintro k ⟨p, hp, hm, rfl⟩ ht
      rcases step_of_mine hmine hone hstep hp hm with ⟨-, hnot⟩ | hq | ⟨p', hp', hm', hlt⟩
      · exact absurd ht hnot
      · exact .inl hq
      · exact .inr ⟨rank p', hlt, p', hp', hm', rfl⟩
  rintro k ⟨p, hp, hm⟩
  exact hranked (rank p) k ⟨p, hp, hm, rfl⟩

end finishing

/-! ### Executions that come to rest -/

section rest
variable {es : List (Event ω ι)} {op : ω} {c : Config σ π}

/-- The configurations of a schedule that goes on with the same call for ever. -/
def configAfter (M : System σ ω ι π) (c₀ : Config σ π) (es : List (Event ω ι)) (op : ω) : ℕ → Config σ π
  | 0 => c₀
  | k + 1 => (M.next (configAfter M c₀ es op k) (es.getD k (.call op))).getD (configAfter M c₀ es op k)

theorem configAfter_cons (e : Event ω ι) {c₁ : Config σ π} (he : M.next c₀ e = some c₁) (k : ℕ) :
    configAfter M c₀ (e :: es) op (k + 1) = configAfter M c₁ es op k := by
  induction k with
  | zero => simp [configAfter, he]
  | succ k ih => rw [configAfter, ih, List.getD_cons_succ, configAfter]

/-- Every event of the schedule is admissible and possible. -/
theorem next_configAfter [∀ c e, Decidable (ok c e)] (hop : ∀ c, ok c (.call op)) :
    ∀ (es : List (Event ω ι)) {c₀ c : Config σ π}, M.play ok c₀ es = some c → ∀ k,
      ok (configAfter M c₀ es op k) (es.getD k (.call op)) ∧
        M.next (configAfter M c₀ es op k) (es.getD k (.call op)) = some (configAfter M c₀ es op (k + 1))
  | [], c₀, c, _, k => ⟨hop _, by simp [configAfter, System.next]⟩
  | e :: es, c₀, c, h, k => by
      simp only [System.play] at h
      split_ifs at h with hok
      obtain ⟨c₁, hn, hp⟩ := Option.bind_eq_some_iff.mp h
      cases k with
      | zero => exact ⟨hok, by simp [configAfter, hn]⟩
      | succ k =>
          rw [configAfter_cons e hn, configAfter_cons e hn, List.getD_cons_succ]
          exact next_configAfter hop es hp k

/-- A finite schedule, continued by the same call for ever. -/
def ofPlay [∀ c e, Decidable (ok c e)] (hop : ∀ c, ok c (.call op)) (h : M.play ok c₀ es = some c) :
    Execution M ok c₀ where
  config := configAfter M c₀ es op
  event k := es.getD k (.call op)
  start := rfl
  admissible k := (next_configAfter hop es h k).1
  next k := (next_configAfter hop es h k).2

theorem configAfter_add [∀ c e, Decidable (ok c e)] :
    ∀ (es : List (Event ω ι)) {c₀ c : Config σ π}, M.play ok c₀ es = some c → ∀ k,
      configAfter M c₀ es op (es.length + k) = ⟨c.shared, c.threads ++ List.replicate k (M.start op)⟩
  | [], c₀, c, h, k => by
      obtain rfl := Option.some.inj h
      induction k with
      | zero => simp [configAfter]
      | succ k ih =>
          rw [List.length_nil, Nat.zero_add] at ih ⊢
          rw [configAfter, ih, List.replicate_succ', ← List.append_assoc]
          rfl
  | e :: es, c₀, c, h, k => by
      simp only [System.play] at h
      split_ifs at h with hok
      obtain ⟨c₁, hn, hp⟩ := Option.bind_eq_some_iff.mp h
      rw [List.length_cons, Nat.add_right_comm, configAfter_cons e hn]
      exact configAfter_add es hp k

/-- When no task is left, the continuation is fair. -/
theorem fair_ofPlay [∀ c e, Decidable (ok c e)] (hop : ∀ c, ok c (.call op)) (h : M.play ok c₀ es = some c)
    {label : π → ι → Option τ} (hrest : ∀ p ∈ c.threads, ∀ inp, label p inp = none)
    (hstart : ∀ inp, label (M.start op) inp = none) (t : τ) : (ofPlay hop h).Fair label t := by
  intro k henabled
  obtain ⟨e, -, ⟨i, inp, p, -, hi, ht⟩, -⟩ := henabled (es.length + k) (by omega)
  have hp : p ∈ (configAfter M c₀ es op (es.length + k)).threads := List.mem_of_getElem? hi
  rw [configAfter_add es h, List.mem_append] at hp
  rcases hp with hp | hp
  · rw [hrest p hp inp] at ht
    cases ht
  · rw [List.eq_of_mem_replicate hp, hstart inp] at ht
    cases ht

end rest

end Execution

end Interleaving
