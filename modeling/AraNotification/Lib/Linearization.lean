import Mathlib.Data.List.Basic
import Mathlib.Data.List.Nodup

/-! # Linearizable histories

Calls `ω` of a shared object run concurrently.  A history lists their invocations and responses
in the order of time, every call under its own identifier.  A log lists calls with their results
in some order; `Legal` says that the results are those of calling `spec` one after the other in
this order.

`Linearizes` says that a log explains a history: it is legal, contains every call that has returned
with the result that it returned, contains no call that was not made, and keeps the order of calls
that do not overlap.  A call that has been invoked and has not returned may be in the log or not.

A log that grows with the steps of an execution keeps this (`Linearizes.invoke`,
`Linearizes.effect`, `Linearizes.respond`), so it is enough to say for every call at which of its
steps it takes effect. -/

namespace Linearization

/-- An invocation or a response of a call. -/
inductive Moment (ω ρ : Type) where
  | invoke (id : ℕ) (op : ω)
  | respond (id : ℕ) (result : ρ)

/-- A call with its result. -/
structure Entry (ω ρ : Type) where
  id : ℕ
  op : ω
  result : ρ

variable {σ ω ρ : Type}

/-- The calls, one after the other from `s` on, have the results of the log and lead to `s'`. -/
def Legal (spec : σ → ω → ρ × σ) : σ → List (Entry ω ρ) → σ → Prop
  | s, [], s' => s = s'
  | s, e :: log, s' => (spec s e.op).1 = e.result ∧ Legal spec (spec s e.op).2 log s'

/-- The identifiers of the calls in a log. -/
def ids (log : List (Entry ω ρ)) : List ℕ := log.map (·.id)

/-- `x` comes before `y`. -/
def Precedes {α : Type} (l : List α) (x y : α) : Prop := [x, y].Sublist l

/-- The log explains the history, and leads from `init` to `s`. -/
structure Linearizes (spec : σ → ω → ρ × σ) (init : σ) (history : List (Moment ω ρ)) (log : List (Entry ω ρ))
    (s : σ) : Prop where
  legal : Legal spec init log s
  nodup : (ids log).Nodup
  invoked : ∀ e ∈ log, .invoke e.id e.op ∈ history
  responded : ∀ id r, .respond id r ∈ history → ∃ e ∈ log, e.id = id ∧ e.result = r
  realTime : ∀ a r b op, Precedes history (.respond a r) (.invoke b op) → b ∈ ids log → Precedes (ids log) a b

/-! ### Order in a list -/

section order
variable {α : Type} {l : List α} {x y z : α}

theorem Precedes.append (h : Precedes l x y) (l' : List α) : Precedes (l ++ l') x y :=
  h.trans (List.sublist_append_left l l')

theorem precedes_last (h : x ∈ l) (y : α) : Precedes (l ++ [y]) x y :=
  (List.singleton_sublist.mpr h).append (List.Sublist.refl [y])

theorem Precedes.mem_earlier (h : Precedes l x y) : x ∈ l := h.subset List.mem_cons_self

/-- A pair in a longer list was there before, or ends with the new element. -/
theorem Precedes.of_snoc (h : Precedes (l ++ [z]) x y) : Precedes l x y ∨ (x ∈ l ∧ y = z) := by
  obtain ⟨l₁, l₂, heq, h₁, h₂⟩ := List.sublist_append_iff.mp h
  rcases List.sublist_singleton.mp h₂ with rfl | rfl
  · rw [List.append_nil] at heq
    subst heq
    exact .inl h₁
  · obtain ⟨rfl, rfl⟩ : l₁ = [x] ∧ z = y := by
      have := List.append_inj' (show l₁ ++ [z] = [x] ++ [y] from heq.symm) rfl
      exact ⟨this.1, List.singleton_inj.mp this.2⟩
    exact .inr ⟨List.singleton_sublist.mp h₁, rfl⟩

end order

/-! ### Growing histories -/

section growth
variable {spec : σ → ω → ρ × σ} {init s s' : σ} {history : List (Moment ω ρ)} {log : List (Entry ω ρ)}
  {id : ℕ} {op : ω} {r : ρ}

theorem Legal.snoc (h : Legal spec init log s) (hs : spec s op = (r, s')) :
    Legal spec init (log ++ [⟨id, op, r⟩]) s' := by
  induction log generalizing init with
  | nil =>
      cases h
      simp [Legal, hs]
  | cons e log ih => exact ⟨h.1, ih h.2⟩

theorem Legal.split {log' : List (Entry ω ρ)} (h : Legal spec init (log ++ log') s) :
    ∃ m, Legal spec init log m ∧ Legal spec m log' s := by
  induction log generalizing init with
  | nil => exact ⟨init, rfl, h⟩
  | cons e log ih =>
      obtain ⟨m, hm, hs⟩ := ih h.2
      exact ⟨m, ⟨h.1, hm⟩, hs⟩

/-- Every result of a legal log is one that the specification gives in some state. -/
theorem Legal.result (h : Legal spec init log s) : ∀ e ∈ log, ∃ s, (spec s e.op).1 = e.result := by
  induction log generalizing init with
  | nil => simp
  | cons e log ih =>
      intro e' he'
      rcases List.mem_cons.mp he' with rfl | he'
      · exact ⟨init, h.1⟩
      · exact ih h.2 e' he'

theorem linearizes_empty : Linearizes spec init [] [] init where
  legal := rfl
  nodup := List.nodup_nil
  invoked := by simp
  responded := by simp
  realTime := by simp [ids]

theorem ids_snoc (log : List (Entry ω ρ)) (e : Entry ω ρ) : ids (log ++ [e]) = ids log ++ [e.id] := by
  simp [ids]

/-- A new call is invoked. -/
theorem Linearizes.invoke (h : Linearizes spec init history log s) (hid : id ∉ ids log) :
    Linearizes spec init (history ++ [.invoke id op]) log s where
  legal := h.legal
  nodup := h.nodup
  invoked e he := List.mem_append_left _ (h.invoked e he)
  responded id' r hr := by
    rcases List.mem_append.mp hr with hr | hr
    · exact h.responded id' r hr
    · cases List.mem_singleton.mp hr
  realTime a r b op' hp hb := by
    rcases hp.of_snoc with hp | ⟨-, heq⟩
    · exact h.realTime a r b op' hp hb
    · cases heq
      exact absurd hb hid

/-- An invoked call takes effect. -/
theorem Linearizes.effect (h : Linearizes spec init history log s) (hinv : .invoke id op ∈ history)
    (hid : id ∉ ids log) (hs : spec s op = (r, s')) :
    Linearizes spec init history (log ++ [⟨id, op, r⟩]) s' where
  legal := h.legal.snoc hs
  nodup := by
    rw [ids_snoc, List.nodup_append_comm]
    exact List.nodup_cons.mpr ⟨hid, h.nodup⟩
  invoked e he := by
    rcases List.mem_append.mp he with he | he
    · exact h.invoked e he
    · rw [List.mem_singleton.mp he]
      exact hinv
  responded id' r' hr := by
    obtain ⟨e, he, heq⟩ := h.responded id' r' hr
    exact ⟨e, List.mem_append_left _ he, heq⟩
  realTime a r' b op' hp hb := by
    rw [ids_snoc] at hb ⊢
    rcases List.mem_append.mp hb with hb | hb
    · exact (h.realTime a r' b op' hp hb).append _
    · -- What has returned before is in the log already.
      obtain ⟨e, he, rfl, -⟩ := h.responded a r' hp.mem_earlier
      rw [List.mem_singleton.mp hb]
      exact precedes_last (List.mem_map_of_mem he) id

/-- A call that has taken effect returns. -/
theorem Linearizes.respond (h : Linearizes spec init history log s) (he : ⟨id, op, r⟩ ∈ log) :
    Linearizes spec init (history ++ [.respond id r]) log s where
  legal := h.legal
  nodup := h.nodup
  invoked e he := List.mem_append_left _ (h.invoked e he)
  responded id' r' hr := by
    rcases List.mem_append.mp hr with hr | hr
    · exact h.responded id' r' hr
    · cases List.mem_singleton.mp hr
      exact ⟨_, he, rfl, rfl⟩
  realTime a r' b op' hp hb := by
    rcases hp.of_snoc with hp | ⟨-, heq⟩
    · exact h.realTime a r' b op' hp hb
    · cases heq

end growth

end Linearization
