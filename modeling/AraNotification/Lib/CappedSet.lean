import Mathlib.Data.Finset.Card
import Mathlib.Data.List.Nodup
import Mathlib.Tactic.SplitIfs

/-! # Sets with a capacity

A set that takes new elements until it holds `limit` of them (`0` is no limit) is a list without
duplicates.  `offer` asks the capacity first and inserts then, so a full set refuses also what it holds
already.  Elements are offered under keys, one after the other (`offerAll`).

Proof rules:

* `full_offerAll_iff`: the set is full in the end exactly when it and the offered keys together reach the
  limit;
* `accepted_offerAll`, `accepted_eq_nil_iff`: what has been accepted by a set that is not full in the end,
  and by one that is full from the beginning;
* `settled_offerAll`: after a round the set is full or holds all keys, and then it accepts nothing or
  everything (`Settled.accepted`);
* `accepted_again_iff`: when a second round accepts again what the first has accepted. -/

namespace CappedSet

variable {κ α : Type} [DecidableEq κ] (limit : ℕ) (key : α → κ)

/-- The set takes no further element. -/
def Full (s : List κ) : Prop := limit > 0 ∧ s.length ≥ limit

instance (s : List κ) : Decidable (Full limit s) := inferInstanceAs (Decidable (limit > 0 ∧ s.length ≥ limit))

/-- Offer an element; the second component is what has been accepted before and now. -/
def offer (r : List κ × List α) (x : α) : List κ × List α :=
  if Full limit r.1 then r else (r.1.insert (key x), r.2 ++ [x])

/-- Offer elements one after the other. -/
def offerAll (s : List κ) (xs : List α) : List κ × List α := xs.foldl (offer limit key) (s, [])

variable {limit key} {s : List κ} {r : List κ × List α} {x : α} {xs : List α}

theorem offer_of_full (h : Full limit r.1) (x : α) : offer limit key r x = r := if_pos h

theorem offer_of_not_full (h : ¬ Full limit r.1) (x : α) :
    offer limit key r x = (r.1.insert (key x), r.2 ++ [x]) := if_neg h

/-! ### One round -/

theorem foldl_offer_of_full (h : Full limit r.1) (xs : List α) : xs.foldl (offer limit key) r = r := by
  induction xs with
  | nil => rfl
  | cons x xs ih => rw [List.foldl_cons, offer_of_full h, ih]

/-- A set that is not full in the end has accepted everything, and holds it. -/
theorem foldl_offer_of_not_full (h : ¬ Full limit (xs.foldl (offer limit key) r).1) :
    (xs.foldl (offer limit key) r).2 = r.2 ++ xs ∧
      ∀ k, k ∈ (xs.foldl (offer limit key) r).1 ↔ k ∈ r.1 ∨ k ∈ xs.map key := by
  induction xs generalizing r with
  | nil => simp
  | cons x xs ih =>
      by_cases hfull : Full limit r.1
      · rw [foldl_offer_of_full hfull] at h
        exact absurd hfull h
      · rw [List.foldl_cons, offer_of_not_full hfull] at h ⊢
        obtain ⟨haccepted, hmem⟩ := ih h
        refine ⟨by rw [haccepted, List.append_assoc, List.singleton_append], fun k => ?_⟩
        rw [hmem, List.mem_insert_iff, List.map_cons, List.mem_cons]
        tauto

/-- Nothing else gets into the set, and nothing gets lost. -/
theorem mem_foldl_offer {k : κ} (h : k ∈ (xs.foldl (offer limit key) r).1) : k ∈ r.1 ∨ k ∈ xs.map key := by
  induction xs generalizing r with
  | nil => exact .inl h
  | cons x xs ih =>
      rw [List.map_cons, List.mem_cons]
      have hnext : k ∈ (offer limit key r x).1 → k ∈ r.1 ∨ k = key x := by
        unfold offer
        split_ifs
        · exact .inl
        · exact fun hk => (List.mem_insert_iff.mp hk).symm
      rcases ih h with hk | hk
      · exact (hnext hk).imp_right .inl
      · exact .inr (.inr hk)

theorem nodup_foldl_offer (h : r.1.Nodup) (xs : List α) : (xs.foldl (offer limit key) r).1.Nodup := by
  induction xs generalizing r with
  | nil => exact h
  | cons x xs ih =>
      refine ih ?_
      unfold offer
      split_ifs
      · exact h
      · exact h.insert

/-- The set is full in the end exactly when it and the offered keys reach the limit. -/
theorem full_offerAll_iff (h : s.Nodup) :
    Full limit (offerAll limit key s xs).1 ↔ limit > 0 ∧ (s ++ xs.map key).toFinset.card ≥ limit := by
  have hnodup : (offerAll limit key s xs).1.Nodup := nodup_foldl_offer h xs
  have hcard : (offerAll limit key s xs).1.toFinset.card = (offerAll limit key s xs).1.length :=
    List.toFinset_card_of_nodup hnodup
  have hsub : (offerAll limit key s xs).1.toFinset ⊆ (s ++ xs.map key).toFinset := by
    intro k hk
    rw [List.mem_toFinset] at hk
    rw [List.mem_toFinset, List.mem_append]
    exact mem_foldl_offer hk
  have hle := Finset.card_le_card hsub
  refine ⟨fun hfull => ⟨hfull.1, by have := hfull.2; omega⟩, fun ⟨hpos, hreached⟩ => ?_⟩
  by_contra hnot
  have heq : (offerAll limit key s xs).1.toFinset = (s ++ xs.map key).toFinset := by
    ext k
    rw [List.mem_toFinset, List.mem_toFinset, List.mem_append]
    exact (foldl_offer_of_not_full hnot).2 k
  rw [← heq, hcard] at hreached
  exact hnot ⟨hpos, hreached⟩

/-- A set that is not full in the end has accepted everything. -/
theorem accepted_offerAll (h : ¬ Full limit (offerAll limit key s xs).1) : (offerAll limit key s xs).2 = xs :=
  (foldl_offer_of_not_full h).1

/-- What has been accepted stays accepted. -/
theorem accepted_subset_foldl {y : α} (h : y ∈ r.2) : y ∈ (xs.foldl (offer limit key) r).2 := by
  induction xs generalizing r with
  | nil => exact h
  | cons x xs ih =>
      refine ih ?_
      unfold offer
      split_ifs
      · exact h
      · exact List.mem_append_left _ h

/-- Nothing is accepted exactly by a set that is full, or when nothing is offered. -/
theorem accepted_eq_nil_iff : (offerAll limit key s xs).2 = [] ↔ Full limit s ∨ xs = [] := by
  constructor
  · intro hnil
    cases xs with
    | nil => exact .inr rfl
    | cons x xs =>
        by_contra hnot
        have hfirst : x ∈ (offer limit key (s, []) x).2 := by
          rw [offer_of_not_full (fun hfull => hnot (.inl hfull))]
          exact List.mem_append_right _ List.mem_cons_self
        have hx : x ∈ (xs.foldl (offer limit key) (offer limit key (s, []) x)).2 := accepted_subset_foldl hfirst
        have hnil : (xs.foldl (offer limit key) (offer limit key (s, []) x)).2 = [] := hnil
        rw [hnil] at hx
        exact absurd hx List.not_mem_nil
  · rintro (hfull | rfl)
    · unfold offerAll
      rw [foldl_offer_of_full hfull]
    · rfl

/-! ### A second round -/

variable (limit key) in
/-- The set is full or holds all keys. -/
def Settled (s : List κ) (xs : List α) : Prop := Full limit s ∨ ∀ x ∈ xs, key x ∈ s

/-- After a round the set is settled. -/
theorem settled_offerAll (s : List κ) (xs : List α) : Settled limit key (offerAll limit key s xs).1 xs := by
  by_cases hfull : Full limit (offerAll limit key s xs).1
  · exact .inl hfull
  · exact .inr (fun x hx => ((foldl_offer_of_not_full hfull).2 _).mpr (.inr (List.mem_map_of_mem hx)))

/-- A settled set accepts all or nothing. -/
theorem Settled.accepted (h : Settled limit key s xs) :
    (offerAll limit key s xs).2 = if Full limit s then [] else xs := by
  split_ifs with hfull
  · exact accepted_eq_nil_iff.mpr (.inl hfull)
  · have hmem := h.resolve_left hfull
    have hsame : ∀ (ys : List α) (accepted : List α), (∀ y ∈ ys, key y ∈ s) →
        ys.foldl (offer limit key) (s, accepted) = (s, accepted ++ ys) := by
      intro ys
      induction ys with
      | nil => simp
      | cons y ys ih =>
          intro accepted hys
          obtain ⟨hy, hys⟩ := List.forall_mem_cons.mp hys
          rw [List.foldl_cons, offer_of_not_full hfull, List.insert_of_mem hy, ih _ hys, List.append_assoc,
            List.singleton_append]
    unfold offerAll
    rw [hsame xs [] hmem, List.nil_append]

/-- A second round accepts again what the first has accepted exactly when the first one has not filled the
set. -/
theorem accepted_again_iff : (∀ x ∈ (offerAll limit key s xs).2,
      x ∈ (offerAll limit key (offerAll limit key s xs).1 xs).2) ↔
    (Full limit (offerAll limit key s xs).1 → Full limit s) := by
  rw [(settled_offerAll s xs).accepted]
  split_ifs with hfull
  · have hnil : (∀ x ∈ (offerAll limit key s xs).2, x ∈ ([] : List α)) ↔ (offerAll limit key s xs).2 = [] :=
      List.subset_nil
    rw [hnil, accepted_eq_nil_iff]
    refine ⟨fun h _ => h.elim id (fun hxs => ?_), fun h => .inl (h hfull)⟩
    subst hxs
    exact hfull
  · rw [accepted_offerAll hfull]
    exact iff_of_true (fun x hx => hx) (fun h => absurd h hfull)

end CappedSet
