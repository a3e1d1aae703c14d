import Mathlib.Data.List.Basic

/-! # Named values

An object is a list of values with their names.  It is read field by field, wherever the field stands:
`required` takes a value that must be there once, `omittable` one that may be missing, and both refuse a
name that occurs twice; other names are ignored.  `skipNone` writes an optional value by leaving it out.

The lemmas compute the values under a name, for an object that is given by its parts. -/

namespace Fields

variable {κ ν α : Type} [DecidableEq κ]

/-- The values under a name. -/
def values (k : κ) (fs : List (κ × ν)) : List ν := fs.filterMap (fun f => if f.1 = k then some f.2 else none)

/-- Read a field that must be there once. -/
def required (k : κ) (decode : ν → Option α) (fs : List (κ × ν)) : Option α :=
  match values k fs with
  | [v] => decode v
  | _ => none

/-- Read a field that may be missing. -/
def omittable (k : κ) (decode : ν → Option (Option α)) (fs : List (κ × ν)) : Option (Option α) :=
  match values k fs with
  | [] => some none
  | [v] => decode v
  | _ => none

/-- Write a field only if it has a value. -/
def skipNone (k : κ) (v : Option ν) : List (κ × ν) := v.toList.map (fun v => (k, v))

/-- The fields with other names. -/
def without (k : κ) (fs : List (κ × ν)) : List (κ × ν) := fs.filter (fun f => decide (f.1 ≠ k))

variable {k k' : κ} {v : ν} {fs fs' : List (κ × ν)}

@[simp] theorem values_nil : values k ([] : List (κ × ν)) = [] := rfl

@[simp] theorem values_cons : values k ((k', v) :: fs) = if k' = k then v :: values k fs else values k fs := by
  unfold values
  rw [List.filterMap_cons]
  split_ifs <;> simp_all

@[simp] theorem values_append : values k (fs ++ fs') = values k fs ++ values k fs' := by
  simp [values]

@[simp] theorem values_skipNone {o : Option ν} : values k (skipNone k' o) = if k' = k then o.toList else [] := by
  cases o <;> simp [skipNone]

/-- What has been taken away is gone, and nothing else. -/
@[simp] theorem values_without : values k (without k' fs) = if k' = k then [] else values k fs := by
  induction fs with
  | nil => simp [without]
  | cons f fs ih =>
      obtain ⟨name, v⟩ := f
      have hcons : without k' ((name, v) :: fs) = if name = k' then without k' fs else (name, v) :: without k' fs := by
        unfold without
        rw [List.filter_cons]
        split_ifs <;> simp_all
      rw [hcons]
      split_ifs <;> simp_all

/-- A field that is there once is read. -/
theorem required_eq {decode : ν → Option α} (h : values k fs = [v]) : required k decode fs = decode v := by
  rw [required, h]

/-- An optional value that has been written, or left out, is read again. -/
theorem omittable_eq {decode : ν → Option (Option α)} {o : Option α} {encode : α → ν}
    (h : values k fs = (o.map encode).toList) (hread : ∀ a ∈ o, decode (encode a) = some (some a)) :
    omittable k decode fs = some o := by
  rw [omittable, h]
  cases o with
  | none => rfl
  | some a => exact hread a rfl

end Fields
