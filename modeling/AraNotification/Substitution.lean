import AraNotification.Templates
import AraNotification.Lib.Scan
import AraNotification.Lib.Separator

/-! # Variables of a template

The substitution of `{{name}}`, after `domain/template/substitution.rs`.  Every string of a
template is rewritten variable by variable: the placeholder of one is replaced in what the variables before
have left.  The texts of numbers, arrays and objects are those of the JSON library (`display`). -/

namespace AraNotification

/-- `str::replace`, for a pattern that is not empty. -/
def strReplace (s pattern replacement : String) : String :=
  String.ofList (Scan.scan [(pattern.toList, replacement.toList)] s.toList)

namespace JsonMap

/-- `Map::insert`: the keys are kept in order, and a key that is there gets the new value. -/
def insert (key : String) (value : Json) : List (String × Json) → List (String × Json)
  | [] => [(key, value)]
  | (k, v) :: fields =>
      if key < k then (key, value) :: (k, v) :: fields
      else if key = k then (key, value) :: fields
      else (k, v) :: insert key value fields

end JsonMap

namespace Substitution

section code
variable (display : Json → String) (vars : List (String × Json))

/-- The placeholder of a variable. -/
def pattern (key : String) : String := "\x7b\x7b" ++ key ++ "\x7d\x7d"

/-- The text of a value. -/
def replacement : Json → String
  | .string s => s
  | .bool b => if b then "true" else "false"
  | .null => ""
  | value => display value

/-- Replace the placeholders in a string, variable by variable. -/
def substituteString (template : String) : String :=
  vars.foldl (fun result kv => strReplace result (pattern kv.1) (replacement display kv.2)) template

mutual

/-- Replace the placeholders in all strings of a value. -/
def substituteValue : Json → Except TemplateError Json
  | .string s => .ok (.string (substituteString display vars s))
  | .array arr => do
      let rendered ← substituteElements arr
      .ok (.array rendered)
  | .object obj => do
      let rendered ← substituteFields obj []
      .ok (.object rendered)
  | value => .ok value

def substituteElements : List Json → Except TemplateError (List Json)
  | [] => .ok []
  | v :: arr => do
      let v ← substituteValue v
      let arr ← substituteElements arr
      .ok (v :: arr)

def substituteFields : List (String × Json) → List (String × Json) → Except TemplateError (List (String × Json))
  | [], rendered => .ok rendered
  | (key, val) :: obj, rendered => do
      let renderedVal ← substituteValue val
      substituteFields obj (JsonMap.insert (substituteString display vars key) renderedVal rendered)

end

/-- Substitute the variables of an object in a template. -/
def substituteVariables (template : Json) : Json → Except TemplateError Json
  | .object vars => substituteValue display vars template
  | _ => .error (.substitutionFailed "Variables must be an object")

end code

/-! ### A single pass -/

mutual

/-- Rewrite all strings of a value. -/
def mapStrings (f : String → String) : Json → Json
  | .string s => .string (f s)
  | .array arr => .array (mapElements f arr)
  | .object obj => .object (mapFields f obj [])
  | value => value

def mapElements (f : String → String) : List Json → List Json
  | [] => []
  | v :: arr => mapStrings f v :: mapElements f arr

def mapFields (f : String → String) : List (String × Json) → List (String × Json) → List (String × Json)
  | [], rendered => rendered
  | (key, val) :: obj, rendered => mapFields f obj (JsonMap.insert (f key) (mapStrings f val) rendered)

end

section spec
variable (display : Json → String)

/-- A map of variables: every name has one value. -/
structure VariableMap where
  entries : List (String × Json)
  nodup : (entries.map Prod.fst).Nodup

/-- What a variable makes of its placeholder. -/
def rule (kv : String × Json) : Scan.Rule Char := ((pattern kv.1).toList, (replacement display kv.2).toList)

/-- Scan a string once from the left, and put the texts of the variables for their placeholders. -/
def singlePass (V : VariableMap) (s : String) : String :=
  String.ofList (Scan.scan (V.entries.map (rule display)) s.toList)

/-- In every template the strings are rewritten in a single pass, whatever the order of the variables. -/
def SinglePass (V : VariableMap) : Prop :=
  ∀ entries : List (String × Json), entries.Perm V.entries → ∀ template,
    substituteVariables display template (.object entries) = .ok (mapStrings (singlePass display V) template)

/-- No placeholder begins inside another one; and no text, with what can stand around it, makes the
placeholder of another variable, unless that variable has its placeholder for a text. -/
def Separate (V : VariableMap) : Prop := Scan.Separate (V.entries.map (rule display))

/-- No placeholder begins inside a placeholder, itself apart. -/
def Apart (V : VariableMap) : Prop := Scan.Apart (V.entries.map (rule display))

end spec

/-! ### The strings of a value -/

section strings
variable {display : Json → String} {vars : List (String × Json)}

theorem toList_strReplace (s pattern replacement : String) :
    (strReplace s pattern replacement).toList = Scan.scan [(pattern.toList, replacement.toList)] s.toList := by
  simp [strReplace]

/-- Variable by variable is rule by rule. -/
theorem toList_substituteString (template : String) :
    (substituteString display vars template).toList = Scan.sequential (vars.map (rule display)) template.toList := by
  induction vars generalizing template with
  | nil => rfl
  | cons kv vars ih =>
      rw [List.map_cons, Scan.sequential_cons, rule, ← toList_strReplace, ← ih]
      rfl

mutual

/-- A substitution rewrites every string of a value, and always succeeds. -/
theorem substituteValue_eq (value : Json) :
    substituteValue display vars value = .ok (mapStrings (substituteString display vars) value) := by
  cases value with
  | string s => rfl
  | array arr =>
      rw [substituteValue, substituteElements_eq arr]
      rfl
  | object obj =>
      rw [substituteValue, substituteFields_eq obj []]
      rfl
  | null => rfl
  | bool b => rfl
  | int n => rfl
  | float bits => rfl

theorem substituteElements_eq (arr : List Json) :
    substituteElements display vars arr = .ok (mapElements (substituteString display vars) arr) := by
  cases arr with
  | nil => rfl
  | cons v arr =>
      rw [substituteElements, substituteValue_eq v, substituteElements_eq arr]
      rfl

theorem substituteFields_eq (obj rendered : List (String × Json)) :
    substituteFields display vars obj rendered = .ok (mapFields (substituteString display vars) obj rendered) := by
  match obj with
  | [] => rfl
  | (key, val) :: obj =>
      rw [substituteFields, substituteValue_eq val]
      exact substituteFields_eq obj _

end

end strings

/-! ### Placeholders -/

section placeholders
variable {display : Json → String} {key key' : String} {t w : List Char} {c : Char} {V : VariableMap}

theorem toList_pattern : (pattern key).toList = '{' :: '{' :: (key.toList ++ ['}', '}']) := by
  simp [pattern]

theorem pattern_inj (h : (pattern key).toList = (pattern key').toList) : key = key' := by
  simpa [toList_pattern, String.toList_inj] using h

theorem nonempty_rules : Scan.Nonempty (V.entries.map (rule display)) := by
  intro r hr
  obtain ⟨kv, -, rfl⟩ := List.mem_map.mp hr
  simp [rule, toList_pattern]

theorem nodup_rules : (V.entries.map (rule display)).Nodup := by
  refine List.Nodup.map_on (fun kv hkv kv' hkv' h => ?_) V.nodup.of_map
  have hkey : kv.1 = kv'.1 := pattern_inj (Prod.mk.inj h).1
  exact List.inj_on_of_nodup_map V.nodup hkv hkv' hkey

/-- What is compared with a placeholder begins with a brace. -/
theorem mem_of_comparable (ht : t ≠ []) (h : Scan.Comparable t (c :: w)) : c ∈ t := by
  obtain ⟨d, t, rfl⟩ := List.exists_cons_of_ne_nil ht
  rcases h with h | h
  · rw [(List.cons_prefix_cons.mp h).1]
    exact List.mem_cons_self
  · rw [(List.cons_prefix_cons.mp h).1]
    exact List.mem_cons_self

theorem key_eq_of_begins (h : '}' ∉ key.toList) (h' : '}' ∉ key'.toList)
    (hp : (pattern key).toList <+: (pattern key').toList) : key = key' := by
  simp only [toList_pattern, List.cons_prefix_cons, true_and] at hp
  obtain ⟨e, he⟩ := hp
  rw [List.append_assoc] at he
  exact String.toList_inj.mp ((Separator.join_inj_left h h').mp he).1

/-- Names without braces have placeholders that stay apart. -/
theorem apart_of_plain (h : ∀ kv ∈ V.entries, '{' ∉ kv.1.toList ∧ '}' ∉ kv.1.toList) : Apart display V := by
  constructor
  · intro r hr q hq hc
    obtain ⟨kv, hkv, rfl⟩ := List.mem_map.mp hr
    obtain ⟨kv', hkv', rfl⟩ := List.mem_map.mp hq
    have hkey : kv.1 = kv'.1 := by
      rcases hc with hc | hc
      · exact key_eq_of_begins (h kv hkv).2 (h kv' hkv').2 hc
      · exact (key_eq_of_begins (h kv' hkv').2 (h kv hkv).2 hc).symm
    rw [List.inj_on_of_nodup_map V.nodup hkv hkv' hkey]
  · intro r hr q hq
    obtain ⟨kv, -, rfl⟩ := List.mem_map.mp hr
    obtain ⟨kv', hkv', rfl⟩ := List.mem_map.mp hq
    rintro ⟨t, ht, hne, hq, hc⟩
    simp only [rule, toList_pattern] at ht hq hc
    have hbrace : '{' ∉ kv'.1.toList ++ ['}', '}'] := by
      simp [(h kv' hkv').1]
    rcases List.suffix_cons_iff.mp ht with rfl | ht
    · exact hq rfl
    · rcases List.suffix_cons_iff.mp ht with rfl | ht
      · have hc' : Scan.Comparable (kv'.1.toList ++ ['}', '}']) ('{' :: (kv.1.toList ++ ['}', '}'])) := by
          simpa [Scan.Comparable, List.cons_prefix_cons] using hc
        exact hbrace (mem_of_comparable (by simp) hc')
      · exact hbrace (ht.subset (mem_of_comparable hne hc))

end placeholders

/-! ### When one pass is made -/

section passes
variable {display : Json → String} {V : VariableMap}

/-- The orders of the rules are those of the variables. -/
theorem exists_perm_map {rules : List (Scan.Rule Char)} (h : rules.Perm (V.entries.map (rule display))) :
    ∃ entries : List (String × Json), entries.Perm V.entries ∧ rules = entries.map (rule display) := by
  have hmap : List.Forall₂ (fun r kv => r = rule display kv) (V.entries.map (rule display)) V.entries :=
    List.forall₂_map_left_iff.mpr (List.forall₂_same.mpr (fun _ _ => rfl))
  obtain ⟨entries, hforall, hperm⟩ := List.perm_comp_forall₂ h hmap
  refine ⟨entries, hperm, ?_⟩
  rw [← List.forall₂_eq_eq_eq, List.forall₂_map_right_iff]
  exact hforall

theorem singlePass_iff_sequential : SinglePass display V ↔
    ∀ rules : List (Scan.Rule Char), rules.Perm (V.entries.map (rule display)) → ∀ s,
      Scan.sequential rules s = Scan.scan (V.entries.map (rule display)) s := by
  constructor
  · intro h rules hp s
    obtain ⟨entries, hentries, rfl⟩ := exists_perm_map hp
    have hs : substituteString display entries (String.ofList s) = singlePass display V (String.ofList s) := by
      simpa [substituteVariables, substituteValue, mapStrings] using h entries hentries (.string (String.ofList s))
    have hlist := congrArg String.toList hs
    rw [toList_substituteString] at hlist
    simpa [singlePass] using hlist
  · intro h entries hp template
    have hs : substituteString display entries = singlePass display V := by
      funext s
      rw [← String.toList_inj, toList_substituteString, h _ (hp.map _), singlePass, String.toList_ofList]
    rw [substituteVariables, substituteValue_eq, hs]

theorem singlePass_of_separate (h : Separate display V) : SinglePass display V :=
  singlePass_iff_sequential.mpr (fun _ hp => Scan.sequential_eq_scan_of_perm h nonempty_rules nodup_rules hp)

/-- A notification from a template with separate variables carries the payload of a single pass. -/
theorem payload_of_separate {templates : DashMap String Template} {templateId : String} {tenantId : Option String}
    {priority : Option Priority} {ttl : Option ℕ} {content : ResolvedContent} (h : Separate display V)
    (hc : (NotificationContent.template templateId (.object V.entries)).resolveForTenant
      ⟨templates, substituteVariables display⟩ tenantId priority ttl = .ok content) :
    ∃ t, templates.lookup (tenantScopedKey (tenantId.getD defaultTenantId) templateId) = some t ∧
      content.payload = mapStrings (singlePass display V) t.payloadTemplate := by
  simp only [NotificationContent.resolveForTenant, TemplateStore.get] at hc
  cases ht : templates.lookup (tenantScopedKey (tenantId.getD defaultTenantId) templateId) with
  | none => simp [ht] at hc
  | some t =>
      simp only [ht, singlePass_of_separate h V.entries (List.Perm.refl _) t.payloadTemplate] at hc
      refine ⟨t, rfl, ?_⟩
      rw [← Except.ok.inj hc]

/-- Variables that are separate are substituted in a single pass; others are not, as far as their placeholders
stay apart. -/
theorem singlePass_iff (display : Json → String) (V : VariableMap) :
    (Separate display V → SinglePass display V) ∧
      (Apart display V → SinglePass display V → Separate display V) := by
  refine ⟨singlePass_of_separate, fun ha h => ?_⟩
  exact (Scan.sequential_eq_scan_iff ha nonempty_rules nodup_rules).mp (singlePass_iff_sequential.mp h)

/-- A variable with the placeholder of another for a text: the inserted text is replaced in turn. -/
def injected : VariableMap := ⟨[("a", .string "\x7b\x7bb\x7d\x7d"), ("b", .string "x")], by decide⟩

theorem not_singlePass_injected : ¬ SinglePass (fun _ => "") injected := by
  intro h
  have ht := h injected.entries (List.Perm.refl _) (.string "\x7b\x7ba\x7d\x7d")
  have hs : substituteString (fun _ => "") injected.entries "\x7b\x7ba\x7d\x7d" =
      singlePass (fun _ => "") injected "\x7b\x7ba\x7d\x7d" := by
    simpa [substituteVariables, substituteValue, mapStrings] using ht
  exact absurd hs (by decide)

end passes

end Substitution

end AraNotification
