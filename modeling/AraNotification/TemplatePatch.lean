import AraNotification.Templates
import AraNotification.WireFormat

/-! # Updates of a template from a request body

`PUT /api/v1/templates/:id` reads its body as an `UpdateTemplateRequest`.  A field of an option type is
`None` when it is missing and also when it is `null`, and nested options are no exception: the decoder
looks at the outer option first (`UpdateTemplateRequest.ofJson`).  So `null` does not get through to the
fields that it is documented to clear.

`patch` says what a body is meant to do: every field that is present is set, `null` clears what may be
missing, and stands for nothing where it is no value.  An update patches exactly, unless a `null` should
have changed something (`patched_iff`). -/

namespace AraNotification

open Fields

/-- Read an update request; a nested option has the decoder of the outer option. -/
def UpdateTemplateRequest.ofJson : Json → Option UpdateTemplateRequest :=
  Json.asObject (fun fs => do
    let name ← omittable "name" (Json.asOption Json.asString) fs
    let eventType ← omittable "event_type" (Json.asOption Json.asString) fs
    let payloadTemplate ← omittable "payload_template" (Json.asOption some) fs
    let defaultPriority ← omittable "default_priority" (Json.asOption Priority.ofJson) fs
    let defaultTtl ← omittable "default_ttl" (Json.asOption (Json.asOption (Json.asUnsigned 32))) fs
    let description ← omittable "description" (Json.asOption (Json.asOption Json.asString)) fs
    some ⟨name, eventType, payloadTemplate, defaultPriority, defaultTtl, description⟩)

namespace TemplatePatch

/-- The value of a field that is present. -/
def given (k : String) (fs : List (String × Json)) : Option Json := (values k fs).head?

/-- What the fields of a body are meant to make of a template. -/
def patch (fs : List (String × Json)) (t : StoredTemplate) (now : DateTime) : StoredTemplate :=
  { t with
    name := ((given "name" fs).bind Json.asString).getD t.name
    eventType := ((given "event_type" fs).bind Json.asString).getD t.eventType
    payloadTemplate := (given "payload_template" fs).getD t.payloadTemplate
    defaultPriority := ((given "default_priority" fs).bind Priority.ofJson).getD t.defaultPriority
    defaultTtl := ((given "default_ttl" fs).map (Json.asUnsigned 32)).getD t.defaultTtl
    description := ((given "description" fs).map Json.asString).getD t.description
    updatedAt := now }

section requests
variable (U : UnicodeTables) (store : TemplateMap) (ctx : Option TenantContext) (now : DateTime) (id : String)
  (fs : List (String × Json)) (r : UpdateTemplateRequest)

/-- A successful update makes exactly the patch of the stored template, and of no other; it returns what a
later `get` finds.  Any other answer leaves the store as it is. -/
structure Patched : Prop where
  exact : ∀ t', (TemplateApi.updateTemplate U store ctx now id r).1 = .updated t' →
    ∃ t, store.lookup (tenantTemplateId ctx id) = some t ∧ t' = patch fs t now ∧
      ∀ key, (TemplateApi.updateTemplate U store ctx now id r).2.lookup key =
        if key = tenantTemplateId ctx id then some t' else store.lookup key
  refused : (∀ t', (TemplateApi.updateTemplate U store ctx now id r).1 ≠ .updated t') →
    (TemplateApi.updateTemplate U store ctx now id r).2 = store
  found : ∀ t', (TemplateApi.updateTemplate U store ctx now id r).1 = .updated t' →
    TemplateApi.getTemplate (TemplateApi.updateTemplate U store ctx now id r).2 ctx id = .found t'

end requests

/-- Every `null` in the body that should clear a field finds it cleared. -/
structure NullsIdle (fs : List (String × Json)) (t : StoredTemplate) : Prop where
  ttl : given "default_ttl" fs = some .null → t.defaultTtl = none
  description : given "description" fs = some .null → t.description = none
  payload : given "payload_template" fs = some .null → t.payloadTemplate = .null

/-! ### Decoding -/

section decoding
variable {α : Type} {decode : Json → Option α} {k : String} {fs : List (String × Json)} {o : Option α}

/-- An optional field is missing, `null`, or read. -/
theorem omittable_asOption (h : omittable k (Json.asOption decode) fs = some o) :
    (o = none ∧ (given k fs = none ∨ given k fs = some .null)) ∨
      ∃ v a, v ≠ .null ∧ given k fs = some v ∧ decode v = some a ∧ o = some a := by
  unfold omittable at h
  unfold given
  split at h
  · rename_i hnone
    cases h
    exact .inl ⟨rfl, .inl (by rw [hnone]; rfl)⟩
  · rename_i v hv
    rw [hv]
    by_cases hnull : v = .null
    · subst hnull
      cases h
      exact .inl ⟨rfl, .inr rfl⟩
    · have hread : (decode v).map some = some o := (Json.asOption_ne_null hnull).symm.trans h
      obtain ⟨a, ha, rfl⟩ := Option.map_eq_some_iff.mp hread
      exact .inr ⟨v, a, hnull, rfl, ha, rfl⟩
  · cases h

/-- Where `null` is no value, the field is set by every value that is given. -/
theorem getD_eq_of_omittable (h : omittable k (Json.asOption decode) fs = some o) (hnull : decode .null = none)
    (old : α) : o.getD old = ((given k fs).bind decode).getD old := by
  obtain ⟨rfl, hk | hk⟩ | ⟨v, a, -, hk, ha, rfl⟩ := omittable_asOption h
  · rw [hk]
    rfl
  · rw [hk, Option.bind_some, hnull]
  · rw [hk, Option.bind_some, ha]

/-- Where `null` should clear the field, it does nothing. -/
theorem getD_eq_iff_of_nested {o : Option (Option α)}
    (h : omittable k (Json.asOption (Json.asOption decode)) fs = some o) (hnull : decode .null = none)
    (old : Option α) :
    o.getD old = ((given k fs).map decode).getD old ↔ (given k fs = some .null → old = none) := by
  obtain ⟨rfl, hk | hk⟩ | ⟨v, a, hv, hk, ha, rfl⟩ := omittable_asOption h
  · simp [hk]
  · simp [hk, hnull]
  · rw [Json.asOption_ne_null hv] at ha
    obtain ⟨b, hb, rfl⟩ := Option.map_eq_some_iff.mp ha
    simp [hk, hb, hv]

/-- A payload that should become `null` stays as it is. -/
theorem getD_eq_iff_of_value {o : Option Json} (h : omittable k (Json.asOption some) fs = some o) (old : Json) :
    o.getD old = (given k fs).getD old ↔ (given k fs = some .null → old = .null) := by
  obtain ⟨rfl, hk | hk⟩ | ⟨v, a, hv, hk, ha, rfl⟩ := omittable_asOption h
  · simp [hk]
  · simp [hk]
  · obtain rfl := Option.some.inj ha
    simp [hk, hv]

end decoding

/-! ### The update -/

section update
variable {U : UnicodeTables} {store : TemplateMap} {ctx : Option TenantContext} {now : DateTime} {id : String}
  {fs : List (String × Json)} {r : UpdateTemplateRequest} {t : StoredTemplate}

/-- Field by field, what a body that can be read sets is the patch; where `null` should clear a field, only
if that is clear. -/
theorem apply_fields (hr : UpdateTemplateRequest.ofJson (.object fs) = some r) (t : StoredTemplate) (now : DateTime) :
    (r.apply t now).name = (patch fs t now).name ∧ (r.apply t now).eventType = (patch fs t now).eventType ∧
      (r.apply t now).defaultPriority = (patch fs t now).defaultPriority ∧
      ((r.apply t now).defaultTtl = (patch fs t now).defaultTtl ↔
        (given "default_ttl" fs = some .null → t.defaultTtl = none)) ∧
      ((r.apply t now).description = (patch fs t now).description ↔
        (given "description" fs = some .null → t.description = none)) ∧
      ((r.apply t now).payloadTemplate = (patch fs t now).payloadTemplate ↔
        (given "payload_template" fs = some .null → t.payloadTemplate = .null)) := by
  simp only [UpdateTemplateRequest.ofJson, Json.asObject, Option.bind_eq_bind, Option.bind_eq_some_iff,
    Option.some.injEq] at hr
  obtain ⟨name, hname, eventType, hevent, payload, hpayload, priority, hpriority, ttl, httl, description, hdesc, rfl⟩ :=
    hr
  exact ⟨getD_eq_of_omittable hname rfl t.name, getD_eq_of_omittable hevent rfl t.eventType,
    getD_eq_of_omittable hpriority rfl t.defaultPriority, getD_eq_iff_of_nested httl rfl t.defaultTtl,
    getD_eq_iff_of_nested hdesc rfl t.description, getD_eq_iff_of_value hpayload t.payloadTemplate⟩

/-- What a body that can be read sets is the patch, unless a `null` is ignored. -/
theorem apply_eq_patch_iff (hr : UpdateTemplateRequest.ofJson (.object fs) = some r) :
    r.apply t now = patch fs t now ↔ NullsIdle fs t := by
  obtain ⟨hname, hevent, hpriority, httl, hdesc, hpayload⟩ := apply_fields hr t now
  constructor
  · intro h
    exact ⟨httl.mp (by rw [h]), hdesc.mp (by rw [h]), hpayload.mp (by rw [h])⟩
  · intro h
    have httl := httl.mpr h.ttl
    have hdesc := hdesc.mpr h.description
    have hpayload := hpayload.mpr h.payload
    unfold UpdateTemplateRequest.apply patch at *
    simp only [StoredTemplate.mk.injEq, Template.mk.injEq]
    exact ⟨⟨hevent, hpayload, hpriority, httl⟩, trivial, hname, hdesc, trivial, trivial⟩

/-- The check of a template does not read what a `null` can clear. -/
theorem validate_apply (hr : UpdateTemplateRequest.ofJson (.object fs) = some r) (t : StoredTemplate) (now : DateTime) :
    (r.apply t now).validate U = (patch fs t now).validate U := by
  obtain ⟨hname, hevent, -⟩ := apply_fields hr t now
  have hid : (r.apply t now).id = (patch fs t now).id := rfl
  unfold StoredTemplate.validate
  rw [hid, hname, hevent]

/-- What an update request answers and stores. -/
theorem updateTemplate_cases (r : UpdateTemplateRequest) :
    (∃ t, store.lookup (tenantTemplateId ctx id) = some t ∧ (r.apply t now).validate U = .ok () ∧
        TemplateApi.updateTemplate U store ctx now id r =
          (.updated (r.apply t now), store.insert (tenantTemplateId ctx id) (r.apply t now))) ∨
      ((∀ t, store.lookup (tenantTemplateId ctx id) = some t → (r.apply t now).validate U ≠ .ok ()) ∧
        ∃ e, TemplateApi.updateTemplate U store ctx now id r = (TemplateApi.refuse e, store)) := by
  unfold TemplateApi.updateTemplate
  cases hl : store.lookup (tenantTemplateId ctx id) with
  | none =>
      rw [TemplateMap.update_of_absent r hl]
      exact .inr ⟨nofun, _, rfl⟩
  | some t =>
      rw [TemplateMap.update_of_stored r hl]
      cases hv : (r.apply t now).validate U with
      | ok => exact .inl ⟨t, rfl, hv, rfl⟩
      | error e =>
          refine .inr ⟨fun t' ht' => ?_, e, rfl⟩
          cases ht'
          rw [hv]
          nofun

/-- **An update is an exact patch if and only if it is refused, or every `null` that should clear a field
finds it clear.** -/
theorem patched_iff (hr : UpdateTemplateRequest.ofJson (.object fs) = some r) :
    Patched U store ctx now id fs r ↔
      ∀ t, store.lookup (tenantTemplateId ctx id) = some t → (patch fs t now).validate U = .ok () →
        NullsIdle fs t := by
  obtain ⟨t, hl, hv, hupdate⟩ | ⟨hrefused, e, hupdate⟩ := @updateTemplate_cases U store ctx now id r
  · constructor
    · intro h t' hl' _
      obtain ⟨t₀, hl₀, heq, -⟩ := h.exact (r.apply t now) (by rw [hupdate])
      cases hl.symm.trans hl'
      cases hl.symm.trans hl₀
      exact (apply_eq_patch_iff hr).mp heq
    · intro h
      have heq : r.apply t now = patch fs t now :=
        (apply_eq_patch_iff hr).mpr (h t hl (by rwa [← validate_apply hr]))
      refine ⟨fun t' ht' => ?_, fun hnot => absurd (by rw [hupdate]) (hnot (r.apply t now)), fun t' ht' => ?_⟩
      · rw [hupdate] at ht' ⊢
        cases ht'
        exact ⟨t, hl, heq, fun key => DashMap.lookup_insert _ _ _ _⟩
      · rw [hupdate] at ht' ⊢
        cases ht'
        unfold TemplateApi.getTemplate TemplateMap.get
        rw [AList.lookup_insert]
  · have hnot : ∀ t', (TemplateApi.updateTemplate U store ctx now id r).1 ≠ .updated t' := by
      intro t' ht'
      rw [hupdate] at ht'
      cases ht'
    refine iff_of_true ⟨fun t' ht' => absurd ht' (hnot t'), fun _ => by rw [hupdate], fun t' ht' => absurd ht' (hnot t')⟩ ?_
    exact fun t hl hv => absurd (by rwa [validate_apply hr]) (hrefused t hl)

/-- A stored template whose notifications expire after a minute. -/
def withTtl : StoredTemplate where
  id := "welcome"
  name := "Welcome"
  eventType := "user.created"
  payloadTemplate := .object []
  defaultPriority := .normal
  defaultTtl := some 60
  description := none
  createdAt := 0
  updatedAt := 0

/-- A body that sets the name and clears the description, which is clear. -/
theorem patched_renamed :
    Patched .ascii (AList.insert "welcome" withTtl ∅) none 1 "welcome"
      [("name", .string "Hello"), ("description", .null)] ⟨some "Hello", none, none, none, none, none⟩ := by
  refine (patched_iff rfl).mpr (fun t hl _ => ?_)
  cases hl
  exact ⟨nofun, fun _ => rfl, nofun⟩

/-- A body that is documented to clear the TTL. -/
theorem not_patched_cleared : ¬ ∀ (U : UnicodeTables) (store : TemplateMap) (ctx : Option TenantContext)
    (now : DateTime) (id : String) (fs : List (String × Json)) (r : UpdateTemplateRequest),
    UpdateTemplateRequest.ofJson (.object fs) = some r → Patched U store ctx now id fs r := by
  intro hall
  have hpatched := hall .ascii (AList.insert "welcome" withTtl ∅) none 1 "welcome" [("default_ttl", .null)]
    ⟨none, none, none, none, none, none⟩ rfl
  obtain ⟨t, hl, heq, -⟩ := hpatched.exact { withTtl with updatedAt := 1 } rfl
  cases hl
  exact absurd (congrArg (fun t => t.defaultTtl) heq) (by decide)

end update

end TemplatePatch

end AraNotification
