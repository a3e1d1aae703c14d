import AraNotification.TemplateIsolation

/-! # Creating a template within the scope of a tenant

`create_template` checks a template under the identifier of the request, prefixes this with the tenant, and
leaves it to the store to check the template again.  The rule for template identifiers is not that for
tenants: it has no dot, and the prefix counts for the length.

A tenant creates every valid template, and finds it again, exactly when the tenant's own name is made of the
characters of template identifiers and leaves room for the one of the request (`scopes_iff`). -/

namespace AraNotification

namespace TemplateScope

open TemplateIsolation

section requests
variable (U : UnicodeTables) (substituteVariables : Json → Json → Except TemplateError Json) (store : TemplateMap)
  (tenant : String) (id : String)

/-- All requests of the tenant that name the identifier find this template. -/
structure Finds (t : StoredTemplate) : Prop where
  get : TemplateApi.getTemplate store (ctxOf tenant) id = .found t
  update : ∀ now r, TemplateApi.updateTemplate U store (ctxOf tenant) now id r =
    match (r.apply t now).validate U with
    | .ok () => (.updated (r.apply t now), store.insert (tenantTemplateId (ctxOf tenant) id) (r.apply t now))
    | .error e => (TemplateApi.refuse e, store)
  delete : TemplateApi.deleteTemplate store (ctxOf tenant) id =
    (.noContent, store.erase (tenantTemplateId (ctxOf tenant) id))
  send : ∀ vars priorityOverride ttlOverride, (NotificationContent.template id vars).resolveForTenant
      (store.sending substituteVariables) (Http.tenantId (ctxOf tenant)) priorityOverride ttlOverride =
    match substituteVariables t.payloadTemplate vars with
    | .error e => .error (.validation e.display)
    | .ok payload => .ok ⟨t.eventType, payload, priorityOverride.getD t.defaultPriority,
        ttlOverride.orElse (fun _ => t.defaultTtl)⟩

/-- The template of a create request under its scoped identifier. -/
def scopedTemplate (now : DateTime) (r : CreateTemplateRequest) : StoredTemplate :=
  { r.intoTemplate now with id := tenantTemplateId (ctxOf tenant) r.id }

/-- A tenant that has no template with the identifier creates this one, and finds it afterwards. -/
def Scopes (now : DateTime) (r : CreateTemplateRequest) : Prop :=
  (∀ t, TemplateApi.getTemplate store (ctxOf tenant) r.id ≠ .found t) →
    (TemplateApi.createTemplate U store (ctxOf tenant) now r).1 = .created (scopedTemplate tenant now r) ∧
      Finds U substituteVariables (TemplateApi.createTemplate U store (ctxOf tenant) now r).2 tenant r.id
        (scopedTemplate tenant now r)

end requests

section scope
variable {U : UnicodeTables} {substituteVariables : Json → Json → Except TemplateError Json} {store : TemplateMap}
  {tenant id : String} {now : DateTime} {r : CreateTemplateRequest} {t : StoredTemplate}

theorem getTemplate_eq_found_iff : TemplateApi.getTemplate store (ctxOf tenant) id = .found t ↔
    store.lookup (tenantTemplateId (ctxOf tenant) id) = some t := by
  unfold TemplateApi.getTemplate TemplateMap.get
  cases store.lookup (tenantTemplateId (ctxOf tenant) id) with
  | none => exact iff_of_false nofun nofun
  | some t' => simp

/-- Every request looks up the scoped identifier. -/
theorem finds_of_lookup (hl : store.lookup (tenantTemplateId (ctxOf tenant) id) = some t) :
    Finds U substituteVariables store tenant id t where
  get := getTemplate_eq_found_iff.mpr hl
  update now r := by
    unfold TemplateApi.updateTemplate
    rw [TemplateMap.update_of_stored r hl]
    cases hv : (r.apply t now).validate U <;> rfl
  delete := by
    unfold TemplateApi.deleteTemplate TemplateMap.delete
    rw [hl]
  send vars priorityOverride ttlOverride := by
    simp only [NotificationContent.resolveForTenant, get_sending, hl]
    rfl

/-- The scoped template is valid exactly when its identifier is. -/
theorem validate_scoped (hv : (r.intoTemplate now).validate U = .ok ()) :
    (scopedTemplate tenant now r).validate U = .ok () ↔ IsTemplateId U (tenantTemplateId (ctxOf tenant) r.id) := by
  have hfields := (validate_eq_ok_iff.mp hv).2
  exact validate_eq_ok_iff.trans (and_iff_left hfields)

theorem tenantTemplateId_ctxOf (tenant id : String) :
    tenantTemplateId (ctxOf tenant) id = if tenant = defaultTenantId then id else tenant ++ ":" ++ id := by
  simp [tenantTemplateId, ctxOf, TenantContext.new]

/-- The identifier stays valid under the prefix when the tenant has the characters of identifiers and leaves
room. -/
theorem isTemplateId_scoped (hid : IsTemplateId U id) :
    IsTemplateId U (tenantTemplateId (ctxOf tenant) id) ↔ tenant = defaultTenantId ∨
      tenant.toList.all (isTemplateIdChar U) = true ∧ tenant.utf8ByteSize + 1 + id.utf8ByteSize ≤ 130 := by
  rw [tenantTemplateId_ctxOf]
  split_ifs with hdefault
  · exact iff_of_true hid (.inl hdefault)
  · have hcolon : isTemplateIdChar U ':' = true := by simp [isTemplateIdChar]
    have hsize : (tenant ++ ":" ++ id).utf8ByteSize = tenant.utf8ByteSize + 1 + id.utf8ByteSize := by
      rw [String.utf8ByteSize_append, String.utf8ByteSize_append, show ":".utf8ByteSize = 1 from by decide]
    have hchars : (tenant ++ ":" ++ id).toList.all (isTemplateIdChar U) = tenant.toList.all (isTemplateIdChar U) := by
      simp [hid.2.2, hcolon]
    have hne : (tenant ++ ":" ++ id).isEmpty = false := by
      rw [String.isEmpty, hsize]
      simp
    unfold IsTemplateId
    rw [hsize, hchars, hne]
    simp only [hdefault, false_or, true_and]
    exact and_comm

/-- **A tenant creates a valid template, and finds it, if and only if it has one already, or is the default
tenant, or its name has only characters of template identifiers and leaves room for the identifier.** -/
theorem scopes_iff (hv : (r.intoTemplate now).validate U = .ok ()) :
    Scopes U substituteVariables store tenant now r ↔
      (store.lookup (tenantTemplateId (ctxOf tenant) r.id)).isSome = true ∨ tenant = defaultTenantId ∨
        tenant.toList.all (isTemplateIdChar U) = true ∧ tenant.utf8ByteSize + 1 + r.id.utf8ByteSize ≤ 130 := by
  have hid : IsTemplateId U r.id := (validate_eq_ok_iff.mp hv).1
  rw [← isTemplateId_scoped hid, ← validate_scoped hv]
  cases hl : store.lookup (tenantTemplateId (ctxOf tenant) r.id) with
  | some t =>
      exact iff_of_true (fun hnot => absurd (getTemplate_eq_found_iff.mpr hl) (hnot t)) (.inl rfl)
  | none =>
      have hnot : ∀ t, TemplateApi.getTemplate store (ctxOf tenant) r.id ≠ .found t := by
        intro t ht
        rw [getTemplate_eq_found_iff, hl] at ht
        cases ht
      constructor
      · intro h
        have hcreated := (h hnot).1
        cases hs : (scopedTemplate tenant now r).validate U with
        | ok => exact .inr rfl
        | error e =>
            rw [createTemplate_of_unscoped rfl hv hs] at hcreated
            cases hcreated
      · rintro (hsome | hs)
        · cases hsome
        intro _
        have hcreate : TemplateApi.createTemplate U store (ctxOf tenant) now r = _ := createTemplate_of_valid rfl hv hs
        rw [hl] at hcreate
        rw [hcreate]
        exact ⟨rfl, finds_of_lookup (AList.lookup_insert store)⟩

/-- A request of the tenant `acme`. -/
def welcome : CreateTemplateRequest where
  id := "welcome"
  name := "Welcome"
  eventType := "user.created"
  payloadTemplate := .object []
  defaultPriority := .normal
  defaultTtl := none
  description := none

/-- The tenant `acme` creates and finds its template. -/
theorem scopes_acme : Scopes .ascii (fun t _ => .ok t) ∅ "acme" 0 welcome :=
  (scopes_iff (by decide)).mpr (.inr (.inr (by decide)))

/-- The tenant `acme.corp` is refused every template. -/
theorem not_scopes_dotted : ¬ ∀ (U : UnicodeTables) (substituteVariables : Json → Json → Except TemplateError Json)
    (store : TemplateMap) (tenant : String) (now : DateTime) (r : CreateTemplateRequest),
    isValidTenantId U tenant = true → (r.intoTemplate now).validate U = .ok () →
      Scopes U substituteVariables store tenant now r := by
  intro hall
  have hfree : ∀ t, TemplateApi.getTemplate ∅ (ctxOf "acme.corp") welcome.id ≠ .found t := by
    intro t ht
    cases getTemplate_eq_found_iff.mp ht
  have hcreated := (hall .ascii (fun t _ => .ok t) ∅ "acme.corp" 0 welcome (by decide) (by decide) hfree).1
  have hinvalid : (scopedTemplate "acme.corp" 0 welcome).validate .ascii =
      .error (.invalidId "ID must contain only alphanumeric, dash, underscore, or colon") := by decide
  rw [createTemplate_of_unscoped rfl (by decide) hinvalid] at hcreated
  cases hcreated

end scope

end TemplateScope

end AraNotification
