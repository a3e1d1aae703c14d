import AraNotification.Http

/-! # Notification templates

The template store (`domain/template`) and its five endpoints (`api/template.rs`), with the
resolution of content for a send.  The store is one concurrent map from identifiers to templates.
The endpoints scope an identifier by the tenant of the request, `tenant:id`, and leave it as it
is for the default tenant; the default tenant's list leaves out every identifier that contains a
colon.

`create` ends by reading back what it wrote and unwraps the result; `none` stands for the panic.
One call at a time never panics (`create_of_fresh`).  Every stored template is `Filed`: under its
own identifier, which is a valid one. -/

namespace AraNotification

/-! ### Templates -/

/-- A notification template definition. -/
structure StoredTemplate extends Template where
  id : String
  name : String
  description : Option String
  createdAt : DateTime
  updatedAt : DateTime

/-- Request to create a new template; a priority that is not given is `normal`. -/
structure CreateTemplateRequest extends Template where
  id : String
  name : String
  description : Option String

/-- Request to update an existing template. -/
structure UpdateTemplateRequest where
  name : Option String
  eventType : Option String
  payloadTemplate : Option Json
  defaultPriority : Option Priority
  defaultTtl : Option (Option ℕ)
  description : Option (Option String)

/-- The template of a request. -/
def CreateTemplateRequest.intoTemplate (r : CreateTemplateRequest) (now : DateTime) : StoredTemplate :=
  { r with createdAt := now, updatedAt := now }

/-- The fields that an update sets. -/
def UpdateTemplateRequest.apply (r : UpdateTemplateRequest) (t : StoredTemplate) (now : DateTime) :
    StoredTemplate :=
  { t with
    name := r.name.getD t.name
    eventType := r.eventType.getD t.eventType
    payloadTemplate := r.payloadTemplate.getD t.payloadTemplate
    defaultPriority := r.defaultPriority.getD t.defaultPriority
    defaultTtl := r.defaultTtl.getD t.defaultTtl
    description := r.description.getD t.description
    updatedAt := now }

section checks
variable (U : UnicodeTables)

/-- The characters allowed in template identifiers. -/
def isTemplateIdChar (c : Char) : Bool := U.isAlphanumeric c || c == '-' || c == '_' || c == ':'

/-- The identifiers that pass the checks; lengths are in bytes. -/
def IsTemplateId (id : String) : Prop :=
  id.isEmpty = false ∧ id.utf8ByteSize ≤ 130 ∧ id.toList.all (isTemplateIdChar U) = true

instance (id : String) : Decidable (IsTemplateId U id) := inferInstanceAs (Decidable (_ ∧ _ ∧ _))

/-- Validate the template. -/
def StoredTemplate.validate (t : StoredTemplate) : Except TemplateError Unit :=
  if t.id.isEmpty || decide (t.id.utf8ByteSize > 130) then
    .error (.invalidId "ID must be 1-130 characters")
  else if !t.id.toList.all (isTemplateIdChar U) then
    .error (.invalidId "ID must contain only alphanumeric, dash, underscore, or colon")
  else if t.name.isEmpty || decide (t.name.utf8ByteSize > 256) then
    .error (.invalidTemplate "Name must be 1-256 characters")
  else if t.eventType.isEmpty || decide (t.eventType.utf8ByteSize > 128) then
    .error (.invalidTemplate "Event type must be 1-128 characters")
  else .ok ()

end checks

/-! ### The store -/

/-- The stored templates by identifier. -/
abbrev TemplateMap := DashMap String StoredTemplate

namespace TemplateMap
variable (U : UnicodeTables) (store : TemplateMap)

/-- Create a new template; `none` is a panic of the final `unwrap`. -/
def create (t : StoredTemplate) : Option (Except TemplateError StoredTemplate) × TemplateMap :=
  match t.validate U with
  | .error e => (some (.error e), store)
  | .ok () =>
      if (store.lookup t.id).isSome then (some (.error (.alreadyExists t.id)), store)
      else
        let store := store.insert t.id t
        ((store.lookup t.id).map .ok, store)

/-- Get a template by its identifier. -/
def get (id : String) : Except TemplateError StoredTemplate :=
  match store.lookup id with
  | some t => .ok t
  | none => .error (.notFound id)

/-- List all templates. -/
def list : List StoredTemplate := DashMap.values store

/-- Update an existing template. -/
def update (now : DateTime) (id : String) (updates : UpdateTemplateRequest) :
    Except TemplateError StoredTemplate × TemplateMap :=
  match store.get id with
  | .error e => (.error e, store)
  | .ok t =>
      let t := updates.apply t now
      match t.validate U with
      | .error e => (.error e, store)
      | .ok () => (.ok t, store.insert id t)

/-- Delete a template by its identifier. -/
def delete (id : String) : Except TemplateError Unit × TemplateMap :=
  match store.lookup id with
  | some _ => (.ok (), store.erase id)
  | none => (.error (.notFound id), store)

/-- The store as sending sees it. -/
def sending (substituteVariables : Json → Json → Except TemplateError Json) : TemplateStore :=
  ⟨DashMap.mapValues (·.toTemplate) store, substituteVariables⟩

end TemplateMap

/-! ### Endpoints -/

/-- Prefix a template identifier with the tenant. -/
def tenantTemplateId (ctx : Option TenantContext) (id : String) : String :=
  match ctx with
  | some t => if t.isDefault then id else t.tenantId ++ ":" ++ id
  | none => id

/-- The tenant's prefix for filtering templates. -/
def tenantPrefix (ctx : Option TenantContext) : Option String :=
  match ctx with
  | some t => if t.isDefault then none else some (t.tenantId ++ ":")
  | none => none

/-- Status code and error code of a template error. -/
def TemplateError.response : TemplateError → ℕ × String
  | notFound _ => (404, "TEMPLATE_NOT_FOUND")
  | alreadyExists _ => (409, "TEMPLATE_EXISTS")
  | invalidId _ => (400, "INVALID_ID")
  | invalidTemplate _ => (400, "INVALID_TEMPLATE")
  | substitutionFailed _ => (422, "SUBSTITUTION_FAILED")

/-- A request about templates. -/
inductive TemplateRequest where
  | create (r : CreateTemplateRequest)
  | list
  | get (id : String)
  | update (id : String) (r : UpdateTemplateRequest)
  | delete (id : String)
  /-- The content of a notification that is sent by a template. -/
  | send (templateId : String) (vars : Json) (priorityOverride : Option Priority) (ttlOverride : Option ℕ)

/-- The identifier that a request names. -/
def TemplateRequest.templateId : TemplateRequest → Option String
  | .create r => some r.id
  | .list => none
  | .get id | .update id _ | .delete id | .send id _ _ _ => some id

/-- The answer to a request about templates. -/
inductive TemplateReply where
  | created (t : StoredTemplate)
  | listed (templates : List StoredTemplate) (total : ℕ)
  | found (t : StoredTemplate)
  | updated (t : StoredTemplate)
  | noContent
  | refused (status : ℕ) (code message : String)
  | resolved (r : Except AppError ResolvedContent)
  | panicked

namespace TemplateApi
variable (U : UnicodeTables) (config : TenantConfig)
  (substituteVariables : Json → Json → Except TemplateError Json) (store : TemplateMap)
  (ctx : Option TenantContext)

/-- The response for a template error. -/
def refuse (e : TemplateError) : TemplateReply := .refused e.response.1 e.response.2 e.display

/-- `POST /api/v1/templates`. -/
def createTemplate (now : DateTime) (r : CreateTemplateRequest) : TemplateReply × TemplateMap :=
  let t := r.intoTemplate now
  -- The identifier as given is checked first; the store checks it again with the prefix.
  match t.validate U with
  | .error e => (refuse e, store)
  | .ok () =>
      match store.create U { t with id := tenantTemplateId ctx t.id } with
      | (some (.ok created), store) => (.created created, store)
      | (some (.error e), store) => (refuse e, store)
      | (none, store) => (.panicked, store)

/-- The templates that a list shows. -/
def shown : StoredTemplate → Bool := fun t =>
  match tenantPrefix ctx with
  | some p => p.toList.isPrefixOf t.id.toList
  | none => !(config.enabled && t.id.toList.contains ':')

/-- `GET /api/v1/templates`. -/
def listTemplates : List StoredTemplate := store.list.filter (shown config ctx)

/-- `GET /api/v1/templates/:id`. -/
def getTemplate (id : String) : TemplateReply :=
  match store.get (tenantTemplateId ctx id) with
  | .ok t => .found t
  | .error e => refuse e

/-- `PUT /api/v1/templates/:id`. -/
def updateTemplate (now : DateTime) (id : String) (r : UpdateTemplateRequest) : TemplateReply × TemplateMap :=
  match store.update U now (tenantTemplateId ctx id) r with
  | (.ok t, store) => (.updated t, store)
  | (.error e, store) => (refuse e, store)

/-- `DELETE /api/v1/templates/:id`. -/
def deleteTemplate (id : String) : TemplateReply × TemplateMap :=
  match store.delete (tenantTemplateId ctx id) with
  | (.ok (), store) => (.noContent, store)
  | (.error e, store) => (refuse e, store)

/-- One request. -/
def handle (now : DateTime) : TemplateRequest → TemplateReply × TemplateMap
  | .create r => createTemplate U store ctx now r
  | .list => (.listed (listTemplates config store ctx) (listTemplates config store ctx).length, store)
  | .get id => (getTemplate store ctx id, store)
  | .update id r => updateTemplate U store ctx now id r
  | .delete id => deleteTemplate store ctx id
  | .send templateId vars priorityOverride ttlOverride =>
      (.resolved ((NotificationContent.template templateId vars).resolveForTenant
        (store.sending substituteVariables) (Http.tenantId ctx) priorityOverride ttlOverride), store)

end TemplateApi

/-! ### What the store holds -/

section stored
variable {U : UnicodeTables} {store : TemplateMap} {t : StoredTemplate} {now : DateTime} {id : String}

theorem validate_eq_ok_iff : t.validate U = .ok () ↔ IsTemplateId U t.id ∧
    (t.name.isEmpty = false ∧ t.name.utf8ByteSize ≤ 256) ∧
      t.eventType.isEmpty = false ∧ t.eventType.utf8ByteSize ≤ 128 := by
  unfold StoredTemplate.validate IsTemplateId
  simp only [Bool.or_eq_true, decide_eq_true_eq, Bool.not_eq_true', gt_iff_lt]
  split_ifs with hid hchars hname hevent
  · simp only [false_iff]
    rintro ⟨⟨hne, hlen, -⟩, -⟩
    exact hid.elim (fun he => by simp [he] at hne) (fun hgt => absurd hgt (Nat.not_lt.mpr hlen))
  · simp [hchars]
  · simp only [false_iff]
    rintro ⟨-, ⟨hne, hlen⟩, -⟩
    exact hname.elim (fun he => by simp [he] at hne) (fun hgt => absurd hgt (Nat.not_lt.mpr hlen))
  · simp only [false_iff]
    rintro ⟨-, -, hne, hlen⟩
    exact hevent.elim (fun he => by simp [he] at hne) (fun hgt => absurd hgt (Nat.not_lt.mpr hlen))
  · simp only [not_or, Bool.not_eq_true, Nat.not_lt, Bool.not_eq_false] at hid hchars hname hevent
    simp [hid, hchars, hname, hevent]

/-- Every template is stored under its own identifier, which is valid. -/
def Filed (U : UnicodeTables) (store : TemplateMap) : Prop :=
  ∀ id t, store.lookup id = some t → t.id = id ∧ IsTemplateId U id

theorem filed_empty : Filed U ∅ := by
  intro id t h
  cases h

theorem Filed.insert (h : Filed U store) (hid : t.id = id) (hv : t.validate U = .ok ()) :
    Filed U (AList.insert id t store) := by
  intro id' t' hl
  rw [DashMap.lookup_insert] at hl
  split_ifs at hl with he
  · subst he
    cases hl
    exact ⟨hid, hid ▸ (validate_eq_ok_iff.mp hv).1⟩
  · exact h id' t' hl

namespace TemplateMap

/-- A valid template whose identifier is free is stored, and is what `create` returns. -/
theorem create_of_fresh (hv : t.validate U = .ok ()) (hl : store.lookup t.id = none) :
    store.create U t = (some (.ok t), store.insert t.id t) := by
  unfold create
  simp only [hv, hl, Option.isSome_none, Bool.false_eq_true, if_false, AList.lookup_insert, Option.map_some]

theorem create_of_invalid {e : TemplateError} (hv : t.validate U = .error e) :
    store.create U t = (some (.error e), store) := by
  unfold create
  rw [hv]

theorem create_of_stored {t' : StoredTemplate} (hv : t.validate U = .ok ()) (hl : store.lookup t.id = some t') :
    store.create U t = (some (.error (.alreadyExists t.id)), store) := by
  unfold create
  simp only [hv, hl, Option.isSome_some, if_true]

theorem update_of_absent (r : UpdateTemplateRequest) (hl : store.lookup id = none) :
    store.update U now id r = (.error (.notFound id), store) := by
  unfold update get
  rw [hl]

theorem update_of_stored (r : UpdateTemplateRequest) (hl : store.lookup id = some t) :
    store.update U now id r = match (r.apply t now).validate U with
      | .error e => (.error e, store)
      | .ok () => (.ok (r.apply t now), store.insert id (r.apply t now)) := by
  unfold update get
  rw [hl]

end TemplateMap

theorem Filed.create (h : Filed U store) : Filed U (store.create U t).2 := by
  cases hv : t.validate U with
  | error e =>
      rw [TemplateMap.create_of_invalid hv]
      exact h
  | ok =>
      cases hl : store.lookup t.id with
      | some t' =>
          rw [TemplateMap.create_of_stored hv hl]
          exact h
      | none =>
          rw [TemplateMap.create_of_fresh hv hl]
          exact h.insert rfl hv

theorem Filed.update (h : Filed U store) (r : UpdateTemplateRequest) :
    Filed U (store.update U now id r).2 := by
  cases hl : store.lookup id with
  | none =>
      rw [TemplateMap.update_of_absent r hl]
      exact h
  | some t =>
      rw [TemplateMap.update_of_stored r hl]
      split
      · exact h
      · rename_i hv
        exact h.insert (h id t hl).1 hv

theorem Filed.delete (h : Filed U store) : Filed U (store.delete id).2 := by
  unfold TemplateMap.delete
  split
  · intro id' t hl
    rw [DashMap.lookup_erase] at hl
    split_ifs at hl
    exact h id' t hl
  · exact h

end stored

end AraNotification
