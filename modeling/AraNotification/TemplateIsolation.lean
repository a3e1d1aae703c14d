import AraNotification.Templates
import AraNotification.Lib.RelatedMaps
import AraNotification.Lib.Runs

/-! # Isolation of templates

Each request that names a template reads and writes one entry of the store, that of its scoped
identifier (`handle_actsOn`), so a tenant is affected by the others only where an entry that it
sees can be written by them.

The tenants of a service are a set of tenants that can authenticate, and the identifiers that the
default tenant names are another set.  Every tenant is answered as if it had the store to itself,
whatever requests the tenants make, exactly when no valid identifier of the default tenant begins
with another tenant and a colon (`own_store_iff`). -/

namespace AraNotification

/-- One request of a tenant. -/
structure TemplateCall where
  tenant : String
  now : DateTime
  request : TemplateRequest

/-- Equal answers, up to the order of a list. -/
def TemplateReply.Same : TemplateReply → TemplateReply → Prop
  | .listed ts total, .listed ts' total' => ts.Perm ts' ∧ total = total'
  | r, r' => r = r'

namespace TemplateIsolation

/-- Multi-tenancy is enabled. -/
def multiTenant : TenantConfig := ⟨true⟩

/-- The context of a tenant's requests. -/
def ctxOf (tenant : String) : Option TenantContext := some (.new tenant)

section service
variable (U : UnicodeTables) (substituteVariables : Json → Json → Except TemplateError Json)

/-- One call. -/
def step (store : TemplateMap) (c : TemplateCall) : TemplateReply × TemplateMap :=
  TemplateApi.handle U multiTenant substituteVariables store (ctxOf c.tenant) c.now c.request

/-- The store after a list of calls. -/
def after (calls : List TemplateCall) : TemplateMap := Runs.final (step U substituteVariables) ∅ calls

/-- The results of the calls of a tenant. -/
def resultsOf (tenant : String) (calls : List TemplateCall) : List TemplateReply :=
  Runs.observed (step U substituteVariables) (fun c => decide (c.tenant = tenant)) ∅ calls

/-- The templates that a tenant sees. -/
def seenBy (store : TemplateMap) (tenant : String) : List StoredTemplate :=
  TemplateApi.listTemplates multiTenant store (ctxOf tenant)

/-- The calls of one tenant. -/
def callsOf (tenant : String) (calls : List TemplateCall) : List TemplateCall :=
  calls.filter (fun c => decide (c.tenant = tenant))

/-- The tenant is answered, and sees the templates, as if the others had made no call. -/
structure OwnStore (tenant : String) (calls : List TemplateCall) : Prop where
  results : List.Forall₂ TemplateReply.Same (resultsOf U substituteVariables tenant calls)
    (resultsOf U substituteVariables tenant (callsOf tenant calls))
  seen : (seenBy (after U substituteVariables calls) tenant).Perm
    (seenBy (after U substituteVariables (callsOf tenant calls)) tenant)

end service

/-- The call is made by one of the tenants, and a call of the default tenant names one of the
identifiers. -/
def Admitted (tenants ids : Set String) (c : TemplateCall) : Prop :=
  c.tenant ∈ tenants ∧ (c.tenant = defaultTenantId → ∀ id ∈ c.request.templateId, id ∈ ids)

/-- No valid identifier of the default tenant begins with another tenant and a colon. -/
def Separate (U : UnicodeTables) (tenants ids : Set String) : Prop :=
  defaultTenantId ∈ tenants → ∀ id ∈ ids, IsTemplateId U id → ∀ t ∈ tenants, t ≠ defaultTenantId →
    ∀ x, id ≠ t ++ ":" ++ x

/-! ### Requests on one entry -/

section requests
variable {U : UnicodeTables} {config : TenantConfig}
  {substituteVariables : Json → Json → Except TemplateError Json} {store : TemplateMap}
  {ctx : Option TenantContext} {now : DateTime} {r : TemplateRequest} {id : String}

/-- Sending scopes identifiers as the endpoints do. -/
theorem tenantTemplateId_eq (ctx : Option TenantContext) (id : String) :
    tenantTemplateId ctx id = tenantScopedKey ((Http.tenantId ctx).getD defaultTenantId) id := by
  cases ctx with
  | none => simp [tenantTemplateId, Http.tenantId, tenantScopedKey]
  | some t =>
      by_cases ht : t.tenantId = defaultTenantId <;>
        simp [tenantTemplateId, Http.tenantId, tenantScopedKey, t.isDefault_eq, ht]

/-- Sending finds what is stored under the scoped identifier. -/
theorem get_sending : (TemplateMap.sending store substituteVariables).get
      (tenantScopedKey ((Http.tenantId ctx).getD defaultTenantId) id) =
    match store.lookup (tenantTemplateId ctx id) with
    | some t => .ok t.toTemplate
    | none => .error (.notFound (tenantTemplateId ctx id)) := by
  rw [← tenantTemplateId_eq, TemplateStore.get, TemplateMap.sending, DashMap.lookup_mapValues]
  cases store.lookup (tenantTemplateId ctx id) <;> rfl

/-- What `create_template` does with a valid request. -/
theorem createTemplate_of_valid {r : CreateTemplateRequest} {t : StoredTemplate}
    (ht : t = { r.intoTemplate now with id := tenantTemplateId ctx r.id })
    (hv : (r.intoTemplate now).validate U = .ok ()) (hs : t.validate U = .ok ()) :
    TemplateApi.createTemplate U store ctx now r = match store.lookup (tenantTemplateId ctx r.id) with
      | some _ => (TemplateApi.refuse (.alreadyExists (tenantTemplateId ctx r.id)), store)
      | none => (.created t, store.insert (tenantTemplateId ctx r.id) t) := by
  have hid : t.id = tenantTemplateId ctx r.id := by rw [ht]
  unfold TemplateApi.createTemplate
  simp only [hv]
  rw [show (r.intoTemplate now).id = r.id from rfl, ← ht]
  cases hl : store.lookup (tenantTemplateId ctx r.id) with
  | some t' => rw [TemplateMap.create_of_stored hs (hid ▸ hl), hid]
  | none => rw [TemplateMap.create_of_fresh hs (hid ▸ hl), hid]

/-- A valid request whose template is not valid under the scoped identifier is refused. -/
theorem createTemplate_of_unscoped {r : CreateTemplateRequest} {t : StoredTemplate} {e : TemplateError}
    (ht : t = { r.intoTemplate now with id := tenantTemplateId ctx r.id })
    (hv : (r.intoTemplate now).validate U = .ok ()) (hs : t.validate U = .error e) :
    TemplateApi.createTemplate U store ctx now r = (TemplateApi.refuse e, store) := by
  have hcreate : TemplateMap.create U store t = (some (.error e), store) := TemplateMap.create_of_invalid hs
  subst ht
  unfold TemplateApi.createTemplate
  simp only [hv]
  rw [show (r.intoTemplate now).id = r.id from rfl, hcreate]

/-! ### What a request does to its entry -/

section entries
variable (U substituteVariables ctx now id)

/-- A template is created where there is none. -/
def createEntry (t : StoredTemplate) : Option StoredTemplate → TemplateReply × Option StoredTemplate
  | some t' => (TemplateApi.refuse (.alreadyExists (tenantTemplateId ctx id)), some t')
  | none => (.created t, some t)

/-- A template is found. -/
def getEntry : Option StoredTemplate → TemplateReply
  | some t => .found t
  | none => TemplateApi.refuse (.notFound (tenantTemplateId ctx id))

/-- A template is updated if it stays valid. -/
def updateEntry (r : UpdateTemplateRequest) : Option StoredTemplate → TemplateReply × Option StoredTemplate
  | none => (TemplateApi.refuse (.notFound (tenantTemplateId ctx id)), none)
  | some t =>
      match (r.apply t now).validate U with
      | .error e => (TemplateApi.refuse e, some t)
      | .ok () => (.updated (r.apply t now), some (r.apply t now))

/-- A template is deleted. -/
def deleteEntry : Option StoredTemplate → TemplateReply × Option StoredTemplate
  | some _ => (.noContent, none)
  | none => (TemplateApi.refuse (.notFound (tenantTemplateId ctx id)), none)

/-- A template is sent. -/
def sendEntry (vars : Json) (priorityOverride : Option Priority) (ttlOverride : Option ℕ) :
    Option StoredTemplate → Except AppError ResolvedContent
  | none => .error (.validation (TemplateError.notFound (tenantTemplateId ctx id)).display)
  | some t =>
      match substituteVariables t.payloadTemplate vars with
      | .error e => .error (.validation e.display)
      | .ok payload =>
          .ok ⟨t.eventType, payload, priorityOverride.getD t.defaultPriority,
            ttlOverride.orElse (fun _ => t.defaultTtl)⟩

end entries

theorem createTemplate_actsOn (r : CreateTemplateRequest) :
    ∃ f, DashMap.ActsOn (tenantTemplateId ctx r.id)
      (fun store => TemplateApi.createTemplate U store ctx now r) f := by
  cases hv : (r.intoTemplate now).validate U with
  | error e =>
      refine ⟨_, .read (fun _ => TemplateApi.refuse e) (fun store => ?_)⟩
      unfold TemplateApi.createTemplate
      simp only [hv]
  | ok =>
      obtain ⟨t, ht⟩ : ∃ t, t = { r.intoTemplate now with id := tenantTemplateId ctx r.id } := ⟨_, rfl⟩
      cases hs : t.validate U with
      | error e =>
          exact ⟨_, .read (fun _ => TemplateApi.refuse e) (fun store => createTemplate_of_unscoped ht hv hs)⟩
      | ok =>
          refine ⟨createEntry ctx r.id t, fun store => ?_, fun store k => ?_⟩
          · rw [createTemplate_of_valid ht hv hs]
            cases store.lookup (tenantTemplateId ctx r.id) <;> rfl
          · rw [createTemplate_of_valid ht hv hs]
            cases hl : store.lookup (tenantTemplateId ctx r.id) with
            | some t' =>
                split_ifs with hk
                · rw [hk, hl]
                  rfl
                · rfl
            | none => exact DashMap.lookup_insert _ _ _ _

theorem updateTemplate_actsOn (id : String) (r : UpdateTemplateRequest) :
    ∃ f, DashMap.ActsOn (tenantTemplateId ctx id)
      (fun store => TemplateApi.updateTemplate U store ctx now id r) f := by
  refine ⟨updateEntry U ctx now id r, fun store => ?_, fun store k => ?_⟩
  · unfold TemplateApi.updateTemplate
    cases hl : store.lookup (tenantTemplateId ctx id) with
    | none =>
        rw [TemplateMap.update_of_absent r hl]
        rfl
    | some t =>
        rw [TemplateMap.update_of_stored r hl]
        cases hv : (r.apply t now).validate U <;> simp only [updateEntry, hv]
  · unfold TemplateApi.updateTemplate
    cases hl : store.lookup (tenantTemplateId ctx id) with
    | none =>
        rw [TemplateMap.update_of_absent r hl]
        split_ifs with hk
        · rw [hk, hl]
          rfl
        · rfl
    | some t =>
        rw [TemplateMap.update_of_stored r hl]
        cases hv : (r.apply t now).validate U with
        | error e =>
            simp only [updateEntry, hv]
            split_ifs with hk
            · rw [hk, hl]
            · rfl
        | ok =>
            simp only [updateEntry, hv]
            exact DashMap.lookup_insert _ _ _ _

theorem deleteTemplate_actsOn (id : String) :
    ∃ f, DashMap.ActsOn (tenantTemplateId ctx id) (fun store => TemplateApi.deleteTemplate store ctx id) f := by
  refine ⟨deleteEntry ctx id, fun store => ?_, fun store k => ?_⟩
  · unfold TemplateApi.deleteTemplate TemplateMap.delete
    cases store.lookup (tenantTemplateId ctx id) <;> rfl
  · unfold TemplateApi.deleteTemplate TemplateMap.delete
    cases hl : store.lookup (tenantTemplateId ctx id) with
    | some t => exact DashMap.lookup_erase _ _ _
    | none =>
        split_ifs with hk
        · rw [hk]
          exact hl
        · rfl

variable (U config substituteVariables ctx now) in
/-- A request that names a template acts on the entry of its scoped identifier. -/
theorem handle_actsOn (h : r.templateId = some id) :
    ∃ f, DashMap.ActsOn (tenantTemplateId ctx id)
      (fun store => TemplateApi.handle U config substituteVariables store ctx now r) f := by
  cases r with
  | create r =>
      cases h
      exact createTemplate_actsOn r
  | list => cases h
  | get id' =>
      cases h
      refine ⟨_, .read (getEntry ctx id) (fun store => ?_)⟩
      simp only [TemplateApi.handle, TemplateApi.getTemplate, TemplateMap.get]
      cases store.lookup (tenantTemplateId ctx id) <;> rfl
  | update id' r =>
      cases h
      exact updateTemplate_actsOn id r
  | delete id' =>
      cases h
      exact deleteTemplate_actsOn id
  | send id' vars priorityOverride ttlOverride =>
      cases h
      refine ⟨_, .read (fun entry => .resolved
        (sendEntry substituteVariables ctx id vars priorityOverride ttlOverride entry)) (fun store => ?_)⟩
      simp only [TemplateApi.handle, NotificationContent.resolveForTenant, get_sending]
      cases store.lookup (tenantTemplateId ctx id) <;> rfl

/-- Every request keeps the templates filed. -/
theorem filed_handle (h : Filed U store) :
    Filed U (TemplateApi.handle U config substituteVariables store ctx now r).2 := by
  cases r with
  | create r =>
      simp only [TemplateApi.handle, TemplateApi.createTemplate]
      split
      · exact h
      · have hcreate := h.create
          (t := { r.intoTemplate now with id := tenantTemplateId ctx (r.intoTemplate now).id })
        split <;> rename_i heq <;> rwa [heq] at hcreate
  | update id r =>
      simp only [TemplateApi.handle, TemplateApi.updateTemplate]
      have hupdate : Filed U (TemplateMap.update U store now (tenantTemplateId ctx id) r).2 := h.update r
      split <;> rename_i heq <;> rwa [heq] at hupdate
  | delete id =>
      simp only [TemplateApi.handle, TemplateApi.deleteTemplate]
      have hdelete : Filed U (TemplateMap.delete store (tenantTemplateId ctx id)).2 := h.delete
      split <;> rename_i heq <;> rwa [heq] at hdelete
  | list | get | send => exact h

end requests

/-! ### What a tenant sees -/

section views
variable {U : UnicodeTables} {substituteVariables : Json → Json → Except TemplateError Json}
  {tenants ids : Set String} {tenant id : String} {store store' : TemplateMap} {c : TemplateCall}

/-- The identifiers of the entries that a tenant sees or names. -/
def InView (ids : Set String) (tenant key : String) : Prop :=
  if tenant = defaultTenantId then ':' ∉ key.toList ∨ key ∈ ids else ∃ x, key = tenant ++ ":" ++ x

theorem tenantTemplateId_ctxOf (tenant id : String) : tenantTemplateId (ctxOf tenant) id =
    if tenant = defaultTenantId then id else tenant ++ ":" ++ id := by
  rw [tenantTemplateId_eq]
  rfl

/-- A tenant's own identifiers are in its view. -/
theorem inView_own (hid : tenant = defaultTenantId → id ∈ ids) :
    InView ids tenant (tenantTemplateId (ctxOf tenant) id) := by
  unfold InView
  rw [tenantTemplateId_ctxOf]
  split_ifs with ht
  · exact .inr (hid ht)
  · exact ⟨id, rfl⟩

/-- Another tenant's identifier in the view of a tenant is not valid. -/
theorem not_isTemplateId_of_inView {other : String} (hsep : Separate U tenants ids)
    (hv : ∀ t ∈ tenants, Validated U t) (ht : tenant ∈ tenants) (ho : other ∈ tenants) (hne : other ≠ tenant)
    (hid : other = defaultTenantId → id ∈ ids)
    (hview : InView ids tenant (tenantTemplateId (ctxOf other) id)) :
    ¬ IsTemplateId U (tenantTemplateId (ctxOf other) id) := by
  intro hvalid
  unfold InView at hview
  rw [tenantTemplateId_ctxOf] at hview hvalid
  split_ifs at hview hvalid with htd hod hod
  · exact hne (hod.trans htd.symm)
  · rcases hview with hcolon | hmem
    · exact hcolon colon_mem_toList
    · exact hsep (htd ▸ ht) _ hmem hvalid other ho hod id rfl
  · obtain ⟨x, hx⟩ := hview
    exact hsep (hod ▸ ho) _ (hid hod) hvalid tenant ht htd x hx
  · -- Neither tenant contains the colon that ends it.
    obtain ⟨x, hx⟩ := hview
    rcases colon_eq_colon_iff.mp hx with ⟨heq, -⟩ | ⟨d, hd, -⟩ | ⟨d, hd, -⟩
    · exact hne heq
    · exact colon_not_mem_of_validated (hv tenant ht) (hd ▸ colon_mem_toList)
    · exact colon_not_mem_of_validated (hv other ho) (hd ▸ colon_mem_toList)

theorem shown_iff (tenant : String) (t : StoredTemplate) :
    TemplateApi.shown multiTenant (ctxOf tenant) t = true ↔
      if tenant = defaultTenantId then ':' ∉ t.id.toList else ∃ x, t.id = tenant ++ ":" ++ x := by
  unfold TemplateApi.shown tenantPrefix ctxOf multiTenant TenantContext.new
  by_cases ht : tenant = defaultTenantId
  · simp [ht]
  · simp only [ht, decide_false, Bool.false_eq_true, if_false, isPrefixOf_colon_iff]

/-- The stores agree on what the tenant sees or names, and hold valid templates. -/
structure SameFor (U : UnicodeTables) (ids : Set String) (tenant : String) (store store' : TemplateMap) :
    Prop where
  agree : DashMap.Agree (InView ids tenant) store store'
  left : Filed U store
  right : Filed U store'

/-- Such stores show the tenant the same templates. -/
theorem SameFor.seen (h : SameFor U ids tenant store store') :
    (seenBy store tenant).Perm (seenBy store' tenant) := by
  refine DashMap.filter_values_perm (fun k t ht => ?_)
  have hview : t.id = k → InView ids tenant k := by
    rintro rfl
    rw [shown_iff] at ht
    unfold InView
    split_ifs at ht ⊢ with hd
    · exact .inl ht
    · exact ht
  constructor
  · intro hl
    rwa [← h.agree k (hview (h.left k t hl).1)]
  · intro hl
    rwa [h.agree k (hview (h.right k t hl).1)]

/-- A call of another tenant does not change what the tenant sees. -/
theorem SameFor.drop (h : SameFor U ids tenant store store') (hsep : Separate U tenants ids)
    (hv : ∀ t ∈ tenants, Validated U t) (ht : tenant ∈ tenants) (hc : Admitted tenants ids c)
    (hne : c.tenant ≠ tenant) : SameFor U ids tenant (step U substituteVariables store c).2 store' := by
  refine ⟨?_, filed_handle h.left, h.right⟩
  cases hid : c.request.templateId with
  | none =>
      have hlist : (step U substituteVariables store c).2 = store := by
        unfold step
        cases hr : c.request <;> simp_all [TemplateRequest.templateId, TemplateApi.handle]
      rw [hlist]
      exact h.agree
  | some id =>
      obtain ⟨f, hf⟩ := handle_actsOn U multiTenant substituteVariables (ctxOf c.tenant) c.now hid
      by_cases hview : InView ids tenant (tenantTemplateId (ctxOf c.tenant) id)
      · -- The entry is absent before and after, since its identifier is not valid.
        have hinvalid := not_isTemplateId_of_inView hsep hv ht hc.1 hne (fun hd => hc.2 hd id hid) hview
        have habsent : ∀ {s : TemplateMap}, Filed U s →
            s.lookup (tenantTemplateId (ctxOf c.tenant) id) = none := by
          intro s hs
          cases hl : s.lookup (tenantTemplateId (ctxOf c.tenant) id) with
          | none => rfl
          | some t => exact absurd (hs _ t hl).2 hinvalid
        intro k hk
        by_cases hkey : k = tenantTemplateId (ctxOf c.tenant) id
        · rw [hkey, habsent h.right]
          exact habsent (filed_handle h.left)
        · rw [← h.agree k hk]
          exact (hf.lookup store k).trans (if_neg hkey)
      · exact hf.frame h.agree hview

/-- A call of the tenant has the same answer in both stores. -/
theorem SameFor.keep (h : SameFor U ids tenant store store') (hc : Admitted tenants ids c)
    (htenant : c.tenant = tenant) :
    SameFor U ids tenant (step U substituteVariables store c).2 (step U substituteVariables store' c).2 ∧
      (step U substituteVariables store c).1.Same (step U substituteVariables store' c).1 := by
  subst htenant
  cases hid : c.request.templateId with
  | none =>
      have hlist : c.request = .list := by
        cases hr : c.request <;> simp_all [TemplateRequest.templateId]
      unfold step
      rw [hlist]
      exact ⟨h, h.seen, h.seen.length_eq⟩
  | some id =>
      obtain ⟨f, hf⟩ := handle_actsOn U multiTenant substituteVariables (ctxOf c.tenant) c.now hid
      obtain ⟨hanswer, hagree⟩ := hf.agree h.agree (inView_own (fun hd => hc.2 hd id hid))
      refine ⟨⟨hagree, filed_handle h.left, filed_handle h.right⟩, ?_⟩
      have hsame : ∀ {r r' : TemplateReply}, r = r' → r.Same r' := by
        rintro r _ rfl
        cases r <;> first | rfl | exact ⟨.refl _, rfl⟩
      exact hsame hanswer

end views

/-! ### Isolation -/

section isolation
variable {U : UnicodeTables} {substituteVariables : Json → Json → Except TemplateError Json}
  {tenants ids : Set String} {tenant : String} {calls : List TemplateCall}

theorem sameFor_empty : SameFor U ids tenant ∅ ∅ := ⟨fun _ _ => rfl, filed_empty, filed_empty⟩

/-- Separate identifiers give every tenant a store of its own. -/
theorem ownStore_of_separate (hsep : Separate U tenants ids) (hv : ∀ t ∈ tenants, Validated U t)
    (ht : tenant ∈ tenants) (hcalls : ∀ c ∈ calls, Admitted tenants ids c) :
    OwnStore U substituteVariables tenant calls := by
  have hdrop : ∀ s s', ∀ c ∈ calls, SameFor U ids tenant s s' → decide (c.tenant = tenant) = false →
      SameFor U ids tenant (step U substituteVariables s c).2 s' := by
    intro s s' c hc hs hne
    exact hs.drop hsep hv ht (hcalls c hc) (of_decide_eq_false hne)
  have hkeep : ∀ s s', ∀ c ∈ calls, SameFor U ids tenant s s' → decide (c.tenant = tenant) = true →
      SameFor U ids tenant (step U substituteVariables s c).2 (step U substituteVariables s' c).2 ∧
        (step U substituteVariables s c).1.Same (step U substituteVariables s' c).1 := by
    intro s s' c hc hs he
    exact hs.keep (hcalls c hc) (of_decide_eq_true he)
  refine ⟨Runs.observed_purge sameFor_empty (fun _ h => h) hdrop ?_, ?_⟩
  · intro s s' c hc hs he
    exact ⟨(hkeep s s' c hc hs he).1, fun _ => (hkeep s s' c hc hs he).2⟩
  · exact (Runs.final_purge sameFor_empty hdrop (fun s s' c hc hs he => (hkeep s s' c hc hs he).1)).seen

/-- The creation of a template that passes all checks of its own. -/
def plainCreate (id : String) : TemplateCall :=
  ⟨defaultTenantId, 0, .create ⟨⟨"event", .null, .normal, none⟩, id, "name", none⟩⟩

/-- The template that it stores. -/
def plainTemplate (id : String) : StoredTemplate :=
  ⟨⟨"event", .null, .normal, none⟩, id, "name", none, 0, 0⟩

theorem step_plainCreate {id : String} (hid : IsTemplateId U id) :
    (step U substituteVariables ∅ (plainCreate id)).2 = AList.insert id (plainTemplate id) ∅ := by
  have hvalid : (plainTemplate id).validate U = .ok () :=
    validate_eq_ok_iff.mpr ⟨hid, (by decide : "name".isEmpty = false ∧ "name".utf8ByteSize ≤ 256),
      (by decide : "event".isEmpty = false ∧ "event".utf8ByteSize ≤ 128)⟩
  have hscoped : tenantTemplateId (ctxOf defaultTenantId) id = id := rfl
  have hstored : plainTemplate id =
      { (⟨⟨"event", .null, .normal, none⟩, id, "name", none⟩ : CreateTemplateRequest).intoTemplate 0 with
        id := tenantTemplateId (ctxOf defaultTenantId) id } := by
    rw [hscoped]
    rfl
  have hcreate : TemplateApi.createTemplate U ∅ (ctxOf defaultTenantId) 0
      ⟨⟨"event", .null, .normal, none⟩, id, "name", none⟩ = _ := createTemplate_of_valid hstored hvalid hvalid
  unfold step plainCreate
  simp only [TemplateApi.handle, hcreate, hscoped]
  rfl

/-- A tenant lists a template that the default tenant created under its prefix. -/
theorem not_ownStore {id x : String} (hid : IsTemplateId U id) (ht : tenant ≠ defaultTenantId)
    (hx : id = tenant ++ ":" ++ x) :
    ¬ OwnStore U substituteVariables tenant [plainCreate id] := by
  intro h
  have hseen := h.seen
  have hnone : callsOf tenant [plainCreate id] = [] :=
    List.filter_cons_of_neg (fun he => ht (of_decide_eq_true he).symm)
  have hone : after U substituteVariables [plainCreate id] = AList.insert id (plainTemplate id) ∅ :=
    step_plainCreate hid
  rw [hnone, hone] at hseen
  have hshown : TemplateApi.shown multiTenant (ctxOf tenant) (plainTemplate id) = true := by
    rw [shown_iff, if_neg ht]
    exact ⟨x, hx⟩
  have hlist : seenBy (AList.insert id (plainTemplate id) ∅) tenant = [plainTemplate id] :=
    List.filter_cons_of_pos hshown
  rw [hlist] at hseen
  have hempty : seenBy (after U substituteVariables []) tenant = [] := rfl
  rw [hempty] at hseen
  exact List.cons_ne_nil _ _ hseen.eq_nil

/-- **Every tenant has a store of its own, whatever the tenants do, exactly when no valid identifier
of the default tenant begins with another tenant and a colon.** -/
theorem own_store_iff (hv : ∀ t ∈ tenants, Validated U t) :
    (∀ tenant ∈ tenants, ∀ calls, (∀ c ∈ calls, Admitted tenants ids c) →
      OwnStore U substituteVariables tenant calls) ↔ Separate U tenants ids := by
  constructor
  · intro h hd id hid hvalid t ht hne x hx
    refine not_ownStore hvalid hne hx (h t ht [plainCreate id] ?_)
    intro c hc
    rw [List.mem_singleton.mp hc]
    exact ⟨hd, fun _ id' hid' => (Option.some.inj hid') ▸ hid⟩
  · intro hsep tenant ht calls hcalls
    exact ownStore_of_separate hsep hv ht hcalls

theorem validated_acme : ∀ t ∈ ({"acme", "default"} : Set String), Validated .ascii t := by
  rintro t (rfl | rfl)
  · exact ⟨⟨some "secret", false⟩, ⟨some "secret", some "acme"⟩, by rfl⟩
  · exact ⟨⟨some "secret", false⟩, ⟨some "secret", some "default"⟩, by rfl⟩

/-- With two tenants, where the default tenant names `welcome` only, `acme` has a store of its own
beside a creation of `welcome`. -/
theorem own_store_welcome : OwnStore .ascii (fun t _ => .ok t) "acme" [plainCreate "welcome"] := by
  have hseparate : Separate .ascii {"acme", "default"} {"welcome"} := by
    rintro - id rfl - t - - x hx
    have hcolon : ':' ∈ "welcome".toList := hx ▸ colon_mem_toList
    exact absurd hcolon (by decide)
  refine (own_store_iff validated_acme).mpr hseparate "acme" (.inl rfl) [plainCreate "welcome"] ?_
  intro c hc
  rw [List.mem_singleton.mp hc]
  exact ⟨.inr rfl, fun _ id hid => (Option.some.inj hid).symm⟩

/-- The default tenant creates `acme:welcome`, which `acme` then sees. -/
theorem not_own_store :
    ¬ ∀ (U : UnicodeTables) (substituteVariables : Json → Json → Except TemplateError Json)
        (tenants : Set String), (∀ t ∈ tenants, Validated U t) →
        ∀ tenant ∈ tenants, ∀ calls, (∀ c ∈ calls, c.tenant ∈ tenants) →
          OwnStore U substituteVariables tenant calls := by
  intro hall
  have hown := hall .ascii (fun t _ => .ok t) {"acme", "default"} validated_acme "acme" (.inl rfl)
    [plainCreate "acme:welcome"] (fun c hc => List.mem_singleton.mp hc ▸ .inr rfl)
  exact not_ownStore (x := "welcome") (by decide +kernel) (by decide) rfl hown

end isolation

end TemplateIsolation

end AraNotification
