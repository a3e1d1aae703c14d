import AraNotification.Dispatcher

/-! # The HTTP notification endpoints

The six endpoints that send notifications, after `domain/notification/triggers/http`.  A
request that has passed authentication carries the context of its tenant, or none when
multi-tenancy is disabled.  Each handler resolves the content (given directly or by a
template), builds the event and calls the dispatcher: the user, users and broadcast
endpoints and every item of a batch through `dispatch_for_tenant`, the two channel endpoints
through `send_to_channel` and `send_to_channels`.  Channel names are namespaced for the
tenant but not checked.

The substitution of variables in a template is a parameter.  `Occasion` holds what one
notification of a request meets: the identifier and the clock reading drawn for the event,
and the surroundings of its dispatch.  `targets` lists the targets that a request can
dispatch to, and what a request puts on outbound channels goes to the connections that they
name (`handle_placed`). -/

namespace AraNotification

/-- `http-api`, the source of the events of this trigger. -/
def httpSource : String := "http-api"

def maxTargetUsers : ℕ := 10000
def maxChannels : ℕ := 100
def maxBatchSize : ℕ := 100

/-! ### Templates and content -/

/-- Template-specific error type. -/
inductive TemplateError where
  | notFound (id : String)
  | alreadyExists (id : String)
  | invalidId (reason : String)
  | invalidTemplate (reason : String)
  | substitutionFailed (reason : String)
deriving DecidableEq, Repr

/-- The `Display` text of a template error. -/
def TemplateError.display : TemplateError → String
  | notFound id => "Template not found: " ++ id
  | alreadyExists id => "Template already exists: " ++ id
  | invalidId reason => "Invalid template ID: " ++ reason
  | invalidTemplate reason => "Invalid template: " ++ reason
  | substitutionFailed reason => "Variable substitution failed: " ++ reason

/-- Application error of a request. -/
inductive AppError where
  | validation (message : String)
deriving DecidableEq, Repr

/-- The `Display` text of an application error. -/
def AppError.display : AppError → String
  | validation message => "Validation error: " ++ message

/-- The fields of a template that sending reads. -/
structure Template where
  eventType : String
  payloadTemplate : Json
  defaultPriority : Priority
  defaultTtl : Option ℕ

/-- The stored templates, with the substitution of variables. -/
structure TemplateStore where
  templates : DashMap String Template
  substituteVariables : Json → Json → Except TemplateError Json

def TemplateStore.get (store : TemplateStore) (id : String) : Except TemplateError Template :=
  match store.templates.lookup id with
  | some t => .ok t
  | none => .error (.notFound id)

/-- Content specification for notifications. -/
inductive NotificationContent where
  | template (templateId : String) (vars : Json)
  | direct (eventType : String) (payload : Json)

/-- Resolved notification content ready for dispatch. -/
structure ResolvedContent where
  eventType : String
  payload : Json
  priority : Priority
  ttl : Option ℕ

/-- Resolve content, with template identifiers scoped to the tenant. -/
def NotificationContent.resolveForTenant (content : NotificationContent) (store : TemplateStore)
    (tenantId : Option String) (priorityOverride : Option Priority) (ttlOverride : Option ℕ) :
    Except AppError ResolvedContent :=
  match content with
  | .template templateId vars =>
      match store.get (tenantScopedKey (tenantId.getD defaultTenantId) templateId) with
      | .error e => .error (.validation e.display)
      | .ok t =>
          match store.substituteVariables t.payloadTemplate vars with
          | .error e => .error (.validation e.display)
          | .ok payload =>
              .ok ⟨t.eventType, payload, priorityOverride.getD t.defaultPriority,
                ttlOverride.orElse (fun _ => t.defaultTtl)⟩
  | .direct eventType payload => .ok ⟨eventType, payload, priorityOverride.getD .normal, ttlOverride⟩

/-! ### Requests and responses -/

/-- What every request for a notification carries besides its target. -/
structure NotificationRequest where
  content : NotificationContent
  priority : Option Priority
  ttl : Option ℕ
  correlationId : Option String

structure SendNotificationRequest extends NotificationRequest where
  targetUserId : String

structure SendToUsersRequest extends NotificationRequest where
  targetUserIds : List String

structure BroadcastNotificationRequest extends NotificationRequest where
  audience : Option Audience

structure ChannelNotificationRequest extends NotificationRequest where
  channel : String

structure MultiChannelNotificationRequest extends NotificationRequest where
  channels : List String

/-- Target specification for batch notifications. -/
inductive BatchTarget where
  | user (id : String)
  | users (ids : List String)
  | broadcast
  | channel (name : String)
  | channels (names : List String)
deriving DecidableEq, Repr

structure BatchNotificationItem extends NotificationRequest where
  target : BatchTarget

structure BatchOptions where
  stopOnError : Bool
  deduplicate : Bool
deriving DecidableEq, Repr

structure BatchSendRequest where
  notifications : List BatchNotificationItem
  options : BatchOptions

structure SendNotificationResponse where
  success : Bool
  notificationId : Uuid
  deliveredTo : ℕ
  failed : ℕ
  timestamp : DateTime
deriving DecidableEq, Repr

/-- Result for a single notification in a batch; the nil identifier is `0`. -/
structure BatchItemResult where
  index : ℕ
  notificationId : Uuid
  deliveredTo : ℕ
  failed : ℕ
  success : Bool
  error : Option String
  skipped : Option Bool
deriving DecidableEq, Repr

structure BatchSummary where
  total : ℕ
  succeeded : ℕ
  failed : ℕ
  skipped : ℕ
  totalDelivered : ℕ
deriving DecidableEq, Repr

structure BatchSendResponse where
  batchId : Uuid
  results : List BatchItemResult
  summary : BatchSummary
  timestamp : DateTime
deriving DecidableEq, Repr

/-- What one notification of a request meets. -/
structure Occasion where
  id : Uuid
  occurredAt : DateTime
  env : Surroundings
  timestamp : DateTime

/-- Build the event of a request from its resolved content. -/
def buildEvent (resolved : ResolvedContent) (audience : Option Audience) (correlationId : Option String)
    (o : Occasion) : NotificationEvent :=
  { NotificationBuilder.new resolved.eventType httpSource with
    payload := resolved.payload
    priority := resolved.priority
    ttl := resolved.ttl
    audience := audience
    correlationId := correlationId }.build o.id o.occurredAt

/-! ### Handlers -/

namespace Http
variable (m : ConnectionManager) (store : TemplateStore) (ctx : Option TenantContext)

/-- The tenant of a request. -/
def tenantId : Option String := ctx.map (·.tenantId)

/-- Namespace a channel name for the tenant of the request, if there is one. -/
def namespaced (channel : String) : String :=
  match ctx with
  | some t => t.namespaceChannel channel
  | none => channel

/-- Namespace a list of channel names. -/
def namespacedAll (channels : List String) : List String :=
  match ctx with
  | some t => channels.map t.namespaceChannel
  | none => channels

/-- The response of an endpoint. -/
def respond (o : Occasion) (r : DeliveryResult) : SendNotificationResponse :=
  ⟨r.success, r.notificationId, r.deliveredTo, r.failed, o.timestamp⟩

/-- Resolve the content, build the event and send it. -/
def sendWith (d : Dispatcher) (o : Occasion) (request : NotificationRequest) (audience : Option Audience)
    (send : NotificationEvent → DeliveryResult × Dispatcher) :
    Except AppError SendNotificationResponse × Dispatcher :=
  match request.content.resolveForTenant store (tenantId ctx) request.priority request.ttl with
  | .error e => (.error e, d)
  | .ok resolved =>
      let (result, d') := send (buildEvent resolved audience request.correlationId o)
      (.ok (respond o result), d')

/-- Send notification to a specific user. -/
def sendNotification (d : Dispatcher) (o : Occasion) (r : SendNotificationRequest) :
    Except AppError SendNotificationResponse × Dispatcher :=
  sendWith store ctx d o r.toNotificationRequest none
    (fun event => d.dispatchForTenant o.env m (.user r.targetUserId) event (tenantId ctx))

/-- Send notification to multiple users. -/
def sendToUsers (d : Dispatcher) (o : Occasion) (r : SendToUsersRequest) :
    Except AppError SendNotificationResponse × Dispatcher :=
  if r.targetUserIds.length > maxTargetUsers then
    (.error (.validation ("target_user_ids exceeds maximum of " ++ toString maxTargetUsers ++
      " (got " ++ toString r.targetUserIds.length ++ ")")), d)
  else
    sendWith store ctx d o r.toNotificationRequest none
      (fun event => d.dispatchForTenant o.env m (.users r.targetUserIds) event (tenantId ctx))

/-- Broadcast notification to all connected users. -/
def broadcastNotification (d : Dispatcher) (o : Occasion) (r : BroadcastNotificationRequest) :
    Except AppError SendNotificationResponse × Dispatcher :=
  sendWith store ctx d o r.toNotificationRequest r.audience
    (fun event => d.dispatchForTenant o.env m .broadcast event (tenantId ctx))

/-- Send notification to a channel. -/
def channelNotification (d : Dispatcher) (o : Occasion) (r : ChannelNotificationRequest) :
    Except AppError SendNotificationResponse × Dispatcher :=
  sendWith store ctx d o r.toNotificationRequest none
    (fun event => d.sendToChannel o.env m (namespaced ctx r.channel) event)

/-- Send notification to multiple channels. -/
def multiChannelNotification (d : Dispatcher) (o : Occasion) (r : MultiChannelNotificationRequest) :
    Except AppError SendNotificationResponse × Dispatcher :=
  if r.channels.length > maxChannels then
    (.error (.validation ("channels exceeds maximum of " ++ toString maxChannels ++
      " (got " ++ toString r.channels.length ++ ")")), d)
  else
    sendWith store ctx d o r.toNotificationRequest none
      (fun event => d.sendToChannels o.env m (namespacedAll ctx r.channels) event)

/-! ### Batches -/

/-- Convert to a notification target, with namespaced channels. -/
def intoNotificationTarget : BatchTarget → NotificationTarget
  | .user id => .user id
  | .users ids => .users ids
  | .broadcast => .broadcast
  | .channel name => .channel (namespaced ctx name)
  | .channels names => .channels (namespacedAll ctx names)

/-- A string key for deduplication. -/
def dedupKey : BatchTarget → String
  | .user id => "user:" ++ id
  | .users ids => "users:" ++ ",".intercalate (ids.mergeSort (fun a b => decide (a ≤ b)))
  | .broadcast => "broadcast"
  | .channel name => "channel:" ++ name
  | .channels names => "channels:" ++ ",".intercalate (names.mergeSort (fun a b => decide (a ≤ b)))

/-- The accumulators of the batch loop. -/
structure BatchState where
  results : List BatchItemResult
  succeeded : ℕ
  failed : ℕ
  skipped : ℕ
  totalDelivered : ℕ
  seenKeys : List String
  dispatcher : Dispatcher

namespace BatchState
variable (s : BatchState)

/-- An item whose content cannot be resolved. -/
def resolveError (index : ℕ) (e : AppError) : BatchState :=
  { s with
    results := s.results ++ [⟨index, 0, 0, 0, false, some e.display, none⟩]
    failed := s.failed + 1 }

/-- An item that repeats an earlier one. -/
def skipDuplicate (index : ℕ) : BatchState :=
  { s with
    results := s.results ++ [⟨index, 0, 0, 0, true, none, some true⟩]
    skipped := s.skipped + 1 }

/-- An item that was dispatched. -/
def dispatched (index : ℕ) (r : DeliveryResult) (d : Dispatcher) : BatchState :=
  { s with
    results := s.results ++ [⟨index, r.notificationId, r.deliveredTo, r.failed, r.success, none, none⟩]
    succeeded := if r.success then s.succeeded + 1 else s.succeeded
    failed := if r.success then s.failed else s.failed + 1
    totalDelivered := s.totalDelivered + r.deliveredTo
    dispatcher := d }

/-- The items after a failed dispatch with `stop_on_error`. -/
def skipRemaining (index total : ℕ) : BatchState :=
  { s with
    results := s.results ++ (List.range' (index + 1) (total - (index + 1))).map (fun i =>
      ⟨i, 0, 0, 0, false, some "Skipped due to stop_on_error", some true⟩)
    skipped := s.skipped + (total - (index + 1)) }

end BatchState

/-- The loop over the items of a batch. -/
def batchLoop (options : BatchOptions) (total : ℕ) (occasion : ℕ → Occasion) :
    List BatchNotificationItem → ℕ → BatchState → BatchState
  | [], _, s => s
  | item :: rest, index, s =>
      match item.content.resolveForTenant store (tenantId ctx) item.priority item.ttl with
      | .error e =>
          if options.stopOnError then s.resolveError index e
          else batchLoop options total occasion rest (index + 1) (s.resolveError index e)
      | .ok resolved =>
          let key := dedupKey item.target ++ ":" ++ resolved.eventType
          if options.deduplicate && s.seenKeys.contains key then
            batchLoop options total occasion rest (index + 1) (s.skipDuplicate index)
          else
            let s₁ := if options.deduplicate then { s with seenKeys := key :: s.seenKeys } else s
            let o := occasion index
            let event := buildEvent resolved none item.correlationId o
            let (result, d) := s₁.dispatcher.dispatchForTenant o.env m
              (intoNotificationTarget ctx item.target) event (tenantId ctx)
            let s₂ := s₁.dispatched index result d
            if !result.success && options.stopOnError then s₂.skipRemaining index total
            else batchLoop options total occasion rest (index + 1) s₂

/-- Send notifications in batch. -/
def batchSend (d : Dispatcher) (occasion : ℕ → Occasion) (batchId : Uuid) (timestamp : DateTime)
    (r : BatchSendRequest) : Except AppError BatchSendResponse × Dispatcher :=
  let total := r.notifications.length
  if total > maxBatchSize then
    (.error (.validation ("Batch size " ++ toString total ++ " exceeds maximum of " ++
      toString maxBatchSize)), d)
  else if total = 0 then (.error (.validation "Batch cannot be empty"), d)
  else
    let s := batchLoop m store ctx r.options total occasion r.notifications 0 ⟨[], 0, 0, 0, 0, [], d⟩
    (.ok ⟨batchId, s.results, ⟨total, s.succeeded, s.failed, s.skipped, s.totalDelivered⟩, timestamp⟩,
      s.dispatcher)

/-! ### All endpoints -/

/-- A request to one of the notification endpoints. -/
inductive ApiRequest where
  | send (r : SendNotificationRequest)
  | sendToUsers (r : SendToUsersRequest)
  | broadcast (r : BroadcastNotificationRequest)
  | channel (r : ChannelNotificationRequest)
  | channels (r : MultiChannelNotificationRequest)
  | batch (r : BatchSendRequest)

/-- The body of a response. -/
inductive ApiResponse where
  | sent (r : SendNotificationResponse)
  | batch (r : BatchSendResponse)

/-- Wrap the body of a response. -/
def answer {α : Type} (wrap : α → ApiResponse) (r : Except AppError α × Dispatcher) :
    Except AppError ApiResponse × Dispatcher :=
  (r.1.map wrap, r.2)

/-- Handle a request; `occasion i` is what its `i`-th notification meets. -/
def handle (d : Dispatcher) (occasion : ℕ → Occasion) (batchId : Uuid) (timestamp : DateTime) :
    ApiRequest → Except AppError ApiResponse × Dispatcher
  | .send r => answer .sent (sendNotification m store ctx d (occasion 0) r)
  | .sendToUsers r => answer .sent (sendToUsers m store ctx d (occasion 0) r)
  | .broadcast r => answer .sent (broadcastNotification m store ctx d (occasion 0) r)
  | .channel r => answer .sent (channelNotification m store ctx d (occasion 0) r)
  | .channels r => answer .sent (multiChannelNotification m store ctx d (occasion 0) r)
  | .batch r => answer .batch (batchSend m store ctx d occasion batchId timestamp r)

/-- The targets that a request names. -/
def ApiRequest.targets : ApiRequest → List NotificationTarget
  | .send r => [.user r.targetUserId]
  | .sendToUsers r => [.users r.targetUserIds]
  | .broadcast _ => [.broadcast]
  | .channel r => [.channel (namespaced ctx r.channel)]
  | .channels r => [.channels (namespacedAll ctx r.channels)]
  | .batch r => r.notifications.map (fun item => intoNotificationTarget ctx item.target)

/-- The channel names that a batch target contains. -/
def BatchTarget.channelNames : BatchTarget → List String
  | .channel name => [name]
  | .channels names => names
  | _ => []

/-- The channel names that a request contains, as the client wrote them. -/
def ApiRequest.channelNames : ApiRequest → List String
  | .channel r => [r.channel]
  | .channels r => r.channels
  | .batch r => r.notifications.flatMap (fun item => BatchTarget.channelNames item.target)
  | _ => []

/-! ### Who receives what -/

section placed
variable {m : ConnectionManager} {store : TemplateStore} {ctx : Option TenantContext} {d : Dispatcher}

/-- `d'` has put on outbound channels only what `d` had and notifications for the connections
of one of the targets. -/
def PlacedFor (m : ConnectionManager) (ctx : Option TenantContext) (targets : List NotificationTarget)
    (d d' : Dispatcher) : Prop :=
  ∀ p ∈ d'.outbox, p ∈ d.outbox ∨
    ∃ target ∈ targets, p.conn ∈ Dispatcher.recipients m (tenantId ctx) target

theorem PlacedFor.refl {targets : List NotificationTarget} : PlacedFor m ctx targets d d :=
  fun _ hp => .inl hp

theorem PlacedFor.append {targets targets' : List NotificationTarget} {d' d'' : Dispatcher}
    (h : PlacedFor m ctx targets d d') (h' : PlacedFor m ctx targets' d' d'') :
    PlacedFor m ctx (targets ++ targets') d d'' := by
  intro p hp
  rcases h' p hp with hp | ⟨target, ht, hc⟩
  · rcases h p hp with hp | ⟨target, ht, hc⟩
    · exact .inl hp
    · exact .inr ⟨target, List.mem_append_left _ ht, hc⟩
  · exact .inr ⟨target, List.mem_append_right _ ht, hc⟩

theorem placedFor_of_placed {d' : Dispatcher} {event : NotificationEvent} {target : NotificationTarget}
    {conns : List ConnectionHandle} {targets : List NotificationTarget} (ht : target ∈ targets)
    (hs : ∀ c ∈ conns, c ∈ Dispatcher.recipients m (tenantId ctx) target)
    (h : Dispatcher.Placed d d' conns event) : PlacedFor m ctx targets d d' := by
  intro p hp
  rcases h p hp with hp | ⟨hc, -⟩
  · exact .inl hp
  · exact .inr ⟨target, ht, hs _ hc⟩

theorem placedFor_sendWith {targets : List NotificationTarget} {o : Occasion} {r : NotificationRequest}
    {audience : Option Audience} {send : NotificationEvent → DeliveryResult × Dispatcher}
    (h : ∀ event, PlacedFor m ctx targets d (send event).2) :
    PlacedFor m ctx targets d (sendWith store ctx d o r audience send).2 := by
  unfold sendWith
  split
  · exact .refl
  · exact h _

theorem placedFor_batchLoop {options : BatchOptions} {total : ℕ} {occasion : ℕ → Occasion}
    (items : List BatchNotificationItem) (index : ℕ) (s : BatchState) :
    PlacedFor m ctx (items.map (fun item => intoNotificationTarget ctx item.target)) s.dispatcher
      (batchLoop m store ctx options total occasion items index s).dispatcher := by
  induction items generalizing index s with
  | nil => exact .refl
  | cons item items ih =>
      have skip : ∀ s' : BatchState, s'.dispatcher = s.dispatcher →
          PlacedFor m ctx ((item :: items).map (fun item => intoNotificationTarget ctx item.target))
            s.dispatcher (batchLoop m store ctx options total occasion items (index + 1) s').dispatcher := by
        intro s' hs'
        rw [← hs']
        exact (PlacedFor.refl : PlacedFor m ctx [intoNotificationTarget ctx item.target] _ _).append (ih (index + 1) s')
      have hsent : ∀ event, PlacedFor m ctx [intoNotificationTarget ctx item.target] s.dispatcher
          (s.dispatcher.dispatchForTenant (occasion index).env m (intoNotificationTarget ctx item.target) event
            (tenantId ctx)).2 := fun event =>
        placedFor_of_placed List.mem_cons_self (fun _ hc => hc) Dispatcher.dispatchForTenant_placed
      simp only [batchLoop]
      split
      · split_ifs
        · exact .refl
        · exact skip _ rfl
      · rename_i resolved _
        split_ifs
        · exact skip _ rfl
        -- The item is dispatched, and the loop stops or goes on.
        · exact (hsent _).append .refl
        · exact (hsent _).append (ih _ _)
        · exact (hsent _).append .refl
        · exact (hsent _).append (ih _ _)

/-- A request puts notifications only on the connections that its targets name. -/
theorem handle_placed (occasion : ℕ → Occasion) (batchId : Uuid) (timestamp : DateTime) (r : ApiRequest) :
    PlacedFor m ctx (r.targets ctx) d (handle m store ctx d occasion batchId timestamp r).2 := by
  have hdispatch : ∀ (target : NotificationTarget) (event : NotificationEvent),
      PlacedFor m ctx [target] d
        (d.dispatchForTenant (occasion 0).env m target event (tenantId ctx)).2 := fun target event =>
    placedFor_of_placed List.mem_cons_self (fun _ hc => hc) Dispatcher.dispatchForTenant_placed
  cases r with
  | send r => exact placedFor_sendWith (hdispatch (.user r.targetUserId))
  | sendToUsers r =>
      simp only [handle, answer, sendToUsers]
      split_ifs
      · exact .refl
      · exact placedFor_sendWith (hdispatch (.users r.targetUserIds))
  | broadcast r => exact placedFor_sendWith (hdispatch .broadcast)
  | channel r =>
      refine placedFor_sendWith (fun event => ?_)
      exact placedFor_of_placed List.mem_cons_self (fun _ hc => hc) Dispatcher.placed_deliver
  | channels r =>
      simp only [handle, answer, multiChannelNotification]
      split_ifs
      · exact .refl
      · refine placedFor_sendWith (fun event => ?_)
        exact placedFor_of_placed List.mem_cons_self (fun _ hc => Dispatcher.mem_collectChannels hc)
          Dispatcher.placed_deliver
  | batch r =>
      simp only [handle, answer, batchSend]
      split_ifs
      · exact .refl
      · exact .refl
      · exact placedFor_batchLoop r.notifications 0 ⟨[], 0, 0, 0, 0, [], d⟩

end placed

end Http

end AraNotification
