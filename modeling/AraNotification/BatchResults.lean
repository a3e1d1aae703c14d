import AraNotification.DispatchRecipients
import AraNotification.Http

/-! # The results of a batch

`batch_send` goes through the items of a batch in their order.  The entry of an item depends on its
content, on the items before it when duplicates are removed, and on the connections that take its
notification, but not on what the dispatcher holds (`dispatchForTenant_fst`): `entry` gives it in
these terms, and the loop reports it for every item that it comes to (`batchLoop_spec`).

With `stop_on_error` the loop ends with the first item that fails.  When the item was dispatched to no
connection, the items after it are reported as skipped; when its content could not be resolved, they
are not reported at all.  The response is complete exactly when this does not happen before the end of
the batch (`batchSend_complete_iff`). -/

namespace AraNotification

/-! ### The outcome of a dispatch -/

namespace Dispatcher

/-- The connections to which a dispatch sends, one after the other. -/
def attempted (m : ConnectionManager) (tenantId : Option String) : NotificationTarget → List ConnectionHandle
  | .user userId => getUserConnectionsFiltered m userId tenantId
  | .users userIds => userIds.flatMap (fun userId => getUserConnectionsFiltered m userId tenantId)
  | .broadcast => getBroadcastConnections m tenantId
  | .channel channel => m.getChannelConnections channel
  | .channels channels => collectChannels m channels

/-- The result of a dispatch, from the connections and those of them that take the message. -/
def outcome (env : Surroundings) (m : ConnectionManager) (target : NotificationTarget) (event : NotificationEvent)
    (tenantId : Option String) : DeliveryResult :=
  if event.isExpired env.now then .new event.id 0 0
  else .new event.id ((attempted m tenantId target).filter (fun c => env.accepts c.id)).length
    ((attempted m tenantId target).filter (fun c => !env.accepts c.id)).length

section outcome
variable {env : Surroundings} {m : ConnectionManager} {event : NotificationEvent} {T : Option String}
variable {d d' : Dispatcher}

theorem eq_outcome_of_sent {conns : List ConnectionHandle} {r : DeliveryResult}
    (hr : r = .new event.id r.deliveredTo r.failed) (h : Sent env event conns d d' r.deliveredTo r.failed) :
    r = .new event.id (conns.filter (fun c => env.accepts c.id)).length
      (conns.filter (fun c => !env.accepts c.id)).length := by
  rw [← h.delivered_eq, ← h.failed_eq]
  exact hr

/-- The result of a dispatch does not depend on the dispatcher. -/
theorem dispatchForTenant_fst (d : Dispatcher) (target : NotificationTarget) :
    (d.dispatchForTenant env m target event T).1 = outcome env m target event T := by
  unfold dispatchForTenant outcome
  split_ifs
  · rfl
  · cases target with
    | user userId =>
        refine eq_outcome_of_sent ?_ sent_sendToUserForTenant
        unfold sendToUserForTenant
        simp only
        split_ifs <;> rfl
    | users userIds => exact eq_outcome_of_sent rfl sent_sendToUsersForTenant
    | broadcast => exact eq_outcome_of_sent rfl sent_deliver
    | channel channel => exact eq_outcome_of_sent rfl sent_deliver
    | channels channels => exact eq_outcome_of_sent rfl sent_deliver

end outcome

end Dispatcher

namespace Http

/-! ### The entry of an item -/

section entries
variable (m : ConnectionManager) (store : TemplateStore) (ctx : Option TenantContext) (options : BatchOptions)
  (occasion : ℕ → Occasion)

/-- The content of an item for the tenant of the request. -/
def resolveItem (item : BatchNotificationItem) : Except AppError ResolvedContent :=
  item.content.resolveForTenant store (tenantId ctx) item.priority item.ttl

/-- The deduplication key of an item whose content resolves. -/
def itemKey (item : BatchNotificationItem) : Option String :=
  match resolveItem store ctx item with
  | .ok resolved => some (dedupKey item.target ++ ":" ++ resolved.eventType)
  | .error _ => none

/-- The key of an item is that of one before it, and duplicates are removed. -/
def isDuplicate (earlier : List BatchNotificationItem) (item : BatchNotificationItem) : Bool :=
  options.deduplicate && decide (itemKey store ctx item ∈ earlier.map (itemKey store ctx))

/-- The result of the dispatch of the `i`-th item. -/
def itemOutcome (i : ℕ) (item : BatchNotificationItem) (resolved : ResolvedContent) : DeliveryResult :=
  Dispatcher.outcome (occasion i).env m (intoNotificationTarget ctx item.target)
    (buildEvent resolved none item.correlationId (occasion i)) (tenantId ctx)

/-- The entry of an item with the given items before it. -/
def entry (earlier : List BatchNotificationItem) (item : BatchNotificationItem) : BatchItemResult :=
  match resolveItem store ctx item with
  | .error e => ⟨earlier.length, 0, 0, 0, false, some e.display, none⟩
  | .ok resolved =>
      if isDuplicate store ctx options earlier item then ⟨earlier.length, 0, 0, 0, true, none, some true⟩
      else
        let r := itemOutcome m ctx occasion earlier.length item resolved
        ⟨earlier.length, r.notificationId, r.deliveredTo, r.failed, r.success, none, none⟩

/-- The entries of items that follow the given ones. -/
def entries (earlier : List BatchNotificationItem) : List BatchNotificationItem → List BatchItemResult
  | [] => []
  | item :: rest => entry m store ctx options occasion earlier item :: entries (earlier ++ [item]) rest

/-- The dispatcher after an item; a duplicate is not dispatched. -/
def dispatchItem (d : Dispatcher) (earlier : List BatchNotificationItem) (item : BatchNotificationItem) : Dispatcher :=
  match resolveItem store ctx item with
  | .error _ => d
  | .ok resolved =>
      if isDuplicate store ctx options earlier item then d
      else
        let o := occasion earlier.length
        (d.dispatchForTenant o.env m (intoNotificationTarget ctx item.target)
          (buildEvent resolved none item.correlationId o) (tenantId ctx)).2

/-- The dispatcher after the items that follow the given ones. -/
def dispatchAll (d : Dispatcher) (earlier : List BatchNotificationItem) : List BatchNotificationItem → Dispatcher
  | [] => d
  | item :: rest =>
      dispatchAll (dispatchItem m store ctx options occasion d earlier item) (earlier ++ [item]) rest

/-- An item is sent to a connection, or is skipped as a duplicate of one before it. -/
def succeeds (earlier : List BatchNotificationItem) (item : BatchNotificationItem) : Bool :=
  match resolveItem store ctx item with
  | .error _ => false
  | .ok resolved =>
      isDuplicate store ctx options earlier item || (itemOutcome m ctx occasion earlier.length item resolved).success

/-- Every item is successful with those before it. -/
def AllSucceed (items : List BatchNotificationItem) : Prop :=
  ∀ earlier item rest, items = earlier ++ item :: rest →
    succeeds m store ctx options occasion earlier item = true

/-- The loop comes to the item after the given ones. -/
def Reached (earlier : List BatchNotificationItem) : Prop :=
  options.stopOnError = true → AllSucceed m store ctx options occasion earlier

end entries

/-! ### What an entry reports -/

/-- An entry of an item that was skipped. -/
def isSkipped (e : BatchItemResult) : Bool := e.skipped == some true

/-- An entry of an item that failed. -/
def isFailed (e : BatchItemResult) : Bool := !e.success && !isSkipped e

/-- An entry of an item that was delivered. -/
def isSucceeded (e : BatchItemResult) : Bool := e.success && !isSkipped e

/-- The counters are those of the entries. -/
structure Tallied (s : BatchState) : Prop where
  succeeded : s.succeeded = s.results.countP isSucceeded
  failed : s.failed = s.results.countP isFailed
  skipped : s.skipped = s.results.countP isSkipped
  totalDelivered : s.totalDelivered = (s.results.map (·.deliveredTo)).sum

section tallies
variable {s : BatchState} {index total : ℕ}

theorem Tallied.resolveError (h : Tallied s) (e : AppError) : Tallied (s.resolveError index e) where
  succeeded := by simp [BatchState.resolveError, h.succeeded, isSucceeded]
  failed := by simp [BatchState.resolveError, h.failed, isFailed, isSkipped]
  skipped := by simp [BatchState.resolveError, h.skipped, isSkipped]
  totalDelivered := by simp [BatchState.resolveError, h.totalDelivered]

theorem Tallied.skipDuplicate (h : Tallied s) : Tallied (s.skipDuplicate index) where
  succeeded := by simp [BatchState.skipDuplicate, h.succeeded, isSucceeded, isSkipped]
  failed := by simp [BatchState.skipDuplicate, h.failed, isFailed]
  skipped := by simp [BatchState.skipDuplicate, h.skipped, isSkipped]
  totalDelivered := by simp [BatchState.skipDuplicate, h.totalDelivered]

theorem Tallied.dispatched (h : Tallied s) (r : DeliveryResult) (d : Dispatcher) :
    Tallied (s.dispatched index r d) where
  succeeded := by cases hr : r.success <;> simp [BatchState.dispatched, h.succeeded, isSucceeded, isSkipped, hr]
  failed := by cases hr : r.success <;> simp [BatchState.dispatched, h.failed, isFailed, isSkipped, hr]
  skipped := by simp [BatchState.dispatched, h.skipped, isSkipped]
  totalDelivered := by simp [BatchState.dispatched, h.totalDelivered]

theorem Tallied.skipRemaining (h : Tallied s) : Tallied (s.skipRemaining index total) where
  succeeded := by
    simp only [BatchState.skipRemaining, List.countP_append, List.countP_map, h.succeeded]
    exact (Nat.add_eq_left.mpr (List.countP_eq_zero.mpr (fun i _ => by simp [isSucceeded]))).symm
  failed := by
    simp only [BatchState.skipRemaining, List.countP_append, List.countP_map, h.failed]
    exact (Nat.add_eq_left.mpr (List.countP_eq_zero.mpr (fun i _ => by simp [isFailed, isSkipped]))).symm
  skipped := by
    have hall : (List.range' (index + 1) (total - (index + 1))).countP
        (isSkipped ∘ fun i => ⟨i, 0, 0, 0, false, some "Skipped due to stop_on_error", some true⟩) =
          total - (index + 1) :=
      (List.countP_eq_length.mpr (fun i _ => rfl)).trans List.length_range'
    simp only [BatchState.skipRemaining, List.countP_append, List.countP_map, h.skipped, hall]
  totalDelivered := by
    simp only [BatchState.skipRemaining, List.map_append, List.sum_append, List.map_map, h.totalDelivered]
    exact (Nat.add_eq_left.mpr (List.sum_eq_zero (fun x hx => by
      obtain ⟨i, -, rfl⟩ := List.mem_map.mp hx
      rfl))).symm

/-- Every entry is of exactly one kind. -/
theorem Tallied.sum (h : Tallied s) : s.succeeded + s.failed + s.skipped = s.results.length := by
  rw [h.succeeded, h.failed, h.skipped]
  induction s.results with
  | nil => rfl
  | cons e results ih =>
      simp only [List.countP_cons, List.length_cons]
      have hone : (if isSucceeded e = true then 1 else 0) + (if isFailed e = true then 1 else 0) +
          (if isSkipped e = true then 1 else 0) = 1 := by
        unfold isSucceeded isFailed
        cases e.success <;> cases isSkipped e <;> rfl
      omega

end tallies

/-! ### The loop -/

section loop
variable {m : ConnectionManager} {store : TemplateStore} {ctx : Option TenantContext} {options : BatchOptions}
  {occasion : ℕ → Occasion} {d : Dispatcher} {earlier rest items : List BatchNotificationItem}
  {item : BatchNotificationItem} {s : BatchState} {total : ℕ}

theorem entries_snoc (items : List BatchNotificationItem) :
    entries m store ctx options occasion earlier (items ++ [item]) =
      entries m store ctx options occasion earlier items ++
        [entry m store ctx options occasion (earlier ++ items) item] := by
  induction items generalizing earlier with
  | nil => simp [entries]
  | cons first items ih => simp [entries, ih]

theorem length_entries : (entries m store ctx options occasion earlier items).length = items.length := by
  induction items generalizing earlier with
  | nil => rfl
  | cons first items ih => simp [entries, ih]

theorem success_entry : (entry m store ctx options occasion earlier item).success =
    succeeds m store ctx options occasion earlier item := by
  unfold entry succeeds
  split
  · rfl
  · cases isDuplicate store ctx options earlier item <;> rfl

theorem mem_entries {e : BatchItemResult} (he : e ∈ entries m store ctx options occasion earlier items) :
    ∃ before item after, items = before ++ item :: after ∧
      e = entry m store ctx options occasion (earlier ++ before) item := by
  induction items generalizing earlier with
  | nil => exact absurd he List.not_mem_nil
  | cons first items ih =>
      rcases List.mem_cons.mp he with rfl | he
      · exact ⟨[], first, items, rfl, by rw [List.append_nil]⟩
      · obtain ⟨before, item, after, rfl, rfl⟩ := ih he
        exact ⟨first :: before, item, after, rfl, by rw [List.append_assoc, List.singleton_append]⟩

theorem index_entry : (entry m store ctx options occasion earlier item).index = earlier.length := by
  unfold entry
  split
  · rfl
  · split_ifs <;> rfl

theorem index_entries (earlier : List BatchNotificationItem) :
    (entries m store ctx options occasion earlier items).map (·.index) =
      List.range' earlier.length items.length := by
  induction items generalizing earlier with
  | nil => rfl
  | cons first items ih =>
      rw [entries, List.map_cons, ih, index_entry, List.length_append, List.length_cons, List.length_cons,
        List.range'_succ]
      rfl

theorem dispatchAll_snoc (items : List BatchNotificationItem) :
    dispatchAll m store ctx options occasion d earlier (items ++ [item]) =
      dispatchItem m store ctx options occasion (dispatchAll m store ctx options occasion d earlier items)
        (earlier ++ items) item := by
  induction items generalizing d earlier with
  | nil => simp [dispatchAll]
  | cons first items ih => simp [dispatchAll, ih]

theorem allSucceed_snoc : AllSucceed m store ctx options occasion (items ++ [item]) ↔
    AllSucceed m store ctx options occasion items ∧
      succeeds m store ctx options occasion items item = true :=
  Runs.forall_split_snoc

/-- The loop has gone through the given items. -/
structure Processed (m : ConnectionManager) (store : TemplateStore) (ctx : Option TenantContext)
    (options : BatchOptions) (occasion : ℕ → Occasion) (d : Dispatcher) (items : List BatchNotificationItem)
    (s : BatchState) : Prop where
  results : s.results = entries m store ctx options occasion [] items
  seen : options.deduplicate = true → ∀ key, key ∈ s.seenKeys ↔ some key ∈ items.map (itemKey store ctx)
  dispatcher : s.dispatcher = dispatchAll m store ctx options occasion d [] items
  tallied : Tallied s

theorem Processed.start : Processed m store ctx options occasion d [] ⟨[], 0, 0, 0, 0, [], d⟩ where
  results := rfl
  seen _ key := by simp
  dispatcher := rfl
  tallied := ⟨rfl, rfl, rfl, rfl⟩

theorem Processed.resolveError (h : Processed m store ctx options occasion d items s) {e : AppError}
    (he : resolveItem store ctx item = .error e) :
    Processed m store ctx options occasion d (items ++ [item]) (s.resolveError items.length e) where
  results := by
    have hentry : entry m store ctx options occasion items item =
        ⟨items.length, 0, 0, 0, false, some e.display, none⟩ := by
      simp [entry, he]
    rw [entries_snoc, List.nil_append, hentry, ← h.results]
    rfl
  seen hdedup key := by
    have hkey : itemKey store ctx item = none := by simp [itemKey, he]
    simp only [BatchState.resolveError, h.seen hdedup, List.map_append, List.mem_append]
    simp [hkey]
  dispatcher := by
    rw [dispatchAll_snoc, ← h.dispatcher]
    simp [dispatchItem, he, BatchState.resolveError]
  tallied := h.tallied.resolveError e

theorem Processed.skipDuplicate (h : Processed m store ctx options occasion d items s) {resolved : ResolvedContent}
    (hr : resolveItem store ctx item = .ok resolved) (hdup : isDuplicate store ctx options items item = true) :
    Processed m store ctx options occasion d (items ++ [item]) (s.skipDuplicate items.length) where
  results := by
    have hentry : entry m store ctx options occasion items item =
        ⟨items.length, 0, 0, 0, true, none, some true⟩ := by
      simp [entry, hr, hdup]
    rw [entries_snoc, List.nil_append, hentry, ← h.results]
    rfl
  seen hdedup key := by
    simp only [isDuplicate, Bool.and_eq_true, decide_eq_true_eq] at hdup
    have hmem : some key = itemKey store ctx item → some key ∈ items.map (itemKey store ctx) :=
      fun hk => hk ▸ hdup.2
    simp only [BatchState.skipDuplicate, h.seen hdedup, List.map_append, List.map_singleton, List.mem_append,
      List.mem_singleton]
    tauto
  dispatcher := by
    rw [dispatchAll_snoc, ← h.dispatcher]
    simp [dispatchItem, hr, hdup, BatchState.skipDuplicate]
  tallied := h.tallied.skipDuplicate

/-- The state in which an item is dispatched: its key has been stored. -/
def BatchState.see (options : BatchOptions) (key : String) (s : BatchState) : BatchState :=
  if options.deduplicate then { s with seenKeys := key :: s.seenKeys } else s

theorem BatchState.dispatcher_see (key : String) : (s.see options key).dispatcher = s.dispatcher := by
  unfold BatchState.see
  split_ifs <;> rfl

/-- What the loop looks for among the stored keys is a duplicate of the item. -/
theorem Processed.seen_eq_isDuplicate (h : Processed m store ctx options occasion d items s)
    {resolved : ResolvedContent} (hr : resolveItem store ctx item = .ok resolved) :
    (options.deduplicate && s.seenKeys.contains (dedupKey item.target ++ ":" ++ resolved.eventType)) =
      isDuplicate store ctx options items item := by
  unfold isDuplicate
  cases hdedup : options.deduplicate with
  | false => rfl
  | true =>
      have hkey : itemKey store ctx item = some (dedupKey item.target ++ ":" ++ resolved.eventType) := by
        unfold itemKey
        rw [hr]
      simp only [Bool.true_and, hkey, ← h.seen hdedup]
      simp

theorem dispatchForTenant_item {resolved : ResolvedContent} (hr : resolveItem store ctx item = .ok resolved)
    (hdup : isDuplicate store ctx options items item = false) :
    d.dispatchForTenant (occasion items.length).env m (intoNotificationTarget ctx item.target)
        (buildEvent resolved none item.correlationId (occasion items.length)) (tenantId ctx) =
      (itemOutcome m ctx occasion items.length item resolved,
        dispatchItem m store ctx options occasion d items item) := by
  refine Prod.ext (Dispatcher.dispatchForTenant_fst _ _) ?_
  unfold dispatchItem
  rw [hr]
  simp [hdup]

theorem Processed.dispatched (h : Processed m store ctx options occasion d items s) {resolved : ResolvedContent}
    (hr : resolveItem store ctx item = .ok resolved) (hdup : isDuplicate store ctx options items item = false) :
    Processed m store ctx options occasion d (items ++ [item])
      ((s.see options (dedupKey item.target ++ ":" ++ resolved.eventType)).dispatched items.length
        (itemOutcome m ctx occasion items.length item resolved)
        (dispatchItem m store ctx options occasion s.dispatcher items item)) where
  results := by
    have hentry : entry m store ctx options occasion items item =
        ⟨items.length, (itemOutcome m ctx occasion items.length item resolved).notificationId,
          (itemOutcome m ctx occasion items.length item resolved).deliveredTo,
          (itemOutcome m ctx occasion items.length item resolved).failed,
          (itemOutcome m ctx occasion items.length item resolved).success, none, none⟩ := by
      simp [entry, hr, hdup]
    rw [entries_snoc, List.nil_append, hentry, ← h.results]
    unfold BatchState.see
    split_ifs <;> rfl
  seen hdedup key := by
    have hkey : itemKey store ctx item = some (dedupKey item.target ++ ":" ++ resolved.eventType) := by
      simp [itemKey, hr]
    simp only [BatchState.see, hdedup, if_true, BatchState.dispatched, List.mem_cons, h.seen hdedup,
      List.map_append, List.map_singleton, List.mem_append, hkey, Option.some.injEq]
    tauto
  dispatcher := by
    rw [dispatchAll_snoc, ← h.dispatcher]
    rfl
  tallied := by
    refine Tallied.dispatched ?_ _ _
    unfold BatchState.see
    split_ifs
    · exact ⟨h.tallied.succeeded, h.tallied.failed, h.tallied.skipped, h.tallied.totalDelivered⟩
    · exact h.tallied

theorem succeeds_dispatched {resolved : ResolvedContent} (hr : resolveItem store ctx item = .ok resolved)
    (hdup : isDuplicate store ctx options items item = false) :
    succeeds m store ctx options occasion items item =
      (itemOutcome m ctx occasion items.length item resolved).success := by
  simp [succeeds, hr, hdup]

/-- How the loop ends: it goes through all items, or stops at the first one that fails. -/
inductive Ended (m : ConnectionManager) (store : TemplateStore) (ctx : Option TenantContext)
    (options : BatchOptions) (occasion : ℕ → Occasion) (d : Dispatcher) (total : ℕ)
    (items : List BatchNotificationItem) (s : BatchState) : Prop
  | all (h : Processed m store ctx options occasion d items s)
      (hall : options.stopOnError = true → AllSucceed m store ctx options occasion items)
  | unresolved (visited : List BatchNotificationItem) (item : BatchNotificationItem)
      (after : List BatchNotificationItem) (hitems : items = visited ++ item :: after)
      (hstop : options.stopOnError = true) (hall : AllSucceed m store ctx options occasion visited) (e : AppError)
      (he : resolveItem store ctx item = .error e)
      (h : Processed m store ctx options occasion d (visited ++ [item]) s)
  | undelivered (visited : List BatchNotificationItem) (item : BatchNotificationItem)
      (after : List BatchNotificationItem) (hitems : items = visited ++ item :: after)
      (hstop : options.stopOnError = true) (hall : AllSucceed m store ctx options occasion visited)
      (resolved : ResolvedContent) (hr : resolveItem store ctx item = .ok resolved)
      (hfail : succeeds m store ctx options occasion visited item = false) (last : BatchState)
      (h : Processed m store ctx options occasion d (visited ++ [item]) last)
      (hs : s = last.skipRemaining visited.length total)

/-- What the loop makes of the items after those that it has gone through. -/
theorem batchLoop_spec (h : Processed m store ctx options occasion d earlier s)
    (hreached : Reached m store ctx options occasion earlier) (rest : List BatchNotificationItem) :
    Ended m store ctx options occasion d total (earlier ++ rest)
      (batchLoop m store ctx options total occasion rest earlier.length s) := by
  induction rest generalizing earlier s with
  | nil =>
      rw [List.append_nil]
      exact .all h hreached
  | cons item rest ih =>
      have hnext : ∀ s', Processed m store ctx options occasion d (earlier ++ [item]) s' →
          (options.stopOnError = true → succeeds m store ctx options occasion earlier item = true) →
          Ended m store ctx options occasion d total (earlier ++ item :: rest)
            (batchLoop m store ctx options total occasion rest (earlier.length + 1) s') := by
        intro s' h' hsuccess
        have hall := ih h' (fun hstop => allSucceed_snoc.mpr ⟨hreached hstop, hsuccess hstop⟩)
        rwa [List.append_assoc, List.singleton_append, List.length_append, List.length_singleton] at hall
      unfold batchLoop
      split
      · rename_i e he
        have hdone := h.resolveError (e := e) he
        split_ifs with hstop
        · exact .unresolved earlier item rest rfl hstop (hreached hstop) e he hdone
        · exact hnext _ hdone (fun hs => absurd hs hstop)
      · rename_i resolved hr
        have hr' : resolveItem store ctx item = .ok resolved := hr
        simp only [h.seen_eq_isDuplicate hr']
        cases hdup : isDuplicate store ctx options earlier item with
        | true =>
            rw [if_pos rfl]
            refine hnext _ (h.skipDuplicate hr hdup) (fun _ => ?_)
            simp [succeeds, hr', hdup]
        | false =>
            rw [if_neg Bool.false_ne_true]
            have hdone := h.dispatched hr hdup
            have hsuccess : succeeds m store ctx options occasion earlier item =
                (itemOutcome m ctx occasion earlier.length item resolved).success := succeeds_dispatched hr hdup
            have hsee : (if options.deduplicate then
                { s with seenKeys := (dedupKey item.target ++ ":" ++ resolved.eventType) :: s.seenKeys } else s) =
                s.see options (dedupKey item.target ++ ":" ++ resolved.eventType) := rfl
            simp only [hsee, BatchState.dispatcher_see, dispatchForTenant_item hr' hdup]
            split_ifs with hstop
            · rw [Bool.and_eq_true, Bool.not_eq_true'] at hstop
              exact .undelivered earlier item rest rfl hstop.2 (hreached hstop.2) resolved hr
                (hsuccess.trans hstop.1) _ hdone rfl
            · refine hnext _ hdone (fun hs => hsuccess.trans ?_)
              simpa [hs] using hstop

/-! ### The response -/

theorem AllSucceed.not_failed (h : AllSucceed m store ctx options occasion items) {e : BatchItemResult}
    (he : e ∈ entries m store ctx options occasion [] items) : ¬isFailed e = true := by
  obtain ⟨before, item, after, rfl, rfl⟩ := mem_entries he
  have hsuccess := h before item after rfl
  simp [isFailed, success_entry, hsuccess]

/-- Two splits at a first item that fails are the same. -/
theorem first_failed_unique {visited after : List BatchNotificationItem} {it : BatchNotificationItem}
    (hall : AllSucceed m store ctx options occasion visited)
    (hfail : succeeds m store ctx options occasion visited it = false)
    (hall' : AllSucceed m store ctx options occasion earlier)
    (hfail' : succeeds m store ctx options occasion earlier item = false)
    (h : visited ++ it :: after = earlier ++ item :: rest) : it = item ∧ after = rest := by
  rcases List.append_eq_append_iff.mp h with ⟨l, rfl, hl⟩ | ⟨l, rfl, hl⟩
  · cases l with
    | nil => exact List.cons_eq_cons.mp hl
    | cons x l =>
        obtain ⟨rfl, -⟩ := List.cons_eq_cons.mp hl
        exact absurd (hall' visited it l rfl) (by rw [hfail]; decide)
  · cases l with
    | nil =>
        obtain ⟨rfl, rfl⟩ := List.cons_eq_cons.mp hl
        exact ⟨rfl, rfl⟩
    | cons x l =>
        obtain ⟨rfl, -⟩ := List.cons_eq_cons.mp hl
        exact absurd (hall earlier item l rfl) (by rw [hfail']; decide)

end loop

section response
variable (m : ConnectionManager) (store : TemplateStore) (ctx : Option TenantContext) (occasion : ℕ → Occasion)

/-- The response reports every item of the request, and with `stop_on_error` the items after one that
failed are skipped and not dispatched. -/
structure Complete (d : Dispatcher) (r : BatchSendRequest) (response : BatchSendResponse) (d' : Dispatcher) :
    Prop where
  indices : response.results.map (·.index) = List.range r.notifications.length
  total : response.summary.total = r.notifications.length
  sum : response.summary.total = response.summary.succeeded + response.summary.failed + response.summary.skipped
  succeeded : response.summary.succeeded = response.results.countP isSucceeded
  failed : response.summary.failed = response.results.countP isFailed
  skipped : response.summary.skipped = response.results.countP isSkipped
  totalDelivered : response.summary.totalDelivered = (response.results.map (·.deliveredTo)).sum
  stopped : r.options.stopOnError = true → ∀ before e after, response.results = before ++ e :: after →
    isFailed e = true → (∀ e' ∈ after, isSkipped e' = true) ∧
      d' = dispatchAll m store ctx r.options occasion d [] (r.notifications.take (before.length + 1))

/-- With `stop_on_error`, the first item that fails is not one whose content cannot be resolved, unless
it is the last item. -/
def ResolvesToEnd (r : BatchSendRequest) : Prop :=
  r.options.stopOnError = true → ∀ earlier item rest, r.notifications = earlier ++ item :: rest →
    AllSucceed m store ctx r.options occasion earlier → (∀ resolved, resolveItem store ctx item ≠ .ok resolved) →
      rest = []

end response

section response
variable {m : ConnectionManager} {store : TemplateStore} {ctx : Option TenantContext} {occasion : ℕ → Occasion}
  {d d' : Dispatcher} {r : BatchSendRequest} {s : BatchState} {batchId : Uuid} {timestamp : DateTime}

/-- The response with the entries and the counters of a state. -/
def BatchState.respond (s : BatchState) (batchId : Uuid) (timestamp : DateTime) (total : ℕ) : BatchSendResponse :=
  ⟨batchId, s.results, ⟨total, s.succeeded, s.failed, s.skipped, s.totalDelivered⟩, timestamp⟩

/-- With the right counters, the response is complete if its entries are. -/
theorem complete_of_tallied (ht : Tallied s)
    (hindices : s.results.map (·.index) = List.range r.notifications.length)
    (hstopped : r.options.stopOnError = true → ∀ before e after, s.results = before ++ e :: after →
      isFailed e = true → (∀ e' ∈ after, isSkipped e' = true) ∧
        s.dispatcher = dispatchAll m store ctx r.options occasion d [] (r.notifications.take (before.length + 1))) :
    Complete m store ctx occasion d r (s.respond batchId timestamp r.notifications.length) s.dispatcher where
  indices := hindices
  total := rfl
  sum := by
    have hlength : s.results.length = r.notifications.length := by
      rw [← List.length_map, hindices, List.length_range]
    show r.notifications.length = s.succeeded + s.failed + s.skipped
    rw [ht.sum, hlength]
  succeeded := ht.succeeded
  failed := ht.failed
  skipped := ht.skipped
  totalDelivered := ht.totalDelivered
  stopped := hstopped

/-- The entry at which the loop stopped is the only one that failed. -/
theorem stopped_at {visited : List BatchNotificationItem} {item : BatchNotificationItem}
    {skips before after : List BatchItemResult} {e : BatchItemResult}
    (hall : AllSucceed m store ctx r.options occasion visited) (hskips : ∀ e ∈ skips, isSkipped e = true)
    (h : entries m store ctx r.options occasion [] (visited ++ [item]) ++ skips = before ++ e :: after)
    (he : isFailed e = true) : before.length = visited.length ∧ after = skips := by
  have hnot_before : e ∉ entries m store ctx r.options occasion [] visited := fun hmem => hall.not_failed hmem he
  have hnot_after : e ∉ skips := by
    intro hmem
    have hskip := hskips e hmem
    simp [isFailed, hskip] at he
  rw [entries_snoc, List.append_assoc, List.singleton_append,
    List.append_cons_inj_of_notMem hnot_before hnot_after] at h
  obtain ⟨rfl, -, rfl⟩ := h
  exact ⟨length_entries, rfl⟩

/-- The items up to the one at which the loop stopped. -/
theorem take_visited {visited after : List BatchNotificationItem} {item : BatchNotificationItem} {n : ℕ}
    (hn : n = visited.length) : (visited ++ item :: after).take (n + 1) = visited ++ [item] := by
  rw [← List.singleton_append, ← List.append_assoc]
  exact List.take_left' (by rw [List.length_append, List.length_singleton, hn])

theorem succeeds_unresolved {earlier : List BatchNotificationItem} {item : BatchNotificationItem}
    {options : BatchOptions} (hitem : ∀ resolved, resolveItem store ctx item ≠ .ok resolved) :
    succeeds m store ctx options occasion earlier item = false := by
  unfold succeeds
  split
  · rfl
  · rename_i resolved hresolved
    exact absurd hresolved (hitem resolved)

/-- A loop that goes through all items leaves a complete response. -/
theorem complete_all (h : Processed m store ctx r.options occasion d r.notifications s)
    (hall : r.options.stopOnError = true → AllSucceed m store ctx r.options occasion r.notifications) :
    Complete m store ctx occasion d r (s.respond batchId timestamp r.notifications.length) s.dispatcher := by
  refine complete_of_tallied h.tallied ?_ (fun hstop before e after he hfailed => ?_)
  · rw [h.results, index_entries, List.length_nil, List.range_eq_range']
  · refine absurd hfailed ((hall hstop).not_failed ?_)
    rw [← h.results, he]
    exact List.mem_append_right _ List.mem_cons_self

/-- A loop that stops at content that cannot be resolved leaves a complete response if that is the last item. -/
theorem complete_unresolved_iff {visited after : List BatchNotificationItem} {item : BatchNotificationItem}
    (hitems : r.notifications = visited ++ item :: after)
    (hall : AllSucceed m store ctx r.options occasion visited)
    (h : Processed m store ctx r.options occasion d (visited ++ [item]) s) :
    Complete m store ctx occasion d r (s.respond batchId timestamp r.notifications.length) s.dispatcher ↔
      after = [] := by
  constructor
  · intro hcomplete
    have hentries : s.results.length = visited.length + 1 := by
      rw [h.results, length_entries, List.length_append, List.length_singleton]
    have htotal : r.notifications.length = visited.length + (after.length + 1) := by
      rw [hitems, List.length_append, List.length_cons]
    have hlength : s.results.length = r.notifications.length := by
      simpa [BatchState.respond] using congrArg List.length hcomplete.indices
    exact List.length_eq_zero_iff.mp (by omega)
  · rintro rfl
    refine complete_of_tallied h.tallied ?_ (fun _ before e' after' he' hfailed => ?_)
    · rw [h.results, index_entries, List.length_nil, List.range_eq_range', hitems]
    · rw [h.results, ← List.append_nil (entries _ _ _ _ _ _ _)] at he'
      obtain ⟨hbefore, rfl⟩ := stopped_at hall (fun _ hmem => absurd hmem List.not_mem_nil) he' hfailed
      refine ⟨fun _ hmem => absurd hmem List.not_mem_nil, ?_⟩
      rw [hitems, take_visited hbefore, h.dispatcher]

/-- The entries of the items after one that was not delivered. -/
theorem isSkipped_remaining {index n : ℕ} : ∀ e ∈ (List.range' index n).map (fun i =>
    (⟨i, 0, 0, 0, false, some "Skipped due to stop_on_error", some true⟩ : BatchItemResult)),
      isSkipped e = true := by
  intro e he
  obtain ⟨i, -, rfl⟩ := List.mem_map.mp he
  rfl

/-- A loop that stops at an item that is not delivered leaves a complete response. -/
theorem complete_undelivered {visited after : List BatchNotificationItem} {item : BatchNotificationItem}
    (hitems : r.notifications = visited ++ item :: after)
    (hall : AllSucceed m store ctx r.options occasion visited)
    (h : Processed m store ctx r.options occasion d (visited ++ [item]) s) :
    Complete m store ctx occasion d r
      ((s.skipRemaining visited.length r.notifications.length).respond batchId timestamp r.notifications.length)
      (s.skipRemaining visited.length r.notifications.length).dispatcher := by
  have hresults : (s.skipRemaining visited.length r.notifications.length).results =
      entries m store ctx r.options occasion [] (visited ++ [item]) ++
        (List.range' (visited.length + 1) (r.notifications.length - (visited.length + 1))).map (fun i =>
          ⟨i, 0, 0, 0, false, some "Skipped due to stop_on_error", some true⟩) := by
    rw [← h.results]
    rfl
  refine complete_of_tallied h.tallied.skipRemaining ?_ (fun _ before e' after' he' hfailed => ?_)
  · have hlength : r.notifications.length = (visited.length + 1) + after.length := by
      rw [hitems, List.length_append, List.length_cons]
      omega
    have hid : ((fun e : BatchItemResult => e.index) ∘ fun i : ℕ =>
        (⟨i, 0, 0, 0, false, some "Skipped due to stop_on_error", some true⟩ : BatchItemResult)) = id := rfl
    rw [hresults, List.map_append, index_entries, List.map_map, hid, List.map_id, List.length_append,
      List.length_singleton, hlength, Nat.add_sub_cancel_left, List.range_eq_range', List.length_nil]
    have happend := List.range'_append_1 (s := 0) (m := visited.length + 1) (n := after.length)
    rwa [Nat.zero_add] at happend
  · rw [hresults] at he'
    obtain ⟨hbefore, rfl⟩ := stopped_at hall isSkipped_remaining he' hfailed
    refine ⟨isSkipped_remaining, ?_⟩
    rw [hitems, take_visited hbefore]
    exact h.dispatcher

/-- The state in which the loop of a batch ends. -/
def batchEnd (m : ConnectionManager) (store : TemplateStore) (ctx : Option TenantContext)
    (occasion : ℕ → Occasion) (d : Dispatcher) (r : BatchSendRequest) : BatchState :=
  batchLoop m store ctx r.options r.notifications.length occasion r.notifications 0 ⟨[], 0, 0, 0, 0, [], d⟩

theorem batchSend_accepted (hpos : 1 ≤ r.notifications.length) (hmax : r.notifications.length ≤ maxBatchSize) :
    batchSend m store ctx d occasion batchId timestamp r =
      (.ok ((batchEnd m store ctx occasion d r).respond batchId timestamp r.notifications.length),
        (batchEnd m store ctx occasion d r).dispatcher) := by
  unfold batchSend
  rw [if_neg (by omega), if_neg (by omega)]
  rfl

theorem ended_batchEnd : Ended m store ctx r.options occasion d r.notifications.length r.notifications
    (batchEnd m store ctx occasion d r) :=
  batchLoop_spec .start (fun _ earlier item rest he => absurd he.symm (by simp)) r.notifications

/-- The response to an accepted batch reports every item exactly when the loop does not end early
with an item whose content cannot be resolved. -/
theorem batchSend_complete_iff (d : Dispatcher) (batchId : Uuid) (timestamp : DateTime) (r : BatchSendRequest)
    (hpos : 1 ≤ r.notifications.length) (hmax : r.notifications.length ≤ maxBatchSize) :
    ∃ response, (batchSend m store ctx d occasion batchId timestamp r).1 = .ok response ∧
      (Complete m store ctx occasion d r response (batchSend m store ctx d occasion batchId timestamp r).2 ↔
        ResolvesToEnd m store ctx occasion r) := by
  rw [batchSend_accepted hpos hmax]
  refine ⟨_, rfl, ?_⟩
  have hspec : Ended m store ctx r.options occasion d r.notifications.length r.notifications
      (batchEnd m store ctx occasion d r) := ended_batchEnd
  cases hspec with
  | all h hall =>
      refine iff_of_true (complete_all h hall) (fun hstop earlier item rest hr _ hitem => ?_)
      have hsuccess := hall hstop earlier item rest hr
      rw [succeeds_unresolved hitem] at hsuccess
      exact absurd hsuccess Bool.false_ne_true
  | unresolved visited item after hitems hstop hall e he h =>
      have hitem : ∀ resolved, resolveItem store ctx item ≠ .ok resolved := fun resolved hr => by simp [he] at hr
      refine (complete_unresolved_iff hitems hall h).trans ⟨?_, fun hresolves => ?_⟩
      · intro hend _ earlier it rest hr hall' hit
        obtain ⟨-, rfl⟩ := first_failed_unique hall (succeeds_unresolved hitem) hall' (succeeds_unresolved hit)
          (hitems.symm.trans hr)
        exact hend
      · exact hresolves hstop visited item after hitems hall hitem
  | undelivered visited item after hitems hstop hall resolved hr hfail last h hlast =>
      rw [hlast]
      refine iff_of_true (complete_undelivered hitems hall h) (fun _ earlier it rest hr' hall' hit => ?_)
      obtain ⟨rfl, -⟩ := first_failed_unique hall hfail hall' (succeeds_unresolved hit) (hitems.symm.trans hr')
      exact absurd hr (hit resolved)

/-- A broadcast with an unknown template. -/
def unknownItem : BatchNotificationItem := ⟨⟨.template "missing" .null, none, none, none⟩, .broadcast⟩

/-- No template is stored. -/
def noTemplates : TemplateStore := ⟨∅, fun payload _ => .ok payload⟩

/-- Two such items, with or without `stop_on_error`. -/
def unknownBatch (stopOnError : Bool) : BatchSendRequest := ⟨[unknownItem, unknownItem], ⟨stopOnError, false⟩⟩

/-- Without `stop_on_error` both items are reported. -/
theorem complete_unknownBatch :
    ∃ response, (batchSend (.withLimits .default) noTemplates none emptyQueue (fun i => ⟨i, 0, quiet, 0⟩) 1 0
        (unknownBatch false)).1 = .ok response ∧
      Complete (.withLimits .default) noTemplates none (fun i => ⟨i, 0, quiet, 0⟩) emptyQueue (unknownBatch false)
        response (batchSend (.withLimits .default) noTemplates none emptyQueue (fun i => ⟨i, 0, quiet, 0⟩) 1 0
          (unknownBatch false)).2 := by
  obtain ⟨response, hresponse, hcomplete⟩ := @batchSend_complete_iff (.withLimits .default) noTemplates none
    (fun i => ⟨i, 0, quiet, 0⟩) emptyQueue 1 0 (unknownBatch false) (by decide) (by decide)
  exact ⟨response, hresponse, hcomplete.mpr (fun hstop => absurd hstop (by decide))⟩

/-- With `stop_on_error` the second item is not reported at all. -/
theorem unknownBatch_incomplete :
    ¬ ∀ (m : ConnectionManager) (store : TemplateStore) (ctx : Option TenantContext) (occasion : ℕ → Occasion)
      (d : Dispatcher) (batchId : Uuid) (timestamp : DateTime) (r : BatchSendRequest),
      1 ≤ r.notifications.length → r.notifications.length ≤ maxBatchSize →
        ∃ response, (batchSend m store ctx d occasion batchId timestamp r).1 = .ok response ∧
          Complete m store ctx occasion d r response (batchSend m store ctx d occasion batchId timestamp r).2 := by
  intro hall
  obtain ⟨response, hresponse, hcomplete⟩ := hall (.withLimits .default) noTemplates none
    (fun i => ⟨i, 0, quiet, 0⟩) emptyQueue 1 0 (unknownBatch true) (by decide) (by decide)
  cases hresponse
  have hindices : [0] = [0, 1] := hcomplete.indices
  exact absurd hindices (by decide)

end response

end Http

end AraNotification
