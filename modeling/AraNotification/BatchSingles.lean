import AraNotification.BatchResults

/-! # Batches and single requests

Every item of a batch could be sent by a request of its own to the endpoint of its target.
`postItem` is that request.  The endpoints differ in what they check: the single endpoints
bound the lists of users and channels, which the batch does not, and the batch skips expired
events, which the channel endpoints do not.  `Postable` says that these checks pass.

Then a batch is nothing but its items posted one after the other, without those that are
skipped (`batch_agrees_with_singles`): the dispatcher is left in the same state, with the
same queues, acknowledgements and statistics and the same messages on the channels, and the
entries of the batch are the responses of the single requests. -/

namespace AraNotification

namespace Http

section posts
variable (m : ConnectionManager) (store : TemplateStore) (ctx : Option TenantContext) (options : BatchOptions)
  (occasion : ℕ → Occasion)

/-- Post the `i`-th item to the endpoint of its target. -/
def postItem (d : Dispatcher) (x : BatchNotificationItem × ℕ) :
    Except AppError SendNotificationResponse × Dispatcher :=
  match x.1.target with
  | .user id => sendNotification m store ctx d (occasion x.2) ⟨x.1.toNotificationRequest, id⟩
  | .users ids => sendToUsers m store ctx d (occasion x.2) ⟨x.1.toNotificationRequest, ids⟩
  | .broadcast => broadcastNotification m store ctx d (occasion x.2) ⟨x.1.toNotificationRequest, none⟩
  | .channel name => channelNotification m store ctx d (occasion x.2) ⟨x.1.toNotificationRequest, name⟩
  | .channels names => multiChannelNotification m store ctx d (occasion x.2) ⟨x.1.toNotificationRequest, names⟩

/-- The event of an item has not expired when it is dispatched. -/
def LiveItem (x : BatchNotificationItem × ℕ) : Prop := ∀ resolved, resolveItem store ctx x.1 = .ok resolved →
  (buildEvent resolved none x.1.correlationId (occasion x.2)).isExpired (occasion x.2).env.now = false

/-- The endpoint of the item's target does not treat it differently from the batch. -/
def Postable (x : BatchNotificationItem × ℕ) : Prop :=
  match x.1.target with
  | .users ids => ids.length ≤ maxTargetUsers
  | .channel _ => LiveItem store ctx occasion x
  | .channels names => names.length ≤ maxChannels ∧ LiveItem store ctx occasion x
  | _ => True

/-- The items that are not duplicates of earlier ones, with their indices. -/
def posts (earlier : List BatchNotificationItem) : List BatchNotificationItem → List (BatchNotificationItem × ℕ)
  | [] => []
  | item :: rest =>
      if (resolveItem store ctx item).isOk && isDuplicate store ctx options earlier item then
        posts (earlier ++ [item]) rest
      else (item, earlier.length) :: posts (earlier ++ [item]) rest

/-- The entry of a batch with the response of a single request. -/
def report (index : ℕ) : Except AppError SendNotificationResponse → BatchItemResult
  | .error e => ⟨index, 0, 0, 0, false, some e.display, none⟩
  | .ok r => ⟨index, r.notificationId, r.deliveredTo, r.failed, r.success, none, none⟩

/-- The entries with the responses to the given posts. -/
def reports (posts : List (BatchNotificationItem × ℕ)) (responses : List (Except AppError SendNotificationResponse)) :
    List BatchItemResult :=
  List.zipWith (fun x response => report x.2 response) posts responses

end posts

section singles
variable {m : ConnectionManager} {store : TemplateStore} {ctx : Option TenantContext} {options : BatchOptions}
  {occasion : ℕ → Occasion} {d : Dispatcher} {earlier items : List BatchNotificationItem}
  {item : BatchNotificationItem} {x : BatchNotificationItem × ℕ}

/-- What an endpoint does whose checks the item passes. -/
theorem sendWith_of_dispatch {send : NotificationEvent → DeliveryResult × Dispatcher}
    (hsend : ∀ resolved, resolveItem store ctx x.1 = .ok resolved →
      send (buildEvent resolved none x.1.correlationId (occasion x.2)) =
        d.dispatchForTenant (occasion x.2).env m (intoNotificationTarget ctx x.1.target)
          (buildEvent resolved none x.1.correlationId (occasion x.2)) (tenantId ctx)) :
    sendWith store ctx d (occasion x.2) x.1.toNotificationRequest none send =
      match resolveItem store ctx x.1 with
      | .error e => (.error e, d)
      | .ok resolved =>
          let r := d.dispatchForTenant (occasion x.2).env m (intoNotificationTarget ctx x.1.target)
            (buildEvent resolved none x.1.correlationId (occasion x.2)) (tenantId ctx)
          (.ok (respond (occasion x.2) r.1), r.2) := by
  have hresolve : x.1.content.resolveForTenant store (tenantId ctx) x.1.priority x.1.ttl =
      resolveItem store ctx x.1 := rfl
  unfold sendWith
  rw [hresolve]
  cases hr : resolveItem store ctx x.1 with
  | error e => rfl
  | ok resolved =>
      dsimp only
      rw [hsend resolved hr]

/-- What the endpoint of an item does. -/
theorem postItem_eq (h : Postable store ctx occasion x) : postItem m store ctx occasion d x =
    match resolveItem store ctx x.1 with
    | .error e => (.error e, d)
    | .ok resolved =>
        let r := d.dispatchForTenant (occasion x.2).env m (intoNotificationTarget ctx x.1.target)
          (buildEvent resolved none x.1.correlationId (occasion x.2)) (tenantId ctx)
        (.ok (respond (occasion x.2) r.1), r.2) := by
  unfold Postable at h
  unfold postItem
  split
  · rename_i id htarget
    exact sendWith_of_dispatch (fun resolved _ => by rw [htarget]; rfl)
  · rename_i ids htarget
    rw [htarget] at h
    unfold sendToUsers
    rw [if_neg (Nat.not_lt.mpr h)]
    exact sendWith_of_dispatch (fun resolved _ => by rw [htarget]; rfl)
  · rename_i htarget
    exact sendWith_of_dispatch (fun resolved _ => by rw [htarget]; rfl)
  · rename_i name htarget
    rw [htarget] at h
    refine sendWith_of_dispatch (fun resolved hr => ?_)
    rw [htarget, Dispatcher.dispatchForTenant.eq_def, if_neg (by rw [h resolved hr]; exact Bool.false_ne_true)]
    rfl
  · rename_i names htarget
    rw [htarget] at h
    unfold multiChannelNotification
    rw [if_neg (Nat.not_lt.mpr h.1)]
    refine sendWith_of_dispatch (fun resolved hr => ?_)
    rw [htarget, Dispatcher.dispatchForTenant.eq_def, if_neg (by rw [h.2 resolved hr]; exact Bool.false_ne_true)]
    rfl

/-- An item that is no duplicate is dispatched as if it was posted, and its entry reports the response. -/
theorem postItem_spec (h : Postable store ctx occasion (item, earlier.length))
    (hnew : ((resolveItem store ctx item).isOk && isDuplicate store ctx options earlier item) = false) :
    (postItem m store ctx occasion d (item, earlier.length)).2 =
        dispatchItem m store ctx options occasion d earlier item ∧
      report earlier.length (postItem m store ctx occasion d (item, earlier.length)).1 =
        entry m store ctx options occasion earlier item := by
  rw [postItem_eq h]
  unfold dispatchItem entry
  cases hr : resolveItem store ctx item with
  | error e => exact ⟨rfl, rfl⟩
  | ok resolved =>
      rw [hr] at hnew
      have hdup : isDuplicate store ctx options earlier item = false := hnew
      simp only [hdup, Bool.false_eq_true, if_false]
      refine ⟨trivial, ?_⟩
      rw [Dispatcher.dispatchForTenant_fst]
      rfl

variable (m occasion d) in
/-- A duplicate is not dispatched, and its entry says so. -/
theorem duplicate_spec
    (hold : ((resolveItem store ctx item).isOk && isDuplicate store ctx options earlier item) = true) :
    dispatchItem m store ctx options occasion d earlier item = d ∧
      isSkipped (entry m store ctx options occasion earlier item) = true := by
  obtain ⟨hok, hdup⟩ := Bool.and_eq_true_iff.mp hold
  unfold dispatchItem entry
  cases hr : resolveItem store ctx item with
  | error e =>
      rw [hr] at hok
      cases hok
  | ok resolved =>
      simp only [hdup, if_true]
      exact ⟨trivial, rfl⟩

/-- A skipped entry reports nothing. -/
theorem nothing_of_isSkipped (h : isSkipped (entry m store ctx options occasion earlier item) = true) :
    (entry m store ctx options occasion earlier item).notificationId = 0 ∧
      (entry m store ctx options occasion earlier item).deliveredTo = 0 ∧
      (entry m store ctx options occasion earlier item).failed = 0 := by
  unfold entry at h ⊢
  split at h
  · cases h
  · split_ifs at h ⊢
    · exact ⟨rfl, rfl, rfl⟩
    · cases h

theorem isSkipped_report (index : ℕ) (response : Except AppError SendNotificationResponse) :
    isSkipped (report index response) = false := by
  cases response <;> rfl

variable (m options d earlier) in
/-- The items that the loop goes through are posted one after the other. -/
theorem dispatchAll_eq_final (h : ∀ x ∈ items.zipIdx earlier.length, Postable store ctx occasion x) :
    dispatchAll m store ctx options occasion d earlier items =
        Runs.final (postItem m store ctx occasion) d (posts store ctx options earlier items) ∧
      (entries m store ctx options occasion earlier items).filter (fun e => !isSkipped e) =
        reports (posts store ctx options earlier items)
          (Runs.outputs (postItem m store ctx occasion) d (posts store ctx options earlier items)) := by
  induction items generalizing earlier d with
  | nil => exact ⟨rfl, rfl⟩
  | cons item rest ih =>
      rw [List.zipIdx_cons] at h
      have hrest : ∀ x ∈ rest.zipIdx (earlier ++ [item]).length, Postable store ctx occasion x := by
        intro x hx
        rw [List.length_append, List.length_singleton] at hx
        exact h x (List.mem_cons_of_mem _ hx)
      rw [dispatchAll, entries, posts, List.filter_cons]
      cases hdup : (resolveItem store ctx item).isOk && isDuplicate store ctx options earlier item with
      | true =>
          obtain ⟨hdispatch, hskip⟩ := duplicate_spec m occasion d hdup
          rw [hdispatch, hskip]
          exact ih d (earlier ++ [item]) hrest
      | false =>
          obtain ⟨hdispatch, hreport⟩ := postItem_spec (m := m) (d := d) (h _ List.mem_cons_self) hdup
          rw [← hdispatch, ← hreport, isSkipped_report]
          obtain ⟨hfinal, hentries⟩ :=
            ih (postItem m store ctx occasion d (item, earlier.length)).2 (earlier ++ [item]) hrest
          exact ⟨hfinal, congrArg (List.cons _) hentries⟩

variable (earlier items) in
theorem posts_sublist : (posts store ctx options earlier items).Sublist (items.zipIdx earlier.length) := by
  induction items generalizing earlier with
  | nil => exact List.Sublist.slnil
  | cons item rest ih =>
      have hrest := ih (earlier ++ [item])
      rw [List.length_append, List.length_singleton] at hrest
      rw [posts, List.zipIdx_cons]
      split_ifs
      · exact hrest.cons _
      · exact hrest.cons_cons _

end singles

/-! ### A batch with a duplicate -/

/-- A greeting for `alice`, the same again, and one for the channel `news`. -/
def greetings : BatchSendRequest where
  notifications :=
    [⟨⟨.direct "greeting" .null, none, none, none⟩, .user "alice"⟩,
      ⟨⟨.direct "greeting" .null, none, none, none⟩, .user "alice"⟩,
      ⟨⟨.direct "greeting" .null, none, none, none⟩, .channel "news"⟩]
  options := ⟨false, true⟩

/-- `alice` is connected and has subscribed to `news`. -/
def aliceOnNews : ConnectionManager :=
  ((ConnectionManager.withLimits .default).call (.register 1 "alice" "acme" [] 0)).2.call
    (.subscribeToChannel 1 "news") |>.2

/-- The surroundings of its items. -/
def quietly : ℕ → Occasion := fun i => ⟨i, 0, quiet, 0⟩

end Http

end AraNotification
