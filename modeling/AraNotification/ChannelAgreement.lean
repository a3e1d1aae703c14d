import AraNotification.RedisTrigger
import AraNotification.TenantIsolation

/-! # Publishers and subscribers agree on channel keys

A connection subscribes to a channel under the key that its tenant's context gives to the
name.  The publishing paths compute the key themselves: the HTTP endpoints with the context
that authentication has put into the request, the Redis trigger with a rule of its own, which
does not know whether multi-tenancy is enabled.

`Run` keeps, beside the connection manager, the subscriptions that were confirmed and not
given up (`noted`).  Each of them is in the index under the key of its tenant, and the names
under which a connection is filed are valid (`Agreed`).  `agrees_iff` then says for which
publications the key is the one that the subscribers are filed under. -/

namespace AraNotification

namespace ChannelAgreement

open TenantIsolation (ClientCall)

/-! ### Runs with the confirmed subscriptions -/

/-- The key of a tenant's channel. -/
def key (config : TenantConfig) (tenantId channel : String) : String :=
  (config.createContext tenantId).namespaceChannel channel

/-- The names that a reply confirms. -/
def confirmed (replies : List ServerMessage) : List String :=
  replies.flatMap (fun reply => match reply with
    | .subscribed channels => channels
    | _ => [])

section runs
variable (U : UnicodeTables) (config : TenantConfig)

/-- The manager after a call. -/
def perform (m : ConnectionManager) : ClientCall → ConnectionManager
  | .connect id claims now =>
      (m.call (.register id claims.sub claims.getTenantId claims.roles now)).2
  | .disconnect id => m.unregister id
  | .subscribe id channels =>
      match m.connections.lookup id with
      | some h => (handleSubscribe U config h m channels).1
      | none => m
  | .unsubscribe id channels =>
      match m.connections.lookup id with
      | some h => (handleUnsubscribe config h m channels).1
      | none => m
  | .activity id now => m.updateActivity id now
  | .cleanup now timeoutSecs order => (m.call (.cleanupStaleConnections now timeoutSecs order)).2

/-- The confirmed subscriptions after a call. -/
def noted (m : ConnectionManager) (subs : List (Uuid × String)) : ClientCall → List (Uuid × String)
  | .disconnect id => subs.filter (fun s => s.1 ≠ id)
  | .subscribe id channels =>
      match m.connections.lookup id with
      | some h => subs ++ (confirmed (handleSubscribe U config h m channels).2).map (fun ch => (id, ch))
      | none => subs
  | .unsubscribe id channels => subs.filter (fun s => ¬ (s.1 = id ∧ s.2 ∈ channels))
  | .cleanup now timeoutSecs order =>
      match m.findStaleConnections now timeoutSecs with
      | some _ => subs.filter (fun s => s.1 ∉ order)
      | none => subs
  | _ => subs

/-- The managers that any sequence of calls produces, with the confirmed subscriptions. -/
inductive Run (limits : ConnectionLimits) : ConnectionManager → List (Uuid × String) → Prop
  | empty : Run limits (.withLimits limits) []
  | call {m : ConnectionManager} {subs : List (Uuid × String)} (c : ClientCall) :
      Run limits m subs → TenantIsolation.Legal m c → Run limits (perform U config m c) (noted U config m subs c)

/-- The indices are right, connections are filed under the keys of valid names, and confirmed
subscriptions are filed. -/
structure Agreed (m : ConnectionManager) (subs : List (Uuid × String)) : Prop where
  indexed : m.Indexed
  named : ∀ id h, m.connections.lookup id = some h → ∀ k ∈ h.subscriptions,
    ∃ name, isValidChannelName U name = true ∧ k = key config h.tenantId name
  filed : ∀ s ∈ subs, isValidChannelName U s.2 = true ∧
    ∃ h, m.connections.lookup s.1 = some h ∧ key config h.tenantId s.2 ∈ h.subscriptions

end runs

/-- With multi-tenancy the runs are those of `TenantIsolation`. -/
theorem perform_multiTenant (U : UnicodeTables) (m : ConnectionManager) (c : ClientCall) :
    perform U TenantIsolation.multiTenant m c = TenantIsolation.perform U m c := by
  cases c <;> rfl

theorem key_eq (config : TenantConfig) (t channel : String) :
    key config t channel =
      if config.enabled = true ∧ t ≠ defaultTenantId then t ++ ":" ++ channel else channel := by
  unfold key TenantConfig.createContext
  cases config.enabled with
  | false => simp [TenantContext.defaultTenant, namespaceChannel_new]
  | true => by_cases ht : t = defaultTenantId <;> simp [namespaceChannel_new, ht]

theorem key_inj {config : TenantConfig} {t x y : String} : key config t x = key config t y ↔ x = y := by
  unfold key TenantConfig.createContext
  split_ifs
  · exact namespaceChannel_right_inj
  · exact namespaceChannel_right_inj

/-! ### Calls keep the agreement -/

section calls
variable {U : UnicodeTables} {config : TenantConfig} {m : ConnectionManager} {subs : List (Uuid × String)}

/-- Connections may go, with their subscriptions, and appear without any. -/
theorem Agreed.of_fewer (h : Agreed U config m subs) {m' : ConnectionManager}
    {subs' : List (Uuid × String)} (hi : m'.Indexed) (hsub : ∀ s ∈ subs', s ∈ subs)
    (hnew : ∀ id h', m'.connections.lookup id = some h' →
      h'.subscriptions = [] ∨ m.connections.lookup id = some h')
    (hold : ∀ s ∈ subs', m'.connections.lookup s.1 = m.connections.lookup s.1) :
    Agreed U config m' subs' where
  indexed := hi
  named id h' hl k hk := by
    rcases hnew id h' hl with hnil | hl
    · rw [hnil] at hk
      exact absurd hk List.not_mem_nil
    · exact h.named id h' hl k hk
  filed s hs := by
    rw [hold s hs]
    exact h.filed s (hsub s hs)

/-- One connection changes its subscriptions. -/
theorem Agreed.modify (h : Agreed U config m subs) {id : Uuid} {f : ConnectionHandle → ConnectionHandle}
    {x : InvertedIndex String Uuid} {subs' : List (Uuid × String)}
    (hi : ConnectionManager.Indexed { m with connections := m.connections.modify id f, channelIndex := x })
    (ht : ∀ c, (f c).tenantId = c.tenantId)
    (hnamed : ∀ c, m.connections.lookup id = some c → ∀ k ∈ (f c).subscriptions,
      k ∈ c.subscriptions ∨ ∃ name, isValidChannelName U name = true ∧ k = key config c.tenantId name)
    (hfiled : ∀ s ∈ subs', isValidChannelName U s.2 = true ∧ ∃ c, m.connections.lookup s.1 = some c ∧
      key config c.tenantId s.2 ∈ (if s.1 = id then f c else c).subscriptions) :
    Agreed U config { m with connections := m.connections.modify id f, channelIndex := x } subs' where
  indexed := hi
  named id' h' hl k hk := by
    simp only [DashMap.lookup_modify] at hl
    split_ifs at hl with hid
    · subst hid
      obtain ⟨c, hc, rfl⟩ := Option.map_eq_some_iff.mp hl
      rw [ht]
      rcases hnamed c hc k hk with hk | hk
      · exact h.named id' c hc k hk
      · exact hk
    · exact h.named id' h' hl k hk
  filed s hs := by
    obtain ⟨hv, c, hc, hk⟩ := hfiled s hs
    refine ⟨hv, ?_⟩
    simp only [DashMap.lookup_modify]
    split_ifs with hid
    · subst hid
      rw [if_pos rfl] at hk
      exact ⟨f c, by rw [hc]; rfl, by rwa [ht]⟩
    · rw [if_neg hid] at hk
      exact ⟨c, hc, hk⟩

theorem Agreed.unregister (h : Agreed U config m subs) (id : Uuid) :
    Agreed U config (m.unregister id) (subs.filter (fun s => s.1 ≠ id)) := by
  have hlookup : ∀ id', (m.unregister id).connections.lookup id' =
      if id' = id then none else m.connections.lookup id' := by
    intro id'
    unfold ConnectionManager.unregister
    split
    · next hnone =>
        split_ifs with hid
        · rw [hid, hnone]
        · rfl
    · exact DashMap.lookup_erase _ _ _
  refine h.of_fewer (h.indexed.unregister id) (fun s hs => List.mem_of_mem_filter hs) ?_ ?_
  · intro id' h' hl
    rw [hlookup] at hl
    split_ifs at hl
    exact .inr hl
  · intro s hs
    have hne : s.1 ≠ id := by simpa using (List.mem_filter.mp hs).2
    rw [hlookup, if_neg hne]

theorem Agreed.unregisterAll (h : Agreed U config m subs) (ids : List Uuid) :
    Agreed U config (m.unregisterAll ids) (subs.filter (fun s => s.1 ∉ ids)) := by
  unfold ConnectionManager.unregisterAll
  induction ids generalizing m subs with
  | nil => simpa using h
  | cons id ids ih =>
      have hrest := ih (h.unregister id)
      rw [List.filter_filter] at hrest
      rw [List.foldl_cons]
      convert hrest using 2
      funext s
      by_cases hid : s.1 = id <;> simp [hid]

/-- A confirmed subscription is one more key of the connection. -/
theorem Agreed.subscribeToChannel (h : Agreed U config m subs) {id : Uuid} {c : ConnectionHandle}
    {t channel : String} (hl : m.connections.lookup id = some c) (ht : c.tenantId = t)
    (hv : isValidChannelName U channel = true) :
    (m.subscribeToChannel id (key config t channel)).1 = .ok () →
      Agreed U config (m.subscribeToChannel id (key config t channel)).2 (subs ++ [(id, channel)]) := by
  have hi := h.indexed.subscribeToChannel id (key config t channel)
  obtain ⟨e, he⟩ | ⟨c', hl', -, he⟩ := m.subscribeToChannel_cases id (key config t channel)
  · rw [he]
    intro hok
    cases hok
  · rw [he] at hi ⊢
    obtain rfl : c' = c := Option.some.inj (hl'.symm.trans hl)
    intro _
    refine h.modify hi (fun _ => rfl) ?_ ?_
    · intro c₁ hc₁ k hk
      obtain rfl : c₁ = c' := Option.some.inj (hc₁.symm.trans hl)
      rcases List.mem_insert_iff.mp hk with rfl | hk
      · exact .inr ⟨channel, hv, by rw [ht]⟩
      · exact .inl hk
    · intro s hs
      rcases List.mem_append.mp hs with hs | hs
      · obtain ⟨hvs, c₁, hc₁, hk⟩ := h.filed s hs
        refine ⟨hvs, c₁, hc₁, ?_⟩
        split_ifs
        · exact List.mem_insert_of_mem hk
        · exact hk
      · obtain rfl := List.mem_singleton.mp hs
        refine ⟨hv, c', hl, ?_⟩
        rw [if_pos rfl, ht]
        exact List.mem_insert_self

/-- What a subscription to one channel keeps while a `Subscribe` message is handled. -/
theorem Agreed.subscribeOne {h : ConnectionHandle} {p : SubscribeProgress} (channel : String)
    (ha : Agreed U config m (subs ++ p.subscribed.map (fun ch => (h.id, ch))))
    (hreg : ∃ c, m.connections.lookup h.id = some c ∧ c.tenantId = h.tenantId) :
    let r := AraNotification.subscribeOne U config h m p channel
    Agreed U config r.1 (subs ++ r.2.subscribed.map (fun ch => (h.id, ch))) ∧
      ∃ c, r.1.connections.lookup h.id = some c ∧ c.tenantId = h.tenantId := by
  obtain ⟨c, hl, ht⟩ := hreg
  intro r
  by_cases hv : isValidChannelName U channel = true
  · have hsub := ha.subscribeToChannel hl ht hv
    have hkey : channelKey config h channel = key config h.tenantId channel := rfl
    obtain ⟨e, he⟩ | ⟨c', hl', -, he⟩ := m.subscribeToChannel_cases h.id (key config h.tenantId channel)
    · have hr : r = (m, { p with errors := p.errors ++ [e] }) := by
        simp only [r, AraNotification.subscribeOne, hv, if_true, hkey, he]
      rw [hr]
      exact ⟨ha, c, hl, ht⟩
    · have hr : r = ((m.subscribeToChannel h.id (key config h.tenantId channel)).2,
          { p with subscribed := p.subscribed ++ [channel] }) := by
        simp only [r, AraNotification.subscribeOne, hv, if_true, hkey, he]
      rw [hr]
      refine ⟨?_, ?_⟩
      · simpa using hsub (by rw [he])
      · obtain rfl : c' = c := Option.some.inj (hl'.symm.trans hl)
        rw [he]
        exact ⟨c'.subscribe (key config h.tenantId channel), by simp [DashMap.lookup_modify, hl], ht⟩
  · have hr : r = (m, { p with errors := p.errors ++ ["Invalid channel name: " ++ channel] }) := by
      simp only [r, AraNotification.subscribeOne, hv]
      rfl
    rw [hr]
    exact ⟨ha, c, hl, ht⟩

theorem confirmed_replies (p : SubscribeProgress) : confirmed p.replies = p.subscribed := by
  unfold confirmed SubscribeProgress.replies
  by_cases hs : p.subscribed = []
  · by_cases he : p.errors = [] <;> simp [hs, he]
  · by_cases he : p.errors = [] <;> simp [hs, he]

theorem Agreed.handleSubscribe (ha : Agreed U config m subs) {h : ConnectionHandle}
    (hl : m.connections.lookup h.id = some h) (channels : List String) :
    Agreed U config (AraNotification.handleSubscribe U config h m channels).1
      (subs ++ (confirmed (AraNotification.handleSubscribe U config h m channels).2).map
        (fun ch => (h.id, ch))) := by
  have hgen : ∀ (channels : List String) (r : ConnectionManager × SubscribeProgress),
      Agreed U config r.1 (subs ++ r.2.subscribed.map (fun ch => (h.id, ch))) →
      (∃ c, r.1.connections.lookup h.id = some c ∧ c.tenantId = h.tenantId) →
      Agreed U config (channels.foldl (fun r channel => AraNotification.subscribeOne U config h r.1 r.2 channel) r).1
        (subs ++ (channels.foldl (fun r channel =>
          AraNotification.subscribeOne U config h r.1 r.2 channel) r).2.subscribed.map (fun ch => (h.id, ch))) := by
    intro channels
    induction channels with
    | nil => exact fun r hr _ => hr
    | cons channel channels ih =>
        intro r hr hreg
        obtain ⟨hone, hreg'⟩ := hr.subscribeOne channel hreg
        exact ih _ hone hreg'
  unfold AraNotification.handleSubscribe
  rw [confirmed_replies]
  exact hgen channels (m, ⟨[], []⟩) (by simpa using ha) ⟨h, hl, rfl⟩

/-- An unsubscription takes one name from one connection; the other names have other keys. -/
theorem Agreed.unsubscribeOne (ha : Agreed U config m subs) {h : ConnectionHandle} (channel : String)
    (hreg : ∀ c, m.connections.lookup h.id = some c → c.tenantId = h.tenantId) :
    Agreed U config (AraNotification.unsubscribeOne config h m channel)
      (subs.filter (fun s => ¬ (s.1 = h.id ∧ s.2 = channel))) := by
  have hi := ha.indexed.unsubscribeFromChannel h.id (channelKey config h channel)
  unfold AraNotification.unsubscribeOne
  unfold ConnectionManager.unsubscribeFromChannel at hi ⊢
  split at hi
  · next hnone =>
      exact ha.of_fewer hi (fun s hs => List.mem_of_mem_filter hs) (fun _ _ hl => .inr hl) (fun _ _ => rfl)
  · refine ha.modify hi (fun _ => rfl) (fun c _ k hk => .inl (List.mem_of_mem_filter hk)) ?_
    intro s hs
    obtain ⟨hs, hne⟩ := List.mem_filter.mp hs
    obtain ⟨hv, c, hc, hk⟩ := ha.filed s hs
    refine ⟨hv, c, hc, ?_⟩
    split_ifs with hid
    · refine List.mem_filter.mpr ⟨hk, ?_⟩
      rw [hid] at hc
      have hname : s.2 ≠ channel := by
        rintro rfl
        simp [hid] at hne
      have hkey : key config c.tenantId s.2 ≠ channelKey config h channel := by
        rw [hreg c hc]
        exact fun heq => hname (key_inj.mp heq)
      simpa using hkey
    · exact hk

theorem tenantId_unsubscribeOne {h : ConnectionHandle} {channel : String}
    (hreg : ∀ c, m.connections.lookup h.id = some c → c.tenantId = h.tenantId) {c : ConnectionHandle}
    (hl : (AraNotification.unsubscribeOne config h m channel).connections.lookup h.id = some c) :
    c.tenantId = h.tenantId := by
  unfold AraNotification.unsubscribeOne ConnectionManager.unsubscribeFromChannel at hl
  split at hl
  · exact hreg c hl
  · simp only [DashMap.lookup_modify, if_true] at hl
    obtain ⟨c₀, hc₀, rfl⟩ := Option.map_eq_some_iff.mp hl
    exact hreg c₀ hc₀

theorem Agreed.handleUnsubscribe (ha : Agreed U config m subs) {h : ConnectionHandle}
    (hreg : ∀ c, m.connections.lookup h.id = some c → c.tenantId = h.tenantId) (channels : List String) :
    Agreed U config (AraNotification.handleUnsubscribe config h m channels).1
      (subs.filter (fun s => ¬ (s.1 = h.id ∧ s.2 ∈ channels))) := by
  unfold AraNotification.handleUnsubscribe
  induction channels generalizing m subs with
  | nil => simpa using ha
  | cons channel channels ih =>
      have hrest := ih (ha.unsubscribeOne channel hreg) (fun c hl => tenantId_unsubscribeOne hreg hl)
      rw [List.filter_filter] at hrest
      rw [List.foldl_cons]
      convert hrest using 2
      funext s
      by_cases hid : s.1 = h.id <;> by_cases hch : s.2 = channel <;> simp [hid, hch]

theorem Agreed.perform (ha : Agreed U config m subs) {c : ClientCall} (hc : TenantIsolation.Legal m c) :
    Agreed U config (perform U config m c) (noted U config m subs c) := by
  cases c with
  | connect id claims now =>
      have hi := ha.indexed.call (c := .register id claims.sub claims.getTenantId claims.roles now) hc
      simp only [ChannelAgreement.perform, noted, ConnectionManager.call, ConnectionManager.register] at hi ⊢
      obtain ⟨e, he⟩ | ⟨-, -, he⟩ :=
        m.registerWithLimits_cases id claims.sub claims.getTenantId claims.roles now m.limits
      · rw [he]
        exact ha
      · rw [he] at hi ⊢
        refine ha.of_fewer hi (fun _ hs => hs) ?_ ?_
        · intro id' h' hl
          simp only [ConnectionManager.insertHandle, DashMap.lookup_insert] at hl
          split_ifs at hl
          · left
            rw [← Option.some.inj hl]
            rfl
          · exact .inr hl
        · intro s hs
          obtain ⟨-, h, hl, -⟩ := ha.filed s hs
          simp only [ConnectionManager.insertHandle, DashMap.lookup_insert]
          rw [if_neg]
          intro hid
          rw [hid] at hl
          exact absurd (hl.symm.trans hc) (by simp)
  | disconnect id => exact ha.unregister id
  | subscribe id channels =>
      simp only [ChannelAgreement.perform, noted]
      split
      · next h hl =>
          have hid : h.id = id := (ha.indexed.keyed id h hl).1
          subst hid
          exact ha.handleSubscribe hl channels
      · exact ha
  | unsubscribe id channels =>
      simp only [ChannelAgreement.perform, noted]
      split
      · next h hl =>
          have hid : h.id = id := (ha.indexed.keyed id h hl).1
          subst hid
          exact ha.handleUnsubscribe (fun c hc => by rw [Option.some.inj (hc.symm.trans hl)]) channels
      · exact ha.of_fewer ha.indexed (fun _ hs => List.mem_of_mem_filter hs) (fun _ _ hl => .inr hl)
          (fun _ _ => rfl)
  | activity id now =>
      refine ha.modify (ha.indexed.updateActivity id now) (fun _ => rfl) (fun _ _ k hk => .inl hk) ?_
      intro s hs
      obtain ⟨hv, c, hl, hk⟩ := ha.filed s hs
      refine ⟨hv, c, hl, ?_⟩
      split_ifs <;> exact hk
  | cleanup now timeoutSecs order =>
      simp only [ChannelAgreement.perform, noted, ConnectionManager.call]
      split
      · next hnone =>
          rw [hnone]
          exact ha
      · next stale hstale =>
          rw [hstale]
          exact ha.unregisterAll order

/-- In every run confirmed subscriptions are filed under the key of their tenant. -/
theorem Run.agreed {limits : ConnectionLimits} (h : Run U config limits m subs) : Agreed U config m subs := by
  induction h with
  | empty =>
      refine ⟨ConnectionManager.indexed_withLimits limits, ?_, ?_⟩
      · intro id h hl
        simp [ConnectionManager.withLimits] at hl
      · intro s hs
        exact absurd hs List.not_mem_nil
  | call c _ hc ih => exact ih.perform hc

end calls

/-! ### Publications -/

/-- An event published through the HTTP interface or through Redis. -/
inductive Publication where
  | http (settings : ApiSettings) (headers : RequestHeaders) (request : Http.ApiRequest)
  | redis (message : RedisNotificationMessage)

/-- The tenant for which an event is published: multi-tenant requests name it in their header,
Redis messages in a field. -/
def Publication.OnBehalfOf (U : UnicodeTables) (config : TenantConfig) (t : String) : Publication → Prop
  | .http _ headers _ => config.enabled = true → headers.tenantId.map (trim U) = some t
  | .redis message => message.tenantId = some t

/-- The channel names of a publication, each with the key to which its event is dispatched. -/
def Publication.keys (U : UnicodeTables) (config : TenantConfig) : Publication → List (String × String)
  | .http settings headers request =>
      match apiKeyAuth U settings config headers with
      | .ok ctx => request.channelNames.zip ((request.targets ctx).flatMap NotificationTarget.channelKeys)
      | .error _ => []
  | .redis message =>
      match RedisSubscriber.parseTarget message message.tenantId with
      | some target => message.channelNames.zip target.channelKeys
      | none => []

/-- The key is computed with the tenant's context: an HTTP request has it unless multi-tenancy
is enabled without an API key, a Redis message only if multi-tenancy is enabled.  The default
tenant needs none. -/
def Publication.Contextual (config : TenantConfig) (t : String) : Publication → Prop
  | .http settings _ _ => config.enabled = false ∨ settings.key ≠ none ∨ t = defaultTenantId
  | .redis _ => config.enabled = true ∨ t = defaultTenantId

section publications
variable {U : UnicodeTables} {config : TenantConfig} {t ch k : String}

theorem mem_zip_map {α β : Type} {f : α → β} {l : List α} {a : α} {b : β} (h : (a, b) ∈ l.zip (l.map f)) :
    b = f a := by
  induction l with
  | nil => exact absurd h List.not_mem_nil
  | cons x l ih =>
      rcases List.mem_cons.mp h with heq | h
      · cases heq
        rfl
      · exact ih h

theorem namespacedAll_eq_map (ctx : Option TenantContext) (channels : List String) :
    Http.namespacedAll ctx channels = channels.map (Http.namespaced ctx) := by
  cases ctx with
  | none => exact (List.map_id' channels).symm
  | some ctx => rfl

theorem channelKeys_intoNotificationTarget (ctx : Option TenantContext) (target : BatchTarget) :
    (Http.intoNotificationTarget ctx target).channelKeys =
      (Http.BatchTarget.channelNames target).map (Http.namespaced ctx) := by
  cases target with
  | channels names => exact namespacedAll_eq_map ctx names
  | _ => rfl

/-- A request is dispatched to the keys that its context gives to its names. -/
theorem channelKeys_targets (ctx : Option TenantContext) (request : Http.ApiRequest) :
    (request.targets ctx).flatMap NotificationTarget.channelKeys =
      request.channelNames.map (Http.namespaced ctx) := by
  cases request with
  | send r => rfl
  | sendToUsers r => rfl
  | broadcast r => rfl
  | channel r => rfl
  | channels r =>
      simp only [Http.ApiRequest.targets, Http.ApiRequest.channelNames, List.flatMap_singleton,
        NotificationTarget.channelKeys, namespacedAll_eq_map]
  | batch r =>
      simp only [Http.ApiRequest.targets, Http.ApiRequest.channelNames, List.flatMap_map,
        channelKeys_intoNotificationTarget, List.map_flatMap]

/-- The context that authentication builds for a tenant, seen through the key of a name. -/
theorem namespaced_apiKeyAuth {settings : ApiSettings} {headers : RequestHeaders} {ctx : Option TenantContext}
    (hauth : apiKeyAuth U settings config headers = .ok ctx)
    (ht : config.enabled = true → headers.tenantId.map (trim U) = some t) (channel : String) :
    Http.namespaced ctx channel =
      if config.enabled = true ∧ settings.key ≠ none ∧ t ≠ defaultTenantId then t ++ ":" ++ channel
      else channel := by
  unfold apiKeyAuth at hauth
  cases hkey : settings.key with
  | none =>
      simp only [hkey] at hauth
      split_ifs at hauth
      cases hauth
      simp [Http.namespaced]
  | some expectedKey =>
      simp only [hkey] at hauth
      split at hauth
      · cases hauth
      · split_ifs at hauth with heq henabled
        · rw [ht henabled] at hauth
          simp only at hauth
          split_ifs at hauth
          cases hauth
          have hctx := key_eq config t channel
          unfold key at hctx
          rw [Http.namespaced, hctx]
          simp
        · cases hauth
          simp [Http.namespaced, henabled]

/-- A confirmed subscription is found under the name with the tenant's prefix, or under the bare
name, exactly when the configuration prefixes the tenant's names, or not. -/
theorem mem_ids_iff {m : ConnectionManager} {subs : List (Uuid × String)} {id : Uuid} {h : ConnectionHandle}
    (ha : Agreed U config m subs) (hsub : (id, ch) ∈ subs) (hl : m.connections.lookup id = some h)
    {prefixed : Prop} [Decidable prefixed]
    (hk : k = if prefixed then h.tenantId ++ ":" ++ ch else ch) :
    id ∈ m.channelIndex.ids k ↔ (prefixed ↔ config.enabled = true ∧ h.tenantId ≠ defaultTenantId) := by
  obtain ⟨hv, h', hl', hfiled⟩ := ha.filed (id, ch) hsub
  obtain rfl : h' = h := Option.some.inj (hl'.symm.trans hl)
  rw [ha.indexed.channel.mem_iff]
  constructor
  · rintro ⟨h', hl', hmem⟩
    obtain rfl := Option.some.inj (hl'.symm.trans hl)
    obtain ⟨name, hname, heq⟩ := ha.named id h' hl k hmem
    rw [key_eq, hk] at heq
    -- a valid name has no colon, so a prefixed key is never a bare one
    split_ifs at heq with hp hq hq
    · exact ⟨fun _ => hq, fun _ => hp⟩
    · exact absurd (heq ▸ colon_mem_toList) (colon_not_mem_of_valid hname)
    · exact absurd (heq ▸ colon_mem_toList) (colon_not_mem_of_valid hv)
    · exact ⟨fun hp' => absurd hp' hp, fun hq' => absurd hq' hq⟩
  · intro hiff
    refine ⟨h', hl, ?_⟩
    rw [key_eq] at hfiled
    simp only [hk, hiff]
    exact hfiled

/-- **A publication reaches the subscribers of its tenant exactly when its key is computed with
the tenant's context.**  In every run, a connection of tenant `t` whose subscription to `ch`
was confirmed and not given up is in the entry of the key to which an event published to
`ch` on behalf of `t` is dispatched, unless multi-tenancy is disabled and the event comes from
Redis, or multi-tenancy is enabled without an API key and it comes through HTTP, for a tenant
other than the default one. -/
theorem agrees_iff {limits : ConnectionLimits} {m : ConnectionManager} {subs : List (Uuid × String)}
    (hrun : Run U config limits m subs) {id : Uuid} (hsub : (id, ch) ∈ subs) {h : ConnectionHandle}
    (hl : m.connections.lookup id = some h) (pub : Publication) (hpub : pub.OnBehalfOf U config h.tenantId)
    (hk : (ch, k) ∈ pub.keys U config) :
    id ∈ m.channelIndex.ids k ↔ pub.Contextual config h.tenantId := by
  cases pub with
  | http settings headers request =>
      simp only [Publication.keys] at hk
      split at hk
      · next ctx hauth =>
          rw [channelKeys_targets] at hk
          have hkey := (mem_zip_map hk).trans (namespaced_apiKeyAuth hauth hpub ch)
          rw [mem_ids_iff hrun.agreed hsub hl hkey, Publication.Contextual, ← Bool.not_eq_true]
          tauto
      · exact absurd hk List.not_mem_nil
  | redis message =>
      simp only [Publication.keys] at hk
      split at hk
      · next target htarget =>
          have hpub' : message.tenantId = some h.tenantId := hpub
          rcases RedisSubscriber.channelKeys_parseTarget htarget with hnone | hkeys
          · rw [hnone, List.zip_nil_right] at hk
            exact absurd hk List.not_mem_nil
          · rw [hkeys] at hk
            have hkey := mem_zip_map hk
            simp only [hpub', RedisSubscriber.namespaceChannel] at hkey
            rw [mem_ids_iff hrun.agreed hsub hl hkey, Publication.Contextual]
            tauto
      · exact absurd hk List.not_mem_nil

end publications

/-! ### A message that reaches nobody -/

section examples

/-- A message to the channel `orders` for tenant `acme`. -/
def ordersForAcme : RedisNotificationMessage :=
  ⟨"channel", some (.single "orders"), ⟨"order.created", .null, .normal, none, none⟩, some "acme"⟩

/-- A connection of tenant `acme` subscribes to `orders`. -/
def subscribed (config : TenantConfig) : ConnectionManager :=
  perform .ascii config (perform .ascii config (.withLimits .default)
    (.connect 1 ⟨"bob", [], some "acme"⟩ 0)) (.subscribe 1 ["orders"])

theorem run_subscribed (config : TenantConfig) :
    Run .ascii config .default (subscribed config) [(1, "orders")] := by
  have hempty : Run .ascii config .default (.withLimits .default) [] := .empty
  have hrun := (hempty.call (.connect 1 ⟨"bob", [], some "acme"⟩ 0) rfl).call (.subscribe 1 ["orders"]) trivial
  obtain ⟨enabled⟩ := config
  cases enabled with
  | false => exact hrun
  | true => exact hrun

/-- With multi-tenancy enabled the message reaches the connection. -/
theorem agrees_orders_multiTenant : (1 : Uuid) ∈ (subscribed ⟨true⟩).channelIndex.ids "acme:orders" := by
  have hl : ((subscribed ⟨true⟩).connections.lookup 1).map (·.tenantId) = some "acme" := by decide
  obtain ⟨h, hl, ht⟩ := Option.map_eq_some_iff.mp hl
  refine (agrees_iff (run_subscribed ⟨true⟩) List.mem_cons_self hl (.redis ordersForAcme) ?_ ?_).mpr ?_
  · rw [ht]
    rfl
  · decide
  · exact .inl rfl

/-- With multi-tenancy disabled the connection is filed under `orders` and the message is
dispatched to `acme:orders`. -/
theorem message_for_acme_missed :
    ¬ ∀ (U : UnicodeTables) (config : TenantConfig) (limits : ConnectionLimits) (m : ConnectionManager)
        (subs : List (Uuid × String)), Run U config limits m subs →
        ∀ id ch, (id, ch) ∈ subs → ∀ h, m.connections.lookup id = some h →
        ∀ pub : Publication, (∀ settings headers request, pub = .http settings headers request →
          settings.key ≠ none) → pub.OnBehalfOf U config h.tenantId →
        ∀ k, (ch, k) ∈ pub.keys U config → id ∈ m.channelIndex.ids k := by
  intro hall
  have hl : ((subscribed ⟨false⟩).connections.lookup 1).map (·.tenantId) = some "acme" := by decide
  obtain ⟨h, hl, ht⟩ := Option.map_eq_some_iff.mp hl
  have hmem := hall .ascii ⟨false⟩ .default _ _ (run_subscribed ⟨false⟩) 1 "orders" List.mem_cons_self h hl
    (.redis ordersForAcme) (fun _ _ _ heq => by cases heq) (by rw [ht]; rfl) "acme:orders" (by decide)
  exact absurd hmem (by decide)

end examples

end ChannelAgreement

end AraNotification
