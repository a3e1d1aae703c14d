import AraNotification.Http
import AraNotification.WebSocket

/-! # Isolation of tenants

With multi-tenancy enabled a request acts for one tenant, and its notification should reach
connections of this tenant only.  For users and broadcasts the dispatcher filters by tenant.
For channels the isolation rests on names: a connection subscribes under the key that its
own tenant gives to a valid channel name (`Scoped`), and a request sends to the key that its
tenant gives to whatever name it contains.

Names in requests are not checked, and the tenant claim of a token may contain a colon, so
the keys of two tenants can coincide.  `isolated_iff` says for which names this can happen:
a tenant's requests stay within the tenant exactly when the names they contain are
`Unambiguous` for it. -/

namespace AraNotification

namespace TenantIsolation

/-- Multi-tenancy is enabled. -/
def multiTenant : TenantConfig := ⟨true⟩

/-! ### The states of the connection manager -/

/-- What clients and the clean-up do to the connection manager.  A message of a client acts
for its own connection. -/
inductive ClientCall where
  | connect (id : Uuid) (claims : Claims) (now : DateTime)
  | disconnect (id : Uuid)
  | subscribe (id : Uuid) (channels : List String)
  | unsubscribe (id : Uuid) (channels : List String)
  | activity (id : Uuid) (now : DateTime)
  | cleanup (now : DateTime) (timeoutSecs : ℕ) (order : List Uuid)

section calls
variable (U : UnicodeTables)

/-- The manager after a call. -/
def perform (m : ConnectionManager) : ClientCall → ConnectionManager
  | .connect id claims now =>
      (m.call (.register id claims.sub claims.getTenantId claims.roles now)).2
  | .disconnect id => m.unregister id
  | .subscribe id channels =>
      match m.connections.lookup id with
      | some h => (handleSubscribe U multiTenant h m channels).1
      | none => m
  | .unsubscribe id channels =>
      match m.connections.lookup id with
      | some h => (handleUnsubscribe multiTenant h m channels).1
      | none => m
  | .activity id now => m.updateActivity id now
  | .cleanup now timeoutSecs order => (m.call (.cleanupStaleConnections now timeoutSecs order)).2

/-- The environment's part of a call. -/
def Legal (m : ConnectionManager) : ClientCall → Prop
  | .connect id _ _ => m.connections.lookup id = none
  | .cleanup now timeoutSecs order => m.Legal (.cleanupStaleConnections now timeoutSecs order)
  | _ => True

/-- The managers that any sequence of calls produces. -/
inductive Served (limits : ConnectionLimits) : ConnectionManager → Prop
  | empty : Served limits (.withLimits limits)
  | call {m : ConnectionManager} (c : ClientCall) :
      Served limits m → Legal m c → Served limits (perform U m c)

/-- Every subscription of a connection is the key that its tenant gives to a valid name. -/
def Scoped (m : ConnectionManager) : Prop :=
  ∀ id h, m.connections.lookup id = some h → ∀ key ∈ h.subscriptions,
    ∃ name, isValidChannelName U name = true ∧
      key = (TenantContext.new h.tenantId).namespaceChannel name

end calls

/-- Every subscription of a connection is the key that its tenant gives to a name which the
connection is allowed. -/
def ScopedBy (allowed : Uuid → String → Prop) (m : ConnectionManager) : Prop :=
  ∀ id h, m.connections.lookup id = some h → ∀ key ∈ h.subscriptions,
    ∃ name, allowed id name ∧ key = (TenantContext.new h.tenantId).namespaceChannel name

/-! ### Every subscription is scoped -/

section subscriptions
variable {U : UnicodeTables} {allowed : Uuid → String → Prop} {m m' : ConnectionManager}

theorem channelKey_multiTenant (h : ConnectionHandle) (channel : String) :
    channelKey multiTenant h channel = (TenantContext.new h.tenantId).namespaceChannel channel := rfl

theorem ScopedBy.mono {allowed' : Uuid → String → Prop} (hm : ScopedBy allowed m)
    (h : ∀ id name, m.connections.lookup id ≠ none → allowed id name → allowed' id name) :
    ScopedBy allowed' m := by
  intro id c hl key hk
  obtain ⟨name, hname, hkey⟩ := hm id c hl key hk
  have hreg : m.connections.lookup id ≠ none := by
    rw [hl]
    exact Option.some_ne_none c
  exact ⟨name, h id name hreg hname, hkey⟩

/-- Connections may go, lose subscriptions, or appear without any. -/
theorem ScopedBy.of_fewer (hm : ScopedBy allowed m)
    (h : ∀ id h', m'.connections.lookup id = some h' → h'.subscriptions = [] ∨
      ∃ h, m.connections.lookup id = some h ∧ h'.tenantId = h.tenantId ∧
        ∀ key ∈ h'.subscriptions, key ∈ h.subscriptions) : ScopedBy allowed m' := by
  intro id h' hl key hk
  rcases h id h' hl with hnone | ⟨h, hl', ht, hs⟩
  · rw [hnone] at hk
    exact absurd hk List.not_mem_nil
  · rw [ht]
    exact hm id h hl' key (hs key hk)

theorem ScopedBy.unregister (hm : ScopedBy allowed m) (id : Uuid) : ScopedBy allowed (m.unregister id) := by
  refine hm.of_fewer (fun id' h' hl => ?_)
  unfold ConnectionManager.unregister at hl
  split at hl
  · exact .inr ⟨h', hl, rfl, fun _ hk => hk⟩
  · simp only [DashMap.lookup_erase] at hl
    split_ifs at hl
    exact .inr ⟨h', hl, rfl, fun _ hk => hk⟩

theorem ScopedBy.unregisterAll (hm : ScopedBy allowed m) (ids : List Uuid) :
    ScopedBy allowed (m.unregisterAll ids) :=
  ConnectionManager.unregisterAll_induction (fun _ id h => h.unregister id) hm ids

/-- Changing one connection keeps the property if that connection keeps it. -/
theorem ScopedBy.modify (hm : ScopedBy allowed m) {id : Uuid} {f : ConnectionHandle → ConnectionHandle}
    {x : InvertedIndex String Uuid} (ht : ∀ h, (f h).tenantId = h.tenantId)
    (hf : ∀ h, m.connections.lookup id = some h → ∀ key ∈ (f h).subscriptions,
      key ∈ h.subscriptions ∨ ∃ name, allowed id name ∧
        key = (TenantContext.new h.tenantId).namespaceChannel name) :
    ScopedBy allowed { m with connections := m.connections.modify id f, channelIndex := x } := by
  intro id' h' hl key hk
  simp only [DashMap.lookup_modify] at hl
  split_ifs at hl with hid
  · subst hid
    obtain ⟨h, hh, rfl⟩ := Option.map_eq_some_iff.mp hl
    rw [ht]
    rcases hf h hh key hk with hold | hnew
    · exact hm id' h hh key hold
    · exact hnew
  · exact hm id' h' hl key hk

theorem ScopedBy.subscribeOne (hm : ScopedBy allowed m) {h : ConnectionHandle}
    (hh : ∀ h', m.connections.lookup h.id = some h' → h'.tenantId = h.tenantId)
    (p : SubscribeProgress) {channel : String}
    (ha : isValidChannelName U channel = true → allowed h.id channel) :
    ScopedBy allowed (AraNotification.subscribeOne U multiTenant h m p channel).1 := by
  unfold AraNotification.subscribeOne
  split_ifs with hv
  · obtain ⟨e, he⟩ | ⟨h', hl, -, he⟩ :=
      m.subscribeToChannel_cases h.id (channelKey multiTenant h channel)
    · rw [he]
      exact hm
    · rw [he]
      refine hm.modify (fun _ => rfl) ?_
      intro h₁ hl₁ key hk
      rw [ConnectionHandle.subscribe, List.mem_insert_iff] at hk
      rcases hk with hk | hk
      · refine .inr ⟨channel, ha hv, ?_⟩
        rw [hk, hh h₁ hl₁, channelKey_multiTenant]
      · exact .inl hk
  · exact hm

theorem tenantId_subscribeOne {h : ConnectionHandle} {p : SubscribeProgress} {channel : String}
    {id : Uuid} {h' : ConnectionHandle}
    (hl : (subscribeOne U multiTenant h m p channel).1.connections.lookup id = some h') :
    ∃ h₀, m.connections.lookup id = some h₀ ∧ h'.tenantId = h₀.tenantId := by
  unfold subscribeOne at hl
  split_ifs at hl with hv
  · obtain ⟨e, he⟩ | ⟨h₁, -, -, he⟩ :=
      m.subscribeToChannel_cases h.id (channelKey multiTenant h channel)
    · rw [he] at hl
      exact ⟨h', hl, rfl⟩
    · rw [he] at hl
      simp only [DashMap.lookup_modify] at hl
      split_ifs at hl with hid
      · obtain ⟨h₀, hh, rfl⟩ := Option.map_eq_some_iff.mp hl
        exact ⟨h₀, hid ▸ hh, rfl⟩
      · exact ⟨h', hl, rfl⟩
  · exact ⟨h', hl, rfl⟩

theorem ScopedBy.handleSubscribe (hm : ScopedBy allowed m) {h : ConnectionHandle}
    (hh : ∀ h', m.connections.lookup h.id = some h' → h'.tenantId = h.tenantId)
    {channels : List String}
    (ha : ∀ channel ∈ channels, isValidChannelName U channel = true → allowed h.id channel) :
    ScopedBy allowed (AraNotification.handleSubscribe U multiTenant h m channels).1 := by
  have hgen : ∀ (channels : List String) (r : ConnectionManager × SubscribeProgress),
      (∀ channel ∈ channels, isValidChannelName U channel = true → allowed h.id channel) →
      ScopedBy allowed r.1 → (∀ h', r.1.connections.lookup h.id = some h' → h'.tenantId = h.tenantId) →
      ScopedBy allowed (channels.foldl (fun r channel =>
        AraNotification.subscribeOne U multiTenant h r.1 r.2 channel) r).1 := by
    intro channels
    induction channels with
    | nil => exact fun r _ hr _ => hr
    | cons channel channels ih =>
        intro r ha hr hid
        have hone := hr.subscribeOne hid r.2 (ha channel List.mem_cons_self)
        refine ih _ (fun c hc => ha c (List.mem_cons_of_mem _ hc)) hone (fun h' hl => ?_)
        obtain ⟨h₀, hl₀, ht⟩ := tenantId_subscribeOne hl
        exact ht.trans (hid h₀ hl₀)
  exact hgen channels (m, ⟨[], []⟩) ha hm hh

theorem ScopedBy.handleUnsubscribe (hm : ScopedBy allowed m) {h : ConnectionHandle}
    (channels : List String) :
    ScopedBy allowed (AraNotification.handleUnsubscribe multiTenant h m channels).1 := by
  unfold AraNotification.handleUnsubscribe
  induction channels generalizing m with
  | nil => exact hm
  | cons channel channels ih =>
      refine ih ?_
      unfold unsubscribeOne ConnectionManager.unsubscribeFromChannel
      split
      · exact hm
      · exact hm.modify (fun _ => rfl) (fun _ _ key hk => .inl (List.mem_of_mem_filter hk))

theorem indexed_subscribeOne {config : TenantConfig} (hm : m.Indexed) (h : ConnectionHandle) (p : SubscribeProgress)
    (channel : String) : (AraNotification.subscribeOne U config h m p channel).1.Indexed := by
  have hs := hm.subscribeToChannel h.id (channelKey config h channel)
  unfold AraNotification.subscribeOne
  split_ifs
  · split
    · rename_i m' he
      rwa [he] at hs
    · rename_i e m' he
      rwa [he] at hs
  · exact hm

theorem indexed_handleSubscribe {config : TenantConfig} (hm : m.Indexed) {h : ConnectionHandle}
    (channels : List String) : (handleSubscribe U config h m channels).1.Indexed := by
  have hgen : ∀ (channels : List String) (r : ConnectionManager × SubscribeProgress), r.1.Indexed →
      (channels.foldl (fun r channel => subscribeOne U config h r.1 r.2 channel) r).1.Indexed := by
    intro channels
    induction channels with
    | nil => exact fun r hr => hr
    | cons channel channels ih => exact fun r hr => ih _ (indexed_subscribeOne hr h r.2 channel)
  exact hgen channels (m, ⟨[], []⟩) hm

theorem indexed_handleUnsubscribe (hm : m.Indexed) {h : ConnectionHandle} (channels : List String) :
    (handleUnsubscribe multiTenant h m channels).1.Indexed := by
  unfold handleUnsubscribe
  induction channels generalizing m with
  | nil => exact hm
  | cons channel channels ih => exact ih (hm.unsubscribeFromChannel h.id _)

/-- **A call keeps the indices right and the subscriptions scoped, if it only asks for names
that are allowed.** -/
theorem indexed_scopedBy_perform {c : ClientCall} (hi : m.Indexed) (hs : ScopedBy allowed m)
    (hc : Legal m c)
    (ha : ∀ id channels, c = .subscribe id channels → ∀ channel ∈ channels,
      isValidChannelName U channel = true → allowed id channel) :
    (perform U m c).Indexed ∧ ScopedBy allowed (perform U m c) := by
  cases c with
  | connect id claims now =>
      refine ⟨hi.call hc, ?_⟩
      simp only [perform, ConnectionManager.call, ConnectionManager.register]
      obtain ⟨e, he⟩ | ⟨-, -, he⟩ :=
        m.registerWithLimits_cases id claims.sub claims.getTenantId claims.roles now m.limits
      · rw [he]
        exact hs
      · rw [he]
        refine hs.of_fewer (fun id' h' hl => ?_)
        simp only [ConnectionManager.insertHandle, DashMap.lookup_insert] at hl
        split_ifs at hl
        · left
          rw [← Option.some.inj hl]
          rfl
        · exact .inr ⟨h', hl, rfl, fun _ hk => hk⟩
  | disconnect id => exact ⟨hi.unregister id, hs.unregister id⟩
  | subscribe id channels =>
      simp only [perform]
      split
      · rename_i h hl
        have hid : h.id = id := (hi.keyed id h hl).1
        refine ⟨indexed_handleSubscribe hi channels, hs.handleSubscribe (fun h' hl' => ?_) ?_⟩
        · rw [hid, hl] at hl'
          rw [Option.some.inj hl']
        · rw [hid]
          exact ha id channels rfl
      · exact ⟨hi, hs⟩
  | unsubscribe id channels =>
      simp only [perform]
      split
      · exact ⟨indexed_handleUnsubscribe hi channels, hs.handleUnsubscribe channels⟩
      · exact ⟨hi, hs⟩
  | activity id now =>
      exact ⟨hi.updateActivity id now, hs.modify (fun _ => rfl) (fun _ _ key hk => .inl hk)⟩
  | cleanup now timeoutSecs order =>
      refine ⟨hi.call hc, ?_⟩
      simp only [perform, ConnectionManager.call]
      split
      · exact hs
      · exact hs.unregisterAll order

theorem scopedBy_withLimits (limits : ConnectionLimits) : ScopedBy allowed (.withLimits limits) := by
  intro id h hl
  simp [ConnectionManager.withLimits] at hl

/-- In every state the indices are right and all subscriptions are scoped. -/
theorem Served.indexed_scoped {limits : ConnectionLimits} (h : Served U limits m) :
    m.Indexed ∧ Scoped U m := by
  induction h with
  | empty => exact ⟨ConnectionManager.indexed_withLimits limits, scopedBy_withLimits limits⟩
  | call c _ hc ih => exact indexed_scopedBy_perform ih.1 ih.2 hc (fun _ _ _ _ _ hv => hv)

end subscriptions

/-! ### Requests of a tenant -/

section requests
variable {U : UnicodeTables} {m : ConnectionManager} {ctx : TenantContext}

theorem ctx_eq_new (ctx : TenantContext) : ctx = .new ctx.tenantId := by
  obtain ⟨t, d, hd⟩ := ctx
  subst hd
  rfl

/-- The subscribers of an unambiguous name are connections of the tenant. -/
theorem tenantId_of_channel (hi : m.Indexed) (hs : Scoped U m) {channel : String}
    (hu : Unambiguous U ctx.tenantId channel) {c : ConnectionHandle}
    (hc : c ∈ m.getChannelConnections (ctx.namespaceChannel channel)) : c.tenantId = ctx.tenantId := by
  obtain ⟨id, hid, hl⟩ := List.mem_filterMap.mp hc
  obtain ⟨h, hl', hk⟩ := (hi.channel.mem_iff _ id).mp hid
  obtain rfl : h = c := Option.some.inj (hl'.symm.trans hl)
  obtain ⟨name, hv, hkey⟩ := hs id h hl _ hk
  rw [ctx_eq_new ctx] at hkey
  exact tenant_eq_of_unambiguous hu hv hkey.symm

/-- With unambiguous channel names every target of a request names connections of the tenant. -/
theorem tenantId_of_target (hi : m.Indexed) (hs : Scoped U m) {r : Http.ApiRequest}
    (hu : ∀ channel ∈ r.channelNames, Unambiguous U ctx.tenantId channel)
    {target : NotificationTarget} (ht : target ∈ r.targets (some ctx)) {c : ConnectionHandle}
    (hc : c ∈ Dispatcher.recipients m (some ctx.tenantId) target) : c.tenantId = ctx.tenantId := by
  have user : ∀ u, c ∈ getUserConnectionsFiltered m u (some ctx.tenantId) → c.tenantId = ctx.tenantId := by
    intro u hc
    simpa using (List.mem_filter.mp hc).2
  have broadcast : c ∈ getBroadcastConnections m (some ctx.tenantId) → c.tenantId = ctx.tenantId := by
    intro hc
    obtain ⟨id, hid, hl⟩ := List.mem_filterMap.mp hc
    obtain ⟨h, hl', hk⟩ := (hi.tenant.mem_iff _ id).mp hid
    obtain rfl : h = c := Option.some.inj (hl'.symm.trans hl)
    exact hk
  have channels : ∀ names : List String, (∀ n ∈ names, n ∈ r.channelNames) →
      c ∈ (names.map ctx.namespaceChannel).flatMap m.getChannelConnections →
      c.tenantId = ctx.tenantId := by
    intro names hn hc
    obtain ⟨key, hk, hc⟩ := List.mem_flatMap.mp hc
    obtain ⟨name, hname, rfl⟩ := List.mem_map.mp hk
    exact tenantId_of_channel hi hs (hu name (hn name hname)) hc
  cases r with
  | send r =>
      rw [Http.ApiRequest.targets, List.mem_singleton] at ht
      subst ht
      exact user _ hc
  | sendToUsers r =>
      rw [Http.ApiRequest.targets, List.mem_singleton] at ht
      subst ht
      obtain ⟨u, -, hc⟩ := List.mem_flatMap.mp hc
      exact user u hc
  | broadcast r =>
      rw [Http.ApiRequest.targets, List.mem_singleton] at ht
      subst ht
      exact broadcast hc
  | channel r =>
      rw [Http.ApiRequest.targets, List.mem_singleton] at ht
      subst ht
      exact tenantId_of_channel hi hs (hu r.channel (by simp [Http.ApiRequest.channelNames])) hc
  | channels r =>
      rw [Http.ApiRequest.targets, List.mem_singleton] at ht
      subst ht
      exact channels r.channels (fun _ hn => hn) hc
  | batch r =>
      obtain ⟨item, hitem, rfl⟩ := List.mem_map.mp ht
      have hnames : ∀ n ∈ Http.BatchTarget.channelNames item.target,
          n ∈ (Http.ApiRequest.batch r).channelNames :=
        fun n hn => List.mem_flatMap.mpr ⟨item, hitem, hn⟩
      cases htarget : item.target with
      | user id =>
          rw [htarget] at hc
          exact user id hc
      | users ids =>
          rw [htarget] at hc
          obtain ⟨u, -, hc⟩ := List.mem_flatMap.mp hc
          exact user u hc
      | broadcast =>
          rw [htarget] at hc
          exact broadcast hc
      | channel name =>
          rw [htarget] at hc hnames
          exact tenantId_of_channel hi hs (hu name (hnames name List.mem_cons_self)) hc
      | channels names =>
          rw [htarget] at hc hnames
          exact channels names hnames hc

/-- Whatever request of the tenant with channel names from `names` is handled, in whatever
state, its notification is put on connections of the tenant only. -/
def Isolated (U : UnicodeTables) (limits : ConnectionLimits) (ctx : TenantContext)
    (names : Set String) : Prop :=
  ∀ m, Served U limits m → ∀ (store : TemplateStore) (d : Dispatcher), d.outbox = [] →
    ∀ (occasion : ℕ → Occasion) (batchId : Uuid) (timestamp : DateTime) (r : Http.ApiRequest),
      (∀ channel ∈ r.channelNames, channel ∈ names) →
      ∀ p ∈ (Http.handle m store (some ctx) d occasion batchId timestamp r).2.outbox,
        p.conn.tenantId = ctx.tenantId

theorem isolated_of_unambiguous {limits : ConnectionLimits} {names : Set String}
    (hu : ∀ channel ∈ names, Unambiguous U ctx.tenantId channel) : Isolated U limits ctx names := by
  intro m hm store d hd occasion batchId timestamp r hr p hp
  obtain ⟨hi, hs⟩ := hm.indexed_scoped
  rcases Http.handle_placed occasion batchId timestamp r p hp with hp | ⟨target, ht, hc⟩
  · rw [hd] at hp
    exact absurd hp List.not_mem_nil
  · exact tenantId_of_target hi hs (fun channel hch => hu channel (hr channel hch)) ht hc

/-! ### Ambiguous names -/

/-- The handle of a subscriber with one subscription. -/
def subscriber (tenantId key : String) : ConnectionHandle :=
  { ConnectionHandle.new 1 "subscriber" tenantId [] 0 with subscriptions := [key] }

/-- A connection of a user of tenant `t` is the only one and subscribes to a valid channel name. -/
theorem exists_served_only (limits : ConnectionLimits) (u t : String) {name : String}
    (hv : isValidChannelName U name = true) :
    ∃ m, Served U limits m ∧ m.channelIndex.ids ((TenantContext.new t).namespaceChannel name) = [1] ∧
      ∀ id, m.connections.lookup id = if id = 1 then
        some { ConnectionHandle.new 1 u t [] 0 with
          subscriptions := [(TenantContext.new t).namespaceChannel name] }
        else none := by
  let key := (TenantContext.new t).namespaceChannel name
  let h := ConnectionHandle.new 1 u t [] 0
  have hconnect : perform U (.withLimits limits) (.connect 1 ⟨u, [], some t⟩ 0) =
      (ConnectionManager.withLimits limits).insertHandle h := by
    simp only [perform, ConnectionManager.call, ConnectionManager.register_withLimits]
    rfl
  have hserved := Served.call (U := U) (.connect 1 ⟨u, [], some t⟩ 0)
    (Served.empty : Served U limits _) (by simp [Legal, ConnectionManager.withLimits])
  rw [hconnect] at hserved
  have hl : ((ConnectionManager.withLimits limits).insertHandle h).connections.lookup 1 = some h := by
    simp [ConnectionManager.insertHandle, h, ConnectionHandle.new]
  refine ⟨_, hserved.call (.subscribe 1 [name]) trivial, ?_⟩
  simp only [perform, hl, handleSubscribe, List.foldl_cons, List.foldl_nil, subscribeOne, hv, if_true]
  obtain ⟨e, he⟩ | ⟨h', hl', -, he⟩ :=
    ((ConnectionManager.withLimits limits).insertHandle h).subscribeToChannel_cases 1
      (channelKey multiTenant h name)
  · exfalso
    simp only [ConnectionManager.subscribeToChannel, hl] at he
    split_ifs at he with hlim
    · have hpos : 0 < limits.maxSubscriptionsPerConnection := hlim.1
      have hzero : limits.maxSubscriptionsPerConnection ≤ 0 := hlim.2
      omega
    · cases he
  · rw [show h.id = 1 from rfl, he]
    refine ⟨?_, fun id => ?_⟩
    · rw [InvertedIndex.ids_add, if_pos (show key = channelKey multiTenant h name from rfl)]
      rfl
    · rw [DashMap.lookup_modify, hl]
      split_ifs with hid
      · rfl
      · exact (AList.lookup_insert_ne hid).trans rfl

/-- A connection of tenant `t` subscribes to a valid channel name as the first to do so. -/
theorem exists_served_subscriber (limits : ConnectionLimits) (t : String) {name : String}
    (hv : isValidChannelName U name = true) :
    ∃ m, Served U limits m ∧
      m.getChannelConnections ((TenantContext.new t).namespaceChannel name) =
        [subscriber t ((TenantContext.new t).namespaceChannel name)] := by
  obtain ⟨m, hm, hids, hlookup⟩ := exists_served_only limits "subscriber" t hv
  refine ⟨m, hm, ?_⟩
  rw [ConnectionManager.getChannelConnections, ConnectionManager.handles, hids, List.filterMap_cons,
    hlookup, if_pos rfl]
  rfl

/-- The surroundings in which every connection takes every message at time zero. -/
def calm : Surroundings where
  now := 0
  accepts _ := true
  stamp n := (n, 0)
  completion conns := conns
  completion_perm _ := List.Perm.refl _

/-- A request with directly given content. -/
def directRequest : NotificationRequest := ⟨.direct "order.created" .null, none, none, none⟩

theorem unambiguous_of_isolated {limits : ConnectionLimits} {names : Set String}
    (h : Isolated U limits ctx names) (channel : String) (hch : channel ∈ names) :
    Unambiguous U ctx.tenantId channel := by
  by_contra hamb
  obtain ⟨t, name, hne, hv, hkey⟩ := exists_foreign_of_ambiguous hamb
  obtain ⟨m, hm, hconns⟩ := exists_served_subscriber (U := U) limits t hv
  let r : Http.ApiRequest := .channel { directRequest with channel := channel }
  let d : Dispatcher := ⟨none, none, ⟨0, 0, 0, 0, 0, 0⟩, []⟩
  have houtbox : (Http.handle m ⟨∅, fun _ _ => .ok .null⟩ (some ctx) d (fun _ => ⟨1, 0, calm, 0⟩) 0 0 r).2.outbox =
      [⟨subscriber t ((TenantContext.new t).namespaceChannel name),
        .raw (.notification (buildEvent ⟨"order.created", .null, .normal, none⟩ none none ⟨1, 0, calm, 0⟩))⟩] := by
    simp only [r, Http.handle, Http.answer, Http.channelNotification, Http.sendWith, Http.namespaced,
      directRequest, NotificationContent.resolveForTenant, Dispatcher.sendToChannel]
    rw [ctx_eq_new ctx, ← hkey, hconns]
    rfl
  have hp := h m hm ⟨∅, fun _ _ => .ok .null⟩ d rfl (fun _ => ⟨1, 0, calm, 0⟩) 0 0 r
    (fun c hc => by rw [List.mem_singleton.mp hc]; exact hch) _ (by rw [houtbox]; exact List.mem_cons_self)
  exact hne hp

/-- **Requests of a tenant stay within the tenant exactly when their channel names are
unambiguous for it.** -/
theorem isolated_iff (U : UnicodeTables) (limits : ConnectionLimits) (ctx : TenantContext)
    (names : Set String) :
    Isolated U limits ctx names ↔ ∀ channel ∈ names, Unambiguous U ctx.tenantId channel :=
  ⟨unambiguous_of_isolated, isolated_of_unambiguous⟩

/-- The default tenant's request for the channel `acme:orders` reaches the subscribers of
`orders` of tenant `acme`. -/
theorem default_reaches_acme :
    ¬ ∀ (U : UnicodeTables) (settings : ApiSettings) (limits : ConnectionLimits)
        (headers : RequestHeaders) (ctx : TenantContext), settings.key.isSome = true →
        apiKeyAuth U settings multiTenant headers = .ok (some ctx) → Isolated U limits ctx Set.univ := by
  intro hall
  have hauth : apiKeyAuth .ascii ⟨some "secret", false⟩ multiTenant ⟨some "secret", some "default"⟩ =
      .ok (some (.new "default")) := by
    rfl
  have hunamb := unambiguous_of_isolated (hall _ _ .default _ _ rfl hauth) "acme:orders" trivial
  exact absurd hunamb (by decide)

end requests

end TenantIsolation

end AraNotification
