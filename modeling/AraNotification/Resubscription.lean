import AraNotification.ChannelAgreement
import AraNotification.Lib.CappedSet

/-! # Subscribing again

A client that is not sure whether its subscriptions have arrived sends them again.
`subscribe_to_channel` asks for the limit before it looks at the channel, so a connection that has as many
subscriptions as it may have is refused also what it is subscribed to: the subscriptions of a connection
are a set with a capacity (`Lib/CappedSet.lean`), to which a `Subscribe` message offers the keys of its
valid channels (`foldl_subscribeOne`).

Subscribing again never changes the state.  It succeeds exactly below the limit, and a second `Subscribe`
message is answered like the first unless the first one has filled the connection
(`again_iff`). -/

namespace AraNotification

namespace Resubscription

open CappedSet ChannelAgreement TenantIsolation

/-- Two managers that no access tells apart. -/
structure SameState (m m' : ConnectionManager) : Prop where
  limits : m.limits = m'.limits
  connections : ∀ id, m.connections.lookup id = m'.connections.lookup id
  user : ∀ k, m.userIndex.lookup k = m'.userIndex.lookup k
  channel : ∀ k, m.channelIndex.lookup k = m'.channelIndex.lookup k
  tenant : ∀ k, m.tenantIndex.lookup k = m'.tenantIndex.lookup k

/-- The subscription is confirmed, and changes nothing. -/
structure SubscribesAgain (m : ConnectionManager) (id : Uuid) (channel : String) : Prop where
  ok : (m.subscribeToChannel id channel).1 = .ok ()
  same : SameState (m.subscribeToChannel id channel).2 m

/-- The channels in the session store after a `Subscribe` message: those of the connection, if any has been
confirmed. -/
def sessionChannels (h : ConnectionHandle) (r : ConnectionManager × List ServerMessage) (stored : List String) :
    List String :=
  if (confirmed r.2).isEmpty then stored
  else match r.1.connections.lookup h.id with
    | some c => c.subscriptions
    | none => stored

section messages
variable (U : UnicodeTables) (config : TenantConfig)

/-- A second processing of a message leaves the state of the first one, and confirms what that has
confirmed. -/
structure HandlesAgain (h : ConnectionHandle) (m : ConnectionManager) (channels stored : List String) : Prop where
  same : SameState (handleSubscribe U config h (handleSubscribe U config h m channels).1 channels).1
    (handleSubscribe U config h m channels).1
  session : sessionChannels h (handleSubscribe U config h (handleSubscribe U config h m channels).1 channels)
      (sessionChannels h (handleSubscribe U config h m channels) stored) =
    sessionChannels h (handleSubscribe U config h m channels) stored
  confirms : ∀ ch ∈ confirmed (handleSubscribe U config h m channels).2,
    ch ∈ confirmed (handleSubscribe U config h (handleSubscribe U config h m channels).1 channels).2

/-- The channels that a connection has and a message asks for. -/
def wanted (h : ConnectionHandle) (channels : List String) : Finset String :=
  (h.subscriptions ++ (channels.filter (isValidChannelName U)).map (channelKey config h)).toFinset

end messages

/-! ### One channel -/

section one
variable {m m' m'' : ConnectionManager} {id : Uuid} {c : ConnectionHandle} {channel : String}

theorem SameState.refl (m : ConnectionManager) : SameState m m :=
  ⟨rfl, fun _ => rfl, fun _ => rfl, fun _ => rfl, fun _ => rfl⟩

theorem SameState.trans (h : SameState m m') (h' : SameState m' m'') : SameState m m'' where
  limits := h.limits.trans h'.limits
  connections id := (h.connections id).trans (h'.connections id)
  user k := (h.user k).trans (h'.user k)
  channel k := (h.channel k).trans (h'.channel k)
  tenant k := (h.tenant k).trans (h'.tenant k)

theorem subscribeToChannel_of_full (hl : m.connections.lookup id = some c)
    (h : Full m.limits.maxSubscriptionsPerConnection c.subscriptions) (channel : String) :
    ∃ e, m.subscribeToChannel id channel = (.error e, m) := by
  unfold ConnectionManager.subscribeToChannel
  rw [hl]
  exact ⟨_, if_pos h⟩

theorem subscribeToChannel_of_not_full (hl : m.connections.lookup id = some c)
    (h : ¬ Full m.limits.maxSubscriptionsPerConnection c.subscriptions) (channel : String) :
    m.subscribeToChannel id channel = (.ok (), { m with
      connections := m.connections.modify id (·.subscribe channel)
      channelIndex := m.channelIndex.add channel id }) := by
  unfold ConnectionManager.subscribeToChannel
  rw [hl]
  exact if_neg h

/-- A channel that the connection is subscribed to changes nothing. -/
theorem sameState_subscribeToChannel (hm : m.Indexed) (hl : m.connections.lookup id = some c)
    (hmem : channel ∈ c.subscriptions) : SameState (m.subscribeToChannel id channel).2 m := by
  by_cases hfull : Full m.limits.maxSubscriptionsPerConnection c.subscriptions
  · obtain ⟨e, he⟩ := subscribeToChannel_of_full hl hfull channel
    rw [he]
    exact .refl m
  rw [subscribeToChannel_of_not_full hl hfull]
  have hfiled : id ∈ m.channelIndex.ids channel := (hm.channel.mem_iff channel id).mpr ⟨c, hl, hmem⟩
  refine ⟨rfl, fun id' => ?_, fun _ => rfl, fun k => ?_, fun _ => rfl⟩
  · rw [DashMap.lookup_modify]
    split_ifs with hid
    · subst hid
      rw [hl, Option.map_some, ConnectionHandle.subscribe, List.insert_of_mem hmem]
    · rfl
  · rw [InvertedIndex.add, DashMap.lookup_insert]
    split_ifs with hk
    · subst hk
      rw [List.insert_of_mem hfiled]
      unfold InvertedIndex.ids at hfiled ⊢
      cases hlook : m.channelIndex.lookup k with
      | none => simp [hlook] at hfiled
      | some l => rfl
    · rfl

theorem subscribesAgain_iff (hm : m.Indexed) (hl : m.connections.lookup id = some c)
    (hmem : channel ∈ c.subscriptions) :
    SubscribesAgain m id channel ↔ ¬ Full m.limits.maxSubscriptionsPerConnection c.subscriptions := by
  constructor
  · rintro ⟨hok, -⟩ hfull
    obtain ⟨e, he⟩ := subscribeToChannel_of_full hl hfull channel
    rw [he] at hok
    cases hok
  · intro hfull
    exact ⟨by rw [subscribeToChannel_of_not_full hl hfull], sameState_subscribeToChannel hm hl hmem⟩

end one

/-! ### A message -/

section message
variable {U : UnicodeTables} {config : TenantConfig} {m : ConnectionManager} {h c : ConnectionHandle}
  {p : SubscribeProgress} {channel : String} {channels stored : List String}

/-- The subscriptions and the confirmed names after a message. -/
def offered (U : UnicodeTables) (config : TenantConfig) (m : ConnectionManager) (h c : ConnectionHandle)
    (channels : List String) : List String × List String :=
  offerAll m.limits.maxSubscriptionsPerConnection (channelKey config h) c.subscriptions
    (channels.filter (isValidChannelName U))

theorem subscribeOne_of_invalid (hv : ¬ isValidChannelName U channel = true) :
    subscribeOne U config h m p channel =
      (m, { p with errors := p.errors ++ ["Invalid channel name: " ++ channel] }) :=
  if_neg hv

/-- A valid channel is offered to the connection. -/
theorem subscribeOne_of_valid (hv : isValidChannelName U channel = true)
    (hl : m.connections.lookup h.id = some c) :
    let r := subscribeOne U config h m p channel
    let o := offer m.limits.maxSubscriptionsPerConnection (channelKey config h) (c.subscriptions, p.subscribed) channel
    r.1.limits = m.limits ∧ r.1.connections.lookup h.id = some { c with subscriptions := o.1 } ∧
      r.2.subscribed = o.2 := by
  intro r o
  by_cases hfull : Full m.limits.maxSubscriptionsPerConnection c.subscriptions
  · obtain ⟨e, he⟩ := subscribeToChannel_of_full hl hfull (channelKey config h channel)
    have hr : r = (m, { p with errors := p.errors ++ [e] }) := by
      simp only [r, subscribeOne, hv, if_true, he]
    have ho : o = (c.subscriptions, p.subscribed) := offer_of_full hfull channel
    rw [hr, ho]
    exact ⟨rfl, hl, rfl⟩
  · have he := subscribeToChannel_of_not_full hl hfull (channelKey config h channel)
    have hr : r = ((m.subscribeToChannel h.id (channelKey config h channel)).2,
        { p with subscribed := p.subscribed ++ [channel] }) := by
      simp only [r, subscribeOne, hv, if_true, he]
    have ho : o = (c.subscriptions.insert (channelKey config h channel), p.subscribed ++ [channel]) :=
      offer_of_not_full hfull channel
    rw [hr, ho, he]
    exact ⟨rfl, by rw [DashMap.lookup_modify, if_pos rfl, hl]; rfl, rfl⟩

/-- A message offers its valid channels one after the other. -/
theorem foldl_subscribeOne (hl : m.connections.lookup h.id = some c) (channels : List String) :
    let r := channels.foldl (fun r channel => subscribeOne U config h r.1 r.2 channel) (m, p)
    let o := (channels.filter (isValidChannelName U)).foldl
      (offer m.limits.maxSubscriptionsPerConnection (channelKey config h)) (c.subscriptions, p.subscribed)
    r.1.limits = m.limits ∧ r.1.connections.lookup h.id = some { c with subscriptions := o.1 } ∧
      r.2.subscribed = o.2 := by
  induction channels generalizing m c p with
  | nil => exact ⟨rfl, hl, rfl⟩
  | cons channel channels ih =>
      by_cases hv : isValidChannelName U channel = true
      · obtain ⟨hlimits, hl', hsub⟩ := @subscribeOne_of_valid U config m h c p channel hv hl
        have hrest := ih (p := (subscribeOne U config h m p channel).2) hl'
        rw [List.filter_cons_of_pos hv, List.foldl_cons, List.foldl_cons]
        simp only [hlimits, hsub] at hrest
        exact hrest
      · rw [List.filter_cons_of_neg hv, List.foldl_cons, subscribeOne_of_invalid hv]
        exact ih hl

/-- What a message does to its connection, and what it confirms. -/
theorem handleSubscribe_spec (hl : m.connections.lookup h.id = some c) (channels : List String) :
    (handleSubscribe U config h m channels).1.limits = m.limits ∧
      (handleSubscribe U config h m channels).1.connections.lookup h.id =
        some { c with subscriptions := (offered U config m h c channels).1 } ∧
      confirmed (handleSubscribe U config h m channels).2 = (offered U config m h c channels).2 := by
  obtain ⟨hlimits, hl', hsub⟩ := @foldl_subscribeOne U config m h c ⟨[], []⟩ hl channels
  refine ⟨hlimits, hl', ?_⟩
  unfold handleSubscribe
  rw [confirmed_replies]
  exact hsub

/-- A channel of a settled connection changes nothing. -/
theorem sameState_subscribeOne (hm : m.Indexed) (hl : m.connections.lookup h.id = some c)
    (hs : isValidChannelName U channel = true → Full m.limits.maxSubscriptionsPerConnection c.subscriptions ∨
      channelKey config h channel ∈ c.subscriptions) :
    SameState (subscribeOne U config h m p channel).1 m := by
  by_cases hv : isValidChannelName U channel = true
  · have hsame : SameState (m.subscribeToChannel h.id (channelKey config h channel)).2 m := by
      rcases hs hv with hfull | hmem
      · obtain ⟨e, he⟩ := subscribeToChannel_of_full hl hfull (channelKey config h channel)
        rw [he]
        exact .refl m
      · exact sameState_subscribeToChannel hm hl hmem
    unfold subscribeOne
    rw [if_pos hv]
    split <;> rename_i he <;> rwa [he] at hsame
  · rw [subscribeOne_of_invalid hv]
    exact .refl m

/-- A message to a settled connection changes nothing. -/
theorem sameState_foldl_subscribeOne (hm : m.Indexed) (hl : m.connections.lookup h.id = some c)
    (hs : Settled m.limits.maxSubscriptionsPerConnection (channelKey config h) c.subscriptions
      (channels.filter (isValidChannelName U))) :
    SameState (channels.foldl (fun r channel => subscribeOne U config h r.1 r.2 channel) (m, p)).1 m := by
  induction channels generalizing m p with
  | nil => exact .refl m
  | cons channel channels ih =>
      have hone : SameState (subscribeOne U config h m p channel).1 m := by
        refine sameState_subscribeOne hm hl (fun hv => hs.imp_right (fun hall => hall channel ?_))
        rw [List.filter_cons_of_pos hv]
        exact List.mem_cons_self
      rw [List.foldl_cons]
      refine (ih (indexed_subscribeOne hm h p channel) ((hone.connections h.id).trans hl) ?_).trans hone
      rw [hone.limits]
      refine hs.imp_right (fun hall x hx => hall x ?_)
      obtain ⟨hx, hv⟩ := List.mem_filter.mp hx
      exact List.mem_filter.mpr ⟨List.mem_cons_of_mem _ hx, hv⟩

theorem sessionChannels_eq {r : ConnectionManager × List ServerMessage} (hl : r.1.connections.lookup h.id = some c)
    (stored : List String) :
    sessionChannels h r stored = if (confirmed r.2).isEmpty then stored else c.subscriptions := by
  unfold sessionChannels
  rw [hl]

/-- The second processing of a message meets a settled connection. -/
theorem handlesAgain_iff (hm : m.Indexed) (hl : m.connections.lookup h.id = some c) (channels stored : List String) :
    HandlesAgain U config h m channels stored ↔
      (Full m.limits.maxSubscriptionsPerConnection (offered U config m h c channels).1 →
        Full m.limits.maxSubscriptionsPerConnection c.subscriptions) := by
  obtain ⟨hlimits, hl', hconfirmed⟩ := @handleSubscribe_spec U config m h c hl channels
  have hm' := @indexed_handleSubscribe U m config hm h channels
  have hsettled : Settled m.limits.maxSubscriptionsPerConnection (channelKey config h)
      (offered U config m h c channels).1 (channels.filter (isValidChannelName U)) := settled_offerAll _ _
  have hsame : SameState (handleSubscribe U config h (handleSubscribe U config h m channels).1 channels).1
      (handleSubscribe U config h m channels).1 :=
    sameState_foldl_subscribeOne hm' hl' (hlimits ▸ hsettled)
  have hconfirmed' : confirmed (handleSubscribe U config h (handleSubscribe U config h m channels).1 channels).2 =
      (offerAll m.limits.maxSubscriptionsPerConnection (channelKey config h) (offered U config m h c channels).1
        (channels.filter (isValidChannelName U))).2 := by
    rw [(@handleSubscribe_spec U config _ h _ hl' channels).2.2, ← hlimits]
    rfl
  constructor
  · intro hagain
    have hconfirms := hagain.confirms
    rw [hconfirmed, hconfirmed'] at hconfirms
    exact accepted_again_iff.mp hconfirms
  · intro hfull
    refine ⟨hsame, ?_, ?_⟩
    · rw [sessionChannels_eq ((hsame.connections h.id).trans hl'), sessionChannels_eq hl', hconfirmed, hconfirmed',
        hsettled.accepted]
      by_cases hfull' : Full m.limits.maxSubscriptionsPerConnection (offered U config m h c channels).1
      · rw [if_pos hfull']
        rfl
      · -- Below the limit both messages confirm the same channels.
        have haccepted : (offered U config m h c channels).2 = channels.filter (isValidChannelName U) :=
          accepted_offerAll hfull'
        rw [if_neg hfull', haccepted]
        split_ifs <;> rfl
    · rw [hconfirmed, hconfirmed']
      exact accepted_again_iff.mpr hfull

/-- **Subscribing again works if and only if the limit leaves room**: a channel that the connection is
subscribed to is confirmed exactly below the limit, and a second `Subscribe` message is answered like the
first exactly when that has not filled the connection. -/
theorem again_iff {limits : ConnectionLimits} {id : Uuid} (hm : m.Reachable limits)
    (hl : m.connections.lookup id = some h) :
    (∀ channel ∈ h.subscriptions, SubscribesAgain m id channel ↔
        limits.maxSubscriptionsPerConnection = 0 ∨ h.subscriptions.length < limits.maxSubscriptionsPerConnection) ∧
      ∀ channels stored, HandlesAgain U config h m channels stored ↔
        limits.maxSubscriptionsPerConnection = 0 ∨
          limits.maxSubscriptionsPerConnection ≤ h.subscriptions.length ∨
            (wanted U config h channels).card < limits.maxSubscriptionsPerConnection := by
  have hindexed := hm.indexed
  obtain ⟨rfl, hnodup⟩ := hindexed.keyed id h hl
  obtain rfl := hm.limits_eq
  refine ⟨fun channel hmem => ?_, fun channels stored => ?_⟩
  · rw [subscribesAgain_iff hindexed hl hmem, Full]
    omega
  · rw [handlesAgain_iff hindexed hl, offered, full_offerAll_iff hnodup, Full, wanted]
    omega

/-- One connection with one subscription. -/
def oneSubscription (limits : ConnectionLimits) : ConnectionManager :=
  (((ConnectionManager.withLimits limits).call (.register 1 "alice" "acme" [] 0)).2.call
    (.subscribeToChannel 1 "acme:orders")).2

theorem reachable_oneSubscription (limits : ConnectionLimits) : (oneSubscription limits).Reachable limits :=
  (ConnectionManager.Reachable.empty.call (.register 1 "alice" "acme" [] 0) rfl).call _ trivial

/-- With room for a second subscription the first one may be sent again. -/
theorem again_below_limit :
    SubscribesAgain (oneSubscription ⟨10, 10, 2⟩) 1 "acme:orders" ∧
      HandlesAgain .ascii ⟨true⟩ ⟨1, "alice", "acme", [], 0, 0, ["acme:orders"]⟩ (oneSubscription ⟨10, 10, 2⟩)
        ["orders"] [] :=
  have hagain := @again_iff .ascii ⟨true⟩ _ ⟨1, "alice", "acme", [], 0, 0, ["acme:orders"]⟩ _ 1
    (reachable_oneSubscription ⟨10, 10, 2⟩) rfl
  ⟨(hagain.1 "acme:orders" List.mem_cons_self).mpr (.inr (by decide)),
    (hagain.2 ["orders"] []).mpr (.inr (.inr (by decide)))⟩

/-- A full connection is refused what it is subscribed to. -/
theorem not_again_at_limit : ¬ ∀ (U : UnicodeTables) (config : TenantConfig) (limits : ConnectionLimits)
    (m : ConnectionManager) (id : Uuid) (h : ConnectionHandle), m.Reachable limits →
      m.connections.lookup id = some h →
        (∀ channel ∈ h.subscriptions, SubscribesAgain m id channel) ∧
          ∀ channels stored, (∀ channel ∈ channels, isValidChannelName U channel = true) →
            HandlesAgain U config h m channels stored := by
  intro hall
  have hsub := (hall .ascii ⟨true⟩ ⟨10, 10, 1⟩ _ 1 ⟨1, "alice", "acme", [], 0, 0, ["acme:orders"]⟩
    (reachable_oneSubscription ⟨10, 10, 1⟩) rfl).1 "acme:orders" List.mem_cons_self
  exact nomatch hsub.ok

end message

end Resubscription

end AraNotification
