import AraNotification.DispatchRecipients
import AraNotification.TenantIsolation

/-! # What queries tell a tenant

The three query endpoints of `api/connection.rs`: the channels with the number of their
subscribers, one channel, and the subscriptions of a user.  They filter in three ways: by the prefix
of the tenant, by the namespaced name, and, for a user, only after they have looked whether the user
has a connection at all.  The default tenant's answers are not filtered.

The answers to a tenant should depend on its own connections only.  `no_leak_iff` says which other
tenants may connect without an answer to a query telling of it: none for the subscriptions of a user
and for the default tenant's list of channels, for another tenant's list those whose identifier does
not begin with that of the tenant and a colon, and for one channel those that have no valid channel
name with its key. -/

namespace AraNotification

/-! ### The queries of the connection manager -/

/-- Channel information. -/
structure ChannelInfo where
  name : String
  subscriberCount : ℕ
deriving DecidableEq, Repr

/-- User subscription information. -/
structure UserSubscriptionInfo where
  userId : String
  connectionCount : ℕ
  subscriptions : List String
deriving DecidableEq, Repr

namespace ConnectionManager
variable (m : ConnectionManager)

/-- List all channels with their subscriber counts. -/
def listChannels : List ChannelInfo := m.channelIndex.entries.map (fun e => ⟨e.1, e.2.length⟩)

/-- Information on one channel. -/
def getChannelInfo (channel : String) : Option ChannelInfo :=
  (m.channelIndex.lookup channel).map (fun ids => ⟨channel, ids.length⟩)

/-- All subscriptions of a user, across its connections; a set, here in some order. -/
def getUserSubscriptions (userId : String) : Option UserSubscriptionInfo :=
  let connections := m.getUserConnections userId
  if connections.isEmpty then none
  else some ⟨userId, connections.length, (connections.flatMap (·.subscriptions)).dedup⟩

end ConnectionManager

/-! ### The endpoints -/

/-- A query about connections. -/
inductive ChannelQuery where
  | listChannels
  | getChannel (name : String)
  | getUserSubscriptions (userId : String)
deriving DecidableEq, Repr

/-- The answer to a query. -/
inductive ChannelReply where
  | channels (channels : List ChannelInfo) (totalChannels : ℕ)
  | channel (name : String) (subscriberCount : ℕ)
  | subscriptions (userId : String) (connectionCount : ℕ) (subscriptions : List String)
  | error (status : ℕ) (code message : String)
deriving DecidableEq, Repr

/-- Equal answers, up to the order of lists. -/
def ChannelReply.Same : ChannelReply → ChannelReply → Prop
  | .channels cs total, .channels cs' total' => cs.Perm cs' ∧ total = total'
  | .subscriptions u n subs, .subscriptions u' n' subs' => u = u' ∧ n = n' ∧ subs.Perm subs'
  | r, r' => r = r'

namespace ChannelQueries
variable (m : ConnectionManager) (ctx : Option TenantContext)

/-- The tenant by which an answer is filtered. -/
def filteringTenant : Option String :=
  match ctx with
  | some t => if t.isDefault then none else some t.tenantId
  | none => none

/-- The name begins with the prefix of the tenant. -/
def ofTenantName (tenant name : String) : Bool := (tenant ++ ":").toList.isPrefixOf name.toList

/-- `GET /api/v1/channels`. -/
def listChannels : ChannelReply :=
  let channels := match filteringTenant ctx with
    | some t => m.listChannels.filter (fun c => ofTenantName t c.name)
    | none => m.listChannels
  .channels channels channels.length

/-- `GET /api/v1/channels/:name`. -/
def getChannel (name : String) : ChannelReply :=
  match m.getChannelInfo (Http.namespaced ctx name) with
  | some info => .channel info.name info.subscriberCount
  | none => .error 404 "CHANNEL_NOT_FOUND" ("Channel '" ++ name ++ "' not found or has no subscribers")

/-- `GET /api/v1/users/:user_id/subscriptions`. -/
def getUserSubscriptions (userId : String) : ChannelReply :=
  match m.getUserSubscriptions userId with
  | some info =>
      match filteringTenant ctx with
      | some t => .subscriptions info.userId ((m.getUserConnections userId).filter (·.tenantId = t)).length
          (info.subscriptions.filter (ofTenantName t))
      | none => .subscriptions info.userId info.connectionCount info.subscriptions
  | none => .error 404 "USER_NOT_CONNECTED" ("User '" ++ userId ++ "' has no active connections")

/-- One query. -/
def answer : ChannelQuery → ChannelReply
  | .listChannels => listChannels m ctx
  | .getChannel name => getChannel m ctx name
  | .getUserSubscriptions userId => getUserSubscriptions m ctx userId

/-! ### Agreement of two states -/

open TenantIsolation

/-- Every connection of the tenant in `m` is one in `m'`, with its user and its subscriptions. -/
def Shows (tenant : String) (m m' : ConnectionManager) : Prop :=
  ∀ id h, m.connections.lookup id = some h → h.tenantId = tenant →
    ∃ h', m'.connections.lookup id = some h' ∧ h'.tenantId = tenant ∧ h'.userId = h.userId ∧
      ∀ key, key ∈ h'.subscriptions ↔ key ∈ h.subscriptions

/-- The states have the same connections of the tenant. -/
def AgreeOn (tenant : String) (m m' : ConnectionManager) : Prop := Shows tenant m m' ∧ Shows tenant m' m

/-- All connections are of these tenants. -/
def Within (tenants : Set String) (m : ConnectionManager) : Prop :=
  ∀ id h, m.connections.lookup id = some h → h.tenantId ∈ tenants

/-- While only these tenants connect, the answer to the query depends on the connections of the
tenant only. -/
def NoLeak (U : UnicodeTables) (limits : ConnectionLimits) (tenants : Set String) (tenant : String)
    (q : ChannelQuery) : Prop :=
  ∀ m m', Served U limits m → Served U limits m' → Within tenants m → Within tenants m' →
    AgreeOn tenant m m' → (answer m (some (.new tenant)) q).Same (answer m' (some (.new tenant)) q)

/-- No other one of the tenants can be seen in the answer to the query. -/
def Hidden (U : UnicodeTables) (tenants : Set String) (tenant : String) : ChannelQuery → Prop
  | .listChannels =>
      if tenant = defaultTenantId then ∀ t ∈ tenants, t = tenant
      else ∀ t ∈ tenants, ∀ x, t ≠ tenant ++ ":" ++ x
  | .getChannel name => ∀ t ∈ tenants, t ≠ tenant → ∀ name', isValidChannelName U name' = true →
      (TenantContext.new t).namespaceChannel name' ≠ (TenantContext.new tenant).namespaceChannel name
  | .getUserSubscriptions _ => ∀ t ∈ tenants, t = tenant

/-! ### Equal answers -/

section equal
variable {U : UnicodeTables} {m m' : ConnectionManager} {tenants : Set String} {tenant key : String}

/-- All connections on a channel are of one tenant. -/
def OwnChannel (tenant key : String) (m : ConnectionManager) : Prop :=
  ∀ id h, m.connections.lookup id = some h → key ∈ h.subscriptions → h.tenantId = tenant

theorem Shows.onChannel (h : Shows tenant m m') (hown : OwnChannel tenant key m) {id : Uuid}
    (hid : m.OnChannel key id) : m'.OnChannel key id := by
  obtain ⟨c, hl, hk⟩ := hid
  obtain ⟨c', hl', -, -, hsubs⟩ := h id c hl (hown id c hl hk)
  exact ⟨c', hl', (hsubs key).mpr hk⟩

/-- A channel of the tenant has as many subscribers in both states. -/
theorem subscribers_congr (hm : m.Indexed) (hm' : m'.Indexed) (h : AgreeOn tenant m m')
    (hown : OwnChannel tenant key m) (hown' : OwnChannel tenant key m') :
    (m.channelIndex.lookup key).map List.length = (m'.channelIndex.lookup key).map List.length :=
  hm.channel.map_length_congr hm'.channel (fun _ => ⟨h.1.onChannel hown, h.2.onChannel hown'⟩)

theorem mem_listChannels {info : ChannelInfo} : info ∈ m.listChannels ↔
    (m.channelIndex.lookup info.name).map List.length = some info.subscriberCount := by
  simp only [ConnectionManager.listChannels, List.mem_map, Sigma.exists, ← AList.mem_lookup_iff,
    Option.mem_def, Option.map_eq_some_iff]
  constructor
  · rintro ⟨k, ids, hl, rfl⟩
    exact ⟨ids, hl, rfl⟩
  · rintro ⟨ids, hl, hn⟩
    exact ⟨info.name, ids, hl, by rw [hn]⟩

theorem nodup_listChannels : m.listChannels.Nodup := by
  have hkeys : m.listChannels.map (·.name) = m.channelIndex.keys := by
    rw [ConnectionManager.listChannels, List.map_map]
    rfl
  exact List.Nodup.of_map _ (hkeys ▸ m.channelIndex.keys_nodup)

/-- The channels that are shown are the same if all of them are the tenant's. -/
theorem filter_listChannels_perm {f : ChannelInfo → Bool}
    (h : ∀ info, f info = true →
      (m.channelIndex.lookup info.name).map List.length = (m'.channelIndex.lookup info.name).map List.length) :
    (m.listChannels.filter f).Perm (m'.listChannels.filter f) := by
  refine (List.perm_ext_iff_of_nodup (nodup_listChannels.filter _) (nodup_listChannels.filter _)).mpr ?_
  intro info
  rw [List.mem_filter, List.mem_filter, mem_listChannels, mem_listChannels]
  exact and_congr_left (fun hf => by rw [h info hf])

/-! ### The connections of a user -/

theorem Shows.user (h : Shows tenant m m') (hw : Within {tenant} m) (hm : m.Indexed) (hm' : m'.Indexed)
    {u : String} {c : ConnectionHandle} (hc : c ∈ m.getUserConnections u) :
    ∃ c' ∈ m'.getUserConnections u, c'.id = c.id ∧ ∀ key, key ∈ c'.subscriptions ↔ key ∈ c.subscriptions := by
  have huser := ConnectionManager.enumerates_handles hm hm.user u
  have huser' := ConnectionManager.enumerates_handles hm' hm'.user u
  obtain ⟨hl, hu⟩ := (huser.mem_iff c).mp hc
  obtain ⟨c', hl', -, hu', hsubs⟩ := h c.id c hl (hw c.id c hl)
  have hid := (hm'.keyed c.id c' hl').1
  exact ⟨c', (huser'.mem_iff c').mpr ⟨hid ▸ hl', hu'.trans hu⟩, hid, hsubs⟩

/-- A user has as many connections in both states, with the same subscriptions. -/
theorem userConnections_congr (hm : m.Indexed) (hm' : m'.Indexed) (h : AgreeOn tenant m m')
    (hw : Within {tenant} m) (hw' : Within {tenant} m') (u : String) :
    (m.getUserConnections u).length = (m'.getUserConnections u).length ∧
      ((m.getUserConnections u).flatMap (·.subscriptions)).dedup.Perm
        ((m'.getUserConnections u).flatMap (·.subscriptions)).dedup := by
  have hids : ((m.getUserConnections u).map (·.id)).Perm ((m'.getUserConnections u).map (·.id)) := by
    refine (List.perm_ext_iff_of_nodup (ConnectionManager.enumerates_handles hm hm.user u).nodup
      (ConnectionManager.enumerates_handles hm' hm'.user u).nodup).mpr (fun id => ?_)
    rw [List.mem_map, List.mem_map]
    constructor
    · rintro ⟨c, hc, rfl⟩
      obtain ⟨c', hc', hid, -⟩ := h.1.user hw hm hm' hc
      exact ⟨c', hc', hid⟩
    · rintro ⟨c, hc, rfl⟩
      obtain ⟨c', hc', hid, -⟩ := h.2.user hw' hm' hm hc
      exact ⟨c', hc', hid⟩
  refine ⟨?_, ?_⟩
  · have hlen := hids.length_eq
    rwa [List.length_map, List.length_map] at hlen
  · refine (List.perm_ext_iff_of_nodup (List.nodup_dedup _) (List.nodup_dedup _)).mpr (fun key => ?_)
    rw [List.mem_dedup, List.mem_dedup, List.mem_flatMap, List.mem_flatMap]
    constructor
    · rintro ⟨c, hc, hk⟩
      obtain ⟨c', hc', -, hsubs⟩ := h.1.user hw hm hm' hc
      exact ⟨c', hc', (hsubs key).mpr hk⟩
    · rintro ⟨c, hc, hk⟩
      obtain ⟨c', hc', -, hsubs⟩ := h.2.user hw' hm' hm hc
      exact ⟨c', hc', (hsubs key).mpr hk⟩

/-- Every connection of a user is one of the only tenant. -/
theorem filter_userConnections (hm : m.Indexed) (hw : Within {tenant} m) (u : String) :
    (m.getUserConnections u).filter (·.tenantId = tenant) = m.getUserConnections u := by
  refine List.filter_eq_self.mpr (fun c hc => decide_eq_true ?_)
  obtain ⟨hl, -⟩ := ((ConnectionManager.enumerates_handles hm hm.user u).mem_iff c).mp hc
  exact hw c.id c hl

/-! ### Whose channels a tenant sees -/

theorem filteringTenant_new (tenant : String) :
    filteringTenant (some (.new tenant)) = if tenant = defaultTenantId then none else some tenant := by
  simp [filteringTenant, TenantContext.new]

/-- A channel whose name begins with the tenant is the tenant's. -/
theorem ownChannel_of_startsWith (hs : Scoped U m) (hw : Within tenants m)
    (hhidden : ∀ t ∈ tenants, ∀ x, t ≠ tenant ++ ":" ++ x) (hkey : ofTenantName tenant key = true) :
    OwnChannel tenant key m := by
  intro id h hl hk
  obtain ⟨name, hv, hname⟩ := hs id h hl key hk
  have hcolon := colon_not_mem_of_valid hv
  obtain ⟨x, hx⟩ := isPrefixOf_colon_iff.mp hkey
  rw [hname, namespaceChannel_new] at hx
  split_ifs at hx with ht
  · exact absurd (hx ▸ colon_mem_toList) hcolon
  · rcases colon_eq_colon_iff.mp hx with ⟨heq, -⟩ | ⟨d, -, rfl⟩ | ⟨d, hd, -⟩
    · exact heq
    · exact absurd colon_mem_toList hcolon
    · exact absurd hd (hhidden h.tenantId (hw id h hl) d)

theorem ownChannel_of_name (hs : Scoped U m) (hw : Within tenants m) {name : String}
    (hhidden : Hidden U tenants tenant (.getChannel name)) :
    OwnChannel tenant ((TenantContext.new tenant).namespaceChannel name) m := by
  intro id h hl hk
  obtain ⟨name', hv, hname⟩ := hs id h hl _ hk
  by_contra hne
  exact hhidden h.tenantId (hw id h hl) hne name' hv hname.symm

/-- A hidden tenant does not show in an answer. -/
theorem noLeak_of_hidden {limits : ConnectionLimits} {q : ChannelQuery} (hhidden : Hidden U tenants tenant q) :
    NoLeak U limits tenants tenant q := by
  intro m m' hserved hserved' hw hw' hagree
  obtain ⟨hm, hs⟩ := hserved.indexed_scoped
  obtain ⟨hm', hs'⟩ := hserved'.indexed_scoped
  cases q with
  | listChannels =>
      simp only [answer, listChannels, filteringTenant_new]
      unfold Hidden at hhidden
      split_ifs at hhidden ⊢ with htenant
      · have hperm : (m.listChannels.filter (fun _ => true)).Perm (m'.listChannels.filter (fun _ => true)) :=
          filter_listChannels_perm (fun info _ => subscribers_congr hm hm' hagree
            (fun id h hl _ => hhidden _ (hw id h hl)) (fun id h hl _ => hhidden _ (hw' id h hl)))
        rw [List.filter_true, List.filter_true] at hperm
        exact ⟨hperm, hperm.length_eq⟩
      · have hperm : (m.listChannels.filter (fun c => ofTenantName tenant c.name)).Perm
            (m'.listChannels.filter (fun c => ofTenantName tenant c.name)) :=
          filter_listChannels_perm (fun info hf => subscribers_congr hm hm' hagree
            (ownChannel_of_startsWith hs hw hhidden hf) (ownChannel_of_startsWith hs' hw' hhidden hf))
        exact ⟨hperm, hperm.length_eq⟩
  | getChannel name =>
      have hcount := subscribers_congr hm hm' hagree (ownChannel_of_name hs hw hhidden)
        (ownChannel_of_name hs' hw' hhidden)
      have hinfo : m.getChannelInfo (Http.namespaced (some (.new tenant)) name) =
          m'.getChannelInfo (Http.namespaced (some (.new tenant)) name) := by
        have hmap :=
          congrArg (Option.map (ChannelInfo.mk ((TenantContext.new tenant).namespaceChannel name))) hcount
        rw [Option.map_map, Option.map_map] at hmap
        exact hmap
      simp only [answer, getChannel, hinfo]
      cases m'.getChannelInfo (Http.namespaced (some (.new tenant)) name) <;> rfl
  | getUserSubscriptions u =>
      have hone : ∀ {m : ConnectionManager}, Within tenants m → Within {tenant} m :=
        fun hw id h hl => hhidden _ (hw id h hl)
      obtain ⟨hlen, hsubs⟩ := userConnections_congr hm hm' hagree (hone hw) (hone hw') u
      have hempty : (m.getUserConnections u).isEmpty = (m'.getUserConnections u).isEmpty := by
        rw [Bool.eq_iff_iff, List.isEmpty_iff_length_eq_zero, List.isEmpty_iff_length_eq_zero, hlen]
      simp only [answer, getUserSubscriptions, ConnectionManager.getUserSubscriptions, filteringTenant_new, hempty]
      cases (m'.getUserConnections u).isEmpty with
      | true => rfl
      | false =>
          simp only [Bool.false_eq_true, if_false]
          split_ifs
          · exact ⟨rfl, hlen, hsubs⟩
          · simp only [filter_userConnections hm (hone hw), filter_userConnections hm' (hone hw')]
            exact ⟨rfl, hlen, hsubs.filter _⟩

end equal

/-! ### Leaks -/

section leaks
variable {U : UnicodeTables} {limits : ConnectionLimits} {tenants : Set String} {tenant t : String}

theorem isValidChannelName_a : isValidChannelName U "a" = true := by
  have hchar : isNameChar U 'a' = true := by
    rw [isNameChar, U.isAlphanumeric_ascii 'a' (by decide)]
    decide
  have hlist : "a".toList.all (isNameChar U) = true := by
    rw [show "a".toList = ['a'] from rfl, List.all_cons, hchar, List.all_nil, Bool.and_self]
  rw [isValidChannelName, if_neg (by decide), hlist]

/-- Two states that agree on the tenant: nobody is connected, or one connection of another tenant. -/
theorem exists_other (limits : ConnectionLimits) (hne : t ≠ tenant) (u : String) {name : String}
    (hv : isValidChannelName U name = true) :
    ∃ m, Served U limits m ∧ Within {t} m ∧ AgreeOn tenant (.withLimits limits) m ∧
      m.channelIndex.lookup ((TenantContext.new t).namespaceChannel name) = some [1] ∧
      m.getUserConnections u ≠ [] := by
  obtain ⟨m, hserved, hids, hlookup⟩ := exists_served_only limits u t hv
  have hone : ∀ id h, m.connections.lookup id = some h → h.tenantId = t := by
    intro id h hl
    rw [hlookup] at hl
    split_ifs at hl
    cases hl
    rfl
  refine ⟨m, hserved, hone, ⟨?_, ?_⟩, ?_, ?_⟩
  · intro id h hl
    cases hl
  · intro id h hl ht
    exact absurd ((hone id h hl).symm.trans ht) hne
  · unfold InvertedIndex.ids at hids
    cases hl : m.channelIndex.lookup ((TenantContext.new t).namespaceChannel name) with
    | none =>
        rw [hl] at hids
        cases hids
    | some ids =>
        rw [hl] at hids
        exact congrArg some hids
  · have hm := hserved.indexed_scoped.1
    have hmem : _ ∈ m.getUserConnections u :=
      ((ConnectionManager.enumerates_handles hm hm.user u).mem_iff
        { ConnectionHandle.new 1 u t [] 0 with
          subscriptions := [(TenantContext.new t).namespaceChannel name] }).mpr
        ⟨(hlookup 1).trans (if_pos rfl), rfl⟩
    exact List.ne_nil_of_mem hmem

/-- A channel that is shown tells of its subscriber. -/
theorem not_same_listChannels {m : ConnectionManager} {key : String}
    (hl : m.channelIndex.lookup key = some [1])
    (hshown : ∀ t ∈ filteringTenant (some (.new tenant)), ofTenantName t key = true) :
    ¬ (answer (.withLimits limits) (some (.new tenant)) .listChannels).Same
      (answer m (some (.new tenant)) .listChannels) := by
  intro h
  have hmem : (⟨key, 1⟩ : ChannelInfo) ∈ m.listChannels := mem_listChannels.mpr (by rw [hl]; rfl)
  simp only [answer, listChannels] at h
  cases hf : filteringTenant (some (.new tenant)) with
  | none =>
      rw [hf] at h
      exact List.ne_nil_of_mem hmem h.1.symm.eq_nil
  | some t =>
      rw [hf] at h
      have hkept : _ ∈ m.listChannels.filter (fun c => ofTenantName t c.name) :=
        List.mem_filter.mpr ⟨hmem, hshown t hf⟩
      exact List.ne_nil_of_mem hkept h.1.symm.eq_nil

theorem not_same_getChannel {m : ConnectionManager} {name : String}
    (hl : m.channelIndex.lookup ((TenantContext.new tenant).namespaceChannel name) = some [1]) :
    ¬ (answer (.withLimits limits) (some (.new tenant)) (.getChannel name)).Same
      (answer m (some (.new tenant)) (.getChannel name)) := by
  intro h
  have hinfo : m.getChannelInfo (Http.namespaced (some (.new tenant)) name) =
      some ⟨(TenantContext.new tenant).namespaceChannel name, 1⟩ := by
    rw [ConnectionManager.getChannelInfo, Http.namespaced, hl]
    rfl
  simp only [answer, getChannel, hinfo] at h
  cases h

theorem not_same_getUserSubscriptions {m : ConnectionManager} {u : String} (hu : m.getUserConnections u ≠ []) :
    ¬ (answer (.withLimits limits) (some (.new tenant)) (.getUserSubscriptions u)).Same
      (answer m (some (.new tenant)) (.getUserSubscriptions u)) := by
  intro h
  have hempty : (m.getUserConnections u).isEmpty = false := List.isEmpty_eq_false_iff.mpr hu
  simp only [answer, getUserSubscriptions, ConnectionManager.getUserSubscriptions, hempty] at h
  cases hf : filteringTenant (some (.new tenant)) <;> rw [hf] at h <;> cases h

/-- A tenant that is not hidden shows in an answer. -/
theorem hidden_of_noLeak {q : ChannelQuery} (h : NoLeak U limits tenants tenant q) :
    Hidden U tenants tenant q := by
  have hother : ∀ t ∈ tenants, t ≠ tenant → ∀ (u name : String), isValidChannelName U name = true →
      ∃ m, m.channelIndex.lookup ((TenantContext.new t).namespaceChannel name) = some [1] ∧
        m.getUserConnections u ≠ [] ∧ (answer (.withLimits limits) (some (.new tenant)) q).Same
          (answer m (some (.new tenant)) q) := by
    intro t ht hne u name hv
    obtain ⟨m, hserved, hw, hagree, hl, hu⟩ := exists_other limits hne u hv
    refine ⟨m, hl, hu, h _ m .empty hserved (fun id c hc => by cases hc) (fun id c hc => ?_) hagree⟩
    exact (hw id c hc : c.tenantId = t) ▸ ht
  cases q with
  | listChannels =>
      unfold Hidden
      split_ifs with htenant
      · intro t ht
        by_contra hne
        obtain ⟨m, hl, -, hsame⟩ := hother t ht hne "" "a" isValidChannelName_a
        refine not_same_listChannels hl ?_ hsame
        rw [filteringTenant_new, if_pos htenant]
        rintro t' ⟨⟩
      · intro t ht x hx
        have hne : t ≠ tenant := by
          intro he
          have hlen := congrArg (fun s => s.toList.length) (he ▸ hx)
          simp at hlen
        obtain ⟨m, hl, -, hsame⟩ := hother t ht hne "" "a" isValidChannelName_a
        refine not_same_listChannels hl ?_ hsame
        rw [filteringTenant_new, if_neg htenant]
        rintro t' ⟨⟩
        refine isPrefixOf_colon_iff.mpr ⟨x ++ ":" ++ "a", ?_⟩
        rw [namespaceChannel_new, if_neg (hx ▸ colon_ne_default tenant x), hx]
        simp only [String.append_assoc]
  | getChannel name =>
      intro t ht hne name' hv hkey
      obtain ⟨m, hl, -, hsame⟩ := hother t ht hne "" name' hv
      exact not_same_getChannel (hkey ▸ hl) hsame
  | getUserSubscriptions u =>
      intro t ht
      by_contra hne
      obtain ⟨m, -, hu, hsame⟩ := hother t ht hne u "a" isValidChannelName_a
      exact not_same_getUserSubscriptions hu hsame

/-- **The answers to a query depend on the tenant's own connections exactly when the other tenants are
hidden from it.** -/
theorem no_leak_iff (U : UnicodeTables) (limits : ConnectionLimits) (tenants : Set String) (tenant : String)
    (q : ChannelQuery) : NoLeak U limits tenants tenant q ↔ Hidden U tenants tenant q :=
  ⟨hidden_of_noLeak, noLeak_of_hidden⟩

/-- `acme` is told whether a user of `globex` is connected. -/
theorem acme_sees_globex :
    ¬ ∀ (U : UnicodeTables) (limits : ConnectionLimits) (tenant : String), Validated U tenant →
        ∀ (q : ChannelQuery) (m m' : ConnectionManager), Served U limits m → Served U limits m' →
          AgreeOn tenant m m' → (answer m (some (.new tenant)) q).Same (answer m' (some (.new tenant)) q) := by
  intro hall
  have hvalid : Validated .ascii "acme" := ⟨⟨some "secret", false⟩, ⟨some "secret", some "acme"⟩, by rfl⟩
  obtain ⟨m, hserved, -, hagree, -, hu⟩ := exists_other (U := .ascii) .default
    (by decide : "globex" ≠ "acme") "alice" isValidChannelName_a
  exact not_same_getUserSubscriptions hu
    (hall .ascii .default "acme" hvalid (.getUserSubscriptions "alice") _ m .empty hserved hagree)

end leaks

end ChannelQueries

end AraNotification
