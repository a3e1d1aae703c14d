import AraNotification.ChannelQueries
import AraNotification.Lib.IndexedTable
import AraNotification.Lifecycle
import AraNotification.TenantStats

/-! # The connection manager as a directory

What the manager is for can be said without its indices: it keeps a finite set of open
connections (`Directory`), in which every call adds, drops or changes members, and of which every
query is a plain description, such as the members of a user or the number of members that are
subscribed to a channel.

`Describes d m` says that the manager `m` has the members of `d` registered, and indexed as they
should be.  Every call is answered as the directory answers it and keeps this relation
(`describes_call`), and under it every query is answered by the description (`Answers`,
`answers_of_describes`), although it only reads an index.  Over all sequences of calls this makes
the manager a refinement of the directory (`manager_refines_directory`). -/

namespace AraNotification

open InvertedIndex

/-! ### Further queries of the manager -/

/-- Connection statistics. -/
structure ConnectionStats where
  totalConnections : ℕ
  uniqueUsers : ℕ
  channels : DashMap String ℕ

namespace ConnectionManager
variable (m : ConnectionManager)

/-- Get statistics. -/
def stats : ConnectionStats := ⟨m.connections.len, m.userIndex.len, m.channelIndex.mapValues List.length⟩

/-- Get total number of channel subscriptions across all connections. -/
def totalSubscriptions : ℕ := (m.channelIndex.values.map List.length).sum

/-- Get all connection IDs. -/
def getAllConnectionIds : List Uuid := m.connections.keys

/-- Check if a channel exists. -/
def channelExists (channel : String) : Bool := (m.channelIndex.lookup channel).isSome

/-- List all active tenant IDs. -/
def listTenants : List String := m.tenantIndex.keys

/-- List channels for a specific tenant, with its own subscribers. -/
def listTenantChannels (tenantId : String) : List ChannelInfo :=
  let tenantConnections := m.tenantIndex.ids tenantId
  if tenantConnections.isEmpty then []
  else
    m.channelIndex.entries.filterMap (fun entry =>
      let subscriberCount := (entry.2.filter (fun id => decide (id ∈ tenantConnections))).length
      if subscriberCount > 0 then some ⟨entry.1, subscriberCount⟩ else none)

end ConnectionManager

/-! ### The directory -/

/-- The open connections, each with an identifier of its own and without double subscriptions. -/
@[ext] structure Directory where
  members : Finset ConnectionHandle
  distinct : Set.InjOn ConnectionHandle.id members
  subscribedOnce : ∀ h ∈ members, h.subscriptions.Nodup

namespace Directory

/-- Nobody is connected. -/
def empty : Directory where
  members := ∅
  distinct := by simp
  subscribedOnce := by simp

variable (d : Directory)

/-- The members with a property stay. -/
def keep (P : ConnectionHandle → Prop) [DecidablePred P] : Directory where
  members := d.members.filter P
  distinct := d.distinct.mono (Finset.coe_subset.mpr (Finset.filter_subset _ _))
  subscribedOnce h hh := d.subscribedOnce h (Finset.mem_filter.mp hh).1

/-- A connection without subscriptions joins, in the place of one with its identifier. -/
def add (h : ConnectionHandle) (hs : h.subscriptions = []) : Directory where
  members := insert h (d.members.filter (fun c => c.id ≠ h.id))
  distinct := by
    intro a ha b hb hid
    rw [Finset.coe_insert, Set.mem_insert_iff, Finset.mem_coe, Finset.mem_filter] at ha hb
    rcases ha with rfl | ⟨ha, hne⟩ <;> rcases hb with rfl | ⟨hb, hne'⟩
    · rfl
    · exact absurd hid.symm hne'
    · exact absurd hid hne
    · exact d.distinct ha hb hid
  subscribedOnce c hc := by
    rcases Finset.mem_insert.mp hc with rfl | hc
    · rw [hs]
      exact List.nodup_nil
    · exact d.subscribedOnce c (Finset.mem_filter.mp hc).1

/-- The member with an identifier is changed. -/
def change (id : Uuid) (f : ConnectionHandle → ConnectionHandle) (hf : ∀ h, (f h).id = h.id)
    (hs : ∀ h, h.subscriptions.Nodup → (f h).subscriptions.Nodup) : Directory where
  members := d.members.image (fun h => if h.id = id then f h else h)
  distinct := by
    have hkeep : ∀ h : ConnectionHandle, (if h.id = id then f h else h).id = h.id := by
      intro h
      split_ifs
      · exact hf h
      · rfl
    intro x hx y hy hid
    obtain ⟨a, ha, rfl⟩ := Finset.mem_image.mp hx
    obtain ⟨b, hb, rfl⟩ := Finset.mem_image.mp hy
    rw [hkeep, hkeep] at hid
    rw [d.distinct ha hb hid]
  subscribedOnce c hc := by
    obtain ⟨h, hh, rfl⟩ := Finset.mem_image.mp hc
    split_ifs
    · exact hs h (d.subscribedOnce h hh)
    · exact d.subscribedOnce h hh

/-- The members of a user. -/
def ofUser (userId : String) : Finset ConnectionHandle := d.members.filter (fun h => h.userId = userId)

/-- The members of a tenant. -/
def ofTenant (tenantId : String) : Finset ConnectionHandle := d.members.filter (fun h => h.tenantId = tenantId)

/-- The members that are subscribed to a channel. -/
def onChannel (channel : String) : Finset ConnectionHandle := d.members.filter (fun h => channel ∈ h.subscriptions)

/-- The channels with a subscriber. -/
def channels : Finset String := d.members.biUnion (fun h => h.subscriptions.toFinset)

/-- A call on the directory. -/
def call (limits : ConnectionLimits) (d : Directory) : ManagerCall → ManagerReply × Directory
  | .register id userId tenantId roles now =>
      if limits.maxConnections > 0 ∧ d.members.card ≥ limits.maxConnections then
        (.registered (.error (.totalLimitExceeded d.members.card limits.maxConnections)), d)
      else if limits.maxConnectionsPerUser > 0 ∧ (d.ofUser userId).card ≥ limits.maxConnectionsPerUser then
        (.registered (.error (.userLimitExceeded userId (d.ofUser userId).card limits.maxConnectionsPerUser)), d)
      else (.registered (.ok (.new id userId tenantId roles now)), d.add (.new id userId tenantId roles now) rfl)
  | .unregister id => (.done, d.keep (fun h => h.id ≠ id))
  | .subscribeToChannel id channel =>
      if d.members.filter (fun h => h.id = id) = ∅ then (.subscribed (.error "Connection not found"), d)
      else
        let count := ∑ h ∈ d.members.filter (fun h => h.id = id), h.subscriptionCount
        if limits.maxSubscriptionsPerConnection > 0 ∧ count ≥ limits.maxSubscriptionsPerConnection then
          (.subscribed (.error ("Subscription limit exceeded (" ++ toString count ++ "/" ++
            toString limits.maxSubscriptionsPerConnection ++ ")")), d)
        else (.subscribed (.ok ()), d.change id (·.subscribe channel) (fun _ => rfl) (fun _ hs => hs.insert))
  | .unsubscribeFromChannel id channel =>
      (.done, d.change id (·.unsubscribe channel) (fun _ => rfl) (fun _ hs => hs.filter _))
  | .updateActivity id now => (.done, d.change id (·.updateActivity now) (fun _ => rfl) (fun _ hs => hs))
  | .cleanupStaleConnections now timeoutSecs _ =>
      match Duration.seconds (asI64 timeoutSecs) with
      | none => (.panicked, d)
      | some timeout => (.removed (d.members.filter (fun h => h.isStale now timeout = true)).card,
          d.keep (fun h => h.isStale now timeout = false))

end Directory

/-! ### Every call is the directory's -/

/-- The manager has the members registered, and indexed. -/
structure Describes (limits : ConnectionLimits) (d : Directory) (m : ConnectionManager) : Prop where
  limits_eq : m.limits = limits
  indexed : m.Indexed
  mem_iff : ∀ h, h ∈ d.members ↔ m.connections.lookup h.id = some h

section calls
variable {limits : ConnectionLimits} {d : Directory} {m : ConnectionManager} {id : Uuid} {h : ConnectionHandle}

theorem Describes.mem_of_lookup (hd : Describes limits d m) (hl : m.connections.lookup id = some h) :
    h ∈ d.members ∧ h.id = id := by
  have hid := (hd.indexed.keyed id h hl).1
  exact ⟨(hd.mem_iff h).mpr (by rw [hid]; exact hl), hid⟩

theorem Describes.sat_iff (hd : Describes limits d m) {P : ConnectionHandle → Prop} :
    m.connections.Sat P id ↔ ∃ h ∈ d.members, P h ∧ h.id = id := by
  constructor
  · rintro ⟨h, hl, hp⟩
    obtain ⟨hmem, hid⟩ := hd.mem_of_lookup hl
    exact ⟨h, hmem, hp, hid⟩
  · rintro ⟨h, hmem, hp, rfl⟩
    exact ⟨h, (hd.mem_iff h).mp hmem, hp⟩

/-- A list of the registered connections with a property lists members. -/
theorem Describes.toFinset_eq (hd : Describes limits d m) {P : ConnectionHandle → Prop} [DecidablePred P]
    {conns : List ConnectionHandle} (he : m.Enumerates P conns) : conns.toFinset = d.members.filter P := by
  ext c
  rw [List.mem_toFinset, he.mem_iff, Finset.mem_filter, hd.mem_iff]

theorem Describes.length_eq (hd : Describes limits d m) {P : ConnectionHandle → Prop} [DecidablePred P]
    {conns : List ConnectionHandle} (he : m.Enumerates P conns) : conns.length = (d.members.filter P).card := by
  rw [← hd.toFinset_eq he, List.toFinset_card_of_nodup he.nodup.of_map]

theorem Describes.len_eq (hd : Describes limits d m) : m.connections.len = d.members.card := by
  have hcard := hd.length_eq (ConnectionManager.enumerates_getAllConnections hd.indexed)
  rw [Finset.filter_true_of_mem (fun _ _ => trivial)] at hcard
  rw [← hcard, ConnectionManager.getAllConnections, DashMap.len_eq_countP, List.countP_true]

theorem Describes.userIndex (hd : Describes limits d m) :
    m.userIndex.Indexes d.members ConnectionHandle.id (fun h => {h.userId}) :=
  hd.indexed.user.congr (fun u id => hd.sat_iff.trans (by simp [eq_comm]))

theorem Describes.tenantIndex (hd : Describes limits d m) :
    m.tenantIndex.Indexes d.members ConnectionHandle.id (fun h => {h.tenantId}) :=
  hd.indexed.tenant.congr (fun t id => hd.sat_iff.trans (by simp [eq_comm]))

theorem Describes.channelIndex (hd : Describes limits d m) :
    m.channelIndex.Indexes d.members ConnectionHandle.id (fun h => h.subscriptions.toFinset) :=
  hd.indexed.channel.congr (fun ch id => hd.sat_iff.trans (by simp))

theorem Describes.userConnectionCount_eq (hd : Describes limits d m) (u : String) :
    m.userConnectionCount u = (d.ofUser u).card := by
  rw [ConnectionManager.userConnectionCount, hd.userIndex.length_ids d.distinct, Directory.ofUser]
  congr 1
  ext h
  simp [eq_comm]

/-- A manager that changes only the member with an identifier. -/
theorem Describes.change (hd : Describes limits d m) {m' : ConnectionManager} {f : ConnectionHandle → ConnectionHandle}
    (hf : ∀ h, (f h).id = h.id) (hs : ∀ h, h.subscriptions.Nodup → (f h).subscriptions.Nodup)
    (hindexed : m'.Indexed) (hlimits : m'.limits = m.limits)
    (hconn : m'.connections = m.connections.modify id f) : Describes limits (d.change id f hf hs) m' where
  limits_eq := hlimits.trans hd.limits_eq
  indexed := hindexed
  mem_iff c := by
    rw [hconn, DashMap.lookup_modify, Directory.change, Finset.mem_image]
    constructor
    · rintro ⟨h, hh, rfl⟩
      have hl := (hd.mem_iff h).mp hh
      by_cases hid : h.id = id
      · rw [if_pos hid, if_pos ((hf h).trans hid), ← hid, hl]
        rfl
      · rw [if_neg hid, if_neg hid, hl]
    · intro hl
      split_ifs at hl with hid
      · obtain ⟨h, hl', rfl⟩ := Option.map_eq_some_iff.mp hl
        obtain ⟨hmem, hid'⟩ := hd.mem_of_lookup hl'
        exact ⟨h, hmem, if_pos hid'⟩
      · obtain ⟨hmem, -⟩ := hd.mem_of_lookup hl
        exact ⟨c, hmem, if_neg hid⟩

/-- A manager that drops members. -/
theorem Describes.keep (hd : Describes limits d m) {m' : ConnectionManager} {P : ConnectionHandle → Prop}
    [DecidablePred P] (hindexed : m'.Indexed) (hlimits : m'.limits = m.limits)
    (hlookup : ∀ h, m'.connections.lookup h.id = some h ↔ m.connections.lookup h.id = some h ∧ P h) :
    Describes limits (d.keep P) m' where
  limits_eq := hlimits.trans hd.limits_eq
  indexed := hindexed
  mem_iff h := by rw [hlookup, ← hd.mem_iff, Directory.keep, Finset.mem_filter]

theorem Describes.add (hd : Describes limits d m) (hs : h.subscriptions = [])
    (hfresh : m.connections.lookup h.id = none) : Describes limits (d.add h hs) (m.insertHandle h) where
  limits_eq := hd.limits_eq
  indexed := hd.indexed.insertHandle hfresh hs
  mem_iff c := by
    rw [ConnectionManager.insertHandle, DashMap.lookup_insert, Directory.add, Finset.mem_insert, Finset.mem_filter]
    split_ifs with hid
    · simp [hid, eq_comm]
    · rw [hd.mem_iff]
      constructor
      · rintro (rfl | ⟨hl, -⟩)
        · exact absurd rfl hid
        · exact hl
      · exact fun hl => .inr ⟨hl, hid⟩

/-- The member with a registered identifier. -/
theorem Describes.filter_id (hd : Describes limits d m) (hl : m.connections.lookup id = some h) :
    d.members.filter (fun c => c.id = id) = {h} := by
  obtain ⟨hmem, hid⟩ := hd.mem_of_lookup hl
  ext c
  rw [Finset.mem_filter, Finset.mem_singleton]
  constructor
  · rintro ⟨hc, hcid⟩
    exact d.distinct hc hmem (hcid.trans hid.symm)
  · rintro rfl
    exact ⟨hmem, hid⟩

theorem Describes.filter_id_eq_empty (hd : Describes limits d m) (hl : m.connections.lookup id = none) :
    d.members.filter (fun c => c.id = id) = ∅ := by
  refine Finset.filter_eq_empty_iff.mpr (fun c hc hid => ?_)
  rw [hd.mem_iff, hid, hl] at hc
  cases hc

theorem lookup_unregisterAll_iff (ids : List Uuid) (id : Uuid) :
    (m.unregisterAll ids).connections.lookup id = if id ∈ ids then none else m.connections.lookup id := by
  unfold ConnectionManager.unregisterAll
  induction ids generalizing m with
  | nil => simp
  | cons id' ids ih =>
      rw [List.foldl_cons, ih, Service.lookup_unregister]
      by_cases hmem : id ∈ ids
      · simp [hmem]
      · by_cases heq : id = id' <;> simp [hmem, heq]

/-- The connections that a clean-up finds are the stale members. -/
theorem Describes.stale (hd : Describes limits d m) (now : DateTime) {timeoutSecs : ℕ} {timeout : Duration}
    (htimeout : Duration.seconds (asI64 timeoutSecs) = some timeout) :
    ∃ stale, m.findStaleConnections now timeoutSecs = some stale ∧ stale.Nodup ∧
      ∀ id, id ∈ stale ↔ ∃ h ∈ d.members, h.isStale now timeout = true ∧ h.id = id := by
  have hmap : ∀ entries : List ((_ : Uuid) × ConnectionHandle),
      entries.filterMap (fun e => if e.2.isStale now timeout then some e.1 else none) =
        (entries.filter (fun e => e.2.isStale now timeout)).map Sigma.fst := by
    intro entries
    induction entries with
    | nil => rfl
    | cons e entries ih => by_cases he : e.2.isStale now timeout = true <;> simp [he, ih]
  refine ⟨(m.connections.entries.filter (fun e => e.2.isStale now timeout)).map Sigma.fst, ?_, ?_, fun id => ?_⟩
  · rw [ConnectionManager.findStaleConnections, htimeout, ← hmap]
    rfl
  · exact m.connections.keys_nodup.sublist (List.filter_sublist.map _)
  · simp only [List.mem_map, List.mem_filter, Sigma.exists]
    constructor
    · rintro ⟨id', h, ⟨he, hstale⟩, rfl⟩
      obtain ⟨hmem, hid⟩ := hd.mem_of_lookup (AList.mem_lookup_iff.mpr he)
      exact ⟨h, hmem, hstale, hid⟩
    · rintro ⟨h, hmem, hstale, rfl⟩
      exact ⟨h.id, h, ⟨AList.mem_lookup_iff.mp ((hd.mem_iff h).mp hmem), hstale⟩, rfl⟩

/-- **Every call is answered as the directory answers it**, and the manager stays described. -/
theorem describes_call (hd : Describes limits d m) {c : ManagerCall} (hc : m.Legal c) :
    (m.call c).1 = (d.call limits c).1 ∧ Describes limits (d.call limits c).2 (m.call c).2 := by
  have hindexed := hd.indexed.call hc
  have hlimits := ConnectionManager.limits_call m c
  cases c with
  | register id userId tenantId roles now =>
      simp only [ConnectionManager.call, ConnectionManager.register, ConnectionManager.registerWithLimits,
        ConnectionManager.totalLimitReached, ConnectionManager.userLimitReached, hd.len_eq,
        hd.userConnectionCount_eq, hd.limits_eq, Directory.call, Bool.and_eq_true, decide_eq_true_eq]
      split_ifs with htotal huser
      · exact ⟨rfl, hd⟩
      · exact ⟨rfl, hd⟩
      · exact ⟨rfl, hd.add rfl hc⟩
  | unregister id =>
      refine ⟨rfl, hd.keep hindexed hlimits (fun h => ?_)⟩
      rw [ConnectionManager.call, Service.lookup_unregister]
      split_ifs with hid
      · simp [hid]
      · simp [hid]
  | subscribeToChannel id channel =>
      obtain rfl := hd.limits_eq
      simp only [ConnectionManager.call, ConnectionManager.subscribeToChannel, Directory.call] at hindexed hlimits ⊢
      cases hl : m.connections.lookup id with
      | none =>
          rw [if_pos (hd.filter_id_eq_empty hl)]
          exact ⟨rfl, hd⟩
      | some h =>
          rw [hd.filter_id hl, if_neg (Finset.singleton_ne_empty h), Finset.sum_singleton]
          simp only [hl] at hindexed hlimits ⊢
          split_ifs at hindexed hlimits ⊢ with hfull
          · exact ⟨rfl, hd⟩
          · exact ⟨rfl, hd.change (f := (·.subscribe channel)) (fun _ => rfl) (fun _ hs => hs.insert) hindexed hlimits rfl⟩
  | unsubscribeFromChannel id channel =>
      refine ⟨rfl, hd.change (f := (·.unsubscribe channel)) (fun _ => rfl) (fun _ hs => hs.filter _) hindexed hlimits ?_⟩
      simp only [ConnectionManager.call, ConnectionManager.unsubscribeFromChannel, DashMap.modify]
      cases hl : m.connections.lookup id <;> rfl
  | updateActivity id now =>
      exact ⟨rfl, hd.change (f := (·.updateActivity now)) (fun _ => rfl) (fun _ hs => hs) hindexed hlimits rfl⟩
  | cleanupStaleConnections now timeoutSecs order =>
      cases htimeout : Duration.seconds (asI64 timeoutSecs) with
      | none =>
          simp only [ConnectionManager.call, ConnectionManager.findStaleConnections, Directory.call, htimeout,
            Option.map_none]
          exact ⟨trivial, hd⟩
      | some timeout =>
          obtain ⟨stale, hfind, hnodup, hmem⟩ := hd.stale now htimeout
          have horder : order.Perm stale := hc stale hfind
          simp only [ConnectionManager.call, hfind, Directory.call, htimeout] at hindexed hlimits ⊢
          refine ⟨?_, hd.keep hindexed hlimits (fun h => ?_)⟩
          · have hset : stale.toFinset =
                (d.members.filter (fun h => h.isStale now timeout = true)).image ConnectionHandle.id := by
              ext id
              rw [List.mem_toFinset, hmem, Finset.mem_image]
              simp [and_assoc]
            rw [← List.toFinset_card_of_nodup hnodup, hset, Finset.card_image_of_injOn
              (d.distinct.mono (Finset.coe_subset.mpr (Finset.filter_subset _ _)))]
          · have hvisited := (horder.mem_iff (a := h.id)).trans (hmem h.id)
            rw [lookup_unregisterAll_iff]
            split_ifs with hstale
            · obtain ⟨c, hmemc, hc, hid⟩ := hvisited.mp hstale
              refine ⟨fun hl => absurd hl (by simp), ?_⟩
              rintro ⟨hl, hfresh⟩
              rw [d.distinct hmemc ((hd.mem_iff h).mpr hl) hid, hfresh] at hc
              cases hc
            · refine ⟨fun hl => ⟨hl, ?_⟩, fun hl => hl.1⟩
              by_contra hfresh
              exact hstale (hvisited.mpr ⟨h, (hd.mem_iff h).mpr hl, by simpa using hfresh, rfl⟩)

theorem describes_empty (limits : ConnectionLimits) :
    Describes limits Directory.empty (ConnectionManager.withLimits limits) where
  limits_eq := rfl
  indexed := ConnectionManager.indexed_withLimits limits
  mem_iff h := by simp [Directory.empty, ConnectionManager.withLimits]

end calls

/-! ### Every query is a description -/

/-- The list has the elements of the set, each once. -/
def Lists {α : Type} [DecidableEq α] (l : List α) (s : Finset α) : Prop := l.Nodup ∧ l.toFinset = s

/-- What the manager answers is what the directory says. -/
structure Answers (d : Directory) (m : ConnectionManager) : Prop where
  connections : Lists m.getAllConnections d.members ∧ Lists m.getAllConnectionIds (d.members.image ConnectionHandle.id)
  ofUser : ∀ u, Lists (m.getUserConnections u) (d.ofUser u) ∧ m.userConnectionCount u = (d.ofUser u).card
  ofTenant : ∀ t, Lists (m.getTenantConnections t) (d.ofTenant t) ∧ m.tenantConnectionCount t = (d.ofTenant t).card
  onChannel : ∀ ch, Lists (m.getChannelConnections ch) (d.onChannel ch)
  counts : m.stats.totalConnections = d.members.card ∧
    m.stats.uniqueUsers = (d.members.image ConnectionHandle.userId).card ∧ m.totalSubscriptions = ∑ h ∈ d.members, h.subscriptionCount
  channels : ∀ ch, (m.channelExists ch = true ↔ ch ∈ d.channels) ∧
    m.stats.channels.lookup ch = (if ch ∈ d.channels then some (d.onChannel ch).card else none) ∧
    m.getChannelInfo ch = if ch ∈ d.channels then some ⟨ch, (d.onChannel ch).card⟩ else none
  listChannels : Lists m.listChannels (d.channels.image (fun ch => ⟨ch, (d.onChannel ch).card⟩))
  tenants : Lists m.listTenants (d.members.image ConnectionHandle.tenantId) ∧
    ∀ t, m.tenantStats t = ⟨(d.ofTenant t).card, ((d.ofTenant t).image ConnectionHandle.userId).card⟩
  tenantChannels : ∀ t, Lists (m.listTenantChannels t)
    (((d.ofTenant t).biUnion (fun h => h.subscriptions.toFinset)).image
      (fun ch => ⟨ch, (d.ofTenant t ∩ d.onChannel ch).card⟩))
  userSubscriptions : ∀ u, (m.getUserSubscriptions u = none ↔ d.ofUser u = ∅) ∧
    ∀ info ∈ m.getUserSubscriptions u, info.userId = u ∧ info.connectionCount = (d.ofUser u).card ∧
      Lists info.subscriptions ((d.ofUser u).biUnion (fun h => h.subscriptions.toFinset))

section queries
variable {limits : ConnectionLimits} {d : Directory} {m : ConnectionManager}

theorem Describes.lists (hd : Describes limits d m) {P : ConnectionHandle → Prop} [DecidablePred P]
    {conns : List ConnectionHandle} (he : m.Enumerates P conns) : Lists conns (d.members.filter P) :=
  ⟨he.nodup.of_map, hd.toFinset_eq he⟩

theorem Lists.length_eq {α : Type} [DecidableEq α] {l : List α} {s : Finset α} (h : Lists l s) : l.length = s.card := by
  rw [← List.toFinset_card_of_nodup h.1, h.2]

theorem filter_eq_onChannel (ch : String) :
    d.members.filter (fun h => ch ∈ h.subscriptions.toFinset) = d.onChannel ch := by
  simp [Directory.onChannel]

theorem Describes.lookup_channel (hd : Describes limits d m) (ch : String) :
    (m.channelIndex.lookup ch).map List.length = if ch ∈ d.channels then some (d.onChannel ch).card else none := by
  rw [hd.channelIndex.lookup_length d.distinct, filter_eq_onChannel]
  rfl

theorem Describes.userConnections (hd : Describes limits d m) (u : String) :
    Lists (m.getUserConnections u) (d.ofUser u) :=
  hd.lists (ConnectionManager.enumerates_handles hd.indexed hd.indexed.user u)

theorem Describes.tenantConnections (hd : Describes limits d m) (t : String) :
    Lists (m.getTenantConnections t) (d.ofTenant t) :=
  hd.lists (ConnectionManager.enumerates_handles hd.indexed hd.indexed.tenant t)

theorem card_dedup_map {l : List ConnectionHandle} {s : Finset ConnectionHandle} (h : Lists l s)
    (f : ConnectionHandle → String) : (l.map f).dedup.length = (s.image f).card := by
  rw [← h.2, ← List.card_toFinset]
  congr 1
  ext x
  simp

theorem Describes.listChannels (hd : Describes limits d m) :
    Lists m.listChannels (d.channels.image (fun ch => ⟨ch, (d.onChannel ch).card⟩)) := by
  refine ⟨ChannelQueries.nodup_listChannels, ?_⟩
  ext info
  rw [List.mem_toFinset, ChannelQueries.mem_listChannels, hd.lookup_channel, Finset.mem_image]
  constructor
  · intro hinfo
    split_ifs at hinfo with hch
    exact ⟨info.name, hch, by rw [Option.some.inj hinfo]⟩
  · rintro ⟨ch, hch, rfl⟩
    exact if_pos hch

/-- How many subscribers of a channel are connections of a tenant. -/
theorem Describes.shared_length (hd : Describes limits d m) {ch : String} {ids : List Uuid}
    (hl : m.channelIndex.lookup ch = some ids) (t : String) :
    (ids.filter (fun id => decide (id ∈ m.tenantIndex.ids t))).length = (d.ofTenant t ∩ d.onChannel ch).card := by
  have hids : m.channelIndex.ids ch = ids := by
    rw [InvertedIndex.ids, hl]
    rfl
  have hset : (ids.filter (fun id => decide (id ∈ m.tenantIndex.ids t))).toFinset =
      (d.ofTenant t ∩ d.onChannel ch).image ConnectionHandle.id := by
    ext id
    rw [List.mem_toFinset, List.mem_filter, decide_eq_true_eq, ← hids, hd.channelIndex.mem_iff, hd.tenantIndex.mem_iff,
      Finset.mem_image]
    constructor
    · rintro ⟨⟨h, hmem, hch, rfl⟩, h', hmem', ht, hid⟩
      obtain rfl := d.distinct hmem' hmem hid
      refine ⟨h', Finset.mem_inter.mpr ⟨Finset.mem_filter.mpr ⟨hmem', ?_⟩, Finset.mem_filter.mpr ⟨hmem', ?_⟩⟩, rfl⟩
      · exact (Finset.mem_singleton.mp ht).symm
      · exact List.mem_toFinset.mp hch
    · rintro ⟨h, hboth, rfl⟩
      obtain ⟨ht, hch⟩ := Finset.mem_inter.mp hboth
      obtain ⟨hmem, ht⟩ := Finset.mem_filter.mp ht
      obtain ⟨-, hch⟩ := Finset.mem_filter.mp hch
      exact ⟨⟨h, hmem, List.mem_toFinset.mpr hch, rfl⟩, h, hmem, Finset.mem_singleton.mpr ht.symm, rfl⟩
  have hinj : Set.InjOn ConnectionHandle.id (d.ofTenant t ∩ d.onChannel ch : Finset ConnectionHandle) :=
    d.distinct.mono (fun h hh => (Finset.mem_filter.mp (Finset.mem_inter.mp hh).1).1)
  rw [← List.toFinset_card_of_nodup ((hids ▸ hd.channelIndex.nodup ch).filter _), hset, Finset.card_image_of_injOn hinj]

theorem Describes.listTenantChannels (hd : Describes limits d m) (t : String) :
    Lists (m.listTenantChannels t) (((d.ofTenant t).biUnion (fun h => h.subscriptions.toFinset)).image
      (fun ch => ⟨ch, (d.ofTenant t ∩ d.onChannel ch).card⟩)) := by
  have hnames : ∀ (entries : List ((_ : String) × List Uuid)) (count : List Uuid → ℕ),
      ((entries.filterMap (fun e => if count e.2 > 0 then some (ChannelInfo.mk e.1 (count e.2)) else none)).map
        (·.name)).Sublist entries.keys := by
    intro entries count
    induction entries with
    | nil => exact List.Sublist.slnil
    | cons e entries ih =>
        rw [List.filterMap_cons]
        split_ifs
        · exact ih.cons_cons _
        · exact ih.cons _
  unfold ConnectionManager.listTenantChannels
  dsimp only
  split_ifs with hempty
  · have hnone : d.ofTenant t = ∅ := by
      rw [← Finset.card_eq_zero, ← (hd.tenantConnections t).length_eq, ConnectionManager.getTenantConnections,
        List.isEmpty_iff.mp hempty]
      rfl
    rw [hnone]
    exact ⟨List.nodup_nil, rfl⟩
  · have hsub := hnames m.channelIndex.entries
      (fun ids => (ids.filter (fun id => decide (id ∈ m.tenantIndex.ids t))).length)
    refine ⟨(m.channelIndex.keys_nodup.sublist hsub).of_map, ?_⟩
    ext info
    simp only [List.mem_toFinset, List.mem_filterMap, Sigma.exists, Finset.mem_image, Finset.mem_biUnion]
    constructor
    · rintro ⟨ch, ids, he, hinfo⟩
      split_ifs at hinfo with hpos
      obtain rfl := Option.some.inj hinfo
      rw [hd.shared_length (AList.mem_lookup_iff.mpr he)] at hpos ⊢
      obtain ⟨h, hboth⟩ := Finset.card_pos.mp hpos
      obtain ⟨ht, hch⟩ := Finset.mem_inter.mp hboth
      exact ⟨ch, ⟨h, ht, (Finset.mem_filter.mp hch).2⟩, rfl⟩
    · rintro ⟨ch, ⟨h, ht, hch⟩, rfl⟩
      have hmem := (Finset.mem_filter.mp ht).1
      have hkey := (hd.channelIndex.mem_keys_iff ch).mpr ⟨h, hmem, List.mem_toFinset.mpr hch⟩
      obtain ⟨ids, hl⟩ := Option.isSome_iff_exists.mp (AList.lookup_isSome.mpr (AList.mem_keys.mpr hkey))
      refine ⟨ch, ids, AList.mem_lookup_iff.mp hl, ?_⟩
      rw [hd.shared_length hl, if_pos]
      exact Finset.card_pos.mpr ⟨h, Finset.mem_inter.mpr ⟨ht, Finset.mem_filter.mpr ⟨hmem, hch⟩⟩⟩

theorem Describes.userSubscriptions (hd : Describes limits d m) (u : String) :
    (m.getUserSubscriptions u = none ↔ d.ofUser u = ∅) ∧ ∀ info ∈ m.getUserSubscriptions u, info.userId = u ∧
      info.connectionCount = (d.ofUser u).card ∧
      Lists info.subscriptions ((d.ofUser u).biUnion (fun h => h.subscriptions.toFinset)) := by
  have hconns := hd.userConnections u
  unfold ConnectionManager.getUserSubscriptions
  dsimp only
  split_ifs with hempty
  · have hnone : d.ofUser u = ∅ := by
      rw [← Finset.card_eq_zero, ← hconns.length_eq, List.isEmpty_iff.mp hempty]
      rfl
    exact ⟨⟨fun _ => hnone, fun _ => rfl⟩, fun info hinfo => by cases hinfo⟩
  · refine ⟨⟨fun h => absurd h (by simp), fun hnone => absurd ?_ hempty⟩, ?_⟩
    · rw [← Finset.card_eq_zero, ← hconns.length_eq] at hnone
      exact List.isEmpty_iff.mpr (List.length_eq_zero_iff.mp hnone)
    · rintro info ⟨⟩
      refine ⟨rfl, hconns.length_eq, List.nodup_dedup _, ?_⟩
      rw [← hconns.2]
      ext ch
      simp

/-- **Every query is answered by what the directory says.** -/
theorem answers_of_describes (hd : Describes limits d m) : Answers d m where
  connections := by
    have hall := hd.lists (ConnectionManager.enumerates_getAllConnections hd.indexed)
    rw [Finset.filter_true_of_mem (fun _ _ => trivial)] at hall
    refine ⟨hall, m.connections.keys_nodup, ?_⟩
    ext id
    rw [List.mem_toFinset, ConnectionManager.getAllConnectionIds, ← AList.mem_keys, ← AList.lookup_isSome,
      Option.isSome_iff_exists, Finset.mem_image]
    constructor
    · rintro ⟨h, hl⟩
      exact ⟨h, hd.mem_of_lookup hl⟩
    · rintro ⟨h, hmem, rfl⟩
      exact ⟨h, (hd.mem_iff h).mp hmem⟩
  ofUser u := ⟨hd.userConnections u, hd.userConnectionCount_eq u⟩
  ofTenant t := by
    refine ⟨hd.tenantConnections t, ?_⟩
    rw [ConnectionManager.tenantConnectionCount, hd.tenantIndex.length_ids d.distinct, Directory.ofTenant]
    congr 1
    ext h
    simp [eq_comm]
  onChannel ch := hd.lists (ConnectionManager.enumerates_handles hd.indexed hd.indexed.channel ch)
  counts := by
    refine ⟨hd.len_eq, ?_, ?_⟩
    · rw [ConnectionManager.stats, hd.userIndex.len_eq, Finset.biUnion_singleton]
    · rw [ConnectionManager.totalSubscriptions, hd.channelIndex.sum_length d.distinct]
      exact Finset.sum_congr rfl (fun h hh => List.toFinset_card_of_nodup (d.subscribedOnce h hh))
  channels ch := by
    have hl := hd.lookup_channel ch
    refine ⟨?_, ?_, ?_⟩
    · rw [ConnectionManager.channelExists, ← Option.isSome_map (f := List.length), hl]
      split_ifs with hch <;> simp [hch]
    · rw [ConnectionManager.stats, DashMap.lookup_mapValues, hl]
    · have hinfo : m.getChannelInfo ch = ((m.channelIndex.lookup ch).map List.length).map (ChannelInfo.mk ch) := by
        rw [ConnectionManager.getChannelInfo, Option.map_map]
        rfl
      rw [hinfo, hl]
      split_ifs <;> rfl
  listChannels := hd.listChannels
  tenants := by
    refine ⟨⟨m.tenantIndex.keys_nodup, ?_⟩, fun t => ?_⟩
    · rw [ConnectionManager.listTenants, hd.tenantIndex.toFinset_keys]
      ext t
      simp [eq_comm]
    · have hconns := hd.tenantConnections t
      rw [ConnectionManager.tenantStats, hconns.length_eq, card_dedup_map hconns]
  tenantChannels t := hd.listTenantChannels t
  userSubscriptions u := hd.userSubscriptions u

/-- **The connection manager refines the directory**: after every sequence of calls it has answered each call
as the directory does, and answers every query by what the directory then says. -/
theorem manager_refines_directory {calls : List ManagerCall} (hcalls : Runs.Admissible ConnectionManager.call
      ConnectionManager.Legal (.withLimits limits) calls) :
    Runs.outputs ConnectionManager.call (.withLimits limits) calls =
        Runs.outputs (Directory.call limits) .empty calls ∧
      Answers (Runs.final (Directory.call limits) .empty calls)
        (Runs.final ConnectionManager.call (.withLimits limits) calls) := by
  obtain ⟨houtputs, hd⟩ := Runs.simulation (R := fun m d => Describes limits d m) (describes_empty limits) hcalls
    (fun m d c hd hc => describes_call hd hc)
  exact ⟨houtputs, answers_of_describes hd⟩

end queries

/-- `alice` connects and subscribes, and a second connection of hers is refused. -/
def refusedConnect : List ManagerCall :=
  [.register 1 "alice" "acme" [] 0, .subscribeToChannel 1 "orders", .register 2 "alice" "acme" [] 0]

theorem manager_refines_directory_refused :
    Runs.outputs ConnectionManager.call (.withLimits ⟨100, 1, 10⟩) refusedConnect =
        Runs.outputs (Directory.call ⟨100, 1, 10⟩) .empty refusedConnect ∧
      Answers (Runs.final (Directory.call ⟨100, 1, 10⟩) .empty refusedConnect)
        (Runs.final ConnectionManager.call (.withLimits ⟨100, 1, 10⟩) refusedConnect) ∧
      (Runs.final ConnectionManager.call (.withLimits ⟨100, 1, 10⟩) refusedConnect).totalSubscriptions = 1 := by
  have hcalls : Runs.Admissible ConnectionManager.call ConnectionManager.Legal (.withLimits ⟨100, 1, 10⟩)
      refusedConnect := ⟨rfl, trivial, rfl, trivial⟩
  obtain ⟨houtputs, hanswers⟩ := manager_refines_directory hcalls
  exact ⟨houtputs, hanswers, by decide⟩

end AraNotification
