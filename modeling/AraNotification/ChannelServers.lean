import AraNotification.SessionStore
import AraNotification.Lib.Runs

/-! # The channel index of a cluster

For every channel Redis keeps the set of the servers that have subscribers, and every session
edits the membership of its own server: `update_session_channels` adds the server to the channels of
the new list and removes it from the channels that the session has left, and
`unregister_session` removes it from all channels of the session.  Neither looks
whether another session of the server lists the channel, and `register_session` does not add the
server at all.

The calls of one server are run here one after the other, while the clock stands still, so that
no key expires.  `complete_iff`: the index stays complete exactly when every session registers
with channels that are in the index already, and leaves only channels that no other session lists. -/

namespace AraNotification

/-- Redis and the store of one server. -/
structure ClusterNode where
  db : RedisDb
  store : RedisSessionStore

namespace ClusterNode

def new (now : ℕ) (serverId : String) (sessionTtlSeconds : ℕ) : ClusterNode :=
  ⟨.empty now, .new serverId sessionTtlSeconds⟩

variable (n : ClusterNode)

/-- `register_session`. -/
def registerSession (session : SessionInfo) : ClusterNode :=
  ⟨n.db.execAll (n.store.registerCommands session), n.store.track session⟩

/-- `unregister_session`. -/
def unregisterSession (connectionId : Uuid) : ClusterNode :=
  let store := n.store.untrack connectionId
  match n.db.getSession (.session connectionId) with
  | none => ⟨n.db, store⟩
  | some session =>
      let others := store.userHasOtherConnections connectionId session.userId
      ⟨n.db.execAll (store.unregisterCommands connectionId session others), store⟩

/-- `update_session_channels`. -/
def updateSessionChannels (connectionId : Uuid) (channels : List String) : ClusterNode :=
  match n.db.getSession (.session connectionId) with
  | none => n
  | some session => ⟨n.db.execAll (n.store.updateCommands connectionId session channels), n.store⟩

/-- The calls of the store. -/
inductive SessionCall where
  | registerSession (session : SessionInfo)
  | unregisterSession (connectionId : Uuid)
  | updateSessionChannels (connectionId : Uuid) (channels : List String)
deriving DecidableEq, Repr

/-- Execution of one call. -/
def step (n : ClusterNode) : SessionCall → Unit × ClusterNode
  | .registerSession session => ((), n.registerSession session)
  | .unregisterSession connectionId => ((), n.unregisterSession connectionId)
  | .updateSessionChannels connectionId channels => ((), n.updateSessionChannels connectionId channels)

/-- The server has the session. -/
def Registered (connectionId : Uuid) (session : SessionInfo) : Prop :=
  (n.store.localConnections.lookup connectionId).isSome = true ∧
    n.db.getSession (.session connectionId) = some session

/-- The server is found for every channel that one of its sessions lists. -/
def Complete : Prop :=
  ∀ connectionId session, n.Registered connectionId session → ∀ channel ∈ session.channels,
    n.store.serverId ∈ n.db.findChannelServers channel

/-- No other session of the server lists the channel. -/
def Alone (connectionId : Uuid) (channel : String) : Prop :=
  ∀ other session, other ≠ connectionId → n.Registered other session → channel ∉ session.channels

/-- A session registers with channels that are in the index, and leaves channels that it alone
lists. -/
def KeepsIndex : SessionCall → Prop
  | .registerSession session =>
      ∀ channel ∈ session.channels, n.store.serverId ∈ n.db.findChannelServers channel
  | .unregisterSession connectionId =>
      ∀ session, n.db.getSession (.session connectionId) = some session →
        ∀ channel ∈ session.channels, n.Alone connectionId channel
  | .updateSessionChannels connectionId channels =>
      ∀ session, n.db.getSession (.session connectionId) = some session →
        ∀ channel ∈ session.channels, channel ∉ channels → n.Alone connectionId channel

end ClusterNode

/-! ### What lists of commands do -/

namespace RedisDb

variable {db : RedisDb} {serverId : String} {ttl : ℕ} {ch : String} {key : RedisKey}

theorem execAll_append (commands commands' : List Command) :
    db.execAll (commands ++ commands') = (db.execAll commands).execAll commands' :=
  List.foldl_append

theorem mem_srem_channels (channels : List String) :
    serverId ∈ (db.execAll (channels.map (fun c => .srem (.channelServers c) serverId))).findChannelServers ch ↔
      serverId ∈ db.findChannelServers ch ∧ ch ∉ channels := by
  induction channels generalizing db with
  | nil => simp [execAll]
  | cons c channels ih =>
      refine ih.trans ?_
      unfold findChannelServers
      rw [members_srem]
      by_cases hc : ch = c
      · simp [hc]
      · simp [hc]

theorem mem_sadd_channels (ht : 0 < ttl) (channels : List String) :
    serverId ∈ (db.execAll (channels.flatMap (fun c =>
        [.sadd (.channelServers c) serverId, .expire (.channelServers c) ttl]))).findChannelServers ch ↔
      serverId ∈ db.findChannelServers ch ∨ ch ∈ channels := by
  induction channels generalizing db with
  | nil => simp [execAll]
  | cons c channels ih =>
      refine ih.trans ?_
      unfold findChannelServers
      rw [members_expire ht, members_sadd]
      by_cases hc : ch = c
      · simp [hc]
      · simp [hc]

theorem getSession_srem_channels (channels : List String) :
    (db.execAll (channels.map (fun c => .srem (.channelServers c) serverId))).getSession key =
      db.getSession key := by
  induction channels generalizing db with
  | nil => rfl
  | cons c channels ih => exact ih

theorem getSession_sadd_channels (ht : 0 < ttl) (channels : List String) :
    (db.execAll (channels.flatMap (fun c =>
        [.sadd (.channelServers c) serverId, .expire (.channelServers c) ttl]))).getSession key =
      db.getSession key := by
  induction channels generalizing db with
  | nil => rfl
  | cons c channels ih => exact ih.trans (getSession_expire ht)

end RedisDb

/-! ### What a call does -/

namespace ClusterNode

section calls
variable {n : ClusterNode} {session : SessionInfo} {id : Uuid} {ch : String}

theorem registerSession_getSession (ht : 0 < n.store.sessionTtlSeconds) (session : SessionInfo) (id : Uuid) :
    (n.registerSession session).db.getSession (.session id) =
      if id = session.connectionId then some session else n.db.getSession (.session id) := by
  have ht₂ : 0 < n.store.sessionTtlSeconds * 2 := by omega
  simp only [registerSession, RedisSessionStore.registerCommands, RedisDb.execAll, List.foldl_cons,
    List.foldl_nil, RedisDb.getSession_expire ht, RedisDb.getSession_expire ht₂, RedisDb.getSession_incr,
    RedisDb.getSession_sadd, RedisDb.getSession_setEx _ ht, RedisKey.session.injEq]

theorem registerSession_channel (ht : 0 < n.store.sessionTtlSeconds) (session : SessionInfo) (ch : String) :
    (n.registerSession session).db.findChannelServers ch = n.db.findChannelServers ch := by
  have ht₂ : 0 < n.store.sessionTtlSeconds * 2 := by omega
  simp only [registerSession, RedisSessionStore.registerCommands, RedisDb.execAll, List.foldl_cons,
    List.foldl_nil, RedisDb.findChannelServers, RedisDb.members_expire ht, RedisDb.members_expire ht₂,
    RedisDb.members_incr, RedisDb.members_sadd, RedisDb.members_setEx, reduceCtorEq, if_false]

theorem unregisterSession_getSession (h : n.db.getSession (.session id) = some session) (id' : Uuid) :
    (n.unregisterSession id).db.getSession (.session id') =
      if id' = id then none else n.db.getSession (.session id') := by
  simp only [unregisterSession, h, RedisSessionStore.unregisterCommands, RedisDb.execAll_append,
    RedisDb.getSession_srem_channels]
  split_ifs <;> simp [RedisDb.execAll, RedisDb.getSession_del, *]

theorem unregisterSession_channel (h : n.db.getSession (.session id) = some session) (ch : String) :
    n.store.serverId ∈ (n.unregisterSession id).db.findChannelServers ch ↔
      n.store.serverId ∈ n.db.findChannelServers ch ∧ ch ∉ session.channels := by
  simp only [unregisterSession, h, RedisSessionStore.unregisterCommands, RedisDb.execAll_append]
  refine RedisDb.mem_srem_channels _ |>.trans (and_congr_left fun _ => ?_)
  split_ifs <;>
    simp [RedisSessionStore.untrack, RedisDb.execAll, RedisDb.findChannelServers, RedisDb.members_del,
      RedisDb.members_srem]

theorem updateSessionChannels_getSession (ht : 0 < n.store.sessionTtlSeconds)
    (h : n.db.getSession (.session id) = some session) (channels : List String) (id' : Uuid) :
    (n.updateSessionChannels id channels).db.getSession (.session id') =
      if id' = id then some { session with channels := channels } else n.db.getSession (.session id') := by
  simp only [updateSessionChannels, h, RedisSessionStore.updateCommands]
  rw [← List.singleton_append, RedisDb.execAll_append, RedisDb.execAll_append,
    RedisDb.getSession_sadd_channels ht, RedisDb.getSession_srem_channels]
  simp [RedisDb.execAll, RedisDb.getSession_setEx _ ht]

theorem updateSessionChannels_channel (ht : 0 < n.store.sessionTtlSeconds)
    (h : n.db.getSession (.session id) = some session) (channels : List String) (ch : String) :
    n.store.serverId ∈ (n.updateSessionChannels id channels).db.findChannelServers ch ↔
      (n.store.serverId ∈ n.db.findChannelServers ch ∧ (ch ∈ session.channels → ch ∈ channels)) ∨
        ch ∈ channels := by
  simp only [updateSessionChannels, h, RedisSessionStore.updateCommands]
  rw [← List.singleton_append, RedisDb.execAll_append, RedisDb.execAll_append,
    RedisDb.mem_sadd_channels ht, RedisDb.mem_srem_channels]
  simp [RedisDb.execAll, RedisDb.findChannelServers]

/-- A call on a session that is not stored does nothing to Redis. -/
theorem unregisterSession_of_none (h : n.db.getSession (.session id) = none) :
    n.unregisterSession id = ⟨n.db, n.store.untrack id⟩ := by
  simp only [unregisterSession, h]

theorem unregisterSession_store (n : ClusterNode) (id : Uuid) :
    (n.unregisterSession id).store = n.store.untrack id := by
  unfold unregisterSession
  split <;> rfl

theorem updateSessionChannels_store (n : ClusterNode) (id : Uuid) (channels : List String) :
    (n.updateSessionChannels id channels).store = n.store := by
  unfold updateSessionChannels
  split <;> rfl

end calls

/-! ### One call -/

/-- Every stored session is tracked by the server. -/
def Tracked (n : ClusterNode) : Prop :=
  ∀ id session, n.db.getSession (.session id) = some session →
    (n.store.localConnections.lookup id).isSome = true

section steps
variable {n : ClusterNode} {c : SessionCall}

theorem registered_iff (h : n.Tracked) {id : Uuid} {session : SessionInfo} :
    n.Registered id session ↔ n.db.getSession (.session id) = some session :=
  ⟨fun hr => hr.2, fun hs => ⟨h id session hs, hs⟩⟩

theorem step_config (n : ClusterNode) (c : SessionCall) :
    (step n c).2.store.serverId = n.store.serverId ∧
      (step n c).2.store.sessionTtlSeconds = n.store.sessionTtlSeconds := by
  cases c with
  | registerSession session => exact ⟨rfl, rfl⟩
  | unregisterSession id =>
      rw [step, unregisterSession_store]
      exact ⟨rfl, rfl⟩
  | updateSessionChannels id channels =>
      rw [step, updateSessionChannels_store]
      exact ⟨rfl, rfl⟩

theorem Tracked.step (ht : 0 < n.store.sessionTtlSeconds) (h : n.Tracked) (c : SessionCall) :
    (ClusterNode.step n c).2.Tracked := by
  cases c with
  | registerSession session =>
      intro id info hinfo
      simp only [ClusterNode.step, registerSession_getSession ht] at hinfo
      simp only [ClusterNode.step, registerSession, RedisSessionStore.track]
      rw [DashMap.lookup_insert]
      split_ifs at hinfo ⊢
      · rfl
      · exact h id info hinfo
  | unregisterSession id =>
      intro id' info hinfo
      simp only [ClusterNode.step, unregisterSession_store, RedisSessionStore.untrack]
      rw [DashMap.lookup_erase]
      cases hs : n.db.getSession (.session id) with
      | none =>
          simp only [ClusterNode.step, unregisterSession_of_none hs] at hinfo
          have hne : id' ≠ id := by
            rintro rfl
            rw [hs] at hinfo
            cases hinfo
          rw [if_neg hne]
          exact h id' info hinfo
      | some session =>
          simp only [ClusterNode.step, unregisterSession_getSession hs] at hinfo
          split_ifs at hinfo ⊢
          exact h id' info hinfo
  | updateSessionChannels id channels =>
      intro id' info hinfo
      simp only [ClusterNode.step, updateSessionChannels_store]
      cases hs : n.db.getSession (.session id) with
      | none =>
          simp only [ClusterNode.step, updateSessionChannels, hs] at hinfo
          exact h id' info hinfo
      | some session =>
          simp only [ClusterNode.step, updateSessionChannels_getSession ht hs] at hinfo
          split_ifs at hinfo with hid
          · subst hid
            exact h id' session hs
          · exact h id' info hinfo

/-- A registration keeps the index complete when its channels are in it. -/
theorem complete_registerSession (ht : 0 < n.store.sessionTtlSeconds) (htr : n.Tracked) (h : n.Complete)
    (session : SessionInfo) :
    (step n (.registerSession session)).2.Complete ↔ n.KeepsIndex (.registerSession session) := by
  have htr' := htr.step ht (.registerSession session)
  simp only [Complete, registered_iff htr']
  simp only [step, registerSession_getSession ht, registerSession_channel ht]
  constructor
  · intro hc channel hch
    exact hc session.connectionId session (by simp) channel hch
  · intro hk id info hinfo channel hch
    split_ifs at hinfo with hid
    · cases hinfo
      exact hk channel hch
    · exact h id info ((registered_iff htr).mpr hinfo) channel hch

/-- An unregistration keeps the index complete when it removes the server from no channel that
another session lists. -/
theorem complete_unregisterSession (ht : 0 < n.store.sessionTtlSeconds) (htr : n.Tracked)
    (h : n.Complete) (id : Uuid) :
    (step n (.unregisterSession id)).2.Complete ↔ n.KeepsIndex (.unregisterSession id) := by
  have htr' := htr.step ht (.unregisterSession id)
  have hserver := (step_config n (.unregisterSession id)).1
  cases hs : n.db.getSession (.session id) with
  | none =>
      simp only [Complete, registered_iff htr', KeepsIndex, hs]
      simp only [step, unregisterSession_of_none hs]
      refine iff_of_true (fun id' info hinfo => ?_) (fun session hsome => nomatch hsome)
      exact h id' info ((registered_iff htr).mpr hinfo)
  | some session =>
      simp only [Complete, registered_iff htr', KeepsIndex, Alone, registered_iff htr, hs, hserver]
      simp only [step, unregisterSession_getSession hs, unregisterSession_channel hs]
      constructor
      · rintro hc _ ⟨⟩ channel hch other info hne hinfo hch'
        exact (hc other info (by rw [if_neg hne]; exact hinfo) channel hch').2 hch
      · intro hk id' info hinfo channel hch
        split_ifs at hinfo with hid
        exact ⟨h id' info ((registered_iff htr).mpr hinfo) channel hch,
          fun hmem => hk session rfl channel hmem id' info hid hinfo hch⟩

/-- An update keeps the index complete when it removes the server from no channel that another
session lists. -/
theorem complete_updateSessionChannels (ht : 0 < n.store.sessionTtlSeconds) (htr : n.Tracked)
    (h : n.Complete) (id : Uuid) (channels : List String) :
    (step n (.updateSessionChannels id channels)).2.Complete ↔
      n.KeepsIndex (.updateSessionChannels id channels) := by
  have htr' := htr.step ht (.updateSessionChannels id channels)
  have hserver := (step_config n (.updateSessionChannels id channels)).1
  cases hs : n.db.getSession (.session id) with
  | none =>
      have hsame : (step n (.updateSessionChannels id channels)).2 = n := by
        simp only [step, updateSessionChannels, hs]
      rw [hsame]
      exact iff_of_true h (fun session hsome => by simp [hs] at hsome)
  | some session =>
      simp only [Complete, registered_iff htr', KeepsIndex, Alone, registered_iff htr, hs, hserver]
      simp only [step, updateSessionChannels_getSession ht hs, updateSessionChannels_channel ht hs]
      constructor
      · rintro hc _ ⟨⟩ channel hch hnot other info hne hinfo hch'
        rcases hc other info (by rw [if_neg hne]; exact hinfo) channel hch' with hkept | hadded
        · exact hnot (hkept.2 hch)
        · exact hnot hadded
      · intro hk id' info hinfo channel hch
        by_cases hnew : channel ∈ channels
        · exact .inr hnew
        · split_ifs at hinfo with hid
          · cases hinfo
            exact absurd hch hnew
          · exact .inl ⟨h id' info ((registered_iff htr).mpr hinfo) channel hch,
              fun hold => absurd hch (hk session rfl channel hold hnew id' info hid hinfo)⟩

/-- A call keeps a complete index complete exactly under its condition. -/
theorem complete_step (ht : 0 < n.store.sessionTtlSeconds) (htr : n.Tracked) (h : n.Complete)
    (c : SessionCall) : (step n c).2.Complete ↔ n.KeepsIndex c := by
  cases c with
  | registerSession session => exact complete_registerSession ht htr h session
  | unregisterSession id => exact complete_unregisterSession ht htr h id
  | updateSessionChannels id channels => exact complete_updateSessionChannels ht htr h id channels

end steps

/-! ### Runs -/

section runs
variable {n : ClusterNode}

theorem complete_trace_iff (ht : 0 < n.store.sessionTtlSeconds) (htr : n.Tracked) (h : n.Complete)
    (calls : List SessionCall) :
    (∀ e ∈ Runs.trace step n calls, e.after.Complete) ↔ Runs.Admissible step KeepsIndex n calls := by
  induction calls generalizing n with
  | nil => exact iff_of_true (fun e he => absurd he List.not_mem_nil) trivial
  | cons c calls ih =>
      have hc := complete_step ht htr h c
      have ht' : 0 < (step n c).2.store.sessionTtlSeconds := by rwa [(step_config n c).2]
      simp only [Runs.trace, List.forall_mem_cons, Runs.entry, Runs.Admissible]
      constructor
      · rintro ⟨hnext, hrest⟩
        exact ⟨hc.mp hnext, (ih ht' (htr.step ht c) hnext).mp hrest⟩
      · rintro ⟨hkeeps, hrest⟩
        exact ⟨hc.mpr hkeeps, (ih ht' (htr.step ht c) (hc.mpr hkeeps)).mpr hrest⟩

/-- **The channel index is complete after every call exactly when sessions register with channels
that are in it and leave only channels that they alone list.** -/
theorem complete_iff (now : ℕ) (serverId : String) (sessionTtlSeconds : ℕ) (ht : 0 < sessionTtlSeconds)
    (calls : List SessionCall) :
    (∀ e ∈ Runs.trace step (new now serverId sessionTtlSeconds) calls, e.after.Complete) ↔
      Runs.Admissible step KeepsIndex (new now serverId sessionTtlSeconds) calls := by
  have hnone (id : Uuid) : (new now serverId sessionTtlSeconds).db.getSession (.session id) = none := rfl
  refine complete_trace_iff ht (fun id session hs => ?_) (fun id session hr => ?_) calls
  · rw [hnone] at hs
    cases hs
  · have hs := hr.2
    rw [hnone] at hs
    cases hs

/-- A session of alice, without channels. -/
def session (connectionId : Uuid) : SessionInfo := ⟨connectionId, "alice", "default", "ara-1", 0, []⟩

theorem complete_iff_one_session :
    (∀ e ∈ Runs.trace step (new 0 "ara-1" 60) [.registerSession (session 1)], e.after.Complete) ↔
      Runs.Admissible step KeepsIndex (new 0 "ara-1" 60) [.registerSession (session 1)] :=
  complete_iff 0 "ara-1" 60 (by decide) _

/-- Two sessions list a channel. -/
def sharedChannel : List SessionCall :=
  [.registerSession (session 1), .registerSession (session 2), .updateSessionChannels 1 ["news"],
    .updateSessionChannels 2 ["news"]]

/-- One of the two is unregistered, and the server is not found for the channel of the other. -/
theorem incomplete_after_unregister :
    ¬ ∀ (now : ℕ) (serverId : String) (sessionTtlSeconds : ℕ), 0 < sessionTtlSeconds →
        ∀ calls : List SessionCall, ∀ e ∈ Runs.trace step (new now serverId sessionTtlSeconds) calls,
          e.after.Complete := by
  intro hall
  have h := hall 0 "ara-1" 60 (by decide) (sharedChannel ++ [.unregisterSession 1])
    (Runs.entry step (Runs.final step (new 0 "ara-1" 60) sharedChannel) (.unregisterSession 1))
    (by rw [Runs.trace_snoc]; exact List.mem_append_right _ (List.mem_singleton_self _))
  have hfound := h 2 { session 2 with channels := ["news"] }
    ⟨by decide +kernel, by decide +kernel⟩ "news" (List.mem_singleton_self _)
  exact absurd hfound (by decide +kernel)

end runs

end ClusterNode

end AraNotification
