import AraNotification.Basic
import AraNotification.Lib.ExpiringMap
import Mathlib.Data.Finset.Basic

/-! # The session store of a cluster

Every server of a cluster keeps its connections in Redis (`domain/cluster/redis_store.rs`): one
key for each session, a set of servers for each user and for each channel, and a counter for each
server, all with a lifetime.  `RedisDb` is that part of the database, with the global clock by
which keys expire (in milliseconds), and `Command` the commands that write to it.  What
is stored as JSON is the session itself, since its fields survive serialization.

A call of the store is a list of commands (`registerCommands`, `unregisterCommands`,
`updateCommands`) and updates of the local map of connections, so that it can be run at once
or command by command.

A lifetime in seconds is far below `2 ^ 62`, so that the casts and the doubling of the source are
exact; Redis refuses larger ones. -/

namespace AraNotification

/-- Information about a connection session. -/
structure SessionInfo where
  connectionId : Uuid
  userId : String
  tenantId : String
  serverId : String
  connectedAt : ℤ
  channels : List String
deriving DecidableEq, Repr

/-! ### Keys -/

/-- The keys of the store. -/
inductive RedisKey where
  | session (connectionId : Uuid)
  | userServers (userId : String)
  | channelServers (channel : String)
  | serverConnections (serverId : String)
  | allUsers
deriving DecidableEq, Repr

/-- The text of a key after the prefix of the sessions. -/
def RedisKey.suffix (uuidText : Uuid → String) : RedisKey → String
  | .session connectionId => ":conn:" ++ uuidText connectionId
  | .userServers userId => ":user:" ++ userId
  | .channelServers channel => ":channel:" ++ channel
  | .serverConnections serverId => ":server:" ++ serverId
  | .allUsers => ":users"

/-- The text of a key. -/
def RedisKey.text (uuidText : Uuid → String) (sessionPrefix : String) (key : RedisKey) : String :=
  sessionPrefix ++ key.suffix uuidText

/-- Different keys have different texts. -/
theorem RedisKey.text_injective {uuidText : Uuid → String} (h : uuidText.Injective) (sessionPrefix : String) :
    (RedisKey.text uuidText sessionPrefix).Injective := by
  intro k k' heq
  have htext : (k.suffix uuidText).toList = (k'.suffix uuidText).toList := by
    have := congrArg String.toList heq
    simpa [RedisKey.text] using this
  cases k <;> cases k' <;> simp [RedisKey.suffix] at htext ⊢
  all_goals first
    | exact h (String.toList_inj.mp htext)
    | exact String.toList_inj.mp htext

/-! ### The database -/

/-- The keys of the store in Redis: sessions, sets and counters. -/
structure RedisDb where
  now : ℕ
  sessions : ExpiringMap RedisKey SessionInfo
  sets : ExpiringMap RedisKey (Finset String)
  counters : ExpiringMap RedisKey ℤ

/-- The commands that write. -/
inductive Command where
  | setEx (key : RedisKey) (session : SessionInfo) (seconds : ℕ)
  | del (key : RedisKey)
  | sadd (key : RedisKey) (member : String)
  | srem (key : RedisKey) (member : String)
  | incr (key : RedisKey)
  | decr (key : RedisKey)
  | expire (key : RedisKey) (seconds : ℕ)
deriving DecidableEq, Repr

namespace RedisDb

def empty (now : ℕ) : RedisDb := ⟨now, ∅, ∅, ∅⟩

variable (db : RedisDb)

/-- The deadline of a key that lives for some seconds from now. -/
def deadline (seconds : ℕ) : ℕ := db.now + 1000 * seconds

/-- A set without members does not exist. -/
def nonempty (s : Finset String) : Option (Finset String) := if s = ∅ then none else some s

/-- Execution of one command. -/
def exec : Command → RedisDb
  | .setEx key session seconds =>
      { db with sessions := db.sessions.put key session (some (db.deadline seconds)) }
  | .del key =>
      { db with
        sessions := AList.erase key db.sessions
        sets := AList.erase key db.sets
        counters := AList.erase key db.counters }
  | .sadd key member =>
      { db with sets := db.sets.alter db.now key (fun s => some (insert member (s.getD ∅))) }
  | .srem key member =>
      { db with sets := db.sets.alter db.now key (fun s => nonempty ((s.getD ∅).erase member)) }
  | .incr key => { db with counters := db.counters.alter db.now key (fun n => some (n.getD 0 + 1)) }
  | .decr key => { db with counters := db.counters.alter db.now key (fun n => some (n.getD 0 - 1)) }
  | .expire key seconds =>
      { db with
        sessions := (db.sessions.expire db.now key (db.deadline seconds)).2
        sets := (db.sets.expire db.now key (db.deadline seconds)).2
        counters := (db.counters.expire db.now key (db.deadline seconds)).2 }

/-- Execution of commands one after the other. -/
def execAll (commands : List Command) : RedisDb := commands.foldl exec db

/-- `GET` of a session. -/
def getSession (key : RedisKey) : Option SessionInfo := db.sessions.get db.now key

/-- `SMEMBERS`. -/
def members (key : RedisKey) : Finset String := (db.sets.get db.now key).getD ∅

/-- Find which servers have a specific user connected. -/
def findUserServers (userId : String) : Finset String := db.members (.userServers userId)

/-- Find which servers have subscribers to a channel. -/
def findChannelServers (channel : String) : Finset String := db.members (.channelServers channel)

end RedisDb

/-! ### The calls of the store -/

/-- The session store of one server. -/
structure RedisSessionStore where
  serverId : String
  sessionTtlSeconds : ℕ
  localConnections : DashMap Uuid String

namespace RedisSessionStore

def new (serverId : String) (sessionTtlSeconds : ℕ) : RedisSessionStore := ⟨serverId, sessionTtlSeconds, ∅⟩

variable (store : RedisSessionStore)

/-- The pipeline of `register_session`. -/
def registerCommands (session : SessionInfo) : List Command :=
  let ttl := store.sessionTtlSeconds
  [.setEx (.session session.connectionId) session ttl,
    .sadd (.userServers session.userId) store.serverId,
    .expire (.userServers session.userId) ttl,
    .sadd .allUsers session.userId,
    .expire .allUsers (ttl * 2),
    .incr (.serverConnections store.serverId),
    .expire (.serverConnections store.serverId) ttl]

/-- This server has another connection of the user. -/
def userHasOtherConnections (connectionId : Uuid) (userId : String) : Bool :=
  store.localConnections.entries.any (fun e => decide (e.1 ≠ connectionId) && decide (e.2 = userId))

/-- The commands of `unregister_session` after the look at the local connections. -/
def unregisterCommands (connectionId : Uuid) (session : SessionInfo) (userHasOtherConnections : Bool) :
    List Command :=
  [.del (.session connectionId), .decr (.serverConnections store.serverId)] ++
    (if userHasOtherConnections then [] else [.srem (.userServers session.userId) store.serverId]) ++
    session.channels.map (fun channel => .srem (.channelServers channel) store.serverId)

/-- The commands of `update_session_channels` after the session has been read. -/
def updateCommands (connectionId : Uuid) (session : SessionInfo) (channels : List String) : List Command :=
  let ttl := store.sessionTtlSeconds
  .setEx (.session connectionId) { session with channels := channels } ttl ::
    ((session.channels.filter (fun channel => decide (channel ∉ channels))).map
        (fun channel => .srem (.channelServers channel) store.serverId) ++
      channels.flatMap (fun channel =>
        [.sadd (.channelServers channel) store.serverId, .expire (.channelServers channel) ttl]))

/-- Track a connection locally for refresh and SREM checks. -/
def track (session : SessionInfo) : RedisSessionStore :=
  { store with localConnections := store.localConnections.insert session.connectionId session.userId }

/-- Remove a connection from local tracking. -/
def untrack (connectionId : Uuid) : RedisSessionStore :=
  { store with localConnections := AList.erase connectionId store.localConnections }

end RedisSessionStore

/-! ### What the commands do to what is read -/

namespace RedisDb

variable {db : RedisDb} {key key' : RedisKey} {member : String} {seconds : ℕ}

theorem lt_deadline (hs : 0 < seconds) : db.now < db.deadline seconds := by
  unfold deadline
  omega

@[simp] theorem members_setEx (session : SessionInfo) :
    (db.exec (.setEx key session seconds)).members key' = db.members key' := rfl

@[simp] theorem members_incr : (db.exec (.incr key)).members key' = db.members key' := rfl

@[simp] theorem members_decr : (db.exec (.decr key)).members key' = db.members key' := rfl

theorem members_del : (db.exec (.del key)).members key' = if key' = key then ∅ else db.members key' := by
  unfold members exec
  rw [ExpiringMap.get_erase]
  split_ifs <;> rfl

theorem members_sadd : (db.exec (.sadd key member)).members key' =
    if key' = key then insert member (db.members key) else db.members key' := by
  unfold members exec
  rw [ExpiringMap.get_alter]
  split_ifs <;> rfl

theorem members_srem : (db.exec (.srem key member)).members key' =
    if key' = key then (db.members key).erase member else db.members key' := by
  unfold members exec nonempty
  rw [ExpiringMap.get_alter]
  split_ifs with hkey hempty
  · exact hempty.symm
  · rfl
  · rfl

theorem members_expire (hs : 0 < seconds) : (db.exec (.expire key seconds)).members key' = db.members key' := by
  unfold members exec
  rw [ExpiringMap.get_expire (lt_deadline hs)]

theorem getSession_setEx (session : SessionInfo) (hs : 0 < seconds) :
    (db.exec (.setEx key session seconds)).getSession key' =
      if key' = key then some session else db.getSession key' := by
  unfold getSession exec
  exact ExpiringMap.get_put (lt_deadline hs)

theorem getSession_del :
    (db.exec (.del key)).getSession key' = if key' = key then none else db.getSession key' := by
  unfold getSession exec
  exact ExpiringMap.get_erase

@[simp] theorem getSession_sadd : (db.exec (.sadd key member)).getSession key' = db.getSession key' := rfl

@[simp] theorem getSession_srem : (db.exec (.srem key member)).getSession key' = db.getSession key' := rfl

@[simp] theorem getSession_incr : (db.exec (.incr key)).getSession key' = db.getSession key' := rfl

@[simp] theorem getSession_decr : (db.exec (.decr key)).getSession key' = db.getSession key' := rfl

theorem getSession_expire (hs : 0 < seconds) :
    (db.exec (.expire key seconds)).getSession key' = db.getSession key' := by
  unfold getSession exec
  exact ExpiringMap.get_expire (lt_deadline hs)

end RedisDb

end AraNotification
