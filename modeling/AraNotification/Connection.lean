import AraNotification.Basic
import AraNotification.Lib.InvertedIndex

/-! # The connection manager

`ConnectionManager` keeps the registered connections and three indices over them, by user,
by channel and by tenant.  The definitions follow `domain/connection`: one function per
method, with the identifier and the clock reading that the original draws inside the call
(`Uuid::new_v4`, `Utc::now`) as arguments.  The sender half of the outbound channel is not
part of the handle here: a connection's channel is found by its identifier.

The user index is a list per user (`SmallVec` with `push` and `retain`), the other two hold
a set per key; both are lists here, and that they have no repetitions is part of the
invariant of `ConnectionIndex.lean`.  The subscription set of a handle is shared and mutable
in the original and is updated in place through the map. -/

namespace AraNotification

/-! ### Handles, limits and errors -/

/-- `ConnectionHandle`; `lastActivity` is in Unix seconds. -/
structure ConnectionHandle where
  id : Uuid
  userId : String
  tenantId : String
  roles : List String
  connectedAt : DateTime
  lastActivity : ℤ
  subscriptions : List String
deriving DecidableEq, Repr

namespace ConnectionHandle

/-- `ConnectionHandle::new` with the identifier and the clock reading it draws. -/
def new (id : Uuid) (userId tenantId : String) (roles : List String) (now : DateTime) :
    ConnectionHandle where
  id := id
  userId := userId
  tenantId := tenantId
  roles := roles
  connectedAt := now
  lastActivity := DateTime.timestamp now
  subscriptions := []

def updateActivity (h : ConnectionHandle) (now : DateTime) : ConnectionHandle :=
  { h with lastActivity := DateTime.timestamp now }

/-- `last_activity()` as a clock reading. -/
def lastActivityTime (h : ConnectionHandle) : DateTime := DateTime.fromTimestamp h.lastActivity

def subscriptionCount (h : ConnectionHandle) : ℕ := h.subscriptions.length

def subscribe (h : ConnectionHandle) (channel : String) : ConnectionHandle :=
  { h with subscriptions := h.subscriptions.insert channel }

def unsubscribe (h : ConnectionHandle) (channel : String) : ConnectionHandle :=
  { h with subscriptions := h.subscriptions.filter (· ≠ channel) }

/-- Inactive for longer than `timeout` at `now`. -/
def isStale (h : ConnectionHandle) (now : DateTime) (timeout : Duration) : Bool :=
  decide (now - h.lastActivityTime > timeout)

end ConnectionHandle

/-- Limits for connection management; `0` means unlimited. -/
structure ConnectionLimits where
  maxConnections : ℕ
  maxConnectionsPerUser : ℕ
  maxSubscriptionsPerConnection : ℕ
deriving DecidableEq, Repr

/-- `ConnectionLimits::default`. -/
def ConnectionLimits.default : ConnectionLimits where
  maxConnections := 10000
  maxConnectionsPerUser := 5
  maxSubscriptionsPerConnection := 50

/-- Error returned when connection limits are exceeded. -/
inductive ConnectionError where
  | totalLimitExceeded (current max : ℕ)
  | userLimitExceeded (userId : String) (current max : ℕ)
deriving DecidableEq, Repr

/-- The `Display` text of a connection error. -/
def ConnectionError.display : ConnectionError → String
  | totalLimitExceeded current max =>
      "Total connection limit exceeded (" ++ toString current ++ "/" ++ toString max ++ ")"
  | userLimitExceeded userId current max =>
      "User " ++ userId ++ " connection limit exceeded (" ++ toString current ++ "/" ++
        toString max ++ ")"

/-! ### The manager -/

/-- All active connections with their indices. -/
structure ConnectionManager where
  connections : DashMap Uuid ConnectionHandle
  userIndex : InvertedIndex String Uuid
  channelIndex : InvertedIndex String Uuid
  tenantIndex : InvertedIndex String Uuid
  limits : ConnectionLimits

namespace ConnectionManager

/-- `with_limits`: the empty manager. -/
def withLimits (limits : ConnectionLimits) : ConnectionManager where
  connections := ∅
  userIndex := ∅
  channelIndex := ∅
  tenantIndex := ∅
  limits := limits

variable (m : ConnectionManager)

/-- The total-limit check of `register_with_limits`. -/
def totalLimitReached (limits : ConnectionLimits) : Bool :=
  decide (limits.maxConnections > 0) && decide (m.connections.len ≥ limits.maxConnections)

/-- Number of connections that the user index lists for a user. -/
def userConnectionCount (userId : String) : ℕ := (m.userIndex.ids userId).length

/-- The per-user check of `register_with_limits`. -/
def userLimitReached (userId : String) (limits : ConnectionLimits) : Bool :=
  decide (limits.maxConnectionsPerUser > 0) &&
    decide (m.userConnectionCount userId ≥ limits.maxConnectionsPerUser)

/-- The three insertions at the end of `register_with_limits`. -/
def insertHandle (h : ConnectionHandle) : ConnectionManager :=
  { m with
    connections := m.connections.insert h.id h
    userIndex := m.userIndex.push h.userId h.id
    tenantIndex := m.tenantIndex.add h.tenantId h.id }

/-- Register a new connection with custom limits. -/
def registerWithLimits (id : Uuid) (userId tenantId : String) (roles : List String) (now : DateTime)
    (limits : ConnectionLimits) : Except ConnectionError ConnectionHandle × ConnectionManager :=
  if m.totalLimitReached limits then
    (.error (.totalLimitExceeded m.connections.len limits.maxConnections), m)
  else if m.userLimitReached userId limits then
    (.error (.userLimitExceeded userId (m.userConnectionCount userId)
      limits.maxConnectionsPerUser), m)
  else
    let handle := ConnectionHandle.new id userId tenantId roles now
    (.ok handle, m.insertHandle handle)

/-- Register a new connection with limit checking. -/
def register (id : Uuid) (userId tenantId : String) (roles : List String) (now : DateTime) :
    Except ConnectionError ConnectionHandle × ConnectionManager :=
  m.registerWithLimits id userId tenantId roles now m.limits

/-- Unregister a connection. -/
def unregister (id : Uuid) : ConnectionManager :=
  match m.connections.lookup id with
  | none => m
  | some h =>
      { m with
        connections := m.connections.erase id
        userIndex := m.userIndex.remove h.userId id
        tenantIndex := m.tenantIndex.remove h.tenantId id
        channelIndex := h.subscriptions.foldl (fun x channel => x.remove channel id) m.channelIndex }

/-- Subscribe a connection to a channel with limit checking. -/
def subscribeToChannel (id : Uuid) (channel : String) : Except String Unit × ConnectionManager :=
  match m.connections.lookup id with
  | none => (.error "Connection not found", m)
  | some h =>
      if m.limits.maxSubscriptionsPerConnection > 0 ∧
          h.subscriptionCount ≥ m.limits.maxSubscriptionsPerConnection then
        (.error ("Subscription limit exceeded (" ++ toString h.subscriptionCount ++ "/" ++
          toString m.limits.maxSubscriptionsPerConnection ++ ")"), m)
      else
        (.ok (), { m with
          connections := m.connections.modify id (·.subscribe channel)
          channelIndex := m.channelIndex.add channel id })

/-- Unsubscribe a connection from a channel. -/
def unsubscribeFromChannel (id : Uuid) (channel : String) : ConnectionManager :=
  match m.connections.lookup id with
  | none => m
  | some _ =>
      { m with
        connections := m.connections.modify id (·.unsubscribe channel)
        channelIndex := m.channelIndex.remove channel id }

/-- `update_activity` on the handle of a connection. -/
def updateActivity (id : Uuid) (now : DateTime) : ConnectionManager :=
  { m with connections := m.connections.modify id (·.updateActivity now) }

/-! ### Queries -/

/-- The registered handles of a list of identifiers, in order. -/
def handles (ids : List Uuid) : List ConnectionHandle := ids.filterMap (fun id => m.connections.lookup id)

/-- All connections of a user. -/
def getUserConnections (userId : String) : List ConnectionHandle := m.handles (m.userIndex.ids userId)

/-- All connections subscribed to a channel. -/
def getChannelConnections (channel : String) : List ConnectionHandle :=
  m.handles (m.channelIndex.ids channel)

/-- All connections of a tenant. -/
def getTenantConnections (tenantId : String) : List ConnectionHandle :=
  m.handles (m.tenantIndex.ids tenantId)

/-- All connections. -/
def getAllConnections : List ConnectionHandle := m.connections.values

/-- The connections inactive for longer than the timeout; `none` is the panic of
`Duration::seconds`. -/
def findStaleConnections (now : DateTime) (timeoutSecs : ℕ) : Option (List Uuid) :=
  (Duration.seconds (asI64 timeoutSecs)).map (fun timeout =>
    m.connections.entries.filterMap (fun e => if e.2.isStale now timeout then some e.1 else none))

/-- Unregister each connection of a list, in order. -/
def unregisterAll (ids : List Uuid) : ConnectionManager := ids.foldl unregister m

/-- Remove stale connections and return how many there were. -/
def cleanupStaleConnections (now : DateTime) (timeoutSecs : ℕ) : Option (ℕ × ConnectionManager) :=
  (m.findStaleConnections now timeoutSecs).map (fun stale => (stale.length, m.unregisterAll stale))

end ConnectionManager

end AraNotification
