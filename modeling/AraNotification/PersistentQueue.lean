import AraNotification.Queue

/-! # The persistent queues

Two more backends keep the messages of offline users outside the process.
`RedisQueueBackend` appends to a stream for each user and drains it by reading the stream and
deleting its key, two commands.  `PostgresQueueBackend` keeps rows in a table: one statement
drops the oldest row of a full queue and inserts the new one, and a drain deletes first the
rows that have not expired, which it returns, and then those that have.

The stores are given by what their commands do.  What they leave open is an argument: how
many entries the approximate trimming of a stream removes, which of several oldest rows a
statement picks, in which order a `DELETE ... RETURNING` delivers its rows, and which
commands fail.  A command that fails has no effect.  Serialisation is a pair of functions
(`Serde`); where a result needs a value to be read back as it was written, it says so
(`Serde.Reads`).  The statistics that the backends keep beside the queue are left out. -/

namespace AraNotification

/-- Writing and reading values of type `α` as `β`; both can fail. -/
structure Serde (α β : Type) where
  write : α → Option β
  read : β → Option α

/-- What is written is read back. -/
def Serde.Reads {α β : Type} (S : Serde α β) (a : α) : Prop := (S.write a).bind S.read = some a

/-- The errors of the persistent backends. -/
inductive StoreError where
  | disabled
  | redis
  | postgres
  | serialization
  | unavailable (reason : String)
deriving DecidableEq, Repr

/-! ### Redis streams -/

/-- The errors of the connection pool. -/
inductive PoolError where
  | redis
  | circuitOpen
  | connectionUnavailable (reason : String)
deriving DecidableEq, Repr

/-- An entry of a stream. -/
structure StreamEntry where
  id : String
  fields : List (String × String)
deriving DecidableEq, Repr

/-- The streams of the store, by key. -/
structure RedisStore where
  streams : DashMap String (List StreamEntry)

namespace RedisStore
variable (store : RedisStore) (key : String)

/-- `XRANGE key - +`: all entries, in the order of insertion. -/
def xrangeAll : List StreamEntry := (store.streams.lookup key).getD []

/-- `XADD key MAXLEN ~ maxlen *`: append an entry and trim old ones, but never so many that
fewer than `maxlen` remain. -/
def xaddMaxlen (maxlen trim : ℕ) (entry : StreamEntry) : RedisStore where
  streams := store.streams.insert key
    ((store.xrangeAll key ++ [entry]).drop (min trim ((store.xrangeAll key).length + 1 - maxlen)))

/-- `DEL key`. -/
def del : RedisStore where
  streams := store.streams.erase key

variable {store key}

theorem xrangeAll_xaddMaxlen (maxlen trim : ℕ) (entry : StreamEntry) (key' : String) :
    (store.xaddMaxlen key maxlen trim entry).xrangeAll key' =
      if key' = key then
        (store.xrangeAll key ++ [entry]).drop (min trim ((store.xrangeAll key).length + 1 - maxlen))
      else store.xrangeAll key' := by
  simp only [xaddMaxlen, xrangeAll, DashMap.lookup_insert]
  split_ifs <;> rfl

theorem xrangeAll_del (key' : String) :
    (store.del key).xrangeAll key' = if key' = key then [] else store.xrangeAll key' := by
  simp only [del, xrangeAll, DashMap.lookup_erase]
  split_ifs <;> rfl

end RedisStore

/-- Redis-based message queue backend. -/
structure RedisQueueBackend where
  config : QueueConfig
  keyPrefix : String
  tenantId : String
  serde : Serde StoredMessage String

namespace RedisQueueBackend
variable (b : RedisQueueBackend)

/-- The Redis key for a user's queue. -/
def queueKey (userId : String) : String := b.keyPrefix ++ ":" ++ b.tenantId ++ ":" ++ userId

/-- Convert a pool error to a backend error. -/
def mapError : PoolError → StoreError
  | .redis => .redis
  | .circuitOpen => .unavailable "Circuit breaker is open"
  | .connectionUnavailable reason => .unavailable reason

/-- The entry of a message with the given text. -/
def entry (entryId text : String) : StreamEntry := ⟨entryId, [("data", text)]⟩

/-- The message in an entry; an entry without readable data has none. -/
def parse (e : StreamEntry) : Option StoredMessage :=
  ((e.fields.find? (fun field => field.1 == "data")).map (·.2)).bind b.serde.read

/-- The messages in a list of entries. -/
def messagesIn (entries : List StreamEntry) : List StoredMessage := entries.filterMap b.parse

/-- Parse messages and filter expired. -/
def sift (entries : List StreamEntry) (now : DateTime) : DrainResult where
  messages := (b.messagesIn entries).filter (fun m => !m.isExpired now b.config.messageTtlSeconds)
  expired := ((b.messagesIn entries).filter (·.isExpired now b.config.messageTtlSeconds)).length

/-- The drain deletes the stream when it has found something. -/
def found (r : DrainResult) : Bool := !r.messages.isEmpty || decide (r.expired > 0)

/-- Store a message for an offline user. -/
def enqueue (store : RedisStore) (userId : String) (m : StoredMessage) (entryId : String) (trim : ℕ)
    (xaddFailure : Option PoolError) : Except StoreError Unit × RedisStore :=
  if b.config.enabled then
    match b.serde.write m with
    | none => (.error .serialization, store)
    | some text =>
        match xaddFailure with
        | some e => (.error (mapError e), store)
        | none => (.ok (), store.xaddMaxlen (b.queueKey userId) b.config.maxQueueSizePerUser trim
            (entry entryId text))
  else (.error .disabled, store)

/-- Take all messages of a user. -/
def drain (store : RedisStore) (userId : String) (now : DateTime)
    (xrangeFailure delFailure : Option PoolError) : Except StoreError DrainResult × RedisStore :=
  if b.config.enabled then
    match xrangeFailure with
    | some e => (.error (mapError e), store)
    | none =>
        let entries := store.xrangeAll (b.queueKey userId)
        if entries.isEmpty then (.ok .empty, store)
        else if found (b.sift entries now) then
          match delFailure with
          | some e => (.error (mapError e), store)
          | none => (.ok (b.sift entries now), store.del (b.queueKey userId))
        else (.ok (b.sift entries now), store)
  else (.ok .empty, store)

section parsing
variable {b}

theorem parse_entry {m : StoredMessage} {text : String} (hr : b.serde.Reads m)
    (hw : b.serde.write m = some text) (entryId : String) : b.parse (entry entryId text) = some m := by
  rw [Serde.Reads, hw] at hr
  exact hr

theorem messagesIn_cons {e : StreamEntry} {m : StoredMessage} (h : b.parse e = some m)
    (entries : List StreamEntry) : b.messagesIn (e :: entries) = m :: b.messagesIn entries := by
  rw [messagesIn, List.filterMap_cons, h]
  rfl

theorem messagesIn_concat {e : StreamEntry} {m : StoredMessage} (h : b.parse e = some m)
    (entries : List StreamEntry) : b.messagesIn (entries ++ [e]) = b.messagesIn entries ++ [m] := by
  rw [messagesIn, List.filterMap_append]
  exact congrArg _ (messagesIn_cons h [])

/-- Every message that is found is returned or counted as expired. -/
theorem found_sift {entries : List StreamEntry} {now : DateTime} :
    found (b.sift entries now) = !(b.messagesIn entries).isEmpty := by
  have hsplit := List.length_eq_length_filter_add
    (l := b.messagesIn entries) (fun m => m.isExpired now b.config.messageTtlSeconds)
  rw [found, Bool.eq_iff_iff]
  simp only [Bool.or_eq_true, Bool.not_eq_true', List.isEmpty_eq_false_iff, ne_eq,
    decide_eq_true_eq, sift, gt_iff_lt, ← List.length_pos_iff]
  omega

end parsing

end RedisQueueBackend

/-! ### The PostgreSQL table -/

/-- A row of `message_queue`. -/
structure Row where
  id : Uuid
  tenantId : String
  userId : String
  eventData : Json
  queuedAt : DateTime
  attempts : ℤ
  expiresAt : DateTime

/-- The row belongs to the user of the tenant. -/
def Row.isFor (tenantId userId : String) (r : Row) : Bool :=
  decide (r.tenantId = tenantId ∧ r.userId = userId)

/-- The committed rows. -/
abbrev Table := List Row

namespace Table

/-- The rows of a user. -/
def rowsOf (t : Table) (tenantId userId : String) : List Row := t.filter (·.isFor tenantId userId)

/-- `ORDER BY queued_at ASC LIMIT 1` may pick this row. -/
def mayPick (rows : List Row) (pick : Uuid) : Bool :=
  rows.any (fun r => r.id == pick && rows.all (fun r' => decide (r.queuedAt ≤ r'.queuedAt)))

/-- The row that an enqueue selects for deletion among the rows of its user, if they are at
least `bound`; `none` when the pick is not possible. -/
def select (rows : List Row) (bound : ℤ) (pick : Uuid) : Option (Option Uuid) :=
  if (rows.length : ℤ) ≥ bound ∧ rows ≠ [] then
    if mayPick rows pick then some (some pick) else none
  else some none

/-- The effect of an enqueue: the selected row is deleted, if it is still there, and the new
one inserted. -/
def commit (t : Table) (victim : Option Uuid) (row : Row) : Table :=
  t.filter (fun r => decide (some r.id ≠ victim)) ++ [row]

/-- The selected row is one of those that the enqueue has seen. -/
theorem mem_of_select {rows : List Row} {bound : ℤ} {pick id : Uuid}
    (h : select rows bound pick = some (some id)) : ∃ r ∈ rows, r.id = id := by
  unfold select at h
  split_ifs at h with hfull hpick
  · obtain ⟨r, hr, hid⟩ := List.any_eq_true.mp hpick
    rw [Bool.and_eq_true, beq_iff_eq] at hid
    exact ⟨r, hr, hid.1.trans (Option.some.inj (Option.some.inj h))⟩
  · cases h

end Table

/-- The order in which a statement returns rows. -/
structure RowOrder where
  arrange : List Row → List Row
  arrange_perm : ∀ rows, (arrange rows).Perm rows

/-- PostgreSQL-based message queue backend. -/
structure PostgresQueueBackend where
  config : QueueConfig
  tenantId : String
  serde : Serde NotificationEvent Json

namespace PostgresQueueBackend
variable (b : PostgresQueueBackend)

/-- When a message enqueued now expires; `none` is the panic of `Duration::seconds`. -/
def expiresAt (now : DateTime) : Option DateTime :=
  (Duration.seconds (asI64 b.config.messageTtlSeconds)).map (now + ·)

/-- The row that an enqueue inserts. -/
def newRow (userId : String) (id : Uuid) (data : Json) (queuedAt expiresAt : DateTime) : Row where
  id := id
  tenantId := b.tenantId
  userId := userId
  eventData := data
  queuedAt := queuedAt
  attempts := 0
  expiresAt := expiresAt

/-- Store a message for an offline user, with one clock reading for the service and the
database; `none` when the call panics or the pick is not possible. -/
def enqueue (t : Table) (userId : String) (id : Uuid) (event : NotificationEvent) (now : DateTime)
    (pick : Uuid) (statementFails : Bool) : Option (Except StoreError Unit × Table) :=
  if b.config.enabled then
    (b.expiresAt now).bind (fun expiresAt =>
      match b.serde.write event with
      | none => some (.error .serialization, t)
      | some data =>
          if statementFails then some (.error .postgres, t)
          else
            (Table.select (t.rowsOf b.tenantId userId) (asI64 b.config.maxQueueSizePerUser) pick).map
              (fun victim => (.ok (), t.commit victim (b.newRow userId id data now expiresAt))))
  else some (.error .disabled, t)

/-- The message in a row; a row whose event cannot be read has none. -/
def toMessage (r : Row) : Option StoredMessage :=
  (b.serde.read r.eventData).map (fun event => ⟨r.id, event, r.queuedAt, (r.attempts % 2 ^ 32).toNat⟩)

/-- The rows of a user that have not expired. -/
def isLive (userId : String) (now : DateTime) (r : Row) : Bool :=
  r.isFor b.tenantId userId && decide (r.expiresAt > now)

/-- The rows of a user that have expired. -/
def isDead (userId : String) (now : DateTime) (r : Row) : Bool :=
  r.isFor b.tenantId userId && decide (r.expiresAt ≤ now)

/-- Take all messages of a user: the statement that fetches and deletes the rows that have
not expired, at `fetchedAt`, and the one that deletes the others, at `deletedAt`. -/
def drain (t : Table) (userId : String) (order : RowOrder) (fetchedAt deletedAt : DateTime)
    (fetchFails deleteFails : Bool) : Except StoreError DrainResult × Table :=
  if b.config.enabled then
    if fetchFails then (.error .postgres, t)
    else
      let rows := order.arrange (t.filter (b.isLive userId fetchedAt))
      let rest := t.filter (fun r => !b.isLive userId fetchedAt r)
      if deleteFails then (.error .postgres, rest)
      else (.ok ⟨rows.filterMap b.toMessage, (rest.filter (b.isDead userId deletedAt)).length⟩,
        rest.filter (fun r => !b.isDead userId deletedAt r))
  else (.ok .empty, t)

end PostgresQueueBackend

end AraNotification
