import AraNotification.SessionStore
import AraNotification.Lib.Enumeration

/-! # The queries of a cluster

`get_all_sessions`, `get_user_sessions` and `cluster_connection_count` collect keys with `SCAN` and
then read one key after the other.  `SCAN` returns every key that is there during the whole
iteration at least once, and may return it again, and the keys are used as they come.

`queries_once_iff`: a query counts every session (or counter) once exactly when the iteration
returns no key twice that contributes to its result, or the sum of the counters overflows and
the copies that are too many vanish in it. -/

namespace AraNotification

/-! ### Keys and values -/

/-- What is stored: for each session what its JSON decodes to, for each server its counter, and the
keys of sets. -/
structure Keyspace where
  sessions : DashMap Uuid (Option SessionInfo)
  counters : DashMap String ℤ
  sets : List RedisKey

/-- A value of a key. -/
inductive KeyValue where
  | json (session : Option SessionInfo)
  | counter (n : ℤ)
  | set

/-- An error of Redis or of the conversion of a reply. -/
inductive QueryError where
  | wrongType
  | notAnInteger
deriving DecidableEq, Repr

/-- A reply to `SCAN`: the next cursor and a batch of keys. -/
abbrev ScanReply := ℕ × List RedisKey

namespace Keyspace

variable (ks : Keyspace)

/-- The value of a key. -/
def value : RedisKey → Option KeyValue
  | .session connectionId => (ks.sessions.lookup connectionId).map .json
  | .serverConnections serverId => (ks.counters.lookup serverId).map .counter
  | key => if key ∈ ks.sets then some .set else none

/-- `GET` of a text, and what it decodes to as a session. -/
def getSession (key : RedisKey) : Except QueryError (Option SessionInfo) :=
  match ks.value key with
  | some (.json session) => .ok session
  | some (.counter _) => .ok none
  | some .set => .error .wrongType
  | none => .ok none

/-- `GET` of a number. -/
def getCount (key : RedisKey) : Except QueryError (Option ℤ) :=
  match ks.value key with
  | some (.json _) => .error .notAnInteger
  | some (.counter n) => .ok (some n)
  | some .set => .error .wrongType
  | none => .ok none

/-! ### The queries -/

/-- The loop of `scan_keys` over the replies that it gets; `none` while the cursor has not come back
to 0. -/
def scanKeys : List ScanReply → Option (List RedisKey)
  | [] => none
  | (cursor, batch) :: replies => if cursor = 0 then some batch else (scanKeys replies).map (batch ++ ·)

/-- The sessions of the keys that are wanted. -/
def collectSessions (wanted : SessionInfo → Bool) : List RedisKey → Except QueryError (List SessionInfo)
  | [] => .ok []
  | key :: keys => do
      let session ← ks.getSession key
      let sessions ← collectSessions wanted keys
      pure ((session.filter wanted).toList ++ sessions)

/-- `get_all_sessions`. -/
def getAllSessions (replies : List ScanReply) : Option (Except QueryError (List SessionInfo)) :=
  (scanKeys replies).map (fun keys =>
    if keys.isEmpty then .ok [] else ks.collectSessions (fun _ => true) keys)

/-- `get_user_sessions`. -/
def getUserSessions (userId : String) (replies : List ScanReply) :
    Option (Except QueryError (List SessionInfo)) :=
  (scanKeys replies).map (fun keys =>
    if keys.isEmpty then .ok [] else ks.collectSessions (fun session => decide (session.userId = userId)) keys)

/-- The sum of the positive counters, in a `usize`. -/
def sumCounts (total : ℕ) : List RedisKey → Except QueryError ℕ
  | [] => .ok total
  | key :: keys => do
      let count ← ks.getCount key
      match count with
      | some n => if n > 0 then sumCounts ((total + n.toNat) % 2 ^ 64) keys else sumCounts total keys
      | none => sumCounts total keys

/-- `cluster_connection_count`. -/
def clusterConnectionCount (replies : List ScanReply) : Option (Except QueryError ℕ) :=
  (scanKeys replies).map (fun keys => if keys.isEmpty then .ok 0 else ks.sumCounts 0 keys)

/-! ### What `SCAN` guarantees, and what is claimed -/

/-- Only the last cursor is 0. -/
def Ends (replies : List ScanReply) : Prop :=
  ∃ earlier last, replies = earlier ++ [(0, last)] ∧ ∀ reply ∈ earlier, reply.1 ≠ 0

/-- The replies of a full iteration: it ends, every key that matches is returned, and nothing
else. -/
structure Iteration (isMatch : RedisKey → Bool) (replies : List ScanReply) : Prop where
  ends : Ends replies
  returned : ∀ key, (∃ reply ∈ replies, key ∈ reply.2) ↔
    (ks.value key).isSome = true ∧ isMatch key = true

/-- All keys that an iteration returns. -/
def returnedKeys (replies : List ScanReply) : List RedisKey := replies.flatMap (·.2)

/-- The wanted session that a key holds. -/
def sessionAt (wanted : SessionInfo → Bool) (key : RedisKey) : Option SessionInfo :=
  match ks.value key with
  | some (.json session) => session.filter wanted
  | _ => none

/-- What a key adds to the number of connections. -/
def connectionsAt (key : RedisKey) : ℕ :=
  match ks.value key with
  | some (.counter n) => n.toNat
  | _ => 0

/-- The wanted sessions, each once. -/
def storedSessions (wanted : SessionInfo → Bool) : List SessionInfo :=
  (ks.sessions.keys.map .session).filterMap (ks.sessionAt wanted)

/-- The sum of the positive counters. -/
def storedConnections : ℕ := ((ks.counters.keys.map .serverConnections).map ks.connectionsAt).sum

/-- What the repeated copies of counters add to the sum. -/
def repeatedConnections (replies : List ScanReply) : ℕ :=
  ((Enumeration.repeats (returnedKeys replies) (ks.counters.keys.map .serverConnections)).map
    ks.connectionsAt).sum

/-- A query returns every wanted session once. -/
def ReturnsOnce (wanted : SessionInfo → Bool) (result : Option (Except QueryError (List SessionInfo))) : Prop :=
  ∃ sessions, result = some (.ok sessions) ∧ sessions.Perm (ks.storedSessions wanted)

/-- No key with the property is returned twice. -/
def NotTwice (p : RedisKey → Bool) (replies : List ScanReply) : Prop :=
  ((returnedKeys replies).filter p).Nodup

instance (p : RedisKey → Bool) (replies : List ScanReply) : Decidable (NotTwice p replies) :=
  inferInstanceAs (Decidable (List.Nodup _))

/-! ### The loops -/

section loops
variable {ks} {isMatch : RedisKey → Bool} {replies : List ScanReply} {keys : List RedisKey}

theorem scanKeys_of_ends {earlier : List ScanReply} (last : List RedisKey)
    (h : ∀ reply ∈ earlier, reply.1 ≠ 0) :
    scanKeys (earlier ++ [(0, last)]) = some (returnedKeys (earlier ++ [(0, last)])) := by
  induction earlier with
  | nil => simp [scanKeys, returnedKeys]
  | cons reply earlier ih =>
      obtain ⟨cursor, batch⟩ := reply
      have hcursor : cursor ≠ 0 := h (cursor, batch) List.mem_cons_self
      have htail := ih (fun r hr => h r (List.mem_cons_of_mem _ hr))
      rw [List.cons_append, scanKeys, if_neg hcursor, htail]
      rfl

theorem Iteration.scanKeys_eq (h : ks.Iteration isMatch replies) :
    scanKeys replies = some (returnedKeys replies) := by
  obtain ⟨earlier, last, rfl, hne⟩ := h.ends
  exact scanKeys_of_ends last hne

theorem Iteration.mem_returnedKeys (h : ks.Iteration isMatch replies) (key : RedisKey) :
    key ∈ returnedKeys replies ↔ (ks.value key).isSome = true ∧ isMatch key = true := by
  rw [returnedKeys, List.mem_flatMap]
  exact h.returned key

/-- The sessions of session keys are collected without an error. -/
theorem collectSessions_eq (wanted : SessionInfo → Bool) (hkeys : ∀ key ∈ keys, ∃ id, key = .session id) :
    ks.collectSessions wanted keys = .ok (keys.filterMap (ks.sessionAt wanted)) := by
  induction keys with
  | nil => rfl
  | cons key keys ih =>
      obtain ⟨id, rfl⟩ := hkeys _ List.mem_cons_self
      have htail := ih (fun k hk => hkeys k (List.mem_cons_of_mem _ hk))
      rw [collectSessions, htail, List.filterMap_cons]
      cases hl : ks.sessions.lookup id with
      | none => simp [getSession, sessionAt, value, hl, bind, Except.bind, pure, Except.pure]
      | some session =>
          cases hf : session.filter wanted <;>
            simp [getSession, sessionAt, value, hl, hf, bind, Except.bind, pure, Except.pure]

/-- The counters of server keys are added up without an error. -/
theorem sumCounts_eq {total : ℕ} (hkeys : ∀ key ∈ keys, ∃ s, key = .serverConnections s)
    (hfit : total < 2 ^ 64) :
    ks.sumCounts total keys = .ok ((total + (keys.map ks.connectionsAt).sum) % 2 ^ 64) := by
  induction keys generalizing total with
  | nil => rw [sumCounts, List.map_nil, List.sum_nil, Nat.add_zero, Nat.mod_eq_of_lt hfit]
  | cons key keys ih =>
      obtain ⟨s, rfl⟩ := hkeys _ List.mem_cons_self
      have htail : ∀ total < 2 ^ 64,
          ks.sumCounts total keys = .ok ((total + (keys.map ks.connectionsAt).sum) % 2 ^ 64) :=
        fun total hfit => ih (fun k hk => hkeys k (List.mem_cons_of_mem _ hk)) hfit
      rw [List.map_cons, List.sum_cons, sumCounts]
      cases hl : ks.counters.lookup s with
      | none =>
          have hzero : ks.connectionsAt (.serverConnections s) = 0 := by simp [connectionsAt, value, hl]
          rw [hzero, Nat.zero_add]
          simpa [getCount, value, hl, bind, Except.bind] using htail total hfit
      | some n =>
          have hadd : ks.connectionsAt (.serverConnections s) = n.toNat := by simp [connectionsAt, value, hl]
          rw [hadd]
          by_cases hn : n > 0
          · have hsum := htail _ (Nat.mod_lt (total + n.toNat) (by decide : 0 < 2 ^ 64))
            rw [Nat.mod_add_mod, Nat.add_assoc] at hsum
            rw [← hsum]
            simp only [getCount, value, hl, Option.map_some, bind, Except.bind, if_pos hn]
          · have hzero : n.toNat = 0 := by omega
            rw [hzero, Nat.zero_add]
            simpa [getCount, value, hl, bind, Except.bind, hn] using htail total hfit

end loops

/-! ### Patterns -/

/-- A text without special characters of a glob pattern. -/
def literal (text : String) : Bool := text.toList.all (fun c => decide (c ∉ ['*', '?', '[', '\\']))

/-- A matcher of glob patterns: a text followed by a star matches what begins with the text. -/
def MatchesStar (glob : String → String → Bool) : Prop :=
  ∀ text key, literal text = true → (glob (text ++ "*") key = true ↔ text.toList <+: key.toList)

section patterns
variable (glob : String → String → Bool) (uuidText : Uuid → String) (sessionPrefix : String)

/-- A session key by its pattern. -/
def matchesSession (key : RedisKey) : Bool :=
  glob (sessionPrefix ++ ":conn:" ++ "*") (key.text uuidText sessionPrefix)

/-- A server key by its pattern. -/
def matchesServer (key : RedisKey) : Bool :=
  glob (sessionPrefix ++ ":server:" ++ "*") (key.text uuidText sessionPrefix)

variable {glob sessionPrefix} {uuidText}

theorem literal_append {text text' : String} (h : literal text = true) (h' : literal text' = true) :
    literal (text ++ text') = true := by
  unfold literal at h h' ⊢
  rw [String.toList_append, List.all_append, h, h']
  rfl

theorem prefix_text_iff (part : String) (key : RedisKey) :
    (sessionPrefix ++ part).toList <+: (key.text uuidText sessionPrefix).toList ↔
      part.toList <+: (key.suffix uuidText).toList := by
  rw [RedisKey.text, String.toList_append, String.toList_append, List.prefix_append_right_inj]

/-- The pattern of sessions matches the session keys. -/
theorem matchesSession_iff (hglob : MatchesStar glob) (hlit : literal sessionPrefix = true) (key : RedisKey) :
    matchesSession glob uuidText sessionPrefix key = true ↔ ∃ id, key = .session id := by
  rw [matchesSession, hglob _ _ (literal_append hlit (by decide)), prefix_text_iff]
  cases key <;> simp [RedisKey.suffix]

/-- The pattern of servers matches the counters. -/
theorem matchesServer_iff (hglob : MatchesStar glob) (hlit : literal sessionPrefix = true) (key : RedisKey) :
    matchesServer glob uuidText sessionPrefix key = true ↔ ∃ s, key = .serverConnections s := by
  rw [matchesServer, hglob _ _ (literal_append hlit (by decide)), prefix_text_iff]
  cases key <;> simp [RedisKey.suffix]

end patterns

/-! ### The queries count once -/

section queries
variable {ks} {glob : String → String → Bool} {uuidText : Uuid → String} {sessionPrefix : String}
  {replies : List ScanReply}

/-- The keys of one kind that are stored. -/
theorem mem_storedKeys_iff {κ ν : Type} [DecidableEq κ] {m : DashMap κ ν} {f : κ → RedisKey} {g : ν → KeyValue}
    (hvalue : ∀ k, ks.value (f k) = (m.lookup k).map g) (key : RedisKey) :
    ((ks.value key).isSome = true ∧ ∃ k, key = f k) ↔ key ∈ m.keys.map f := by
  rw [List.mem_map]
  constructor
  · rintro ⟨hsome, k, rfl⟩
    rw [hvalue, Option.isSome_map, AList.lookup_isSome] at hsome
    exact ⟨k, AList.mem_keys.mp hsome, rfl⟩
  · rintro ⟨k, hk, rfl⟩
    rw [hvalue, Option.isSome_map, AList.lookup_isSome]
    exact ⟨AList.mem_keys.mpr hk, k, rfl⟩

/-- An iteration enumerates the stored keys that match. -/
theorem iteration_iff {isMatch : RedisKey → Bool} {stored : List RedisKey}
    (hstored : ∀ key, ((ks.value key).isSome = true ∧ isMatch key = true) ↔ key ∈ stored) :
    ks.Iteration isMatch replies ↔ Ends replies ∧ Enumeration.Enumerates (returnedKeys replies) stored := by
  constructor
  · intro h
    refine ⟨h.ends, fun key => ?_⟩
    rw [h.mem_returnedKeys, hstored]
  · rintro ⟨hends, henum⟩
    refine ⟨hends, fun key => ?_⟩
    rw [hstored, ← henum key, returnedKeys, List.mem_flatMap]

/-- An iteration over sessions enumerates the stored sessions. -/
theorem iteration_sessions_iff (hglob : MatchesStar glob) (hlit : literal sessionPrefix = true) :
    ks.Iteration (matchesSession glob uuidText sessionPrefix) replies ↔
      Ends replies ∧ Enumeration.Enumerates (returnedKeys replies) (ks.sessions.keys.map .session) := by
  refine iteration_iff (fun key => ?_)
  rw [matchesSession_iff hglob hlit]
  exact mem_storedKeys_iff (fun _ => rfl) key

/-- An iteration over servers enumerates the stored counters. -/
theorem iteration_servers_iff (hglob : MatchesStar glob) (hlit : literal sessionPrefix = true) :
    ks.Iteration (matchesServer glob uuidText sessionPrefix) replies ↔
      Ends replies ∧
        Enumeration.Enumerates (returnedKeys replies) (ks.counters.keys.map .serverConnections) := by
  refine iteration_iff (fun key => ?_)
  rw [matchesServer_iff hglob hlit]
  exact mem_storedKeys_iff (fun _ => rfl) key

theorem nodup_sessionKeys (ks : Keyspace) : (ks.sessions.keys.map RedisKey.session).Nodup :=
  ks.sessions.keys_nodup.map (fun _ _ heq => RedisKey.session.inj heq)

theorem nodup_serverKeys (ks : Keyspace) : (ks.counters.keys.map RedisKey.serverConnections).Nodup :=
  ks.counters.keys_nodup.map (fun _ _ heq => RedisKey.serverConnections.inj heq)

/-- A query for sessions returns what its iteration returns. -/
theorem returnsOnce_iff (hglob : MatchesStar glob) (hlit : literal sessionPrefix = true)
    (h : ks.Iteration (matchesSession glob uuidText sessionPrefix) replies) (wanted : SessionInfo → Bool) :
    ks.ReturnsOnce wanted ((scanKeys replies).map (fun keys =>
        if keys.isEmpty then .ok [] else ks.collectSessions wanted keys)) ↔
      NotTwice (fun key => (ks.sessionAt wanted key).isSome) replies := by
  have henum := ((iteration_sessions_iff hglob hlit).mp h).2
  have hkeys : ∀ key ∈ returnedKeys replies, ∃ id, key = .session id := by
    intro key hkey
    obtain ⟨id, -, rfl⟩ := List.mem_map.mp ((henum key).mp hkey)
    exact ⟨id, rfl⟩
  have hresult : (scanKeys replies).map (fun keys =>
      if keys.isEmpty then .ok [] else ks.collectSessions wanted keys) =
      some (.ok ((returnedKeys replies).filterMap (ks.sessionAt wanted))) := by
    rw [h.scanKeys_eq, Option.map_some, collectSessions_eq wanted hkeys]
    split_ifs with hempty
    · rw [List.isEmpty_iff.mp hempty]
      rfl
    · rfl
  rw [hresult, NotTwice, ← Enumeration.filterMap_perm_iff henum ks.nodup_sessionKeys]
  constructor
  · rintro ⟨sessions, ⟨⟩, hperm⟩
    exact hperm
  · exact fun hperm => ⟨_, rfl, hperm⟩

/-- The number of connections is what its iteration adds up. -/
theorem clusterConnectionCount_iff (hglob : MatchesStar glob) (hlit : literal sessionPrefix = true)
    (h : ks.Iteration (matchesServer glob uuidText sessionPrefix) replies) :
    ks.clusterConnectionCount replies = some (.ok ks.storedConnections) ↔
      ks.storedConnections < 2 ^ 64 ∧ 2 ^ 64 ∣ ks.repeatedConnections replies := by
  have henum := ((iteration_servers_iff hglob hlit).mp h).2
  have hkeys : ∀ key ∈ returnedKeys replies, ∃ s, key = .serverConnections s := by
    intro key hkey
    obtain ⟨s, -, rfl⟩ := List.mem_map.mp ((henum key).mp hkey)
    exact ⟨s, rfl⟩
  have hsum : ((returnedKeys replies).map ks.connectionsAt).sum =
      ks.storedConnections + ks.repeatedConnections replies :=
    Enumeration.sum_eq_add_repeats henum ks.nodup_serverKeys ks.connectionsAt
  have hresult : ks.clusterConnectionCount replies =
      some (.ok ((ks.storedConnections + ks.repeatedConnections replies) % 2 ^ 64)) := by
    rw [clusterConnectionCount, h.scanKeys_eq, Option.map_some, sumCounts_eq hkeys (by decide), Nat.zero_add,
      ← hsum]
    split_ifs with hempty
    · rw [List.isEmpty_iff.mp hempty]
      rfl
    · rfl
  rw [hresult, Option.some.injEq, Except.ok.injEq]
  omega

/-- Where nothing overflows, the copies of counters vanish only when no positive counter is
returned twice. -/
theorem dvd_repeatedConnections_iff (hglob : MatchesStar glob) (hlit : literal sessionPrefix = true)
    (h : ks.Iteration (matchesServer glob uuidText sessionPrefix) replies)
    (hfit : ks.repeatedConnections replies < 2 ^ 64) :
    2 ^ 64 ∣ ks.repeatedConnections replies ↔
      NotTwice (fun key => decide (0 < ks.connectionsAt key)) replies := by
  have hzero := Enumeration.sum_repeats_eq_zero_iff ((iteration_servers_iff hglob hlit).mp h).2
    ks.nodup_serverKeys ks.connectionsAt
  rw [NotTwice, ← hzero]
  unfold repeatedConnections at hfit ⊢
  omega

/-- **Every session and every counter is counted once exactly when no session is returned twice
that contributes, and the sum of the counters neither overflows nor has a copy too many.** -/
theorem queries_once_iff (hglob : MatchesStar glob) (hlit : literal sessionPrefix = true) (ks : Keyspace)
    (userId : String) {allReplies userReplies serverReplies : List ScanReply}
    (hall : ks.Iteration (matchesSession glob uuidText sessionPrefix) allReplies)
    (huser : ks.Iteration (matchesSession glob uuidText sessionPrefix) userReplies)
    (hserver : ks.Iteration (matchesServer glob uuidText sessionPrefix) serverReplies) :
    (ks.ReturnsOnce (fun _ => true) (ks.getAllSessions allReplies) ∧
      ks.ReturnsOnce (fun session => decide (session.userId = userId)) (ks.getUserSessions userId userReplies) ∧
      ks.clusterConnectionCount serverReplies = some (.ok ks.storedConnections)) ↔
    (NotTwice (fun key => (ks.sessionAt (fun _ => true) key).isSome) allReplies ∧
      NotTwice (fun key => (ks.sessionAt (fun session => decide (session.userId = userId)) key).isSome)
        userReplies ∧
      ks.storedConnections < 2 ^ 64 ∧ 2 ^ 64 ∣ ks.repeatedConnections serverReplies) :=
  and_congr (returnsOnce_iff hglob hlit hall _)
    (and_congr (returnsOnce_iff hglob hlit huser _)
      (clusterConnectionCount_iff hglob hlit hserver))

end queries

/-- A matcher for patterns that end in a star. -/
def starGlob (pattern key : String) : Bool := pattern.toList.dropLast.isPrefixOf key.toList

theorem starGlob_matchesStar : MatchesStar starGlob := by
  intro text key _
  rw [starGlob, String.toList_append, List.isPrefixOf_iff_prefix]
  simp

/-- One session on one server. -/
def single : Keyspace :=
  ⟨AList.singleton 7 (some ⟨7, "u", "t", "s", 0, []⟩), AList.singleton "s" 1, []⟩

theorem single_session {replies : List ScanReply} (hends : Ends replies)
    (h : ∀ key, key ∈ returnedKeys replies ↔ key = .session 7) :
    single.Iteration (matchesSession starGlob toString "ara") replies :=
  (iteration_sessions_iff starGlob_matchesStar (by decide)).mpr ⟨hends, fun key => by simp [h, single]⟩

theorem single_server {replies : List ScanReply} (hends : Ends replies)
    (h : ∀ key, key ∈ returnedKeys replies ↔ key = .serverConnections "s") :
    single.Iteration (matchesServer starGlob toString "ara") replies :=
  (iteration_servers_iff starGlob_matchesStar (by decide)).mpr ⟨hends, fun key => by simp [h, single]⟩

/-- Every key is returned once, in the second batch. -/
theorem queries_once_single :
    single.ReturnsOnce (fun _ => true) (single.getAllSessions [(5, []), (0, [.session 7])]) ∧
      single.ReturnsOnce (fun session => decide (session.userId = "u"))
        (single.getUserSessions "u" [(5, []), (0, [.session 7])]) ∧
      single.clusterConnectionCount [(5, []), (0, [.serverConnections "s"])] =
        some (.ok single.storedConnections) :=
  (queries_once_iff starGlob_matchesStar (by decide) single "u"
    (single_session ⟨[(5, [])], _, rfl, by decide⟩ (by simp [returnedKeys]))
    (single_session ⟨[(5, [])], _, rfl, by decide⟩ (by simp [returnedKeys]))
    (single_server ⟨[(5, [])], _, rfl, by decide⟩ (by simp [returnedKeys]))).mpr
    ⟨by decide, by decide, by decide, by decide⟩

/-- A session whose key is returned twice is there twice. -/
theorem session_returned_twice :
    ¬ ∀ (glob : String → String → Bool) (uuidText : Uuid → String) (sessionPrefix : String) (ks : Keyspace)
      (replies : List ScanReply), MatchesStar glob → literal sessionPrefix = true →
      ks.Iteration (matchesSession glob uuidText sessionPrefix) replies →
      ks.ReturnsOnce (fun _ => true) (ks.getAllSessions replies) := by
  intro h
  obtain ⟨sessions, hsessions, hperm⟩ := h starGlob toString "ara" single
    [(5, [.session 7]), (0, [.session 7])] starGlob_matchesStar (by decide)
    (single_session ⟨[(5, [.session 7])], _, rfl, by decide⟩ (by simp [returnedKeys]))
  have hlen : single.getAllSessions [(5, [.session 7]), (0, [.session 7])] =
      some (.ok [⟨7, "u", "t", "s", 0, []⟩, ⟨7, "u", "t", "s", 0, []⟩]) := by rfl
  rw [hlen] at hsessions
  cases hsessions
  exact absurd hperm.length_eq (by decide)

end Keyspace

end AraNotification
