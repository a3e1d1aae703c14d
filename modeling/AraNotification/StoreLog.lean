import AraNotification.PostgresRace
import AraNotification.QueueLog
import AraNotification.RedisRace

/-! # The persistent queues as logs

The in-memory queue returns the unexpired ones of the last `maxQueueSizePerUser` messages
enqueued for a user, in their order.  Here the same calls, one after the other, are made to
the two persistent backends.

A Redis stream is trimmed approximately, which bounds it in practice but may leave more than
the last messages: a drain returns the unexpired ones of the last `M` messages for some
`M ≥ maxQueueSizePerUser`, in order.  The PostgreSQL table holds exactly the last messages,
but the statement that fetches them does not ask for an order, and the rows come in any.
`persistent_queues_log` states both, and `neither_is_exact` that the two differences occur. -/

namespace AraNotification

open BoundedLog

/-- Clock readings increase from call to call, and `t` is later than all. -/
def Increasing (calls : List QueueCall) (t : DateTime) : Prop :=
  (calls.map QueueCall.now ++ [t]).Pairwise (· < ·)

instance (calls : List QueueCall) (t : DateTime) : Decidable (Increasing calls t) :=
  inferInstanceAs (Decidable (List.Pairwise _ _))

theorem increasing_concat {calls : List QueueCall} {c : QueueCall} {t : DateTime}
    (h : Increasing (calls ++ [c]) t) : Increasing calls c.now ∧ c.now < t := by
  rw [Increasing, List.map_append, List.map_singleton, List.pairwise_append] at h
  exact ⟨h.1, h.2.2 c.now (by simp) t List.mem_cons_self⟩

/-! ### Redis -/

section redis
variable {b : RedisQueueBackend} {store store' : RedisStore} {calls : List QueueCall}

/-- Calls that succeed, one after the other, and the streams they produce.  Every message that
is enqueued can be read back. -/
inductive RedisRun (b : RedisQueueBackend) : List QueueCall → RedisStore → Prop
  | empty : RedisRun b [] ⟨∅⟩
  | enqueue {calls : List QueueCall} {store store' : RedisStore} {userId : String} {id : Uuid}
      {now : DateTime} {event : NotificationEvent} (entryId : String) (trim : ℕ) :
      RedisRun b calls store → b.serde.Reads (.new id now event) →
      b.enqueue store userId (.new id now event) entryId trim none = (.ok (), store') →
      RedisRun b (calls ++ [.enqueue userId id now event]) store'
  | drain {calls : List QueueCall} {store : RedisStore} (userId : String) (now : DateTime) :
      RedisRun b calls store →
      RedisRun b (calls ++ [.drain userId now]) (b.drain store userId now none none).2

theorem queueKey_inj {userId userId' : String} :
    b.queueKey userId = b.queueKey userId' ↔ userId = userId' := by
  rw [RedisQueueBackend.queueKey, RedisQueueBackend.queueKey, ← String.toList_inj]
  simp [String.toList_inj]

/-- All entries hold messages, which are a last part of the log and at least the last ones. -/
structure Streamed (b : RedisQueueBackend) (log : List StoredMessage) (entries : List StreamEntry) :
    Prop where
  readable : ∀ e ∈ entries, ∃ m, b.parse e = some m
  suffix : b.messagesIn entries <:+ log
  enough : min b.config.maxQueueSizePerUser log.length ≤ (b.messagesIn entries).length

theorem length_messagesIn {entries : List StreamEntry} (h : ∀ e ∈ entries, ∃ m, b.parse e = some m) :
    (b.messagesIn entries).length = entries.length := by
  induction entries with
  | nil => rfl
  | cons e entries ih =>
      obtain ⟨m, hm⟩ := h e List.mem_cons_self
      rw [RedisQueueBackend.messagesIn_cons hm, List.length_cons, List.length_cons,
        ih (fun e' he' => h e' (List.mem_cons_of_mem e he'))]

theorem messagesIn_drop {entries : List StreamEntry} (h : ∀ e ∈ entries, ∃ m, b.parse e = some m)
    (k : ℕ) : b.messagesIn (entries.drop k) = (b.messagesIn entries).drop k := by
  induction entries generalizing k with
  | nil => simp [RedisQueueBackend.messagesIn]
  | cons e entries ih =>
      obtain ⟨m, hm⟩ := h e List.mem_cons_self
      cases k with
      | zero => rfl
      | succ k =>
          rw [RedisQueueBackend.messagesIn_cons hm, List.drop_succ_cons, List.drop_succ_cons]
          exact ih (fun e' he' => h e' (List.mem_cons_of_mem e he')) k

/-- An append with trimming that leaves at least the last entries. -/
theorem Streamed.push {log : List StoredMessage} {entries : List StreamEntry} {e : StreamEntry}
    {m : StoredMessage} (h : Streamed b log entries) (he : b.parse e = some m) (trim : ℕ) :
    Streamed b (log ++ [m])
      ((entries ++ [e]).drop (min trim (entries.length + 1 - b.config.maxQueueSizePerUser))) := by
  have hreadable : ∀ e' ∈ entries ++ [e], ∃ m, b.parse e' = some m := by
    intro e' he'
    rw [List.mem_append, List.mem_singleton] at he'
    rcases he' with he' | rfl
    · exact h.readable e' he'
    · exact ⟨m, he⟩
  have happend := RedisQueueBackend.messagesIn_concat he entries
  have henough := h.enough
  have hlen := length_messagesIn h.readable
  refine ⟨fun e' he' => hreadable e' (List.mem_of_mem_drop he'), ?_, ?_⟩
  · rw [messagesIn_drop hreadable, happend]
    exact (List.drop_suffix _ _).trans ((List.suffix_append_self_iff).mpr h.suffix)
  · rw [messagesIn_drop hreadable, happend, List.length_drop, List.length_append, List.length_append,
      List.length_singleton]
    omega

theorem enqueue_ok {userId : String} {m : StoredMessage} {entryId : String} {trim : ℕ}
    (h : b.enqueue store userId m entryId trim none = (.ok (), store')) :
    ∃ text, b.serde.write m = some text ∧
      store' = store.xaddMaxlen (b.queueKey userId) b.config.maxQueueSizePerUser trim
        (RedisQueueBackend.entry entryId text) := by
  unfold RedisQueueBackend.enqueue at h
  by_cases he : b.config.enabled = true
  · rw [if_pos he] at h
    cases htext : b.serde.write m with
    | none =>
        rw [htext] at h
        cases h
    | some text =>
        rw [htext] at h
        cases h
        exact ⟨text, rfl, rfl⟩
  · rw [if_neg he] at h
    cases h

/-- With no failure a drain returns the unexpired messages of the stream. -/
theorem drain_ok (he : b.config.enabled = true) (store : RedisStore) (userId : String) (now : DateTime) :
    ∃ r, (b.drain store userId now none none).1 = .ok r ∧
      r.messages = (b.messagesIn (store.xrangeAll (b.queueKey userId))).filter
        (fun m => !m.isExpired now b.config.messageTtlSeconds) := by
  unfold RedisQueueBackend.drain
  rw [if_pos he]
  simp only
  split_ifs with hempty hfound
  · refine ⟨_, rfl, ?_⟩
    rw [List.isEmpty_iff.mp hempty]
    rfl
  · exact ⟨_, rfl, rfl⟩
  · exact ⟨_, rfl, rfl⟩

/-- A drain leaves the stream of its user empty and the others as they are. -/
theorem xrangeAll_drain (he : b.config.enabled = true) {userId : String} (now : DateTime)
    (hreadable : ∀ e ∈ store.xrangeAll (b.queueKey userId), ∃ m, b.parse e = some m) (key : String) :
    (b.drain store userId now none none).2.xrangeAll key =
      if key = b.queueKey userId then [] else store.xrangeAll key := by
  unfold RedisQueueBackend.drain
  rw [if_pos he]
  simp only
  by_cases hempty : (store.xrangeAll (b.queueKey userId)).isEmpty = true
  · rw [if_pos hempty]
    split_ifs with hkey
    · rw [hkey]
      exact List.isEmpty_iff.mp hempty
    · rfl
  · have hfound : RedisQueueBackend.found (b.sift (store.xrangeAll (b.queueKey userId)) now) = true := by
      have hlen := length_messagesIn hreadable
      rw [RedisQueueBackend.found_sift, Bool.not_eq_true', List.isEmpty_eq_false_iff,
        ← List.length_pos_iff, hlen, List.length_pos_iff]
      simpa using hempty
    rw [if_neg hempty, if_pos hfound]
    exact RedisStore.xrangeAll_del key

/-- After every run the stream of every user is a last part of the log. -/
theorem RedisRun.streamed (he : b.config.enabled = true) (h : RedisRun b calls store) (userId : String) :
    Streamed b (pending userId calls) (store.xrangeAll (b.queueKey userId)) := by
  induction h generalizing userId with
  | empty => exact ⟨fun _ h => absurd h List.not_mem_nil, List.suffix_refl _, Nat.min_le_right _ _⟩
  | @enqueue calls store store' user id now event entryId trim _ hreads hok ih =>
      obtain ⟨text, hwrite, rfl⟩ := enqueue_ok hok
      rw [pending_concat, QueueCall.record, RedisStore.xrangeAll_xaddMaxlen]
      by_cases huser : user = userId
      · subst huser
        rw [if_pos rfl, if_pos rfl]
        exact (ih user).push (RedisQueueBackend.parse_entry hreads hwrite entryId) trim
      · rw [if_neg huser, if_neg (fun hkey => huser (queueKey_inj.mp hkey).symm)]
        exact ih userId
  | @drain calls store user now _ ih =>
      rw [pending_concat, QueueCall.record, xrangeAll_drain he now (ih user).readable]
      by_cases huser : user = userId
      · rw [if_pos huser, if_pos (queueKey_inj.mpr huser.symm)]
        exact ⟨fun _ h => absurd h List.not_mem_nil, List.suffix_refl _, Nat.min_le_right _ _⟩
      · rw [if_neg huser, if_neg (fun hkey => huser (queueKey_inj.mp hkey).symm)]
        exact ih userId

/-- A drain returns the unexpired ones of the last messages, possibly of more than the bound. -/
theorem redis_drained (he : b.config.enabled = true) (h : RedisRun b calls store) (userId : String)
    (t : DateTime) :
    ∃ r M, b.config.maxQueueSizePerUser ≤ M ∧ (b.drain store userId t none none).1 = .ok r ∧
      r.messages = ((pending userId calls).rtake M).filter
        (fun m => !m.isExpired t b.config.messageTtlSeconds) := by
  have hstream := h.streamed he userId
  obtain ⟨M, hM, hwindow⟩ := exists_rtake_of_suffix hstream.suffix hstream.enough
  obtain ⟨r, hr, hmessages⟩ := drain_ok he store userId t
  refine ⟨r, M, hM, hr, ?_⟩
  rw [hmessages, hwindow]

end redis

/-! ### PostgreSQL -/

section postgres
variable {b : PostgresQueueBackend} {table table' : Table} {calls : List QueueCall} {t : DateTime}

/-- Calls that succeed, one after the other, and the table they produce.  Every event that is
enqueued can be read back, and identifiers of rows are not used twice. -/
inductive PostgresRun (b : PostgresQueueBackend) : List QueueCall → Table → Prop
  | empty : PostgresRun b [] []
  | enqueue {calls : List QueueCall} {table table' : Table} {userId : String} {id : Uuid}
      {now : DateTime} {event : NotificationEvent} (pick : Uuid) :
      PostgresRun b calls table → b.serde.Reads event → (∀ r ∈ table, r.id ≠ id) →
      b.enqueue table userId id event now pick false = some (.ok (), table') →
      PostgresRun b (calls ++ [.enqueue userId id now event]) table'
  | drain {calls : List QueueCall} {table : Table} (userId : String) (now : DateTime) (order : RowOrder) :
      PostgresRun b calls table →
      PostgresRun b (calls ++ [.drain userId now]) (b.drain table userId order now now false false).2

/-- The row holds the message and expires when the message does. -/
structure Represents (b : PostgresQueueBackend) (r : Row) (m : StoredMessage) : Prop where
  message : b.toMessage r = some m
  queuedAt : m.queuedAt = r.queuedAt
  expiresAt : b.expiresAt r.queuedAt = some r.expiresAt

/-- The two checks of expiry agree from the moment on at which the message was queued. -/
theorem Represents.live_eq {r : Row} {m : StoredMessage} (h : Represents b r m) (ht : r.queuedAt ≤ t) :
    decide (r.expiresAt > t) = !m.isExpired t b.config.messageTtlSeconds := by
  obtain ⟨d, hd, hexpires⟩ := Option.map_eq_some_iff.mp h.expiresAt
  have hseconds : d = asI64 b.config.messageTtlSeconds * nanosPerSecond := by
    unfold Duration.seconds at hd
    split_ifs at hd
    exact (Option.some.inj hd).symm
  have hage : (0 : ℤ) ≤ t - m.queuedAt := by
    rw [h.queuedAt]
    exact sub_nonneg.mpr ht
  rw [Bool.eq_iff_iff, decide_eq_true_eq, Bool.not_eq_true', StoredMessage.isExpired,
    decide_eq_false_iff_not, ge_iff_le, Duration.le_numSeconds_iff hage, ← hseconds, ← hexpires,
    h.queuedAt, gt_iff_lt, not_le]
  constructor <;> intro hlt
  · exact sub_left_lt_of_lt_add hlt
  · exact lt_add_of_sub_left_lt hlt

/-- Rows are in the order of their times, which are past, with different identifiers, and those
of every user represent the last messages of the log. -/
structure Tabled (b : PostgresQueueBackend) (t : DateTime) (calls : List QueueCall) (table : Table) :
    Prop where
  past : ∀ r ∈ table, r.queuedAt < t
  sorted : table.Pairwise (fun r r' => r.queuedAt < r'.queuedAt)
  ids : (table.map Row.id).Nodup
  logged : ∀ userId, List.Forall₂ (Represents b) (table.rowsOf b.tenantId userId)
    ((pending userId calls).rtake b.config.maxQueueSizePerUser)

section rows
variable {userId : String} {rows : List Row}

/-- Of rows with different times only the first can be picked as the oldest. -/
theorem mayPick_cons {r : Row} {pick : Uuid}
    (hsorted : (r :: rows).Pairwise (fun r r' => r.queuedAt < r'.queuedAt))
    (h : Table.mayPick (r :: rows) pick = true) : pick = r.id := by
  obtain ⟨r', hr', hpick⟩ := List.any_eq_true.mp h
  rw [Bool.and_eq_true, beq_iff_eq, List.all_eq_true] at hpick
  obtain ⟨hid, hold⟩ := hpick
  rw [← hid]
  rcases List.mem_cons.mp hr' with rfl | hmem
  · rfl
  · have hlt := (List.pairwise_cons.mp hsorted).1 r' hmem
    have hle := of_decide_eq_true (hold r List.mem_cons_self)
    exact absurd hlt (not_lt.mpr hle)

/-- The rows of a user that remain after the selected one is deleted. -/
theorem filter_select (hids : (rows.map Row.id).Nodup)
    (hsorted : rows.Pairwise (fun r r' => r.queuedAt < r'.queuedAt)) {N : ℕ}
    {pick : Uuid} {victim : Option Uuid} (h : Table.select rows N pick = some victim) :
    rows.filter (fun r => decide (some r.id ≠ victim)) = if rows.length ≥ N then rows.tail else rows := by
  unfold Table.select at h
  cases rows with
  | nil => simp
  | cons r rows =>
      by_cases hfull : (r :: rows).length ≥ N
      · rw [if_pos ⟨by exact_mod_cast hfull, List.cons_ne_nil r rows⟩] at h
        split_ifs at h with hpick
        rw [if_pos hfull, List.tail_cons, ← Option.some.inj h, mayPick_cons hsorted hpick,
          List.filter_cons_of_neg (by simp), List.filter_eq_self]
        intro r' hr'
        rw [List.map_cons, List.nodup_cons] at hids
        have hne : r'.id ≠ r.id := fun heq => hids.1 (heq ▸ List.mem_map_of_mem hr')
        simpa using hne
      · rw [if_neg (fun hc => hfull (by exact_mod_cast hc.1))] at h
        rw [if_neg hfull, ← Option.some.inj h]
        simp

/-- Deleting a row of one user leaves the rows of the others. -/
theorem filter_select_of_ne (hids : (table.map Row.id).Nodup) {user : String} (hne : user ≠ userId)
    {bound : ℤ} {pick : Uuid} {victim : Option Uuid}
    (h : Table.select (table.rowsOf b.tenantId user) bound pick = some victim) :
    (table.rowsOf b.tenantId userId).filter (fun r => decide (some r.id ≠ victim)) =
      table.rowsOf b.tenantId userId := by
  rw [List.filter_eq_self]
  intro r hr
  rw [decide_eq_true_eq]
  intro hvictim
  rw [← hvictim] at h
  obtain ⟨r', hr', hid⟩ := Table.mem_of_select h
  obtain ⟨hmem, hfor⟩ := List.mem_filter.mp hr
  obtain ⟨hmem', hfor'⟩ := List.mem_filter.mp hr'
  obtain rfl : r' = r := List.inj_on_of_nodup_map hids hmem' hmem hid
  have h₁ := of_decide_eq_true hfor
  have h₂ := of_decide_eq_true hfor'
  exact hne (h₂.2.symm.trans h₁.2)

end rows

/-- What a successful enqueue has done. -/
theorem postgres_enqueue_ok {userId : String} {id : Uuid} {event : NotificationEvent} {now : DateTime}
    {pick : Uuid} (h : b.enqueue table userId id event now pick false = some (.ok (), table')) :
    ∃ expiresAt data victim, b.expiresAt now = some expiresAt ∧ b.serde.write event = some data ∧
      Table.select (table.rowsOf b.tenantId userId) (asI64 b.config.maxQueueSizePerUser) pick =
        some victim ∧
      table' = table.commit victim (b.newRow userId id data now expiresAt) := by
  unfold PostgresQueueBackend.enqueue at h
  by_cases he : b.config.enabled = true
  · rw [if_pos he] at h
    obtain ⟨expiresAt, hexpires, h⟩ := Option.bind_eq_some_iff.mp h
    cases hdata : b.serde.write event with
    | none =>
        rw [hdata] at h
        cases h
    | some data =>
        rw [hdata] at h
        obtain ⟨victim, hvictim, heq⟩ := Option.map_eq_some_iff.mp h
        cases heq
        exact ⟨expiresAt, data, victim, hexpires, rfl, hvictim, rfl⟩
  · rw [if_neg he] at h
    cases h

/-- The row of an enqueue represents its message. -/
theorem represents_newRow {userId : String} {id : Uuid} {event : NotificationEvent} {data : Json}
    {now expiresAt : DateTime} (hreads : b.serde.Reads event) (hdata : b.serde.write event = some data)
    (hexpires : b.expiresAt now = some expiresAt) :
    Represents b (b.newRow userId id data now expiresAt) (.new id now event) := by
  refine ⟨?_, rfl, hexpires⟩
  rw [Serde.Reads, hdata] at hreads
  have hread : b.serde.read data = some event := hreads
  rw [PostgresQueueBackend.toMessage, PostgresQueueBackend.newRow, hread]
  rfl

/-- An enqueue keeps the table a log. -/
theorem Tabled.enqueue {now : DateTime} {userId : String} {id : Uuid} {event : NotificationEvent}
    {pick : Uuid} (h : Tabled b now calls table) (hN : 1 ≤ b.config.maxQueueSizePerUser)
    (hN' : b.config.maxQueueSizePerUser < 2 ^ 63) (ht : now < t) (hreads : b.serde.Reads event)
    (hfresh : ∀ r ∈ table, r.id ≠ id)
    (hok : b.enqueue table userId id event now pick false = some (.ok (), table')) :
    Tabled b t (calls ++ [.enqueue userId id now event]) table' := by
  obtain ⟨expiresAt, data, victim, hexpires, hdata, hvictim, rfl⟩ := postgres_enqueue_ok hok
  rw [asI64_of_lt hN'] at hvictim
  have hkept : (table.filter (fun r => decide (some r.id ≠ victim))).Sublist table := List.filter_sublist
  refine ⟨?_, ?_, ?_, fun user => ?_⟩
  · intro r hr
    rw [Table.commit, List.mem_append, List.mem_singleton] at hr
    rcases hr with hr | rfl
    · exact (h.past r (hkept.subset hr)).trans ht
    · exact ht
  · rw [Table.commit, List.pairwise_append]
    refine ⟨h.sorted.sublist hkept, List.pairwise_singleton _ _, fun r hr r' hr' => ?_⟩
    rw [List.mem_singleton.mp hr']
    exact h.past r (hkept.subset hr)
  · rw [Table.commit, List.map_append, List.nodup_append]
    refine ⟨h.ids.sublist (hkept.map Row.id), List.nodup_singleton _, ?_⟩
    intro x hx y hy
    obtain ⟨r, hr, rfl⟩ := List.mem_map.mp hx
    rw [List.map_singleton, List.mem_singleton] at hy
    rw [hy]
    exact hfresh r (hkept.subset hr)
  · rw [pending_concat, QueueCall.record, PostgresRace.rowsOf_commit]
    have hfor : (b.newRow userId id data now expiresAt).isFor b.tenantId user = decide (userId = user) := by
      simp [Row.isFor, PostgresQueueBackend.newRow]
    by_cases huser : userId = user
    · subst huser
      have hsub : (table.rowsOf b.tenantId userId).Sublist table := List.filter_sublist
      have hlog := h.logged userId
      have hlast : Retains b.config.maxQueueSizePerUser (fun _ => false) (pending userId calls)
          ((pending userId calls).rtake b.config.maxQueueSizePerUser) := retains_false_iff.mpr rfl
      have hpush := retains_false_iff.mp (hlast.push hN (.new id now event))
      rw [filter_select (h.ids.sublist (hsub.map Row.id)) (h.sorted.sublist hsub) hvictim, hfor,
        decide_eq_true rfl, if_pos rfl, if_pos rfl, ← hpush, hlog.length_eq]
      refine List.rel_append ?_ (List.Forall₂.cons (represents_newRow hreads hdata hexpires) .nil)
      split_ifs
      · rw [← List.drop_one, ← List.drop_one]
        exact List.forall₂_drop 1 hlog
      · exact hlog
    · rw [filter_select_of_ne h.ids huser hvictim, hfor, decide_eq_false huser, if_neg (by simp),
        if_neg huser, List.append_nil]
      exact h.logged user

/-- A drain without failure removes all rows of its user. -/
theorem drain_table (he : b.config.enabled = true) (userId : String) (order : RowOrder) (now : DateTime) :
    (b.drain table userId order now now false false).2 =
      table.filter (fun r => !r.isFor b.tenantId userId) := by
  rw [PostgresQueueBackend.drain, if_pos he]
  simp only [Bool.false_eq_true, if_false, List.filter_filter]
  refine List.filter_congr (fun r _ => ?_)
  rw [PostgresQueueBackend.isLive, PostgresQueueBackend.isDead]
  by_cases hlive : r.expiresAt > now
  · simp [hlive, not_le.mpr hlive]
  · simp [hlive, not_lt.mp hlive]

theorem rowsOf_filter_isFor (userId user : String) :
    Table.rowsOf (table.filter (fun r => !r.isFor b.tenantId userId)) b.tenantId user =
      if userId = user then [] else table.rowsOf b.tenantId user := by
  rw [Table.rowsOf, List.filter_comm]
  split_ifs with huser
  · subst huser
    rw [List.filter_eq_nil_iff]
    intro r hr
    simpa using (List.mem_filter.mp hr).2
  · rw [Table.rowsOf, List.filter_eq_self]
    intro r hr
    have hfor := of_decide_eq_true (List.mem_filter.mp hr).2
    have hne : r.userId ≠ userId := fun heq => huser (heq.symm.trans hfor.2)
    simp [Row.isFor, hne]

/-- A drain keeps the table a log. -/
theorem Tabled.drain {now : DateTime} (h : Tabled b now calls table) (he : b.config.enabled = true)
    (ht : now < t) (userId : String) (order : RowOrder) :
    Tabled b t (calls ++ [.drain userId now]) (b.drain table userId order now now false false).2 := by
  rw [drain_table he]
  have hkept : (table.filter (fun r => !r.isFor b.tenantId userId)).Sublist table := List.filter_sublist
  refine ⟨fun r hr => (h.past r (hkept.subset hr)).trans ht, h.sorted.sublist hkept,
    h.ids.sublist (hkept.map Row.id), fun user => ?_⟩
  rw [rowsOf_filter_isFor, pending_concat, QueueCall.record]
  split_ifs
  · rw [List.rtake_nil]
    exact .nil
  · exact h.logged user

/-- After every run the table is a log. -/
theorem PostgresRun.tabled (he : b.config.enabled = true) (hN : 1 ≤ b.config.maxQueueSizePerUser)
    (hN' : b.config.maxQueueSizePerUser < 2 ^ 63) (h : PostgresRun b calls table)
    (hc : Increasing calls t) : Tabled b t calls table := by
  induction h generalizing t with
  | empty =>
      refine ⟨fun _ h => absurd h List.not_mem_nil, List.Pairwise.nil, List.nodup_nil, fun userId => ?_⟩
      rw [show pending userId [] = [] from rfl, List.rtake_nil]
      exact .nil
  | enqueue pick _ hreads hfresh hok ih =>
      obtain ⟨hcalls, ht⟩ := increasing_concat hc
      exact (ih hcalls).enqueue hN hN' ht hreads hfresh hok
  | drain userId now order _ ih =>
      obtain ⟨hcalls, ht⟩ := increasing_concat hc
      exact (ih hcalls).drain he ht userId order

/-- The rows that have not expired hold the messages that have not. -/
theorem filterMap_live {rows : List Row} {messages : List StoredMessage}
    (h : List.Forall₂ (Represents b) rows messages) (hpast : ∀ r ∈ rows, r.queuedAt ≤ t) :
    (rows.filter (fun r => decide (r.expiresAt > t))).filterMap b.toMessage =
      messages.filter (fun m => !m.isExpired t b.config.messageTtlSeconds) := by
  induction h with
  | nil => rfl
  | @cons r m rows messages hr _ ih =>
      have hlive := hr.live_eq (hpast r List.mem_cons_self)
      have hrest := ih (fun r' hr' => hpast r' (List.mem_cons_of_mem r hr'))
      rw [List.filter_cons, List.filter_cons, hlive]
      split_ifs
      · rw [List.filterMap_cons, hr.message, hrest]
      · exact hrest

/-- A drain returns exactly the unexpired ones of the last messages, in some order. -/
theorem postgres_drained (he : b.config.enabled = true) (hN : 1 ≤ b.config.maxQueueSizePerUser)
    (hN' : b.config.maxQueueSizePerUser < 2 ^ 63) (h : PostgresRun b calls table)
    (hc : Increasing calls t) (userId : String) (order : RowOrder) :
    ∃ r, (b.drain table userId order t t false false).1 = .ok r ∧
      r.messages.Perm (((pending userId calls).rtake b.config.maxQueueSizePerUser).filter
        (fun m => !m.isExpired t b.config.messageTtlSeconds)) := by
  have htable := h.tabled he hN hN' hc
  have hlive : table.filter (b.isLive userId t) =
      (table.rowsOf b.tenantId userId).filter (fun r => decide (r.expiresAt > t)) := by
    rw [Table.rowsOf, List.filter_filter]
    refine List.filter_congr (fun r _ => ?_)
    rw [PostgresQueueBackend.isLive, Bool.and_comm]
  have hmessages := filterMap_live (htable.logged userId)
    (fun r hr => le_of_lt (htable.past r (List.mem_of_mem_filter hr)))
  rw [PostgresQueueBackend.drain, if_pos he]
  refine ⟨_, rfl, ?_⟩
  rw [← hmessages, ← hlive]
  exact (order.arrange_perm _).filterMap _

end postgres

/-! ### Both backends -/

/-- **A drain of a Redis stream returns, oldest first, the unexpired ones of the last messages
enqueued for the user since the drain before, at least as many of them as the queue is to
hold; a drain of the PostgreSQL table returns, each once, exactly those of the last messages
that the queue is to hold.** -/
theorem persistent_queues_log :
    (∀ (b : RedisQueueBackend) (calls : List QueueCall) (store : RedisStore) (t : DateTime)
        (userId : String), b.config.enabled = true → 1 ≤ b.config.maxQueueSizePerUser →
        RedisRun b calls store → Increasing calls t →
        ∃ r M, b.config.maxQueueSizePerUser ≤ M ∧ (b.drain store userId t none none).1 = .ok r ∧
          r.messages = ((pending userId calls).rtake M).filter
            (fun m => !m.isExpired t b.config.messageTtlSeconds)) ∧
      ∀ (b : PostgresQueueBackend) (calls : List QueueCall) (table : Table) (t : DateTime)
        (userId : String) (order : RowOrder), b.config.enabled = true →
        1 ≤ b.config.maxQueueSizePerUser → b.config.maxQueueSizePerUser < 2 ^ 63 →
        PostgresRun b calls table → Increasing calls t →
        ∃ r, (b.drain table userId order t t false false).1 = .ok r ∧
          r.messages.Perm (((pending userId calls).rtake b.config.maxQueueSizePerUser).filter
            (fun m => !m.isExpired t b.config.messageTtlSeconds)) := by
  refine ⟨fun b calls store t userId he _ h _ => redis_drained he h userId t, ?_⟩
  intro b calls table t userId order he hN hN' h hc
  exact postgres_drained he hN hN' h hc userId order

section schedules
open RedisRace PostgresRace

/-- A Redis backend that is to keep one message for every user. -/
def singleStream : RedisQueueBackend := ⟨⟨true, 1, 3600, 300⟩, "ara:queue", "default", welcomeSerde⟩

/-- A PostgreSQL backend that keeps two messages for every user. -/
def twoEach : PostgresQueueBackend := ⟨⟨true, 2, 3600, 300⟩, "default", digestSerde⟩

/-- Two messages for `alice`, a second apart. -/
def twoCalls (event : NotificationEvent) : List QueueCall :=
  [.enqueue "alice" 1 0 event, .enqueue "alice" 2 nanosPerSecond event]

theorem increasing_twoCalls (event : NotificationEvent) :
    Increasing (twoCalls event) (2 * nanosPerSecond) := by
  show List.Pairwise _ [0, nanosPerSecond, 2 * nanosPerSecond]
  decide

/-- The stream after the first enqueue. -/
def oneEntry : RedisStore :=
  (⟨∅⟩ : RedisStore).xaddMaxlen aliceKey 1 0 (RedisQueueBackend.entry "0-1" (welcomeText 1))

/-- The stream after the second, which trims nothing. -/
def twoEntries : RedisStore :=
  oneEntry.xaddMaxlen aliceKey 1 0 (RedisQueueBackend.entry "1-1" (welcomeText 2))

theorem redisRun_twoEntries : RedisRun singleStream (twoCalls welcome) twoEntries := by
  have h₁ : RedisRun singleStream [.enqueue "alice" 1 0 welcome] oneEntry :=
    RedisRun.empty.enqueue "0-1" 0 (reads_welcome (.inl rfl)) rfl
  exact h₁.enqueue "1-1" 0 (reads_welcome (.inr rfl)) rfl

/-- The row of the first enqueue. -/
def firstRow : Row := twoEach.newRow "alice" 1 digestValue 0 (3600 * nanosPerSecond)

/-- The row of the second. -/
def secondRow : Row := twoEach.newRow "alice" 2 digestValue nanosPerSecond (3601 * nanosPerSecond)

theorem postgresRun_twoRows : PostgresRun twoEach (twoCalls digest) [firstRow, secondRow] := by
  have h₁ : PostgresRun twoEach [.enqueue "alice" 1 0 digest] [firstRow] :=
    PostgresRun.empty.enqueue 0 rfl (by simp) rfl
  exact h₁.enqueue 0 rfl (by simp [firstRow, PostgresQueueBackend.newRow]) rfl

/-- Rows come in the order of insertion. -/
def inOrder : RowOrder := ⟨id, List.Perm.refl⟩

/-- Rows come in the opposite order. -/
def reversed : RowOrder := ⟨List.reverse, List.reverse_perm⟩

/-- What the two backends return for the two messages. -/
theorem persistent_queues_log_of_two :
    (∃ r M, 1 ≤ M ∧ (singleStream.drain twoEntries "alice" (2 * nanosPerSecond) none none).1 = .ok r ∧
        r.messages = ([welcomeMessage 1, welcomeMessage 2].rtake M).filter
          (fun m => !m.isExpired (2 * nanosPerSecond) 3600)) ∧
      ∃ r, (twoEach.drain [firstRow, secondRow] "alice" inOrder (2 * nanosPerSecond) (2 * nanosPerSecond)
          false false).1 = .ok r ∧
        r.messages.Perm (([.new 1 0 digest, .new 2 nanosPerSecond digest].rtake 2).filter
          (fun m => !m.isExpired (2 * nanosPerSecond) 3600)) :=
  ⟨persistent_queues_log.1 singleStream (twoCalls welcome) twoEntries _ "alice" rfl (by decide)
      redisRun_twoEntries (increasing_twoCalls welcome),
    persistent_queues_log.2 twoEach (twoCalls digest) _ _ "alice" inOrder rfl (by decide) (by decide)
      postgresRun_twoRows (increasing_twoCalls digest)⟩

set_option maxRecDepth 10000 in
/-- A stream that was not trimmed returns both messages where one is to be kept, and the table
can return the younger message first. -/
theorem neither_is_exact :
    (¬ ∀ (b : RedisQueueBackend) (calls : List QueueCall) (store : RedisStore) (t : DateTime)
        (userId : String), b.config.enabled = true → 1 ≤ b.config.maxQueueSizePerUser →
        RedisRun b calls store → Increasing calls t →
        ∃ r, (b.drain store userId t none none).1 = .ok r ∧
          r.messages = ((pending userId calls).rtake b.config.maxQueueSizePerUser).filter
            (fun m => !m.isExpired t b.config.messageTtlSeconds)) ∧
      ¬ ∀ (b : PostgresQueueBackend) (calls : List QueueCall) (table : Table) (t : DateTime)
        (userId : String) (order : RowOrder), b.config.enabled = true →
        1 ≤ b.config.maxQueueSizePerUser → PostgresRun b calls table → Increasing calls t →
        ∃ r, (b.drain table userId order t t false false).1 = .ok r ∧
          r.messages = ((pending userId calls).rtake b.config.maxQueueSizePerUser).filter
            (fun m => !m.isExpired t b.config.messageTtlSeconds) := by
  constructor
  · intro hall
    obtain ⟨r, hr, hmessages⟩ := hall singleStream (twoCalls welcome) twoEntries (2 * nanosPerSecond)
      "alice" rfl (by decide) redisRun_twoEntries (increasing_twoCalls welcome)
    have hboth : r = ⟨[welcomeMessage 1, welcomeMessage 2], 0⟩ := (Except.ok.inj hr).symm
    rw [hboth] at hmessages
    have hlen := congrArg List.length hmessages
    exact absurd hlen (by decide)
  · intro hall
    obtain ⟨r, hr, hmessages⟩ := hall twoEach (twoCalls digest) [firstRow, secondRow]
      (2 * nanosPerSecond) "alice" reversed rfl (by decide) postgresRun_twoRows (increasing_twoCalls digest)
    have hswapped : r = ⟨[.new 2 nanosPerSecond digest, .new 1 0 digest], 0⟩ := (Except.ok.inj hr).symm
    rw [hswapped] at hmessages
    have hids := congrArg (List.map StoredMessage.id) hmessages
    exact absurd hids (by decide)

end schedules

end AraNotification
