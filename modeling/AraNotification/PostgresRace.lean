import AraNotification.Lib.Interleaving
import AraNotification.PersistentQueue

/-! # Concurrent enqueues into the PostgreSQL table

An enqueue is one SQL statement, which reads the rows of its user in a snapshot, deletes the
oldest if they are too many, and inserts its own.  The statement is atomic only in what it
writes: between its snapshot (`read`) and its commit (`write`) other statements commit.  A
row that another statement has deleted meanwhile is not replaced by the next oldest.

Two statements that see the same rows therefore both count one free place, or both delete
the same row, and the queue ends up longer than its bound (`overfull`).  It is never made
shorter again, since every later enqueue deletes at most one row.  `Reserved` is the
condition under which the bound holds in every state (`rows_le_of_reserved`): a snapshot is
taken alone, or there is room for all statements that are under way. -/

namespace AraNotification

namespace PostgresRace

open Interleaving

/-! ### The program -/

/-- An enqueue. -/
structure Call where
  userId : String
  id : Uuid
  event : NotificationEvent

/-- What the environment supplies: a clock reading, and the row that a statement picks among
several oldest ones. -/
structure Input where
  now : DateTime
  pick : Uuid

/-- Program counters, named after what comes next. -/
inductive Pc where
  | prepare (call : Call)
  | read (userId : String) (id : Uuid) (data : Json) (expiresAt : DateTime)
  | write (victim : Option Uuid) (row : Row)

section program
variable (b : PostgresQueueBackend)

/-- Preparing the statement, its snapshot, and its commit. -/
def step (inp : Input) (t : Table) : Pc → Option (Table × Option Pc)
  | .prepare call =>
      if b.config.enabled then
        some (t, (b.expiresAt inp.now).bind (fun expiresAt =>
          (b.serde.write call.event).map (fun data => .read call.userId call.id data expiresAt)))
      else some (t, none)
  | .read userId id data expiresAt =>
      (Table.select (t.rowsOf b.tenantId userId) (asI64 b.config.maxQueueSizePerUser) inp.pick).map
        (fun victim => (t, some (.write victim (b.newRow userId id data inp.now expiresAt))))
  | .write victim row => some (t.commit victim row, none)

/-- Enqueues as concurrent programs. -/
def system : System Table Call Input Pc where
  start := .prepare
  step := step b

/-- The statement has taken its snapshot of the user's rows and not committed yet. -/
def writesFor (userId : String) : Pc → Bool
  | .write _ row => row.isFor b.tenantId userId
  | _ => false

/-- A snapshot is taken while no other statement for the user is under way, or with room for
all of them. -/
def Reserved (c : Config Table Pc) : Event Call Input → Prop
  | .call _ => True
  | .run i _ =>
      match c.threads[i]? with
      | some (.read userId _ _ _) =>
          c.threads.countP (writesFor b userId) = 0 ∨
            (c.shared.rowsOf b.tenantId userId).length + c.threads.countP (writesFor b userId) + 1 ≤
              b.config.maxQueueSizePerUser
      | _ => True

instance (c : Config Table Pc) (e : Event Call Input) : Decidable (Reserved b c e) := by
  unfold Reserved
  split
  · infer_instance
  · split <;> infer_instance

end program

/-! ### What a statement does to the rows of a user -/

section statements
variable {b : PostgresQueueBackend} {t : Table} {userId : String}

theorem rowsOf_commit (victim : Option Uuid) (row : Row) (tenantId userId : String) :
    (t.commit victim row).rowsOf tenantId userId =
      (t.rowsOf tenantId userId).filter (fun r => decide (some r.id ≠ victim)) ++
        if row.isFor tenantId userId then [row] else [] := by
  rw [Table.rowsOf, Table.commit, List.filter_append, Table.rowsOf, List.filter_comm]
  congr 1
  split_ifs with h <;> simp [h]

/-- A commit that finds its row deletes it. -/
theorem length_filter_lt_of_mem {rows : List Row} {r : Row} (h : r ∈ rows) :
    (rows.filter (fun r' => decide (some r'.id ≠ some r.id))).length < rows.length := by
  rw [List.length_filter_lt_length_iff_exists]
  exact ⟨r, h, by simp⟩

/-- A statement that sees a full queue selects one of its rows. -/
theorem exists_mem_of_select {rows : List Row} {bound : ℤ} {pick : Uuid} {victim : Option Uuid}
    (h : Table.select rows bound pick = some victim) (hfull : (rows.length : ℤ) ≥ bound)
    (hne : rows ≠ []) : ∃ r ∈ rows, victim = some r.id := by
  cases victim with
  | none =>
      rw [Table.select, if_pos ⟨hfull, hne⟩] at h
      split_ifs at h
      cases h
  | some id =>
      obtain ⟨r, hr, hid⟩ := Table.mem_of_select h
      exact ⟨r, hr, congrArg some hid.symm⟩

end statements

/-! ### The bound -/

/-- The rows of a user with the statements under way fit into the bound, or the only statement
under way has seen the rows that are there. -/
def Bounded (b : PostgresQueueBackend) (userId : String) (c : Config Table Pc) : Prop :=
  let rows := c.shared.rowsOf b.tenantId userId
  let N := b.config.maxQueueSizePerUser
  rows.length + c.threads.countP (writesFor b userId) ≤ N ∨
    (rows.length ≤ N ∧ c.threads.countP (writesFor b userId) = 1 ∧
      ∀ victim row, .write victim row ∈ c.threads → row.isFor b.tenantId userId = true →
        N ≤ rows.length → ∃ r ∈ rows, victim = some r.id)

section bound
variable {b : PostgresQueueBackend} {t₀ : Table} {c : Config Table Pc} {userId : String}

theorem Bounded.rows_le (h : Bounded b userId c) :
    (c.shared.rowsOf b.tenantId userId).length ≤ b.config.maxQueueSizePerUser := by
  rcases h with h | ⟨h, -⟩
  · exact le_trans (Nat.le_add_right _ _) h
  · exact h

/-- Other program counters than commits of the user do not matter. -/
theorem Bounded.of_quiet {t t' : Table} {l₁ l₂ : List Pc} {p : Pc} {q : Option Pc}
    (h : Bounded b userId ⟨t, l₁ ++ p :: l₂⟩) (ht : t' = t) (hp : writesFor b userId p = false)
    (hq : ∀ r ∈ q, writesFor b userId r = false) :
    Bounded b userId ⟨t', l₁ ++ (q.toList ++ l₂)⟩ := by
  subst ht
  have hbefore : (l₁ ++ p :: l₂).countP (writesFor b userId) = (l₁ ++ l₂).countP (writesFor b userId) := by
    rw [countP_middle, hp]
    rfl
  have hafter : (l₁ ++ (q.toList ++ l₂)).countP (writesFor b userId) =
      (l₁ ++ l₂).countP (writesFor b userId) := by
    cases q with
    | none => rfl
    | some r =>
        rw [Option.toList_some, List.singleton_append, countP_middle, hq r rfl]
        rfl
  unfold Bounded at h ⊢
  simp only [hbefore, hafter] at h ⊢
  rcases h with h | ⟨hle, hone, hvictim⟩
  · exact .inl h
  · refine .inr ⟨hle, hone, fun victim row hm hrow => hvictim victim row ?_ hrow⟩
    rcases mem_middle.mp hm with hm | hm
    · exact absurd hrow (by simpa [writesFor] using hq _ hm)
    · simp only [List.mem_append, List.mem_cons] at hm ⊢
      tauto

section transitions
variable {t t' : Table} {p : Pc} {q : Option Pc} {l₁ l₂ : List Pc} {inp : Input}

/-- The statement of the user takes its snapshot. -/
theorem Bounded.snapshot (hN : 1 ≤ b.config.maxQueueSizePerUser) {id : Uuid} {data : Json}
    {expiresAt : DateTime} {victim : Option Uuid} {row : Row}
    (h : Bounded b userId ⟨t, l₁ ++ .read userId id data expiresAt :: l₂⟩)
    (hroom : (l₁ ++ l₂).countP (writesFor b userId) = 0 ∨
      (t.rowsOf b.tenantId userId).length + (l₁ ++ l₂).countP (writesFor b userId) + 1 ≤
        b.config.maxQueueSizePerUser)
    (hselect : Table.select (t.rowsOf b.tenantId userId) (asI64 b.config.maxQueueSizePerUser) inp.pick =
      some victim)
    (hrow : row.isFor b.tenantId userId = true) :
    Bounded b userId ⟨t, l₁ ++ (.write victim row :: l₂)⟩ := by
  have hle := h.rows_le
  have hcount : (l₁ ++ (Pc.write victim row :: l₂)).countP (writesFor b userId) =
      (l₁ ++ l₂).countP (writesFor b userId) + 1 := by
    rw [countP_middle, writesFor, if_pos hrow]
  unfold Bounded
  simp only [hcount]
  rcases hroom with halone | hroom
  · refine .inr ⟨hle, by rw [halone], fun victim' row' hm hrow' hfull => ?_⟩
    have hsame : victim' = victim := by
      rw [List.countP_eq_zero] at halone
      rcases List.mem_append.mp hm with hm | hm
      · exact absurd hrow' (halone _ (List.mem_append_left _ hm))
      · rcases List.mem_cons.mp hm with heq | hm
        · cases heq
          rfl
        · exact absurd hrow' (halone _ (List.mem_append_right _ hm))
    rw [hsame]
    have hbound := asI64_le b.config.maxQueueSizePerUser
    refine exists_mem_of_select hselect (by omega) ?_
    intro hnil
    have hzero : (t.rowsOf b.tenantId userId).length = 0 := by rw [hnil, List.length_nil]
    omega
  · exact .inl (by omega)

/-- A statement of the user commits. -/
theorem Bounded.commit {victim : Option Uuid} {row : Row}
    (h : Bounded b userId ⟨t, l₁ ++ .write victim row :: l₂⟩)
    (hrow : row.isFor b.tenantId userId = true) :
    Bounded b userId ⟨t.commit victim row, l₁ ++ l₂⟩ := by
  have hcount : (l₁ ++ (Pc.write victim row :: l₂)).countP (writesFor b userId) =
      (l₁ ++ l₂).countP (writesFor b userId) + 1 := by
    rw [countP_middle, writesFor, if_pos hrow]
  have hlen : ((t.commit victim row).rowsOf b.tenantId userId).length =
      ((t.rowsOf b.tenantId userId).filter (fun r => decide (some r.id ≠ victim))).length + 1 := by
    rw [rowsOf_commit, if_pos hrow, List.length_append, List.length_singleton]
  have hfilter := List.length_filter_le (fun r : Row => decide (some r.id ≠ victim))
    (t.rowsOf b.tenantId userId)
  unfold Bounded at h ⊢
  simp only [hcount, hlen] at h ⊢
  left
  rcases h with h | ⟨hle, hone, hvictim⟩
  · omega
  · by_cases hfull : b.config.maxQueueSizePerUser ≤ (t.rowsOf b.tenantId userId).length
    · -- The row it has seen as the oldest is still there.
      obtain ⟨r, hr, rfl⟩ := hvictim victim row (by simp) hrow hfull
      have hlt := length_filter_lt_of_mem hr
      omega
    · omega

/-- A statement of another user commits. -/
theorem Bounded.commit_other {victim : Option Uuid} {row : Row}
    (h : Bounded b userId ⟨t, l₁ ++ .write victim row :: l₂⟩)
    (hrow : row.isFor b.tenantId userId = false) :
    Bounded b userId ⟨t.commit victim row, l₁ ++ l₂⟩ := by
  have hcount : (l₁ ++ (Pc.write victim row :: l₂)).countP (writesFor b userId) =
      (l₁ ++ l₂).countP (writesFor b userId) := by
    rw [countP_middle, writesFor, hrow]
    rfl
  have hrows : (t.commit victim row).rowsOf b.tenantId userId =
      (t.rowsOf b.tenantId userId).filter (fun r => decide (some r.id ≠ victim)) := by
    rw [rowsOf_commit, hrow, if_neg (by simp), List.append_nil]
  have hfilter := List.length_filter_le (fun r : Row => decide (some r.id ≠ victim))
    (t.rowsOf b.tenantId userId)
  unfold Bounded at h ⊢
  simp only [hcount, hrows] at h ⊢
  rcases h with h | ⟨hle, hone, hvictim⟩
  · left
    omega
  · refine .inr ⟨by omega, hone, fun victim' row' hm hrow' hfull => ?_⟩
    -- A queue that is still full has lost no row.
    have hkept := List.length_filter_eq_length_iff.mp
      (le_antisymm hfilter (le_trans hle hfull))
    rw [List.filter_eq_self.mpr hkept] at hfull ⊢
    have hm' : Pc.write victim' row' ∈ l₁ ++ Pc.write victim row :: l₂ := by
      simp only [List.mem_append, List.mem_cons] at hm ⊢
      tauto
    exact hvictim victim' row' hm' hrow' hfull

end transitions

theorem Bounded.next (hN : 1 ≤ b.config.maxQueueSizePerUser) {c c' : Config Table Pc}
    {e : Event Call Input} (h : Bounded b userId c) (hok : Reserved b c e)
    (hn : (system b).next c e = some c') : Bounded b userId c' := by
  obtain ⟨op, rfl, rfl⟩ | ⟨i, inp, p, t, q, l₁, l₂, rfl, hp, hs, hl, rfl⟩ := System.next_cases hn
  · have hcount : (c.threads ++ [Pc.prepare op]).countP (writesFor b userId) =
        c.threads.countP (writesFor b userId) := by
      rw [List.countP_append]
      rfl
    unfold Bounded at h ⊢
    simpa [system, hcount] using h
  · obtain ⟨t₀, threads⟩ := c
    subst hl
    cases p with
    | prepare call =>
        have hread : t = t₀ ∧ ∀ r ∈ q, writesFor b userId r = false := by
          simp only [system, step] at hs
          split_ifs at hs
          · cases hs
            refine ⟨rfl, fun r hr => ?_⟩
            obtain ⟨expiresAt, -, hr⟩ := Option.bind_eq_some_iff.mp hr
            obtain ⟨data, -, rfl⟩ := Option.map_eq_some_iff.mp hr
            rfl
          · cases hs
            exact ⟨rfl, by simp⟩
        exact h.of_quiet hread.1 rfl hread.2
    | read user id data expiresAt =>
        obtain ⟨victim, hselect, heq⟩ := Option.map_eq_some_iff.mp hs
        cases heq
        have hrow : (b.newRow user id data inp.now expiresAt).isFor b.tenantId userId =
            decide (user = userId) := by
          simp [Row.isFor, PostgresQueueBackend.newRow]
        by_cases huser : user = userId
        · subst huser
          rw [Reserved, hp] at hok
          simp only [countP_middle, writesFor, Bool.false_eq_true, if_false, Nat.add_zero] at hok
          exact h.snapshot hN hok hselect (by rw [hrow]; simp)
        · refine h.of_quiet rfl rfl ?_
          intro r hr
          cases hr
          rw [writesFor, hrow, decide_eq_false_iff_not]
          exact huser
    | write victim row =>
        cases hs
        cases hrow : row.isFor b.tenantId userId with
        | true => exact h.commit hrow
        | false => exact h.commit_other hrow

/-- **When snapshots are taken alone or with room for all statements under way, the rows of a
user never exceed the bound.** -/
theorem rows_le_of_reserved (hN : 1 ≤ b.config.maxQueueSizePerUser)
    (h₀ : ∀ userId, (t₀.rowsOf b.tenantId userId).length ≤ b.config.maxQueueSizePerUser)
    (h : Reaches (system b) (Reserved b) ⟨t₀, []⟩ c) (userId : String) :
    (c.shared.rowsOf b.tenantId userId).length ≤ b.config.maxQueueSizePerUser := by
  have hbounded : Bounded b userId c := by
    refine h.invariant (.inl (h₀ userId)) ?_
    intro c e c' _ hc hok hn
    exact hc.next hN hok hn
  exact hbounded.rows_le

end bound

/-! ### An overfull queue -/

section schedules

/-- An event for a user who is offline. -/
def digest : NotificationEvent :=
  ⟨5, 0, "daily.digest", .null, ⟨"http-api", .normal, none, none, none⟩⟩

/-- The value of `digest` in the database. -/
def digestValue : Json := .object
  [("id", .string "00000000-0000-0000-0000-000000000005"),
    ("occurred_at", .string "1970-01-01T00:00:00Z"), ("event_type", .string "daily.digest"),
    ("payload", .null), ("metadata", .object [("source", .string "http-api"), ("priority", .string "Normal")])]

/-- Serialisation of `digest`. -/
def digestSerde : Serde NotificationEvent Json where
  write _ := some digestValue
  read _ := some digest

/-- A backend that keeps one message for every user. -/
def oneEach : PostgresQueueBackend := ⟨⟨true, 1, 3600, 300⟩, "default", digestSerde⟩

/-- Two enqueues for `alice` whose six steps are made in the given order. -/
def twoEnqueues (order : List ℕ) (picks : List Uuid) : List (Event Call Input) :=
  [.call ⟨"alice", 1, digest⟩, .call ⟨"alice", 2, digest⟩] ++
    (order.zip picks).map (fun p => .run p.1 ⟨0, p.2⟩)

/-- One after the other: the second replaces the message of the first. -/
theorem rows_le_in_turn :
    ∃ c, Reaches (system oneEach) (Reserved oneEach) ⟨[], []⟩ c ∧
      (c.shared.rowsOf "default" "alice").map (·.id) = [2] ∧
      (c.shared.rowsOf "default" "alice").length ≤ 1 := by
  have hseen : ((system oneEach).play (Reserved oneEach) ⟨[], []⟩
      (twoEnqueues [0, 0, 0, 0, 0, 0] [0, 0, 0, 0, 1, 0])).any
        (fun c => decide ((c.shared.rowsOf "default" "alice").map (·.id) = [2])) = true := by
    decide +kernel
  obtain ⟨c, hr, hc⟩ := exists_reaches_of_play hseen
  exact ⟨c, hr, of_decide_eq_true hc, rows_le_of_reserved (by decide) (by simp [Table.rowsOf]) hr "alice"⟩

/-- Two statements that both read the empty table leave two rows where there is room for one. -/
theorem overfull :
    ¬ ∀ (b : PostgresQueueBackend) (t₀ : Table) (c : Config Table Pc), b.config.enabled = true →
        1 ≤ b.config.maxQueueSizePerUser →
        (∀ userId, (t₀.rowsOf b.tenantId userId).length ≤ b.config.maxQueueSizePerUser) →
        Reaches (system b) (fun _ _ => True) ⟨t₀, []⟩ c →
        ∀ userId, (c.shared.rowsOf b.tenantId userId).length ≤ b.config.maxQueueSizePerUser := by
  intro hall
  have hseen : ((system oneEach).play (fun _ _ => True) ⟨[], []⟩
      (twoEnqueues [0, 0, 1, 1, 0, 0] [0, 0, 0, 0, 0, 0])).any
        (fun c => decide ((c.shared.rowsOf "default" "alice").length = 2)) = true := by
    decide +kernel
  obtain ⟨c, hr, hc⟩ := exists_reaches_of_play hseen
  have hlen : (c.shared.rowsOf "default" "alice").length = 2 := of_decide_eq_true hc
  have hle : (c.shared.rowsOf "default" "alice").length ≤ 1 :=
    hall oneEach [] c rfl (by decide) (by simp [Table.rowsOf]) hr "alice"
  omega

end schedules

end PostgresRace

end AraNotification
