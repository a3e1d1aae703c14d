import AraNotification.PostgresRace

/-! # Drains that fail

The caller of a drain logs an error and goes on, so a drain that fails should leave what it
would have delivered in the store.  The in-memory drain never fails.  The Redis drain deletes
the stream with its last command, and when that fails everything is still there.  The
PostgreSQL drain deletes the rows to return first and the expired ones with a second
statement, each committed on its own: when only the second fails, the rows that the first
has fetched are gone and the error takes their place (`Strands`).

A drain keeps what has not expired, whenever it fails, exactly when it is not one of these
(`safeDrain_iff`). -/

namespace AraNotification

/-- A queue backend with what it stores. -/
inductive Backend where
  | memory (q : MemoryQueueBackend)
  | redis (b : RedisQueueBackend) (store : RedisStore)
  | postgres (b : PostgresQueueBackend) (t : Table)

/-- The clock readings of a drain, the order in which rows are returned, and which of the
commands and statements fail. -/
structure DrainInput where
  now : DateTime
  later : DateTime
  order : RowOrder
  xrangeFailure : Option PoolError
  delFailure : Option PoolError
  fetchFails : Bool
  deleteFails : Bool

/-- What a store holds for one message. -/
inductive StoredItem where
  | message (m : StoredMessage)
  | entry (e : StreamEntry)
  | row (r : Row)

namespace RedisQueueBackend

/-- The entry holds a message that has not expired. -/
def isLive (b : RedisQueueBackend) (now : DateTime) (e : StreamEntry) : Bool :=
  (b.parse e).any (fun m => !m.isExpired now b.config.messageTtlSeconds)

end RedisQueueBackend

namespace Backend

/-- `MessageQueueBackend::drain`. -/
def drain (userId : String) (inp : DrainInput) : Backend → Except StoreError DrainResult × Backend
  | memory q => (.ok (q.drain userId inp.now).1, memory (q.drain userId inp.now).2)
  | redis b store =>
      let r := b.drain store userId inp.now inp.xrangeFailure inp.delFailure
      (r.1, redis b r.2)
  | postgres b t =>
      let r := b.drain t userId inp.order inp.now inp.later inp.fetchFails inp.deleteFails
      (r.1, postgres b r.2)

/-- What is stored for a user and has not expired. -/
def live (userId : String) (now : DateTime) : Backend → List StoredItem
  | memory q =>
      ((q.messages userId).filter (fun m => !m.isExpired now q.config.messageTtlSeconds)).map .message
  | redis b store => ((store.xrangeAll (b.queueKey userId)).filter (b.isLive now)).map .entry
  | postgres b t => (t.filter (b.isLive userId now)).map .row

/-- If the drain fails, everything that has not expired is still stored. -/
def SafeDrain (B : Backend) (userId : String) (inp : DrainInput) : Prop :=
  ∀ e B', B.drain userId inp = (.error e, B') → ∀ x ∈ B.live userId inp.now, x ∈ B'.live userId inp.now

/-- A PostgreSQL drain that fetches rows and fails to delete the expired ones. -/
def Strands (B : Backend) (userId : String) (inp : DrainInput) : Prop :=
  match B with
  | postgres b t =>
      b.config.enabled = true ∧ inp.fetchFails = false ∧ inp.deleteFails = true ∧
        ∃ r ∈ t, b.isLive userId inp.now r = true
  | _ => False

end Backend

section failures
variable {userId : String} {now later : DateTime}

/-- A Redis drain that fails has deleted nothing. -/
theorem redis_drain_of_error {b : RedisQueueBackend} {store : RedisStore}
    {xrangeFailure delFailure : Option PoolError} {e : StoreError}
    (h : (b.drain store userId now xrangeFailure delFailure).1 = .error e) :
    (b.drain store userId now xrangeFailure delFailure).2 = store := by
  unfold RedisQueueBackend.drain at h ⊢
  cases xrangeFailure with
  | some e' => split_ifs <;> rfl
  | none =>
      cases delFailure with
      | some e' =>
          simp only
          split_ifs <;> rfl
      | none =>
          simp only at h
          split_ifs at h

/-- A PostgreSQL drain fails at its first statement, with no effect, or at its second, after
the rows have been fetched and deleted. -/
theorem postgres_drain_of_error {b : PostgresQueueBackend} {t : Table} {order : RowOrder}
    {fetchFails deleteFails : Bool} {e : StoreError}
    (h : (b.drain t userId order now later fetchFails deleteFails).1 = .error e) :
    (b.drain t userId order now later fetchFails deleteFails).2 = t ∨
    (b.config.enabled = true ∧ fetchFails = false ∧ deleteFails = true) := by
  unfold PostgresQueueBackend.drain at h ⊢
  by_cases he : b.config.enabled = true
  · rw [if_pos he] at h ⊢
    cases fetchFails with
    | true => exact .inl rfl
    | false =>
        cases deleteFails with
        | true => exact .inr ⟨he, rfl, rfl⟩
        | false => cases h
  · rw [if_neg he] at h
    cases h

/-- **A drain that fails keeps everything that has not expired, unless it is a PostgreSQL
drain whose second statement fails after the first has fetched a row.** -/
theorem safeDrain_iff (B : Backend) (userId : String) (inp : DrainInput) :
    B.SafeDrain userId inp ↔ ¬ B.Strands userId inp := by
  cases B with
  | memory q =>
      refine ⟨fun _ h => h, fun _ e B' hd => ?_⟩
      cases hd
  | redis b store =>
      refine ⟨fun _ h => h, fun _ e B' hd => ?_⟩
      obtain ⟨herror, hafter⟩ := Prod.mk.inj hd
      rw [← hafter, redis_drain_of_error herror]
      exact fun _ hx => hx
  | postgres b t =>
      constructor
      · rintro hsafe ⟨he, hfetch, hdelete, r, hr, hlive⟩
        have hd : (Backend.postgres b t).drain userId inp =
            (.error .postgres, .postgres b (t.filter (fun r => !b.isLive userId inp.now r))) := by
          simp only [Backend.drain, PostgresQueueBackend.drain, he, hfetch, hdelete, if_true,
            Bool.false_eq_true, if_false]
        have hx : StoredItem.row r ∈ (Backend.postgres b t).live userId inp.now :=
          List.mem_map_of_mem (List.mem_filter.mpr ⟨hr, hlive⟩)
        obtain ⟨r', hr', heq⟩ := List.mem_map.mp (hsafe _ _ hd _ hx)
        obtain ⟨hrest, hlive'⟩ := List.mem_filter.mp hr'
        have hdead := (List.mem_filter.mp hrest).2
        rw [hlive'] at hdead
        cases hdead
      · intro hnot e B' hd
        obtain ⟨herror, hafter⟩ := Prod.mk.inj hd
        rw [← hafter]
        rcases postgres_drain_of_error herror with hsame | ⟨he, hfetch, hdelete⟩
        · rw [hsame]
          exact fun _ hx => hx
        · -- Nothing had to be fetched.
          intro x hx
          obtain ⟨r, hr, -⟩ := List.mem_map.mp hx
          obtain ⟨hr, hlive⟩ := List.mem_filter.mp hr
          exact absurd ⟨he, hfetch, hdelete, r, hr, hlive⟩ hnot

end failures

/-! ### A stranded message -/

/-- A row for `alice` that does not expire before the drain. -/
def aliceRow : Row := ⟨1, "default", "alice", PostgresRace.digestValue, 0, 0, 3600000000000⟩

/-- The first statement succeeds and the second fails. -/
def secondFails : DrainInput :=
  ⟨1, 2, ⟨id, List.Perm.refl⟩, none, none, false, true⟩

/-- A drain that returns an error after its first statement has deleted an unexpired row. -/
theorem stranded_row : ¬ ∀ (B : Backend) (userId : String) (inp : DrainInput), B.SafeDrain userId inp := by
  intro hall
  have hx : StoredItem.row aliceRow ∈
      (Backend.postgres PostgresRace.oneEach [aliceRow]).live "alice" secondFails.now := by
    rw [show (Backend.postgres PostgresRace.oneEach [aliceRow]).live "alice" secondFails.now =
      [.row aliceRow] from rfl]
    exact List.mem_singleton_self _
  have hkept := hall (.postgres PostgresRace.oneEach [aliceRow]) "alice" secondFails .postgres
    (.postgres PostgresRace.oneEach []) rfl _ hx
  exact absurd hkept List.not_mem_nil

end AraNotification
