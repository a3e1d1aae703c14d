import AraNotification.Queue

/-! # The queue of a user and its replay

`UserMessageQueue` is the queue of the domain layer.  It stores messages like the in-memory backend, and it
also sends them: `replay` takes the whole queue of a user away and then goes through it, counts expired
messages, and sends the others until the channel refuses one (`domain/queue/user_queue.rs`).  Every message
is compared with a clock reading of its own.

What has been taken away does not come back: the refused message and everything behind it are in no queue
and in no count but `failed`.  So messages are conserved exactly when the channel takes every live message
(`conserved_iff`). -/

namespace AraNotification

/-- A message queued for later delivery; it has the fields of a stored message. -/
abbrev QueuedMessage := StoredMessage

/-- Result of a replay operation. -/
structure ReplayResult where
  replayed : ℕ
  failed : ℕ
  expired : ℕ
deriving DecidableEq, Repr

/-- `ReplayResult::empty`. -/
def ReplayResult.empty : ReplayResult := ⟨0, 0, 0⟩

/-- Per-user message queue for offline delivery. -/
structure UserMessageQueue where
  queues : DashMap String (List QueuedMessage)
  config : QueueConfig

namespace UserMessageQueue

/-- What a replay sends for a message. -/
def outbound (m : QueuedMessage) : OutboundMessage := .raw (.notification m.event)

section replay
variable (ttlSeconds : ℕ) (accepts : ℕ → Bool)

/-- The loop of a replay, over the messages with the clock readings at which they are examined.  `accepts i`
says whether the channel takes what is sent to it after `i` messages. -/
def replayFrom : List (QueuedMessage × DateTime) → ReplayResult × List OutboundMessage → ReplayResult × List OutboundMessage
  | [], r => r
  | (m, now) :: rest, (r, sent) =>
      if m.isExpired now ttlSeconds then replayFrom rest ({ r with expired := r.expired + 1 }, sent)
      else if accepts r.replayed then replayFrom rest ({ r with replayed := r.replayed + 1 }, sent ++ [outbound m])
      else ({ r with failed := r.failed + 1 }, sent)

/-- The messages that have not expired when they are examined. -/
def live (xs : List (QueuedMessage × DateTime)) : List QueuedMessage :=
  (xs.filter (fun x => !x.1.isExpired x.2 ttlSeconds)).map Prod.fst

/-- The messages that have expired when they are examined. -/
def dead (xs : List (QueuedMessage × DateTime)) : List QueuedMessage :=
  (xs.filter (fun x => x.1.isExpired x.2 ttlSeconds)).map Prod.fst

end replay

/-- The messages with the readings of a clock, one after the other. -/
def examined (clock : ℕ → DateTime) (messages : List QueuedMessage) : List (QueuedMessage × DateTime) :=
  messages.zipIdx.map (fun x => (x.1, clock x.2))

variable (q : UserMessageQueue)

/-- What is stored for a user. -/
def messages (userId : String) : List QueuedMessage := (q.queues.lookup userId).getD []

/-- Replay all queued messages to a user's connection. -/
def replay (userId : String) (clock : ℕ → DateTime) (accepts : ℕ → Bool) :
    (ReplayResult × List OutboundMessage) × UserMessageQueue :=
  if q.config.enabled then
    match q.queues.lookup userId with
    | none => ((.empty, []), q)
    | some [] => ((.empty, []), { q with queues := q.queues.erase userId })
    | some messages =>
        (replayFrom q.config.messageTtlSeconds accepts (examined clock messages) (.empty, []),
          { q with queues := q.queues.erase userId })
  else ((.empty, []), q)

/-- The messages that a replay takes from the queue. -/
def taken (userId : String) : List QueuedMessage := if q.config.enabled then q.messages userId else []

/-- Every message taken is delivered, counted as expired or again in the queue of its user in the old order;
the delivered ones are a first part of the live ones; and the counts add up. -/
structure Conserved (userId : String) (clock : ℕ → DateTime) (accepts : ℕ → Bool) : Prop where
  accounted : ∃ delivered expired restored : List QueuedMessage,
    (q.taken userId).Perm (delivered ++ expired ++ restored) ∧
      (q.replay userId clock accepts).1.2 = delivered.map outbound ∧
      expired.Sublist (dead q.config.messageTtlSeconds (examined clock (q.taken userId))) ∧
      (q.replay userId clock accepts).1.1.expired = expired.length ∧
      restored.Sublist (q.taken userId) ∧ restored.Sublist ((q.replay userId clock accepts).2.messages userId)
  inOrder : (q.replay userId clock accepts).1.2 <+:
    (live q.config.messageTtlSeconds (examined clock (q.taken userId))).map outbound
  counts : (q.replay userId clock accepts).1.1.replayed + (q.replay userId clock accepts).1.1.failed +
    (q.replay userId clock accepts).1.1.expired = (q.taken userId).length

/-! ### The loop -/

section loop
variable {ttlSeconds : ℕ} {accepts : ℕ → Bool}

theorem length_live_add_dead (xs : List (QueuedMessage × DateTime)) :
    (live ttlSeconds xs).length + (dead ttlSeconds xs).length = xs.length := by
  rw [live, dead, List.length_map, List.length_map, Nat.add_comm]
  exact (List.length_eq_length_filter_add _).symm

theorem live_cons {m : QueuedMessage} {now : DateTime} {xs : List (QueuedMessage × DateTime)} :
    live ttlSeconds ((m, now) :: xs) =
      if m.isExpired now ttlSeconds then live ttlSeconds xs else m :: live ttlSeconds xs := by
  cases h : m.isExpired now ttlSeconds <;> simp [live, h]

theorem dead_cons {m : QueuedMessage} {now : DateTime} {xs : List (QueuedMessage × DateTime)} :
    dead ttlSeconds ((m, now) :: xs) =
      if m.isExpired now ttlSeconds then m :: dead ttlSeconds xs else dead ttlSeconds xs := by
  cases h : m.isExpired now ttlSeconds <;> simp [dead, h]

/-- The loop sends a first part of the live messages.  It has come to its end, or the channel has refused the
next one. -/
theorem replayFrom_spec (xs : List (QueuedMessage × DateTime)) (r : ReplayResult) (sent : List OutboundMessage) :
    ∃ k, (replayFrom ttlSeconds accepts xs (r, sent)).2 = sent ++ ((live ttlSeconds xs).take k).map outbound ∧
      (∀ i < k, accepts (r.replayed + i) = true) ∧
      (k = (live ttlSeconds xs).length ∧
          (replayFrom ttlSeconds accepts xs (r, sent)).1 =
            ⟨r.replayed + k, r.failed, r.expired + (dead ttlSeconds xs).length⟩ ∨
        k < (live ttlSeconds xs).length ∧ accepts (r.replayed + k) = false ∧
          ∃ n, n + k < xs.length ∧
            (replayFrom ttlSeconds accepts xs (r, sent)).1 = ⟨r.replayed + k, r.failed + 1, r.expired + n⟩) := by
  induction xs generalizing r sent with
  | nil => exact ⟨0, by simp [replayFrom, live], nofun, .inl ⟨rfl, rfl⟩⟩
  | cons x xs ih =>
      obtain ⟨m, now⟩ := x
      rw [live_cons, dead_cons, replayFrom]
      by_cases hexp : m.isExpired now ttlSeconds = true
      · -- An expired message is counted.
        obtain ⟨k, hsent, haccepts, hend⟩ := ih { r with expired := r.expired + 1 } sent
        rw [if_pos hexp, if_pos hexp, if_pos hexp]
        refine ⟨k, hsent, haccepts, ?_⟩
        rcases hend with ⟨hk, hresult⟩ | ⟨hk, hrefused, n, hn, hresult⟩
        · refine .inl ⟨hk, ?_⟩
          rw [hresult, List.length_cons, ReplayResult.mk.injEq]
          exact ⟨rfl, rfl, by dsimp only; omega⟩
        · refine .inr ⟨hk, hrefused, n + 1, by rw [List.length_cons]; omega, ?_⟩
          rw [hresult, ReplayResult.mk.injEq]
          exact ⟨rfl, rfl, by dsimp only; omega⟩
      rw [if_neg hexp, if_neg hexp, if_neg hexp]
      by_cases hacc : accepts r.replayed = true
      · -- A live message is sent.
        obtain ⟨k, hsent, haccepts, hend⟩ := ih { r with replayed := r.replayed + 1 } (sent ++ [outbound m])
        have hcount : r.replayed + 1 + k = r.replayed + (k + 1) := by omega
        rw [hcount] at hend
        rw [if_pos hacc]
        refine ⟨k + 1, by rw [hsent]; simp, fun i hi => ?_, ?_⟩
        · cases i with
          | zero => exact hacc
          | succ i =>
              have hprev := haccepts i (Nat.lt_of_succ_lt_succ hi)
              rwa [show r.replayed + 1 + i = r.replayed + (i + 1) by omega] at hprev
        · simp only [List.length_cons]
          rcases hend with ⟨hk, hresult⟩ | ⟨hk, hrefused, n, hn, hresult⟩
          · exact .inl ⟨by omega, hresult⟩
          · exact .inr ⟨by omega, hrefused, n, by omega, hresult⟩
      · -- The first refused send ends the loop.
        rw [if_neg hacc]
        exact ⟨0, by simp, nofun, .inr ⟨by simp, by simpa using hacc, 0, by simp, rfl⟩⟩

theorem fst_examined (clock : ℕ → DateTime) (messages : List QueuedMessage) :
    (examined clock messages).map Prod.fst = messages := by
  simp [examined, List.map_map, Function.comp_def]

theorem length_examined (clock : ℕ → DateTime) (messages : List QueuedMessage) :
    (examined clock messages).length = messages.length := by
  simp [examined]

/-- Live and expired messages are all messages. -/
theorem perm_live_dead (clock : ℕ → DateTime) (messages : List QueuedMessage) :
    messages.Perm (live ttlSeconds (examined clock messages) ++ dead ttlSeconds (examined clock messages)) := by
  have hperm := (List.filter_append_perm (fun x => !x.1.isExpired x.2 ttlSeconds) (examined clock messages)).map Prod.fst
  simp only [Bool.not_not, List.map_append, fst_examined] at hperm
  exact hperm.symm

end loop

/-! ### The replay -/

section replay
variable {q : UserMessageQueue} {userId : String} {clock : ℕ → DateTime} {accepts : ℕ → Bool}

/-- A replay is the loop over what it takes. -/
theorem replay_fst : (q.replay userId clock accepts).1 =
    replayFrom q.config.messageTtlSeconds accepts (examined clock (q.taken userId)) (.empty, []) := by
  unfold replay taken messages
  split_ifs
  · split <;> simp_all [examined, replayFrom]
  · rfl

/-- What has been taken is not in the queue any more. -/
theorem messages_replay (h : q.config.enabled = true) : (q.replay userId clock accepts).2.messages userId = [] := by
  unfold replay
  rw [if_pos h]
  split
  · simp [messages, *]
  · simp [messages]
  · simp [messages]

/-- **A replay conserves the messages if and only if the channel takes every live message.** -/
theorem conserved_iff : q.Conserved userId clock accepts ↔
    ∀ i < (live q.config.messageTtlSeconds (examined clock (q.taken userId))).length, accepts i = true := by
  obtain ⟨k, hsent, haccepts, hend⟩ := @replayFrom_spec q.config.messageTtlSeconds accepts
    (examined clock (q.taken userId)) .empty []
  rw [← replay_fst] at hsent hend
  simp only [ReplayResult.empty, Nat.zero_add, List.nil_append, length_examined] at hsent haccepts hend
  constructor
  · intro hconserved
    rcases hend with ⟨rfl, -⟩ | ⟨hk, hrefused, n, hn, hresult⟩
    · exact haccepts
    · obtain ⟨delivered, expired, restored, hperm, hout, -, hexpired, -, hback⟩ := hconserved.accounted
      have hcounts := hconserved.counts
      have hrestored : restored.length = 0 := by
        by_cases henabled : q.config.enabled = true
        · rw [messages_replay henabled] at hback
          exact Nat.le_zero.mp hback.length_le
        · rw [taken, if_neg henabled] at hn
          exact absurd hn (Nat.not_lt_zero _)
      have hdelivered : delivered.length = k := by
        have hlength := congrArg List.length (hout.symm.trans hsent)
        simpa [Nat.min_eq_left hk.le] using hlength
      have htotal := hperm.length_eq
      rw [hresult] at hexpired hcounts
      simp only [List.length_append] at htotal hexpired hcounts
      -- The refused message is counted as failed, and is in none of the three places.
      omega
  · intro hall
    rcases hend with ⟨rfl, hresult⟩ | ⟨hk, hrefused, -⟩
    · rw [List.take_length] at hsent
      have htotal := @length_live_add_dead q.config.messageTtlSeconds (examined clock (q.taken userId))
      rw [length_examined] at htotal
      refine ⟨⟨_, _, [], ?_, hsent, List.Sublist.refl _, by rw [hresult], List.nil_sublist _, List.nil_sublist _⟩, ?_, ?_⟩
      · rw [List.append_nil]
        exact perm_live_dead clock _
      · rw [hsent]
      · rw [hresult]
        exact htotal
    · rw [hall k hk] at hrefused
      cases hrefused

/-- A queue of three messages that are a second old. -/
def threeQueued : UserMessageQueue where
  queues := AList.insert "alice" ([1, 2, 3].map (fun id =>
    StoredMessage.new id 0 ⟨id, 0, "order.paid", .null, ⟨"http-api", .normal, none, none, none⟩⟩)) ∅
  config := { QueueConfig.default with enabled := true }

/-- The connection is closed after the first message: the second one is counted as failed, and the third one
is lost. -/
theorem not_conserved_closed : ¬ ∀ (q : UserMessageQueue) (userId : String) (clock : ℕ → DateTime)
    (accepts : ℕ → Bool), q.Conserved userId clock accepts := by
  intro hall
  have hcounts := (hall threeQueued "alice" (fun _ => 1000000000) (fun i => decide (i < 1))).counts
  exact absurd hcounts (by decide)

end replay

end UserMessageQueue

end AraNotification
