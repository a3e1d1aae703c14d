import AraNotification.Ack
import AraNotification.Lib.Interleaving
import AraNotification.Lib.Runs

/-! # Concurrent calls of the in-memory tracker

Every access to the map of `MemoryAckBackend` is a step: the insertion of `track`, the removal
and the later re-insertion of `acknowledge`, and every visit of an entry by the clean-up,
which the environment chooses.  The counters are atomics that no step reads; they change with
the access before them.  Any number of calls run at the same time, with any clock readings.

An acknowledgement by a user who is not the one of the entry takes the entry out and puts it
back in a later step.  Counting the entries in the map together with those that running calls
hold, no notification is acknowledged or expired more often than it was tracked, and what an
acknowledgement finds was tracked for its user (`settled_le_tracked`). -/

namespace AraNotification

namespace AckRace

open Interleaving

/-! ### The programs -/

/-- What has happened to a notification. -/
inductive Outcome where
  | tracked (p : PendingAckInfo)
  | acked (n : Uuid) (u : String)
  | refused (n : Uuid) (u : String)
  | expired (n : Uuid)
deriving DecidableEq, Repr

/-- The backend and the history of its calls. -/
structure Shared where
  backend : MemoryAckBackend
  history : List Outcome

/-- The calls. -/
inductive Call where
  | track (n : Uuid) (u : String) (conn : Uuid)
  | acknowledge (n : Uuid) (u : String)
  | cleanupExpired

/-- Program counters, named after the access that comes next; a re-insertion holds the entry
that was taken out, a clean-up the number of entries it has removed. -/
inductive Pc where
  | track (n : Uuid) (u : String) (conn : Uuid)
  | acknowledge (n : Uuid) (u : String)
  | reinsert (n : Uuid) (u : String) (p : PendingAckInfo)
  | retain (expired : ℕ)

def start : Call → Pc
  | .track n u conn => .track n u conn
  | .acknowledge n u => .acknowledge n u
  | .cleanupExpired => .retain 0

/-- The clock reading of a step and the entry that a clean-up visits; `none` ends its sweep. -/
structure Input where
  now : DateTime
  visit : Option Uuid

/-- Add to the history. -/
def Shared.note (s : Shared) (o : Outcome) : Shared := { s with history := s.history ++ [o] }

/-- Change the map. -/
def Shared.setPending (s : Shared) (pending : DashMap Uuid PendingAckInfo) : Shared :=
  { s with backend := { s.backend with pending := pending } }

/-- Change the counters. -/
def Shared.setStats (s : Shared) (stats : AckStats) : Shared :=
  { s with backend := { s.backend with stats := stats } }

/-- The visit of one entry. -/
def visit (now : DateTime) (s : Shared) (n : Uuid) (expired : ℕ) : Shared × Option Pc :=
  match s.backend.pending.lookup n with
  | some p =>
      if p.isExpired now s.backend.config.timeoutSeconds then
        ((s.setPending (s.backend.pending.erase n)).note (.expired n), some (.retain (expired + 1)))
      else (s, some (.retain expired))
  | none => (s, some (.retain expired))

/-- One access; a disabled backend returns at once. -/
def access (inp : Input) (s : Shared) : Pc → Shared × Option Pc
  | .track n u conn =>
      if s.backend.config.enabled then
        ({ s with backend := s.backend.track n u conn inp.now }.note (.tracked ⟨n, u, conn, inp.now⟩), none)
      else (s, none)
  | .acknowledge n u =>
      if s.backend.config.enabled then
        match s.backend.pending.lookup n with
        | none => (s.note (.refused n u), none)
        | some p =>
            if p.userId ≠ u then (s.setPending (s.backend.pending.erase n), some (.reinsert n u p))
            else
              (((s.setPending (s.backend.pending.erase n)).setStats
                { s.backend.stats with
                  totalAcked := s.backend.stats.totalAcked + 1
                  totalLatencyMs := s.backend.stats.totalLatencyMs + p.latencyMs inp.now }).note (.acked n u),
                none)
      else (s.note (.refused n u), none)
  | .reinsert n u p => ((s.setPending (s.backend.pending.insert n p)).note (.refused n u), none)
  | .retain expired =>
      if s.backend.config.enabled then
        match inp.visit with
        | some n => visit inp.now s n expired
        | none =>
            (s.setStats { s.backend.stats with totalExpired := s.backend.stats.totalExpired + expired }, none)
      else (s, none)

/-- The calls of the tracker as concurrent programs. -/
def system : System Shared Call Input Pc where
  start := start
  step inp s p := some (access inp s p)

/-- A new backend with no call running. -/
def initial (config : AckConfig) : Config Shared Pc := ⟨⟨.new config, []⟩, []⟩

/-- An acknowledgement that nothing interrupts is the call of the sequential model. -/
theorem acknowledge_alone (inp inp' : Input) (s : Shared) (n : Uuid) (u : String) :
    let r := access inp s (.acknowledge n u)
    (r.2.elim r.1 (fun p => (access inp' r.1 p).1)).backend = (s.backend.acknowledge n u inp.now).2 := by
  intro r
  cases henabled : s.backend.config.enabled with
  | false => simp [r, access, MemoryAckBackend.acknowledge, henabled, Shared.note]
  | true =>
      cases hl : s.backend.pending.lookup n with
      | none => simp [r, access, MemoryAckBackend.acknowledge, henabled, hl, Shared.note]
      | some p =>
          by_cases hu : p.userId = u
          · simp [r, access, MemoryAckBackend.acknowledge, henabled, hl, hu, Shared.note, Shared.setPending,
              Shared.setStats]
          · simp [r, access, MemoryAckBackend.acknowledge, henabled, hl, hu, Shared.note, Shared.setPending]

/-! ### What a step can do -/

/-- The entry of a notification that a call holds. -/
def Pc.held (n : Uuid) : Pc → Option PendingAckInfo
  | .reinsert n' _ p => if n' = n then some p else none
  | _ => none

/-- A step leaves the map alone, tracks, acknowledges, takes an entry out, puts it back, or
expires an entry. -/
inductive Does (s : Shared) : Pc → DashMap Uuid PendingAckInfo → List Outcome → Option Pc → Prop
  | idle {p : Pc} {q : Option Pc} (hp : ∀ n, p.held n = none) (hq : ∀ r ∈ q, ∀ n, r.held n = none) :
      Does s p s.backend.pending s.history q
  | refuse {n : Uuid} {u : String} (h : s.backend.config.enabled = true → s.backend.pending.lookup n = none) :
      Does s (.acknowledge n u) s.backend.pending (s.history ++ [.refused n u]) none
  | track {n : Uuid} {u : String} {conn : Uuid} (now : DateTime) :
      Does s (.track n u conn) (s.backend.pending.insert n ⟨n, u, conn, now⟩)
        (s.history ++ [.tracked ⟨n, u, conn, now⟩]) none
  | acknowledge {n : Uuid} {u : String} {p : PendingAckInfo} (hl : s.backend.pending.lookup n = some p)
      (hu : p.userId = u) :
      Does s (.acknowledge n u) (s.backend.pending.erase n) (s.history ++ [.acked n u]) none
  | takeOut {n : Uuid} {u : String} {p : PendingAckInfo} (hl : s.backend.pending.lookup n = some p)
      (hu : p.userId ≠ u) :
      Does s (.acknowledge n u) (s.backend.pending.erase n) s.history (some (.reinsert n u p))
  | putBack {n : Uuid} {u : String} {p : PendingAckInfo} :
      Does s (.reinsert n u p) (s.backend.pending.insert n p) (s.history ++ [.refused n u]) none
  | expire {n : Uuid} {p : PendingAckInfo} {k k' : ℕ} (hl : s.backend.pending.lookup n = some p) :
      Does s (.retain k) (s.backend.pending.erase n) (s.history ++ [.expired n]) (some (.retain k'))

theorem does_access (inp : Input) (s : Shared) (p : Pc) :
    Does s p (access inp s p).1.backend.pending (access inp s p).1.history (access inp s p).2 := by
  cases p with
  | track n u conn =>
      simp only [access]
      split_ifs with henabled
      · simp only [MemoryAckBackend.track, henabled, if_true]
        exact .track inp.now
      · exact .idle (fun _ => rfl) (fun _ hr => by cases hr)
  | acknowledge n u =>
      simp only [access]
      split_ifs with henabled
      · cases hl : s.backend.pending.lookup n with
        | none => exact .refuse (fun _ => hl)
        | some p =>
            dsimp only
            split_ifs with hu
            · exact .takeOut hl hu
            · exact .acknowledge hl (not_not.mp hu)
      · exact .refuse (fun h => absurd h henabled)
  | reinsert n u p => exact .putBack
  | retain k =>
      simp only [access]
      split_ifs
      · cases inp.visit with
        | none => exact .idle (fun _ => rfl) (fun _ hr => by cases hr)
        | some n =>
            simp only [visit]
            have hgo : ∀ r ∈ some (Pc.retain k), ∀ n, r.held n = none := by
              intro r hr n
              rw [← Option.some.inj hr]
              rfl
            cases hl : s.backend.pending.lookup n with
            | none => exact .idle (fun _ => rfl) hgo
            | some p =>
                dsimp only
                split_ifs
                · exact .expire hl
                · exact .idle (fun _ => rfl) hgo
      · exact .idle (fun _ => rfl) (fun _ hr => by cases hr)

theorem does_of_step {inp : Input} {s s' : Shared} {p : Pc} {q : Option Pc}
    (h : system.step inp s p = some (s', q)) : Does s p s'.backend.pending s'.history q := by
  have hd := does_access inp s p
  rw [Option.some.inj h] at hd
  exact hd

theorem held_start (op : Call) (n : Uuid) : (start op).held n = none := by
  cases op <;> rfl

/-! ### Counting -/

/-- The outcomes of one notification: how often it was tracked, acknowledged and expired. -/
def tracks (n : Uuid) (history : List Outcome) : ℕ :=
  history.countP (fun o => match o with | .tracked p => decide (p.notificationId = n) | _ => false)

def acks (n : Uuid) (history : List Outcome) : ℕ :=
  history.countP (fun o => match o with | .acked n' _ => decide (n' = n) | _ => false)

def expiries (n : Uuid) (history : List Outcome) : ℕ :=
  history.countP (fun o => match o with | .expired n' => decide (n' = n) | _ => false)

/-- Whether an entry is there. -/
def present (o : Option PendingAckInfo) : ℕ := if o.isSome then 1 else 0

section counting
variable {s : Shared} {p : Pc} {pending : DashMap Uuid PendingAckInfo} {history : List Outcome} {q : Option Pc}

theorem present_le (o : Option PendingAckInfo) : present o ≤ 1 := by
  unfold present
  split_ifs <;> omega

theorem present_erase (m : DashMap Uuid PendingAckInfo) (n n' : Uuid) :
    present ((AList.erase n' m).lookup n) = if n = n' then 0 else present (m.lookup n) := by
  rw [DashMap.lookup_erase]
  split_ifs <;> rfl

theorem present_insert (m : DashMap Uuid PendingAckInfo) (n n' : Uuid) (p : PendingAckInfo) :
    present ((AList.insert n' p m).lookup n) = if n = n' then 1 else present (m.lookup n) := by
  rw [DashMap.lookup_insert]
  split_ifs <;> rfl

theorem acks_snoc (n : Uuid) (h : List Outcome) (o : Outcome) : acks n (h ++ [o]) =
    acks n h + match o with | .acked n' _ => if n' = n then 1 else 0 | _ => 0 := by
  cases o <;> simp [acks]

theorem expiries_snoc (n : Uuid) (h : List Outcome) (o : Outcome) : expiries n (h ++ [o]) =
    expiries n h + match o with | .expired n' => if n' = n then 1 else 0 | _ => 0 := by
  cases o <;> simp [expiries]

theorem tracks_snoc (n : Uuid) (h : List Outcome) (o : Outcome) : tracks n (h ++ [o]) =
    tracks n h + match o with | .tracked p => if p.notificationId = n then 1 else 0 | _ => 0 := by
  cases o <;> simp [tracks]

/-- A step acknowledges, expires, stores or holds no more of a notification than was stored or
held before, except that it may track it. -/
theorem Does.counts (h : Does s p pending history q) (n : Uuid) :
    acks n history + expiries n history + present (pending.lookup n) +
        q.elim 0 (fun r => present (r.held n)) + tracks n s.history ≤
      acks n s.history + expiries n s.history + present (s.backend.pending.lookup n) + present (p.held n) +
        tracks n history := by
  cases h with
  | idle hp hq =>
      have hnone : q.elim 0 (fun r => present (r.held n)) = 0 := by
        cases q with
        | none => rfl
        | some r => rw [Option.elim_some, hq r rfl n]; rfl
      rw [hnone]
      omega
  | refuse _ =>
      simp only [acks_snoc, expiries_snoc, tracks_snoc, Option.elim_none]
      simp [present]
  | @track n' u conn now =>
      have hle := present_le (s.backend.pending.lookup n)
      simp only [acks_snoc, expiries_snoc, tracks_snoc, present_insert, Option.elim_none]
      by_cases hn : n' = n
      · simp [hn, present, Pc.held]
        omega
      · simp [hn, Ne.symm hn, present, Pc.held]
  | @acknowledge n' u p hl hu =>
      simp only [acks_snoc, expiries_snoc, tracks_snoc, present_erase, Option.elim_none]
      by_cases hn : n' = n
      · subst hn
        simp [hl, present, Pc.held]
        omega
      · simp [hn, Ne.symm hn, present, Pc.held]
  | @takeOut n' u p hl hu =>
      simp only [present_erase, Option.elim_some]
      by_cases hn : n' = n
      · subst hn
        simp [hl, present, Pc.held]
      · simp [hn, Ne.symm hn, present, Pc.held]
  | @putBack n' u p =>
      simp only [acks_snoc, expiries_snoc, tracks_snoc, present_insert, Option.elim_none]
      by_cases hn : n' = n
      · simp [hn, present, Pc.held]
      · simp [hn, Ne.symm hn, present, Pc.held]
  | @expire n' p k k' hl =>
      simp only [acks_snoc, expiries_snoc, tracks_snoc, present_erase, Option.elim_some]
      by_cases hn : n' = n
      · subst hn
        simp [hl, present, Pc.held]
        omega
      · simp [hn, Ne.symm hn, present, Pc.held]

end counting

/-- Acknowledged and expired entries, with the one in the map. -/
def accounted (n : Uuid) (s : Shared) : ℕ :=
  acks n s.history + expiries n s.history + present (s.backend.pending.lookup n)

/-- What is acknowledged, expired, in the map or held was tracked. -/
theorem budget_of_reaches {config : AckConfig} {ok : Config Shared Pc → Event Call Input → Prop}
    {c : Config Shared Pc} (h : Reaches system ok (initial config) c) (n : Uuid) :
    Budget (accounted n) (fun s => tracks n s.history) (fun p => present (p.held n)) c := by
  refine h.invariant (I := Budget (accounted n) (fun s => tracks n s.history) (fun p => present (p.held n)))
    (Nat.le_refl 0) ?_
  intro c e c' _ hc _ hn
  refine hc.next hn ?_ ?_
  · intro op _
    rw [show system.start op = start op from rfl, held_start]
    rfl
  · intro i inp p s q _ _ hs
    exact (does_of_step hs).counts n

/-! ### Where entries come from -/

/-- The entry was tracked under the notification. -/
def Recorded (history : List Outcome) (n : Uuid) (p : PendingAckInfo) : Prop :=
  p.notificationId = n ∧ .tracked p ∈ history

/-- Entries in the map and held ones were tracked, and so was whatever an acknowledgement found. -/
structure Traced (c : Config Shared Pc) : Prop where
  stored : ∀ n p, c.shared.backend.pending.lookup n = some p → Recorded c.shared.history n p
  held : Holds (fun s r => ∀ n p, r.held n = some p → Recorded s.history n p) c
  acked : ∀ l₁ l₂ n u, c.shared.history = l₁ ++ .acked n u :: l₂ → ∃ p, Recorded l₁ n p ∧ p.userId = u

section tracing
variable {s : Shared} {p : Pc} {pending : DashMap Uuid PendingAckInfo} {history : List Outcome} {q : Option Pc}

theorem Recorded.snoc {n : Uuid} {p : PendingAckInfo} (h : Recorded history n p) (o : Outcome) :
    Recorded (history ++ [o]) n p :=
  ⟨h.1, List.mem_append_left _ h.2⟩

theorem Does.history_cases (h : Does s p pending history q) : history = s.history ∨ ∃ o, history = s.history ++ [o] := by
  cases h <;> simp

theorem Recorded.of_does (h : Does s p pending history q) {n : Uuid} {e : PendingAckInfo}
    (hr : Recorded s.history n e) : Recorded history n e := by
  obtain heq | ⟨o, heq⟩ := h.history_cases
  · rw [heq]
    exact hr
  · rw [heq]
    exact hr.snoc o

/-- What a step stores or holds was stored or held before, or is tracked by it. -/
theorem Does.origin (h : Does s p pending history q) {n : Uuid} {e : PendingAckInfo}
    (he : pending.lookup n = some e ∨ q.bind (Pc.held n) = some e) :
    s.backend.pending.lookup n = some e ∨ p.held n = some e ∨ Recorded history n e := by
  cases h with
  | idle hp hq =>
      rcases he with he | he
      · exact .inl he
      · obtain ⟨r, hr, hr'⟩ := Option.bind_eq_some_iff.mp he
        rw [hq r hr n] at hr'
        cases hr'
  | refuse _ => exact he.elim .inl (fun he => by cases he)
  | @track n' u conn now =>
      rcases he with he | he
      · rw [DashMap.lookup_insert] at he
        split_ifs at he with hn
        · cases he
          exact .inr (.inr ⟨hn.symm, List.mem_append_right _ List.mem_cons_self⟩)
        · exact .inl he
      · cases he
  | @acknowledge n' u p hl hu =>
      rcases he with he | he
      · rw [DashMap.lookup_erase] at he
        split_ifs at he
        exact .inl he
      · cases he
  | @takeOut n' u p hl hu =>
      rcases he with he | he
      · rw [DashMap.lookup_erase] at he
        split_ifs at he
        exact .inl he
      · simp only [Option.bind_some, Pc.held] at he
        split_ifs at he with hn
        subst hn
        cases he
        exact .inl hl
  | @putBack n' u p =>
      rcases he with he | he
      · rw [DashMap.lookup_insert] at he
        split_ifs at he with hn
        · refine .inr (.inl ?_)
          rw [Pc.held, if_pos hn.symm, he]
        · exact .inl he
      · cases he
  | @expire n' p k k' hl =>
      rcases he with he | he
      · rw [DashMap.lookup_erase] at he
        split_ifs at he
        exact .inl he
      · cases he

/-- An acknowledgement that is new in the history found an entry for its user. -/
theorem Does.acked_cases (h : Does s p pending history q) {l₁ l₂ : List Outcome} {n : Uuid} {u : String}
    (hh : history = l₁ ++ .acked n u :: l₂) :
    (∃ l₂', s.history = l₁ ++ .acked n u :: l₂') ∨
      (l₁ = s.history ∧ ∃ e, s.backend.pending.lookup n = some e ∧ e.userId = u) := by
  have hsnoc : ∀ o, s.history ++ [o] = l₁ ++ .acked n u :: l₂ →
      (∃ l₂', s.history = l₁ ++ .acked n u :: l₂') ∨ (l₁ = s.history ∧ o = .acked n u) := by
    intro o ho
    rcases Runs.snoc_split_cases ho with ⟨hl₁, heq, -⟩ | ⟨l, -, hl⟩
    · exact .inr ⟨hl₁, heq.symm⟩
    · exact .inl ⟨l, hl⟩
  cases h with
  | idle _ _ => exact .inl ⟨l₂, hh⟩
  | takeOut _ _ => exact .inl ⟨l₂, hh⟩
  | @acknowledge n' u' p hl hu =>
      rcases hsnoc _ hh with hold | ⟨hl₁, heq⟩
      · exact .inl hold
      · cases heq
        exact .inr ⟨hl₁, p, hl, hu⟩
  | refuse _ => exact (hsnoc _ hh).imp id (fun h => by cases h.2)
  | track _ => exact (hsnoc _ hh).imp id (fun h => by cases h.2)
  | putBack => exact (hsnoc _ hh).imp id (fun h => by cases h.2)
  | expire _ => exact (hsnoc _ hh).imp id (fun h => by cases h.2)

end tracing

theorem traced_of_reaches {config : AckConfig} {ok : Config Shared Pc → Event Call Input → Prop}
    {c : Config Shared Pc} (h : Reaches system ok (initial config) c) : Traced c := by
  have hempty : Traced (initial config) := by
    refine ⟨?_, fun _ hr => absurd hr List.not_mem_nil, ?_⟩
    · intro n p hl
      cases hl
    · intro l₁ l₂ n u hh
      simp [initial] at hh
  refine h.invariant (I := Traced) hempty ?_
  intro c e c' _ hc _ hn
  obtain ⟨hstored, hheld, hacked⟩ := hc
  have hheld' := hheld.next hn
    (fun op _ n p hp => by rw [show system.start op = start op from rfl, held_start] at hp; cases hp)
    (by
      intro i inp p s q l₁ l₂ _ hp _ hs
      have hd := does_of_step hs
      refine ⟨fun r hr n e he => ?_, fun r _ hr n e he => (hr n e he).of_does hd⟩
      rcases hd.origin (.inr (Option.bind_eq_some_iff.mpr ⟨r, hr, he⟩)) with he | he | he
      · exact (hstored n e he).of_does hd
      · exact (hheld p (List.mem_of_getElem? hp) n e he).of_does hd
      · exact he)
  obtain ⟨op, rfl, rfl⟩ | ⟨i, inp, p, s, q, l₁, l₂, rfl, hp, hs, hl, rfl⟩ := System.next_cases hn
  · exact ⟨hstored, hheld', hacked⟩
  · have hd := does_of_step hs
    refine ⟨?_, hheld', ?_⟩
    · intro n e he
      rcases hd.origin (.inl he) with he | he | he
      · exact (hstored n e he).of_does hd
      · exact (hheld p (List.mem_of_getElem? hp) n e he).of_does hd
      · exact he
    · intro l₁ l₂ n u hh
      rcases hd.acked_cases hh with ⟨l₂', hold⟩ | ⟨rfl, e, he, hu⟩
      · exact hacked l₁ l₂' n u hold
      · exact ⟨e, hstored n e he, hu⟩

/-- **Acknowledgements are counted at most once.**  In every interleaving, a notification has
been acknowledged and expired together no more often than it was tracked, and an
acknowledgement that succeeded came after a track of the same notification for the same
user. -/
theorem settled_le_tracked {config : AckConfig} {c : Config Shared Pc}
    (h : Reaches system (fun _ _ => True) (initial config) c) :
    (∀ n, acks n c.shared.history + expiries n c.shared.history ≤ tracks n c.shared.history) ∧
      ∀ l₁ l₂ n u, c.shared.history = l₁ ++ .acked n u :: l₂ →
        ∃ p, .tracked p ∈ l₁ ∧ p.notificationId = n ∧ p.userId = u := by
  refine ⟨fun n => ?_, fun l₁ l₂ n u hh => ?_⟩
  · have hbudget := budget_of_reaches h n
    unfold Budget accounted at hbudget
    dsimp only at hbudget
    omega
  · obtain ⟨p, ⟨hid, hmem⟩, hu⟩ := (traced_of_reaches h).acked l₁ l₂ n u hh
    exact ⟨p, hmem, hid, hu⟩

/-! ### A schedule -/

/-- A notification is tracked for `alice` and acknowledged by `bob`, who takes the entry out. -/
def foreignAck : List (Event Call Input) :=
  [.call (.track 7 "alice" 1), .run 0 ⟨0, none⟩, .call (.acknowledge 7 "bob"), .run 0 ⟨0, none⟩]

def ackConfig : AckConfig := ⟨true, 30, 60⟩

/-- `alice` acknowledges while `bob`'s call holds the entry. -/
theorem settled_le_tracked_concurrent :
    ∃ c, Reaches system (fun _ _ => True) (initial ackConfig) c ∧
      c.shared.history.contains (.refused 7 "alice") = true ∧
      ∀ n, acks n c.shared.history + expiries n c.shared.history ≤ tracks n c.shared.history := by
  have hseen : (system.play (fun _ _ => True) (initial ackConfig)
      (foreignAck ++ [.call (.acknowledge 7 "alice"), .run 1 ⟨0, none⟩])).any
      (fun c => c.shared.history.contains (.refused 7 "alice")) = true := by
    decide +kernel
  obtain ⟨c, hr, hc⟩ := exists_reaches_of_play hseen
  exact ⟨c, hr, hc, (settled_le_tracked hr).1⟩

end AckRace

end AraNotification
