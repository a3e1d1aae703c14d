import AraNotification.Basic
import AraNotification.Lib.Interleaving
import AraNotification.Lib.InvertedIndex

/-! # The locks of the local map of connections

`RedisSessionStore::local_connections` is a `DashMap`: its entries lie in shards, each behind a
reader-writer lock of its own.  An iterator holds a read lock on the shard of the current entry
until it advances to the next shard, and `insert` and `remove` need the write lock of the shard
of their key.  The calls of the store are modelled here by what they do to the locks
(`domain/cluster/redis_store.rs`):

* `register_session` inserts a connection;
* `unregister_session` removes one and then looks through the map for another connection of the
  user that the session in Redis names, if there is one;
* `refresh_sessions` sends an `EXPIRE` for every connection in the map, and removes the connection
  while the iterator is at it when the reply is not 1.

That removal waits for the read lock of its own iterator and never gets on
(`never_returns`), so that the task that awaits it never gets on either.  While every `EXPIRE` finds
its key, no call waits for itself, and a refresh can always go on (`not_selfBlocked`). -/

namespace AraNotification

namespace RefreshLock

open Interleaving

/-! ### The programs -/

/-- The local map, the number of readers of each shard and whether it has a writer. -/
structure Shared where
  localConnections : DashMap Uuid String
  readers : ℕ → ℕ
  writer : ℕ → Bool

/-- An iterator: the shard that it has locked, what is left of the entries there, and the next
shard. -/
structure Iter where
  current : Option ℕ
  rest : List (Uuid × String)
  next : ℕ
deriving DecidableEq, Repr

def Iter.new : Iter := ⟨none, [], 0⟩

/-- The calls; an unregistration comes with the user of the session that it finds in Redis. -/
inductive Call where
  | registerSession (connectionId : Uuid) (userId : String)
  | unregisterSession (connectionId : Uuid) (session : Option String)
  | refreshSessions

/-- Program counters.  A call that holds a write lock is in its past tense. -/
inductive Pc where
  | insert (connectionId : Uuid) (userId : String)
  | inserted (connectionId : Uuid)
  | remove (connectionId : Uuid) (session : Option String)
  | removed (connectionId : Uuid) (session : Option String)
  | looking (it : Iter) (connectionId : Uuid) (userId : String)
  | refreshing (it : Iter) (refreshed : ℕ)
  | expiring (it : Iter) (connectionId : Uuid) (refreshed : ℕ)
  | dropping (it : Iter) (connectionId : Uuid) (refreshed : ℕ)
  | dropped (it : Iter) (connectionId : Uuid) (refreshed : ℕ)
  | counting (refreshed : ℕ)
deriving DecidableEq, Repr

def start : Call → Pc
  | .registerSession connectionId userId => .insert connectionId userId
  | .unregisterSession connectionId session => .remove connectionId session
  | .refreshSessions => .refreshing .new 0

namespace Shared

variable (σ : Shared)

/-- No one reads or writes the shard. -/
def idle (k : ℕ) : Bool := decide (σ.readers k = 0) && !σ.writer k

def lockRead (k : ℕ) : Shared := { σ with readers := Function.update σ.readers k (σ.readers k + 1) }

/-- The read lock of an iterator is given up, if it has one. -/
def unlockRead : Option ℕ → Shared
  | some k => { σ with readers := Function.update σ.readers k (σ.readers k - 1) }
  | none => σ

def setWriter (k : ℕ) (writing : Bool) : Shared := { σ with writer := Function.update σ.writer k writing }

end Shared

section programs
variable (shard : Uuid → ℕ) (shards : ℕ)

/-- The entries of a shard. -/
def Shared.entries (σ : Shared) (k : ℕ) : List (Uuid × String) :=
  (σ.localConnections.entries.map (fun e => (e.1, e.2))).filter (fun e => decide (shard e.1 = k))

/-- An iterator at the end of a shard locks the next one and gives up the last. -/
def Iter.advance (it : Iter) (σ : Shared) : Option (Shared × Iter) :=
  if σ.writer it.next then none
  else some ((σ.lockRead it.next).unlockRead it.current, ⟨some it.next, σ.entries shard it.next, it.next + 1⟩)

/-- One step of a call; the input is the reply to an `EXPIRE`. -/
def access (reply : ℤ) (σ : Shared) : Pc → Option (Shared × Option Pc)
  | .insert connectionId userId =>
      if σ.idle (shard connectionId) then
        some ({ σ.setWriter (shard connectionId) true with
          localConnections := σ.localConnections.insert connectionId userId }, some (.inserted connectionId))
      else none
  | .inserted connectionId => some (σ.setWriter (shard connectionId) false, none)
  | .remove connectionId session =>
      if σ.idle (shard connectionId) then
        some ({ σ.setWriter (shard connectionId) true with
          localConnections := AList.erase connectionId σ.localConnections },
          some (.removed connectionId session))
      else none
  | .removed connectionId session =>
      some (σ.setWriter (shard connectionId) false, session.map (.looking .new connectionId))
  | .looking it connectionId userId =>
      match it.rest with
      | e :: rest =>
          if e.1 ≠ connectionId ∧ e.2 = userId then some (σ.unlockRead it.current, none)
          else some (σ, some (.looking { it with rest := rest } connectionId userId))
      | [] =>
          if it.next < shards then
            (it.advance shard σ).map (fun r => (r.1, some (.looking r.2 connectionId userId)))
          else some (σ.unlockRead it.current, none)
  | .refreshing it refreshed =>
      match it.rest with
      | e :: rest => some (σ, some (.expiring { it with rest := rest } e.1 refreshed))
      | [] =>
          if it.next < shards then
            (it.advance shard σ).map (fun r => (r.1, some (.refreshing r.2 refreshed)))
          else some (σ.unlockRead it.current, some (.counting refreshed))
  | .expiring it connectionId refreshed =>
      if reply = 1 then some (σ, some (.refreshing it (refreshed + 1)))
      else some (σ, some (.dropping it connectionId refreshed))
  | .dropping it connectionId refreshed =>
      if σ.idle (shard connectionId) then
        some ({ σ.setWriter (shard connectionId) true with
          localConnections := AList.erase connectionId σ.localConnections },
          some (.dropped it connectionId refreshed))
      else none
  | .dropped it connectionId refreshed =>
      some (σ.setWriter (shard connectionId) false, some (.refreshing it refreshed))
  | .counting _ => some (σ, none)

/-- The calls of the store as concurrent programs. -/
def system : System Shared Call ℤ Pc where
  start := start
  step := access shard shards

/-- A map with any entries, with no call running. -/
def initial (localConnections : DashMap Uuid String) : Config Shared Pc :=
  ⟨⟨localConnections, fun _ => 0, fun _ => false⟩, []⟩

/-! ### Locks -/

/-- The shard that a call has locked for reading. -/
def Pc.reads : Pc → Option ℕ
  | .looking it _ _ | .refreshing it _ | .expiring it _ _ | .dropping it _ _ | .dropped it _ _ => it.current
  | _ => none

/-- The shard that a call has locked for writing. -/
def Pc.writes : Pc → Option ℕ
  | .inserted connectionId | .removed connectionId _ | .dropped _ connectionId _ => some (shard connectionId)
  | _ => none

/-- The shard that an iterator has to lock before its next entry. -/
def Iter.wants (it : Iter) : Option ℕ := if it.rest = [] ∧ it.next < shards then some it.next else none

/-- The shard that a call has to lock for its next step. -/
def Pc.wants : Pc → Option ℕ
  | .insert connectionId _ | .remove connectionId _ | .dropping _ connectionId _ => some (shard connectionId)
  | .looking it _ _ | .refreshing it _ => it.wants shards
  | _ => none

/-- A call waits for a lock that it holds itself. -/
def SelfBlocked (p : Pc) : Prop :=
  ∃ k, p.wants shard shards = some k ∧ (p.reads = some k ∨ p.writes shard = some k)

/-- The call is a refresh. -/
def Pc.refreshes : Pc → Bool
  | .refreshing _ _ | .expiring _ _ _ | .dropping _ _ _ | .dropped _ _ _ | .counting _ => true
  | _ => false

/-- A call can take its next step, or waits for a lock that another running call will give up in
its next step. -/
def GoesOn (c : Config Shared Pc) (p : Pc) : Prop :=
  (∀ reply, (access shard shards reply c.shared p).isSome = true) ∨
    ∃ k, p.wants shard shards = some k ∧ ∃ r ∈ c.threads, r.writes shard = some k ∧ p.writes shard ≠ some k ∧
      ∀ reply, (access shard shards reply c.shared r).isSome = true

end programs

/-- Every `EXPIRE` finds its key. -/
def Alive (c : Config Shared Pc) : Event Call ℤ → Bool
  | .run i reply =>
      match c.threads[i]? with
      | some (.expiring _ _ _) => decide (reply = 1)
      | _ => true
  | _ => true

/-! ### Invariants -/

section invariants
variable {shard : Uuid → ℕ} {shards : ℕ} {c c' : Config Shared Pc} {e : Event Call ℤ}

/-- The shards are walked in order, and the entries at hand lie in the shard that is locked. -/
structure Iter.Walks (shard : Uuid → ℕ) (it : Iter) : Prop where
  lt : ∀ k, it.current = some k → k < it.next
  rest : ∀ e ∈ it.rest, it.current = some (shard e.1)

/-- The assertion of a program counter. -/
def Fits (shard : Uuid → ℕ) (_ : Shared) : Pc → Prop
  | .looking it _ _ | .refreshing it _ => it.Walks shard
  | .expiring it connectionId _ | .dropping it connectionId _ | .dropped it connectionId _ =>
      it.Walks shard ∧ it.current = some (shard connectionId)
  | _ => True

theorem walks_new : Iter.new.Walks shard := ⟨fun _ h => (nomatch h), fun _ h => absurd h List.not_mem_nil⟩

theorem walks_advance {it it' : Iter} {σ σ' : Shared} (h : it.advance shard σ = some (σ', it')) :
    it'.Walks shard := by
  unfold Iter.advance at h
  split_ifs at h
  cases h
  refine ⟨fun k hk => ?_, fun e he => ?_⟩
  · cases hk
    exact Nat.lt_succ_self _
  · have hshard := (List.mem_filter.mp he).2
    rw [of_decide_eq_true hshard]

theorem Iter.Walks.tail {it : Iter} {e : Uuid × String} {rest : List (Uuid × String)}
    (h : it.Walks shard) (hrest : it.rest = e :: rest) : ({ it with rest := rest } : Iter).Walks shard :=
  ⟨h.lt, fun e' he' => h.rest e' (hrest ▸ List.mem_cons_of_mem _ he')⟩

theorem fits_next {reply : ℤ} {σ σ' : Shared} {p : Pc} {q : Option Pc} (hp : Fits shard σ p)
    (hs : access shard shards reply σ p = some (σ', q)) : ∀ r ∈ q, Fits shard σ' r := by
  rintro r hr
  cases p with
  | insert id user | remove id session =>
      simp only [access] at hs
      split_ifs at hs
      cases hs
      cases hr
      exact trivial
  | inserted id =>
      cases hs
      cases hr
  | removed id session =>
      cases hs
      obtain ⟨user, -, rfl⟩ := Option.mem_map.mp hr
      exact walks_new
  | looking it id user =>
      simp only [access] at hs
      split at hs
      · next e rest hrest =>
          split_ifs at hs
          · cases hs
            cases hr
          · cases hs
            cases hr
            exact Iter.Walks.tail hp hrest
      · split_ifs at hs
        · obtain ⟨⟨σ₁, it'⟩, hadvance, heq⟩ := Option.map_eq_some_iff.mp hs
          cases heq
          cases hr
          exact walks_advance hadvance
        · cases hs
          cases hr
  | refreshing it refreshed =>
      simp only [access] at hs
      split at hs
      · next e rest hrest =>
          cases hs
          cases hr
          exact ⟨Iter.Walks.tail hp hrest, hp.rest e (hrest ▸ List.mem_cons_self)⟩
      · split_ifs at hs
        · obtain ⟨⟨σ₁, it'⟩, hadvance, heq⟩ := Option.map_eq_some_iff.mp hs
          cases heq
          cases hr
          exact walks_advance hadvance
        · cases hs
          cases hr
          exact trivial
  | expiring it id refreshed =>
      simp only [access] at hs
      split_ifs at hs
      · cases hs
        cases hr
        exact hp.1
      · cases hs
        cases hr
        exact hp
  | dropping it id refreshed =>
      simp only [access] at hs
      split_ifs at hs
      cases hs
      cases hr
      exact hp
  | dropped it id refreshed =>
      cases hs
      cases hr
      exact hp.1
  | counting refreshed =>
      cases hs
      cases hr

/-- Write locks are taken and given up by the calls that hold them. -/
theorem writes_next {reply : ℤ} {σ σ' : Shared} {p : Pc} {q : Option Pc}
    (hs : access shard shards reply σ p = some (σ', q)) (k : ℕ) (hk : σ'.writer k = true) :
    (σ.writer k = true ∧ p.writes shard ≠ some k) ∨ ∃ r ∈ q, r.writes shard = some k := by
  have htake {j : ℕ} (h : (σ.setWriter j true).writer k = true) : σ.writer k = true ∨ k = j := by
    by_cases hj : k = j
    · exact .inr hj
    · exact .inl (by simpa [Shared.setWriter, hj] using h)
  have hgive {j : ℕ} (h : (σ.setWriter j false).writer k = true) : σ.writer k = true ∧ some j ≠ some k := by
    by_cases hj : k = j
    · simp [Shared.setWriter, hj] at h
    · exact ⟨by simpa [Shared.setWriter, hj] using h, fun heq => hj (Option.some.inj heq).symm⟩
  have hunlock (o : Option ℕ) (σ : Shared) : (σ.unlockRead o).writer = σ.writer := by
    cases o <;> rfl
  have hadvance {it it' : Iter} {σ₁ : Shared} (h : it.advance shard σ = some (σ₁, it')) :
      σ₁.writer = σ.writer := by
    unfold Iter.advance at h
    split_ifs at h
    cases h
    exact hunlock _ _
  cases p with
  | insert id user | remove id session | dropping it id refreshed =>
      simp only [access] at hs
      split_ifs at hs
      cases hs
      rcases htake hk with h | rfl
      · exact .inl ⟨h, by simp [Pc.writes]⟩
      · exact .inr ⟨_, rfl, rfl⟩
  | inserted id | removed id session | dropped it id refreshed =>
      cases hs
      exact .inl (hgive hk)
  | looking it id user =>
      simp only [access] at hs
      split at hs
      · split_ifs at hs
        · cases hs
          exact .inl ⟨(hunlock _ _ ▸ hk), by simp [Pc.writes]⟩
        · cases hs
          exact .inl ⟨hk, by simp [Pc.writes]⟩
      · split_ifs at hs
        · obtain ⟨⟨σ₁, it'⟩, h, heq⟩ := Option.map_eq_some_iff.mp hs
          cases heq
          exact .inl ⟨(hadvance h ▸ hk), by simp [Pc.writes]⟩
        · cases hs
          exact .inl ⟨(hunlock _ _ ▸ hk), by simp [Pc.writes]⟩
  | refreshing it refreshed =>
      simp only [access] at hs
      split at hs
      · cases hs
        exact .inl ⟨hk, by simp [Pc.writes]⟩
      · split_ifs at hs
        · obtain ⟨⟨σ₁, it'⟩, h, heq⟩ := Option.map_eq_some_iff.mp hs
          cases heq
          exact .inl ⟨(hadvance h ▸ hk), by simp [Pc.writes]⟩
        · cases hs
          exact .inl ⟨(hunlock _ _ ▸ hk), by simp [Pc.writes]⟩
  | expiring it id refreshed =>
      simp only [access] at hs
      split_ifs at hs <;> cases hs <;> exact .inl ⟨hk, by simp [Pc.writes]⟩
  | counting refreshed =>
      cases hs
      exact .inl ⟨hk, by simp [Pc.writes]⟩

/-- The readers of a shard are counted. -/
def reading (k : ℕ) (p : Pc) : ℕ := if p.reads = some k then 1 else 0

theorem readers_unlockRead (σ : Shared) (o : Option ℕ) (k : ℕ) (h : o = some k → 0 < σ.readers k) :
    (σ.unlockRead o).readers k + (if o = some k then 1 else 0) = σ.readers k := by
  cases o with
  | none => rfl
  | some j =>
      by_cases hj : k = j
      · subst hj
        have hpos := h rfl
        simp only [Shared.unlockRead, Function.update_self, if_true]
        omega
      · simp [Shared.unlockRead, hj, Ne.symm hj]

/-- An iterator that advances reads the next shard and not the last any more. -/
theorem readers_advance {it it' : Iter} {σ σ' : Shared} (k : ℕ)
    (hpos : it.current = some k → 0 < σ.readers k) (h : it.advance shard σ = some (σ', it')) :
    σ'.readers k + (if it.current = some k then 1 else 0) =
      σ.readers k + if it'.current = some k then 1 else 0 := by
  unfold Iter.advance at h
  split_ifs at h
  cases h
  have hlock : (σ.lockRead it.next).readers k = σ.readers k + if it.next = k then 1 else 0 := by
    by_cases hk : k = it.next
    · simp [Shared.lockRead, hk]
    · simp [Shared.lockRead, hk, Ne.symm hk]
  rw [readers_unlockRead _ _ _ (fun hc => by have := hpos hc; omega), hlock]
  simp only [Option.some.injEq]

/-- Read locks are taken and given up by the calls that hold them. -/
theorem reads_next {reply : ℤ} {σ σ' : Shared} {p : Pc} {q : Option Pc} (k : ℕ)
    (hpos : reading k p ≤ σ.readers k) (hs : access shard shards reply σ p = some (σ', q)) :
    σ'.readers k + reading k p = σ.readers k + q.elim 0 (reading k) := by
  have hheld {o : Option ℕ} (h : (if o = some k then 1 else 0) ≤ σ.readers k) (ho : o = some k) :
      0 < σ.readers k := by
    rw [if_pos ho] at h
    exact h
  cases p with
  | insert id user | remove id session | dropping it id refreshed =>
      simp only [access] at hs
      split_ifs at hs
      cases hs
      rfl
  | inserted id | dropped it id refreshed | counting refreshed =>
      cases hs
      rfl
  | removed id session =>
      cases hs
      cases session <;> rfl
  | looking it id user =>
      simp only [access] at hs
      split at hs
      · split_ifs at hs
        · cases hs
          exact readers_unlockRead σ it.current k (hheld hpos)
        · cases hs
          rfl
      · split_ifs at hs
        · obtain ⟨⟨σ₁, it'⟩, h, heq⟩ := Option.map_eq_some_iff.mp hs
          cases heq
          exact readers_advance k (hheld hpos) h
        · cases hs
          exact readers_unlockRead σ it.current k (hheld hpos)
  | refreshing it refreshed =>
      simp only [access] at hs
      split at hs
      · cases hs
        rfl
      · split_ifs at hs
        · obtain ⟨⟨σ₁, it'⟩, h, heq⟩ := Option.map_eq_some_iff.mp hs
          cases heq
          exact readers_advance k (hheld hpos) h
        · cases hs
          exact readers_unlockRead σ it.current k (hheld hpos)
  | expiring it id refreshed =>
      simp only [access] at hs
      split_ifs at hs <;> cases hs <;> rfl

/-- What holds in every configuration that is reached. -/
structure Inv (shard : Uuid → ℕ) (c : Config Shared Pc) : Prop where
  fits : Holds (Fits shard) c
  written : Covered (fun σ k => σ.writer k = true) (fun p k => p.writes shard = some k) c
  read : ∀ k, c.shared.readers k = carried (reading k) c

theorem reading_le_carried {p : Pc} (hp : p ∈ c.threads) (k : ℕ) : reading k p ≤ carried (reading k) c :=
  List.single_le_sum (fun _ _ => Nat.zero_le _) _ (List.mem_map_of_mem hp)

theorem Inv.next (h : Inv shard c) (hn : (system shard shards).next c e = some c') : Inv shard c' := by
  refine ⟨?_, ?_, fun k => ?_⟩
  · refine h.fits.next hn (fun call _ => ?_) ?_
    · cases call with
      | refreshSessions => exact walks_new
      | _ => exact trivial
    · intro i reply p s q l₁ l₂ _ hp _ hs
      exact ⟨fits_next (h.fits p (List.mem_of_getElem? hp)) hs, fun r _ hr => hr⟩
  · refine h.written.next hn ?_
    intro i reply p s q _ hp hs k hk
    rcases writes_next hs k hk with hold | hnew
    · exact .inl hold
    · exact .inr (.inr hnew)
  · obtain ⟨call, -, hshared, hc⟩ | ⟨i, reply, p, s, q, -, hp, hs, hshared, hc⟩ := carried_next hn
    · have hstart : reading k ((system shard shards).start call) = 0 := by cases call <;> rfl
      rw [hshared, hc, hstart]
      exact h.read k
    · have hmem := List.mem_of_getElem? hp
      have hle := reading_le_carried hmem k
      have hstep := reads_next k (h.read k ▸ hle) hs
      have hcarried := hc (reading k)
      have hbefore := h.read k
      rw [hshared]
      omega

theorem inv_of_reaches {ok : Config Shared Pc → Event Call ℤ → Prop} {entries : DashMap Uuid String}
    (hr : Reaches (system shard shards) ok (initial entries) c) : Inv shard c := by
  refine hr.invariant ⟨fun p hp => absurd hp List.not_mem_nil, fun k hk => (nomatch hk), fun _ => rfl⟩ ?_
  exact fun c e c' _ h _ hn => h.next hn

end invariants

/-! ### Calls that wait for themselves -/

section blocked
variable {shard : Uuid → ℕ} {shards : ℕ} {c c' : Config Shared Pc} {entries : DashMap Uuid String} {p : Pc}

/-- Only a removal under the iterator waits for itself. -/
theorem selfBlocked_cases {σ : Shared} (hp : Fits shard σ p) (h : SelfBlocked shard shards p) :
    ∃ it connectionId refreshed, p = .dropping it connectionId refreshed := by
  obtain ⟨k, hwants, hheld⟩ := h
  have hwalk {it : Iter} (hw : it.Walks shard) (hwants : it.wants shards = some k)
      (hcur : it.current = some k) : False := by
    unfold Iter.wants at hwants
    split_ifs at hwants
    cases hwants
    exact lt_irrefl _ (hw.lt _ hcur)
  cases p with
  | dropping it connectionId refreshed => exact ⟨it, connectionId, refreshed, rfl⟩
  | looking it id user =>
      rcases hheld with hcur | hw
      · exact (hwalk hp hwants hcur).elim
      · cases hw
  | refreshing it refreshed =>
      rcases hheld with hcur | hw
      · exact (hwalk hp hwants hcur).elim
      · cases hw
  | insert id user | remove id session => rcases hheld with hheld | hheld <;> cases hheld
  | inserted | removed | expiring | dropped | counting => cases hwants

/-- A refresh that gets a reply other than 1 waits for itself. -/
theorem selfBlocked_of_reply {ok : Config Shared Pc → Event Call ℤ → Prop}
    (hr : Reaches (system shard shards) ok (initial entries) c) {i : ℕ} {it : Iter} {connectionId : Uuid}
    {refreshed : ℕ} (hp : c.threads[i]? = some (.expiring it connectionId refreshed)) {reply : ℤ}
    (hreply : reply ≠ 1) : ∃ c', (system shard shards).next c (.run i reply) = some c' ∧
      .dropping it connectionId refreshed ∈ c'.threads ∧
      SelfBlocked shard shards (.dropping it connectionId refreshed) := by
  have hs : access shard shards reply c.shared (.expiring it connectionId refreshed) =
      some (c.shared, some (.dropping it connectionId refreshed)) := by simp [access, hreply]
  obtain ⟨c', hn, -, hq⟩ := System.next_run (M := system shard shards) hp hs
  have hfits := (inv_of_reaches hr).fits _ (List.mem_of_getElem? hp)
  exact ⟨c', hn, List.mem_of_getElem? hq, _, rfl, .inl hfits.2⟩

theorem stuck_of_selfBlocked (h : Inv shard c) (hp : p ∈ c.threads) (hself : SelfBlocked shard shards p)
    (reply : ℤ) : access shard shards reply c.shared p = none := by
  obtain ⟨it, id, refreshed, rfl⟩ := selfBlocked_cases (h.fits p hp) hself
  have hcur : reading (shard id) (.dropping it id refreshed) = 1 := if_pos (h.fits _ hp).2
  have hle := reading_le_carried hp (shard id)
  have hread := h.read (shard id)
  have hbusy : c.shared.idle (shard id) = false := by
    rw [Shared.idle, Bool.and_eq_false_iff, decide_eq_false_iff_not]
    left
    omega
  simp [access, hbusy]

/-- **A call that waits for itself stays where it is for ever.** -/
theorem never_returns {ok ok' : Config Shared Pc → Event Call ℤ → Prop}
    (hr : Reaches (system shard shards) ok (initial entries) c) (hp : p ∈ c.threads)
    (hself : SelfBlocked shard shards p) (hr' : Reaches (system shard shards) ok' c c') : p ∈ c'.threads := by
  have hinv : Inv shard c' ∧ p ∈ c'.threads := by
    refine hr'.invariant (I := fun c => Inv shard c ∧ p ∈ c.threads) ⟨inv_of_reaches hr, hp⟩
      (fun c e c' _ h _ hn => ⟨h.1.next hn, ?_⟩)
    obtain ⟨call, rfl, rfl⟩ | ⟨i, reply, r, s, q, l₁, l₂, rfl, -, hs, hl, rfl⟩ := System.next_cases hn
    · exact List.mem_append_left _ h.2
    · have hne : p ≠ r := by
        rintro rfl
        have hnone := stuck_of_selfBlocked h.1 h.2 hself reply
        rw [show (system shard shards).step reply c.shared p = none from hnone] at hs
        cases hs
      have hmem := h.2
      rw [hl, List.mem_append, List.mem_cons] at hmem
      simp only [List.mem_append]
      tauto
  exact hinv.2

/-- While every `EXPIRE` finds its key, no connection is removed under an iterator. -/
def Undropped (p : Pc) : Prop :=
  match p with
  | .dropping _ _ _ | .dropped _ _ _ => False
  | _ => True

theorem undropped_of_reaches
    (hr : Reaches (system shard shards) (fun c e => Alive c e = true) (initial entries) c) :
    Holds (fun _ => Undropped) c := by
  refine hr.invariant (fun p hp => absurd hp List.not_mem_nil) (fun c e c' _ h hok hn => ?_)
  refine h.next hn (fun call _ => by cases call <;> exact trivial) ?_
  rintro i reply p s q l₁ l₂ rfl hp - hs
  have hmem := h p (List.mem_of_getElem? hp)
  refine ⟨fun r hr => ?_, fun r _ hr => hr⟩
  change access shard shards reply c.shared p = some (s, q) at hs
  cases p with
  | insert id user | remove id session =>
      simp only [access] at hs
      split_ifs at hs
      cases hs
      cases hr
      exact trivial
  | inserted id | counting refreshed =>
      cases hs
      cases hr
  | removed id session =>
      cases hs
      obtain ⟨user, -, rfl⟩ := Option.mem_map.mp hr
      exact trivial
  | looking it id user =>
      simp only [access] at hs
      split at hs
      · split_ifs at hs <;> cases hs <;> cases hr
        exact trivial
      · split_ifs at hs
        · obtain ⟨r', -, heq⟩ := Option.map_eq_some_iff.mp hs
          cases heq
          cases hr
          exact trivial
        · cases hs
          cases hr
  | refreshing it refreshed =>
      simp only [access] at hs
      split at hs
      · cases hs
        cases hr
        exact trivial
      · split_ifs at hs
        · obtain ⟨r', -, heq⟩ := Option.map_eq_some_iff.mp hs
          cases heq
          cases hr
          exact trivial
        · cases hs
          cases hr
          exact trivial
  | expiring it id refreshed =>
      have hone : reply = 1 := by simpa [Alive, hp] using hok
      simp only [access, if_pos hone] at hs
      cases hs
      cases hr
      exact trivial
  | dropping it id refreshed | dropped it id refreshed => exact hmem.elim

/-- A refresh waits at most for a writer of the next shard, which gives it up in its next step. -/
theorem goesOn_of_undropped (h : Inv shard c) (hp : p ∈ c.threads) (hun : Undropped p)
    (href : p.refreshes = true) : GoesOn shard shards c p := by
  cases p with
  | expiring it id refreshed =>
      refine .inl (fun reply => ?_)
      simp only [access]
      split_ifs <;> rfl
  | counting refreshed => exact .inl (fun reply => rfl)
  | refreshing it refreshed =>
      cases hrest : it.rest with
      | cons e rest => exact .inl (fun reply => by simp [access, hrest])
      | nil =>
          by_cases hlt : it.next < shards
          · cases hw : c.shared.writer it.next with
            | false => exact .inl (fun reply => by simp [access, hrest, hlt, Iter.advance, hw])
            | true =>
                obtain ⟨r, hr, hwrites⟩ := h.written it.next hw
                refine .inr ⟨it.next, by simp [Pc.wants, Iter.wants, hrest, hlt], r, hr, hwrites,
                  by simp [Pc.writes], fun reply => ?_⟩
                cases r with
                | inserted | removed | dropped => rfl
                | _ => cases hwrites
          · exact .inl (fun reply => by simp [access, hrest, hlt])
  | dropping it id refreshed | dropped it id refreshed => exact hun.elim
  | insert | inserted | remove | removed | looking => cases href

/-- One connection of alice, in a map of two shards. -/
def oneConnection : DashMap Uuid String := AList.insert 7 "alice" ∅

/-- A refresh up to the `EXPIRE` of that connection. -/
def untilExpire : List (Event Call ℤ) :=
  [.call .refreshSessions, .run 0 0, .run 0 0, .run 0 0]

/-- The refresh waits for its next step. -/
def waits (p : Pc) (c : Config Shared Pc) : Bool := decide (p ∈ c.threads)

end blocked

end RefreshLock

end AraNotification
