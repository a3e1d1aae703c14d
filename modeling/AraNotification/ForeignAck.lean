import AraNotification.AckRace

/-! # Acknowledgements of other users

An acknowledgement by a user who is not the one of the entry has to be without effect.  It
takes the entry out, though, and puts it back in a later step; while it holds the entry, the
acknowledgement of the entry's own user fails (`owner_refused`), and an entry tracked
meanwhile is replaced by the held one.

In runs where neither meets a held entry (`Undisturbed`) a held entry is not in the map, no
two calls hold entries of one notification, and the entries in the map and the held ones are
those that the history leaves pending, in which refused acknowledgements do not count
(`Consistent`).  So they cannot be observed (`refusals_invisible`). -/

namespace AraNotification

namespace AckRace

open Interleaving

/-! ### Refused acknowledgements -/

/-- The entry of a notification after an outcome; a refused acknowledgement changes nothing. -/
def settle (n : Uuid) (e : Option PendingAckInfo) : Outcome → Option PendingAckInfo
  | .tracked p => if p.notificationId = n then some p else e
  | .acked n' _ => if n' = n then none else e
  | .expired n' => if n' = n then none else e
  | .refused _ _ => e

/-- The entry of a notification that a history leaves pending. -/
def latest (history : List Outcome) (n : Uuid) : Option PendingAckInfo := history.foldl (settle n) none

theorem latest_snoc (history : List Outcome) (n : Uuid) (o : Outcome) :
    latest (history ++ [o]) n = settle n (latest history n) o := by
  rw [latest, List.foldl_append]
  rfl

/-- No track meets a held entry of its notification, and no acknowledgement a held entry of its
own user. -/
def Undisturbed (c : Config Shared Pc) : Event Call Input → Prop
  | .call _ => True
  | .run i _ =>
      match c.threads[i]? with
      | some (.track n _ _) => ∀ r ∈ c.threads, r.held n = none
      | some (.acknowledge n u) => ∀ r ∈ c.threads, ∀ p ∈ r.held n, p.userId ≠ u
      | _ => True

instance (c : Config Shared Pc) (e : Event Call Input) : Decidable (Undisturbed c e) := by
  unfold Undisturbed
  split
  · infer_instance
  · split <;> infer_instance

/-- The notification of which a call holds the entry. -/
def Pc.token : Pc → Option Uuid
  | .reinsert n _ _ => some n
  | _ => none

/-- An entry that is held is not in the map, no two calls hold entries of one notification, and
the entries in the map and the held ones are those that the history leaves pending. -/
structure Consistent (c : Config Shared Pc) : Prop where
  tokens : Tokens Pc.token (fun s n => s.backend.pending.lookup n = none) c
  stored : ∀ n p, c.shared.backend.pending.lookup n = some p → latest c.shared.history n = some p
  held : Holds (fun s r => ∀ n p, r.held n = some p → latest s.history n = some p) c
  covered : Covered (fun s n => s.backend.pending.lookup n = none ∧ latest s.history n ≠ none)
    (fun r n => r.held n ≠ none) c

/-- The entry of a notification, in the map or held. -/
def entry (c : Config Shared Pc) (n : Uuid) : Option PendingAckInfo :=
  (c.shared.backend.pending.lookup n).or (c.threads.findSome? (Pc.held n))

/-- What a step does to one notification. -/
inductive DoesAt (s : Shared) (p : Pc) (pending : DashMap Uuid PendingAckInfo) (history : List Outcome)
    (q : Option Pc) (n : Uuid) : Prop
  | untouched (hlookup : pending.lookup n = s.backend.pending.lookup n)
      (hlatest : latest history n = latest s.history n) (hp : p.held n = none)
      (hq : q.bind (Pc.held n) = none)
  | tracked {u : String} {conn : Uuid} {e : PendingAckInfo} (hp : p = .track n u conn)
      (hlookup : pending.lookup n = some e) (hlatest : latest history n = some e) (hq : q = none)
  | settled {e : PendingAckInfo} (hbefore : s.backend.pending.lookup n = some e)
      (hlookup : pending.lookup n = none) (hlatest : latest history n = none) (hp : p.held n = none)
      (hq : q.bind (Pc.held n) = none)
  | takenOut {e : PendingAckInfo} (hbefore : s.backend.pending.lookup n = some e)
      (hlookup : pending.lookup n = none) (hlatest : latest history n = latest s.history n)
      (hp : p.held n = none) (hq : q.bind (Pc.held n) = some e)
  | putBack {e : PendingAckInfo} (hp : p.held n = some e) (hlookup : pending.lookup n = some e)
      (hlatest : latest history n = latest s.history n) (hq : q = none)

section consistency
variable {s : Shared} {p : Pc} {pending : DashMap Uuid PendingAckInfo} {history : List Outcome} {q : Option Pc}

/-- An entry that is taken out of the map with the outcome that settles it. -/
theorem doesAt_erase {n' : Uuid} {e : PendingAckInfo} {o : Outcome} (hl : s.backend.pending.lookup n' = some e)
    (ho : ∀ n e', settle n e' o = if n' = n then none else e') (n : Uuid) (hp : p.held n = none)
    (hq : q.bind (Pc.held n) = none) :
    DoesAt s p (s.backend.pending.erase n') (s.history ++ [o]) q n := by
  by_cases hn : n = n'
  · subst hn
    refine .settled hl (AList.lookup_erase _ _) ?_ hp hq
    rw [latest_snoc, ho, if_pos rfl]
  · refine .untouched ?_ ?_ hp hq
    · rw [DashMap.lookup_erase, if_neg hn]
    · rw [latest_snoc, ho, if_neg (Ne.symm hn)]

theorem Does.at (h : Does s p pending history q) (n : Uuid) : DoesAt s p pending history q n := by
  cases h with
  | idle hp hq => exact .untouched rfl rfl (hp n) (Option.bind_eq_none_iff.mpr (fun r hr => hq r hr n))
  | refuse _ => exact .untouched rfl (latest_snoc _ _ _) rfl rfl
  | @track n' u conn now =>
      by_cases hn : n = n'
      · subst hn
        refine .tracked rfl (AList.lookup_insert _) ?_ rfl
        rw [latest_snoc, settle, if_pos rfl]
      · refine .untouched ?_ ?_ rfl rfl
        · rw [DashMap.lookup_insert, if_neg hn]
        · rw [latest_snoc, settle, if_neg (Ne.symm hn)]
  | acknowledge hl hu => exact doesAt_erase hl (fun _ _ => rfl) n rfl rfl
  | @takeOut n' u e hl hu =>
      by_cases hn : n = n'
      · subst hn
        refine .takenOut hl (AList.lookup_erase _ _) rfl rfl ?_
        rw [Option.bind_some, Pc.held, if_pos rfl]
      · refine .untouched ?_ rfl rfl ?_
        · rw [DashMap.lookup_erase, if_neg hn]
        · rw [Option.bind_some, Pc.held, if_neg (Ne.symm hn)]
  | @putBack n' u e =>
      by_cases hn : n = n'
      · subst hn
        refine .putBack ?_ (AList.lookup_insert _) (latest_snoc _ _ _) rfl
        rw [Pc.held, if_pos rfl]
      · refine .untouched ?_ (latest_snoc _ _ _) ?_ rfl
        · rw [DashMap.lookup_insert, if_neg hn]
        · rw [Pc.held, if_neg (Ne.symm hn)]
  | expire hl => exact doesAt_erase hl (fun _ _ => rfl) n rfl rfl

theorem mem_token_iff {p : Pc} {n : Uuid} : n ∈ p.token ↔ p.held n ≠ none := by
  cases p with
  | reinsert n' u e =>
      simp only [Pc.token, Pc.held, Option.mem_def, Option.some.injEq]
      split_ifs with hn
      · simp [hn]
      · simp [hn]
  | _ => simp [Pc.token, Pc.held]

theorem mem_bind_token_iff {q : Option Pc} {n : Uuid} : n ∈ q.bind Pc.token ↔ q.bind (Pc.held n) ≠ none := by
  cases q with
  | none => simp
  | some r => exact mem_token_iff

end consistency

section preservation
variable {c c' : Config Shared Pc} {i : ℕ} {inp : Input} {p : Pc} {s : Shared} {q : Option Pc}

/-- A track is not made while an entry of its notification is held. -/
theorem Undisturbed.track {n : Uuid} {u : String} {conn : Uuid} (hok : Undisturbed c (.run i inp))
    (hp : c.threads[i]? = some p) (heq : p = .track n u conn) : ∀ r ∈ c.threads, r.held n = none := by
  subst heq
  rw [Undisturbed, hp] at hok
  exact hok

/-- An entry that is held is not in the map. -/
theorem Consistent.not_stored (h : Consistent c) {r : Pc} (hr : r ∈ c.threads) {n : Uuid}
    (hheld : r.held n ≠ none) : c.shared.backend.pending.lookup n = none :=
  h.tokens.free n (List.mem_filterMap.mpr ⟨r, hr, mem_token_iff.mpr hheld⟩)

/-- What is taken out was in the map, and what is held is not stored anew. -/
theorem Consistent.next_tokens {e : Event Call Input} (h : Consistent c) (hok : Undisturbed c e)
    (hn : system.next c e = some c') : Tokens Pc.token (fun s n => s.backend.pending.lookup n = none) c' := by
  refine h.tokens.next_of_held hn (fun op _ n hx => absurd (held_start op n) (mem_token_iff.mp hx)) ?_
  rintro i inp p s q rfl hp hs -
  have hd := does_of_step hs
  refine ⟨fun n hx => ?_, fun n hfree hnot hheld => ?_⟩
  · have hq := mem_bind_token_iff.mp hx
    cases hd.at n with
    | untouched _ _ _ hqnone => exact absurd hqnone hq
    | tracked _ _ _ hqnone => exact absurd (by rw [hqnone]; rfl) hq
    | settled _ _ _ _ hqnone => exact absurd hqnone hq
    | takenOut hbefore hlookup _ _ _ => exact ⟨.inr (by rw [hbefore]; simp), hlookup⟩
    | putBack _ _ _ hqnone => exact absurd (by rw [hqnone]; rfl) hq
  · obtain ⟨r, hr, hrn⟩ := hheld
    cases hd.at n with
    | untouched hlookup _ _ _ => rw [hlookup]; exact hfree
    | tracked heq _ _ _ => exact absurd (hok.track hp heq r hr) (mem_token_iff.mp hrn)
    | settled _ hlookup _ _ _ => exact hlookup
    | takenOut _ hlookup _ _ _ => exact hlookup
    | putBack hheld _ _ _ => exact absurd (mem_token_iff.mpr (by rw [hheld]; simp)) hnot

/-- Entries in the map are the latest ones: a track stores what it notes, a re-insertion what was
held. -/
theorem Consistent.next_stored {e : Event Call Input} (h : Consistent c) (hn : system.next c e = some c') :
    ∀ n p, c'.shared.backend.pending.lookup n = some p → latest c'.shared.history n = some p := by
  obtain ⟨op, rfl, rfl⟩ | ⟨i, inp, p, s, q, l₁, l₂, rfl, hp, hs, hl, rfl⟩ := System.next_cases hn
  · exact h.stored
  · intro n e he
    have hmem := List.mem_of_getElem? hp
    cases (does_of_step hs).at n with
    | untouched hlookup hlatest _ _ =>
        rw [hlatest]
        exact h.stored n e (hlookup ▸ he)
    | tracked _ hlookup hlatest _ => rw [hlatest, ← hlookup, he]
    | settled _ hlookup _ _ _ => rw [hlookup] at he; cases he
    | takenOut _ hlookup _ _ _ => rw [hlookup] at he; cases he
    | putBack hheld hlookup hlatest _ => rw [hlatest, h.held p hmem n _ hheld, ← hlookup, he]

/-- Held entries stay the latest ones, since no track is made while they are held. -/
theorem Consistent.next_held {e : Event Call Input} (h : Consistent c) (hok : Undisturbed c e)
    (hn : system.next c e = some c') :
    Holds (fun s r => ∀ n p, r.held n = some p → latest s.history n = some p) c' := by
  refine h.held.next hn (fun op _ n e he => absurd he (by
    rw [show system.start op = start op from rfl, held_start]; simp)) ?_
  rintro i inp p s q l₁ l₂ rfl hp hl hs
  refine ⟨fun r hr n e he => ?_, fun r hr hrest n e he => ?_⟩
  · have hq : q.bind (Pc.held n) = some e := Option.bind_eq_some_iff.mpr ⟨r, hr, he⟩
    cases (does_of_step hs).at n with
    | untouched _ _ _ hqnone => rw [hqnone] at hq; cases hq
    | tracked _ _ _ hqnone => rw [hqnone] at hq; cases hq
    | settled _ _ _ _ hqnone => rw [hqnone] at hq; cases hq
    | takenOut hbefore _ hlatest _ hqsome => rw [hlatest, h.stored n _ hbefore, ← hqsome, hq]
    | putBack _ _ _ hqnone => rw [hqnone] at hq; cases hq
  · have hother : r ∈ c.threads := mem_of_split hl hr
    have hsome : r.held n ≠ none := by rw [he]; simp
    cases (does_of_step hs).at n with
    | untouched _ hlatest _ _ => rw [hlatest]; exact hrest n e he
    | tracked heq _ _ _ => exact absurd (hok.track hp heq r hother) hsome
    | settled hbefore _ _ _ _ => rw [h.not_stored hother hsome] at hbefore; cases hbefore
    | takenOut _ _ hlatest _ _ => rw [hlatest]; exact hrest n e he
    | putBack _ _ hlatest _ => rw [hlatest]; exact hrest n e he

/-- What is pending and not in the map is held by a call. -/
theorem Consistent.next_covered {e : Event Call Input} (h : Consistent c) (hn : system.next c e = some c') :
    Covered (fun s n => s.backend.pending.lookup n = none ∧ latest s.history n ≠ none)
      (fun r n => r.held n ≠ none) c' := by
  refine h.covered.next hn ?_
  rintro i inp p s q rfl hp hs n ⟨hlookup', hlatest'⟩
  cases (does_of_step hs).at n with
  | untouched hlookup hlatest hp _ =>
      exact .inl ⟨⟨hlookup ▸ hlookup', hlatest ▸ hlatest'⟩, fun hne => hne hp⟩
  | tracked _ hlookup _ _ => rw [hlookup] at hlookup'; cases hlookup'
  | settled _ _ hlatest _ _ => exact absurd hlatest hlatest'
  | takenOut _ _ _ _ hq =>
      obtain ⟨r, hr, hheld⟩ := Option.bind_eq_some_iff.mp hq
      exact .inr (.inr ⟨r, hr, by rw [hheld]; simp⟩)
  | putBack _ hlookup _ _ => rw [hlookup] at hlookup'; cases hlookup'

theorem Consistent.next {e : Event Call Input} (h : Consistent c) (hok : Undisturbed c e)
    (hn : system.next c e = some c') : Consistent c' where
  tokens := h.next_tokens hok hn
  stored := h.next_stored hn
  held := h.next_held hok hn
  covered := h.next_covered hn

end preservation

theorem consistent_of_reaches {config : AckConfig} {c : Config Shared Pc}
    (h : Reaches system Undisturbed (initial config) c) : Consistent c := by
  have hempty : Consistent (initial config) := by
    refine ⟨⟨List.nodup_nil, fun _ hx => absurd hx List.not_mem_nil⟩, ?_,
      fun _ hr => absurd hr List.not_mem_nil, ?_⟩
    · intro n p hl
      cases hl
    · rintro n ⟨-, hne⟩
      exact absurd rfl hne
  exact h.invariant (I := Consistent) hempty (fun _ _ _ _ hc hok hn => hc.next hok hn)

theorem config_of_reaches {config : AckConfig} {ok : Config Shared Pc → Event Call Input → Prop}
    {c : Config Shared Pc} (h : Reaches system ok (initial config) c) : c.shared.backend.config = config := by
  have hstep : ∀ inp s p, (access inp s p).1.backend.config = s.backend.config := by
    intro inp s p
    cases p with
    | track n u conn =>
        simp only [access]
        split_ifs
        · exact MemoryAckBackend.config_track
        · rfl
    | acknowledge n u =>
        simp only [access]
        split_ifs
        · split
          · rfl
          · split_ifs <;> rfl
        · rfl
    | reinsert n u p => rfl
    | retain k =>
        simp only [access, visit]
        split_ifs
        · split
          · split
            · split_ifs <;> rfl
            · rfl
          · rfl
        · rfl
  refine h.shared_invariant (P := fun s => s.backend.config = config) rfl ?_
  intro c i inp p s q _ hc _ _ hs
  have hsame := hstep inp c.shared p
  rw [Option.some.inj hs] at hsame
  exact hsame.trans hc

/-- The entries, in the map or held, are those that the history leaves pending. -/
theorem Consistent.entry_eq {c : Config Shared Pc} (h : Consistent c) (n : Uuid) :
    entry c n = latest c.shared.history n := by
  unfold entry
  cases hl : c.shared.backend.pending.lookup n with
  | some p => exact (h.stored n p hl).symm
  | none =>
      rw [Option.none_or]
      cases hf : c.threads.findSome? (Pc.held n) with
      | some p =>
          obtain ⟨r, hr, hheld⟩ := List.exists_of_findSome?_eq_some hf
          exact (h.held r hr n p hheld).symm
      | none =>
          by_contra hne
          obtain ⟨r, hr, hheld⟩ := h.covered n ⟨hl, fun hnone => hne hnone.symm⟩
          exact hheld (List.findSome?_eq_none_iff.mp hf r hr)

/-- What changes whether a notification is pending. -/
def concerns (n : Uuid) : Outcome → Bool
  | .tracked p => decide (p.notificationId = n)
  | .acked n' _ => decide (n' = n)
  | .expired n' => decide (n' = n)
  | .refused _ _ => false

theorem latest_filter (history : List Outcome) (n : Uuid) :
    latest (history.filter (concerns n)) n = latest history n := by
  induction history using List.reverseRecOn with
  | nil => rfl
  | append_singleton history o ih =>
      rw [List.filter_append, latest_snoc]
      cases hc : concerns n o with
      | true => simp only [List.filter_cons, hc, if_true, List.filter_nil, latest_snoc, ih]
      | false =>
          have hsame : ∀ e, settle n e o = e := by
            intro e
            cases o <;> simp_all [concerns, settle]
          rw [hsame, ← ih]
          simp [hc]

/-- **When no track and no acknowledgement of the entry's own user falls between the removal and
the re-insertion of a refused one, refused acknowledgements have no effect**: in every state
of such a run the entries are those that the history leaves pending, no re-insertion replaces
an entry, a step that adds at most a refusal changes no entry, and the user for whom a
notification was tracked once, and which was neither acknowledged nor expired since,
acknowledges it with success. -/
theorem refusals_invisible {config : AckConfig} {c : Config Shared Pc}
    (h : Reaches system Undisturbed (initial config) c) :
    (∀ n, entry c n = latest c.shared.history n) ∧
    (∀ n u p, .reinsert n u p ∈ c.threads → c.shared.backend.pending.lookup n = none) ∧
    (∀ e c', Undisturbed c e → system.next c e = some c' →
      (c'.shared.history = c.shared.history ∨ ∃ n u, c'.shared.history = c.shared.history ++ [.refused n u]) →
      ∀ n, entry c' n = entry c n) ∧
    (config.enabled = true → ∀ i inp n u p, c.threads[i]? = some (.acknowledge n u) →
      Undisturbed c (.run i inp) → c.shared.history.filter (concerns n) = [.tracked p] → p.userId = u →
      ∃ c', system.next c (.run i inp) = some c' ∧ c'.shared.history = c.shared.history ++ [.acked n u]) := by
  have hc := consistent_of_reaches h
  refine ⟨hc.entry_eq, ?_, ?_, ?_⟩
  · intro n u p hr
    exact hc.not_stored hr (by simp [Pc.held])
  · intro e c' hok hn hhist n
    rw [hc.entry_eq, (consistent_of_reaches (h.step hok hn)).entry_eq]
    rcases hhist with heq | ⟨n', u, heq⟩
    · rw [heq]
    · rw [heq, latest_snoc]
      rfl
  · intro henabled i inp n u p hp hok hfilter hu
    have hid : p.notificationId = n := by
      have hmem : Outcome.tracked p ∈ c.shared.history.filter (concerns n) := by
        rw [hfilter]
        exact List.mem_cons_self
      simpa [concerns] using (List.mem_filter.mp hmem).2
    have hlatest : latest c.shared.history n = some p := by
      rw [← latest_filter, hfilter]
      simp [latest, settle, hid]
    -- nobody holds the entry, so it is in the map
    have hmap : c.shared.backend.pending.lookup n = some p := by
      cases hl : c.shared.backend.pending.lookup n with
      | some p' => rw [← hc.stored n p' hl, hlatest]
      | none =>
          obtain ⟨r, hr, hheld⟩ := hc.covered n ⟨hl, by rw [hlatest]; simp⟩
          obtain ⟨p', hp'⟩ := Option.ne_none_iff_exists'.mp hheld
          have hsame : p' = p := Option.some.inj ((hc.held r hr n p' hp').symm.trans hlatest)
          rw [Undisturbed, hp] at hok
          exact absurd (by rw [hsame, hu]) (hok r hr p' hp')
    have hconfig : c.shared.backend.config.enabled = true := by rw [config_of_reaches h, henabled]
    obtain ⟨c', hn, hshared⟩ : ∃ c', system.next c (.run i inp) = some c' ∧
        c'.shared = (access inp c.shared (.acknowledge n u)).1 := by
      simp [System.next, hp, system]
    refine ⟨c', hn, ?_⟩
    rw [hshared]
    simp [access, hconfig, hmap, hu, Shared.note, Shared.setPending, Shared.setStats]

/-! ### Schedules -/

section examples

/-- `alice` acknowledges after `bob`'s call has put the entry back. -/
theorem refusals_invisible_in_turn :
    ∃ c c', Reaches system Undisturbed (initial ackConfig) c ∧
      system.next c (.run 0 ⟨0, none⟩) = some c' ∧
      c'.shared.history = c.shared.history ++ [.acked 7 "alice"] := by
  have hseen : (system.play Undisturbed (initial ackConfig)
      (foreignAck ++ [.run 0 ⟨0, none⟩, .call (.acknowledge 7 "alice")])).any (fun c => decide
      (c.threads[0]?.map (fun p => match p with | .acknowledge n u => (n, u) | _ => (0, "")) = some (7, "alice") ∧
        c.threads.all (fun r => (r.held 7).isNone) = true ∧
        c.shared.history.filter (concerns 7) = [.tracked ⟨7, "alice", 1, 0⟩])) = true := by
    decide +kernel
  obtain ⟨c, hr, hc⟩ := exists_reaches_of_play hseen
  obtain ⟨hthread, hfree, hfilter⟩ := of_decide_eq_true hc
  have hp : c.threads[0]? = some (.acknowledge 7 "alice") := by
    cases hp : c.threads[0]? with
    | none => rw [hp] at hthread; cases hthread
    | some p =>
        rw [hp] at hthread
        cases p <;> simp_all
  have hok : Undisturbed c (.run 0 ⟨0, none⟩) := by
    rw [Undisturbed, hp]
    intro r hr p hheld
    have hnone := List.all_eq_true.mp hfree r hr
    rw [Option.mem_def.mp hheld] at hnone
    cases hnone
  obtain ⟨c', hn, hh⟩ := (refusals_invisible hr).2.2.2 rfl 0 ⟨0, none⟩ 7 "alice" _ hp hok hfilter rfl
  exact ⟨c, c', hr, hn, hh⟩

/-- While `bob`'s call holds the entry, `alice`'s acknowledgement is refused. -/
theorem owner_refused :
    ¬ ∀ (config : AckConfig) (c : Config Shared Pc), config.enabled = true →
        Reaches system (fun _ _ => True) (initial config) c →
        ∀ i inp n u p, c.threads[i]? = some (.acknowledge n u) →
          c.shared.history.filter (concerns n) = [.tracked p] → p.userId = u →
          ∃ c', system.next c (.run i inp) = some c' ∧ c'.shared.history = c.shared.history ++ [.acked n u] := by
  intro hall
  have hseen : (system.play (fun _ _ => True) (initial ackConfig)
      (foreignAck ++ [.call (.acknowledge 7 "alice")])).any (fun c => decide
      (c.threads[1]?.map (fun p => match p with | .acknowledge n u => (n, u) | _ => (0, "")) = some (7, "alice") ∧
        c.shared.history.filter (concerns 7) = [.tracked ⟨7, "alice", 1, 0⟩] ∧
        ((system.next c (.run 1 ⟨0, none⟩)).any (fun c' => c'.shared.history.contains (.acked 7 "alice"))) = false))
      = true := by
    decide +kernel
  obtain ⟨c, hr, hc⟩ := exists_reaches_of_play hseen
  obtain ⟨hthread, hfilter, hnot⟩ := of_decide_eq_true hc
  have hp : c.threads[1]? = some (.acknowledge 7 "alice") := by
    cases hp : c.threads[1]? with
    | none => rw [hp] at hthread; cases hthread
    | some p =>
        rw [hp] at hthread
        cases p <;> simp_all
  obtain ⟨c', hn, hh⟩ := hall ackConfig c rfl hr 1 ⟨0, none⟩ 7 "alice" _ hp hfilter rfl
  rw [hn, Option.any_some, hh] at hnot
  simp at hnot

end examples

end AckRace

end AraNotification
