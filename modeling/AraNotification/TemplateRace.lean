import AraNotification.Templates
import AraNotification.Lib.Interleaving
import AraNotification.Lib.Linearization

/-! # Concurrent calls of the template store

`create`, `get`, `update` and `delete` of `TemplateStore` run concurrently, and every access of the
map is one atomic step.  `create` checks that the identifier is free, inserts and reads back what it
inserted; `update` reads a template and writes a changed copy; the other two make one access.  A
computation between two accesses belongs to the first of them, and the clock reading of an update is
part of its call.

Beside the map the shared state has the history of invocations and responses, and a log of the calls
in the order in which they take effect, which no step reads.

A call is in its *window* from its first access to its last.  When no step changes the entry of an
identifier while another call is in its window on that identifier (`Exclusive`), no call panics and
the log linearizes the history, with the map in the state that the log leads to
(`linearizable_of_exclusive`).  In a sequential order a template is created twice only with a deletion
between (`deleted_between`), is updated after a deletion only when it was created again
(`created_between`), and a field keeps its value until it is set again (`Legal.keeps`).

Without the condition a deletion can come between the insertion of a creation and its read, which then
panics (`not_linearizable`). -/

namespace AraNotification

namespace TemplateRace

open Interleaving Linearization

/-! ### The calls -/

/-- A call of the store. -/
inductive StoreCall where
  | create (t : StoredTemplate)
  | get (id : String)
  | update (id : String) (updates : UpdateTemplateRequest) (now : DateTime)
  | delete (id : String)

/-- What a call returns. -/
inductive StoreResult where
  | template (r : Except TemplateError StoredTemplate)
  | deleted (r : Except TemplateError Unit)
  | panicked

/-- One call at a time. -/
def spec (U : UnicodeTables) (store : TemplateMap) : StoreCall → StoreResult × TemplateMap
  | .create t =>
      match store.create U t with
      | (some r, store) => (.template r, store)
      | (none, store) => (.panicked, store)
  | .get id => (.template (store.get id), store)
  | .update id updates now => let (r, store) := store.update U now id updates; (.template r, store)
  | .delete id => let (r, store) := store.delete id; (.deleted r, store)

/-! ### Their steps -/

/-- The map, the history, and the calls that have taken effect. -/
structure Shared where
  store : TemplateMap
  history : List (Moment StoreCall StoreResult)
  log : List (Linearization.Entry StoreCall StoreResult)

namespace Shared
variable (s : Shared) (call : ℕ)

def invoke (op : StoreCall) : Shared := { s with history := s.history ++ [.invoke s.history.length op] }

/-- The call takes effect. -/
def effect (op : StoreCall) (r : StoreResult) (store : TemplateMap) : Shared :=
  { s with store := store, log := s.log ++ [⟨call, op, r⟩] }

def respond (r : StoreResult) : Shared := { s with history := s.history ++ [.respond call r] }

/-- The call takes effect and returns. -/
def finish (op : StoreCall) (r : StoreResult) (store : TemplateMap) : Shared :=
  (s.effect call op r store).respond call r

end Shared

/-- Program counters; a call is identified by the place of its invocation in the history. -/
inductive Pc where
  | begin (op : StoreCall)
  | containsKey (call : ℕ) (t : StoredTemplate)
  | insertNew (call : ℕ) (t : StoredTemplate)
  | reread (call : ℕ) (id : String)
  | get (call : ℕ) (id : String)
  | getForUpdate (call : ℕ) (id : String) (updates : UpdateTemplateRequest) (now : DateTime)
  | insertUpdated (call : ℕ) (id : String) (updates : UpdateTemplateRequest) (now : DateTime)
      (t : StoredTemplate)
  | remove (call : ℕ) (id : String)

/-- The first step of a call on the map. -/
def Pc.first (call : ℕ) : StoreCall → Pc
  | .create t => .containsKey call t
  | .get id => .get call id
  | .update id updates now => .getForUpdate call id updates now
  | .delete id => .remove call id

/-- One atomic step. -/
def step (U : UnicodeTables) (s : Shared) : Pc → Option (Shared × Option Pc)
  | .begin op => some (s.invoke op, some (.first s.history.length op))
  | .containsKey call t =>
      match t.validate U with
      | .error e => some (s.finish call (.create t) (.template (.error e)) s.store, none)
      | .ok () =>
          if (s.store.lookup t.id).isSome then
            some (s.finish call (.create t) (.template (.error (.alreadyExists t.id))) s.store, none)
          else some (s, some (.insertNew call t))
  | .insertNew call t =>
      some (s.effect call (.create t) (.template (.ok t)) (s.store.insert t.id t), some (.reread call t.id))
  | .reread call id =>
      -- `get(&id).unwrap()`
      match s.store.lookup id with
      | some t => some (s.respond call (.template (.ok t)), none)
      | none => some (s.respond call .panicked, none)
  | .get call id => some (s.finish call (.get id) (.template (s.store.get id)) s.store, none)
  | .getForUpdate call id updates now =>
      match s.store.get id with
      | .error e => some (s.finish call (.update id updates now) (.template (.error e)) s.store, none)
      | .ok t =>
          match (updates.apply t now).validate U with
          | .error e => some (s.finish call (.update id updates now) (.template (.error e)) s.store, none)
          | .ok () => some (s, some (.insertUpdated call id updates now (updates.apply t now)))
  | .insertUpdated call id updates now t =>
      some (s.finish call (.update id updates now) (.template (.ok t)) (s.store.insert id t), none)
  | .remove call id =>
      match s.store.lookup id with
      | some _ => some (s.finish call (.delete id) (.deleted (.ok ())) (s.store.erase id), none)
      | none => some (s.finish call (.delete id) (.deleted (.error (.notFound id))) s.store, none)

/-- Any number of calls. -/
def system (U : UnicodeTables) : System Shared StoreCall Unit Pc := ⟨.begin, fun _ s p => step U s p⟩

/-- A store before the first call. -/
def start (store : TemplateMap) : Config Shared Pc := ⟨⟨store, [], []⟩, []⟩

/-! ### The condition -/

/-- The identifier whose entry the next step changes. -/
def Pc.changes (s : Shared) : Pc → Option String
  | .insertNew _ t => some t.id
  | .insertUpdated _ id _ _ _ => some id
  | .remove _ id => if (s.store.lookup id).isSome then some id else none
  | _ => none

/-- The identifier of a call that is between two of its accesses. -/
def Pc.window : Pc → Option String
  | .insertNew _ t => some t.id
  | .reread _ id => some id
  | .insertUpdated _ id _ _ _ => some id
  | _ => none

/-- A step that changes an entry finds no other call in its window on it. -/
def Exclusive (c : Config Shared Pc) : Event StoreCall Unit → Prop
  | .call _ => True
  | .run i _ =>
      ∀ p ∈ c.threads[i]?, ∀ id ∈ p.changes c.shared,
        c.threads.countP (fun q => q.window == some id) ≤ if p.window = some id then 1 else 0

instance (c : Config Shared Pc) (e : Event StoreCall Unit) : Decidable (Exclusive c e) := by
  unfold Exclusive
  split <;> infer_instance

/-! ### What a step does -/

/-- The call that a program counter belongs to. -/
def Pc.call : Pc → Option ℕ
  | .begin _ => none
  | .containsKey call _ | .insertNew call _ | .reread call _ | .get call _ | .getForUpdate call _ _ _
  | .insertUpdated call _ _ _ _ | .remove call _ => some call

/-- The call that takes the next step, which may be a new one. -/
def Pc.acting (s : Shared) (p : Pc) : ℕ := p.call.getD s.history.length

/-- An invocation is identified by its place, which lies in the history. -/
def Numbered (s : Shared) : Prop := ∀ call op, .invoke call op ∈ s.history → call < s.history.length

section steps
variable {U : UnicodeTables} {s s' : Shared} {p r : Pc} {q : Option Pc} {call : ℕ} {op : StoreCall}

/-- History and log grow, the log by entries of the call, and an entry of the map changes only where
the program counter says. -/
structure Grows (call : ℕ) (changed : Option String) (s s' : Shared) : Prop where
  history : ∃ moments, s'.history = s.history ++ moments
  log : ∃ entries, s'.log = s.log ++ entries ∧ ∀ e ∈ entries, e.id = call
  store : ∀ id, changed ≠ some id → s'.store.lookup id = s.store.lookup id
  numbered : Numbered s → Numbered s'

theorem grows_refl (changed : Option String) : Grows call changed s s :=
  ⟨⟨[], by simp⟩, ⟨[], by simp⟩, fun _ _ => rfl, id⟩

theorem grows_invoke (changed : Option String) : Grows call changed s (s.invoke op) := by
  refine ⟨⟨_, rfl⟩, ⟨[], by simp [Shared.invoke]⟩, fun _ _ => rfl, fun h call op' hm => ?_⟩
  have hlen : (s.invoke op).history.length = s.history.length + 1 := by simp [Shared.invoke]
  rcases List.mem_append.mp hm with hm | hm
  · exact hlen ▸ Nat.lt_succ_of_lt (h call op' hm)
  · cases List.mem_singleton.mp hm
    exact hlen ▸ Nat.lt_succ_self _

theorem numbered_respond {result : StoreResult} (h : Numbered s) : Numbered (s.respond call result) := by
  intro call' op hm
  have hlen : (s.respond call result).history.length = s.history.length + 1 := by simp [Shared.respond]
  rcases List.mem_append.mp hm with hm | hm
  · exact hlen ▸ Nat.lt_succ_of_lt (h call' op hm)
  · cases List.mem_singleton.mp hm

theorem grows_respond (changed : Option String) (result : StoreResult) :
    Grows call changed s (s.respond call result) :=
  ⟨⟨_, rfl⟩, ⟨[], by simp [Shared.respond]⟩, fun _ _ => rfl, numbered_respond⟩

theorem grows_effect {changed : Option String} {result : StoreResult} {store : TemplateMap}
    (h : ∀ id, changed ≠ some id → store.lookup id = s.store.lookup id) :
    Grows call changed s (s.effect call op result store) :=
  ⟨⟨[], by simp [Shared.effect]⟩, ⟨_, rfl, by simp⟩, h, id⟩

theorem grows_finish {changed : Option String} {result : StoreResult} {store : TemplateMap}
    (h : ∀ id, changed ≠ some id → store.lookup id = s.store.lookup id) :
    Grows call changed s (s.finish call op result store) :=
  ⟨⟨_, rfl⟩, ⟨_, rfl, by simp⟩, h, fun hn => numbered_respond (s := s.effect call op result store) hn⟩

theorem call_first (call : ℕ) (op : StoreCall) : (Pc.first call op).call = some call := by
  cases op <;> rfl

/-- What a step leaves as it is. -/
theorem grows_step (hs : step U s p = some (s', q)) :
    Grows (p.acting s) (p.changes s) s s' ∧ ∀ r ∈ q, r.call = some (p.acting s) := by
  have insert_ne : ∀ {id k : String} (t : StoredTemplate), some k ≠ some id →
      AList.lookup id (AList.insert k t s.store) = s.store.lookup id := by
    intro id k t hne
    exact AList.lookup_insert_ne (fun he => hne (congrArg some he.symm))
  cases p with
  | begin op =>
      cases hs
      exact ⟨grows_invoke _, by rintro r ⟨⟩; exact call_first _ op⟩
  | containsKey call' t =>
      simp only [step] at hs
      split at hs
      · cases hs
        exact ⟨grows_finish (fun _ _ => rfl), by simp⟩
      · split_ifs at hs <;> cases hs
        · exact ⟨grows_finish (fun _ _ => rfl), by simp⟩
        · exact ⟨grows_refl _, by rintro r ⟨⟩; rfl⟩
  | insertNew call' t =>
      cases hs
      exact ⟨grows_effect (fun id hid => insert_ne t hid), by rintro r ⟨⟩; rfl⟩
  | reread call' id =>
      simp only [step] at hs
      split at hs <;> cases hs <;> exact ⟨grows_respond _ _, by simp⟩
  | get call' id =>
      cases hs
      exact ⟨grows_finish (fun _ _ => rfl), by simp⟩
  | getForUpdate call' id updates now =>
      simp only [step] at hs
      split at hs
      · cases hs
        exact ⟨grows_finish (fun _ _ => rfl), by simp⟩
      · split at hs <;> cases hs
        · exact ⟨grows_finish (fun _ _ => rfl), by simp⟩
        · exact ⟨grows_refl _, by rintro r ⟨⟩; rfl⟩
  | insertUpdated call' id updates now t =>
      cases hs
      exact ⟨grows_finish (fun id hid => insert_ne t hid), by simp⟩
  | remove call' id =>
      simp only [step] at hs
      split at hs <;> cases hs
      · rename_i t hl
        refine ⟨grows_finish (fun id' hid => ?_), by simp⟩
        simp only [Pc.changes, hl, Option.isSome_some, if_true] at hid
        exact AList.lookup_erase_ne (fun he => hid (congrArg some he.symm))
      · exact ⟨grows_finish (fun _ _ => rfl), by simp⟩

/-! ### Assertions -/

/-- The call has been invoked and has not taken effect. -/
def Pending (s : Shared) (call : ℕ) (op : StoreCall) : Prop :=
  .invoke call op ∈ s.history ∧ call ∉ ids s.log

/-- What holds where a call stands. -/
def Asserted (U : UnicodeTables) (s : Shared) : Pc → Prop
  | .begin _ => True
  | .containsKey call t => Pending s call (.create t)
  | .insertNew call t =>
      Pending s call (.create t) ∧ t.validate U = .ok () ∧ s.store.lookup t.id = none
  | .reread call id =>
      ∃ t, ⟨call, .create t, .template (.ok t)⟩ ∈ s.log ∧ s.store.lookup id = some t
  | .get call id => Pending s call (.get id)
  | .getForUpdate call id updates now => Pending s call (.update id updates now)
  | .insertUpdated call id updates now t =>
      Pending s call (.update id updates now) ∧
        ∃ t₀, s.store.lookup id = some t₀ ∧ t = updates.apply t₀ now ∧ t.validate U = .ok ()
  | .remove call id => Pending s call (.delete id)

theorem Pending.grows {changed : Option String} {other : ℕ} (h : Pending s call op)
    (hg : Grows other changed s s') (hne : call ≠ other) : Pending s' call op := by
  obtain ⟨moments, hhistory⟩ := hg.history
  obtain ⟨entries, hlog, hentries⟩ := hg.log
  refine ⟨hhistory ▸ List.mem_append_left _ h.1, ?_⟩
  rw [hlog, ids, List.map_append, List.mem_append]
  rintro (hm | hm)
  · exact h.2 hm
  · obtain ⟨e, he, rfl⟩ := List.mem_map.mp hm
    exact hne (hentries e he)

/-- A step of another call keeps an assertion, if it changes no entry on which there is a window. -/
theorem Asserted.grows {changed : Option String} {other : ℕ} (h : Asserted U s r)
    (hg : Grows other changed s s') (hne : r.call ≠ some other)
    (hwindow : ∀ id, changed = some id → r.window ≠ some id) : Asserted U s' r := by
  have hcall : ∀ {call : ℕ}, r.call = some call → call ≠ other := fun hr he => hne (he ▸ hr)
  have hlookup : ∀ {id : String}, r.window = some id → s'.store.lookup id = s.store.lookup id :=
    fun hw => hg.store _ (fun hc => hwindow _ hc hw)
  cases r with
  | begin op => trivial
  | containsKey call t | get call id | getForUpdate call id updates now | remove call id =>
      exact Pending.grows h hg (hcall rfl)
  | insertNew call t =>
      obtain ⟨hp, hv, hl⟩ := h
      exact ⟨hp.grows hg (hcall rfl), hv, (hlookup rfl).trans hl⟩
  | reread call id =>
      obtain ⟨t, hlog, hl⟩ := h
      obtain ⟨entries, hentries, -⟩ := hg.log
      exact ⟨t, hentries ▸ List.mem_append_left _ hlog, (hlookup rfl).trans hl⟩
  | insertUpdated call id updates now t =>
      obtain ⟨hp, t₀, hl, ht⟩ := h
      exact ⟨hp.grows hg (hcall rfl), t₀, (hlookup rfl).trans hl, ht⟩

/-! ### The step of a call itself -/

/-- The log explains the history, and the map is where it leads. -/
def Explained (U : UnicodeTables) (init : TemplateMap) (s : Shared) : Prop :=
  Linearizes (spec U) init s.history s.log s.store

variable {init : TemplateMap}

theorem Explained.effect (h : Explained U init s) (hp : Pending s call op) {result : StoreResult}
    {store : TemplateMap} (hspec : spec U s.store op = (result, store)) :
    Explained U init (s.effect call op result store) := Linearizes.effect h hp.1 hp.2 hspec

theorem Explained.respond (h : Explained U init s) {result : StoreResult} (he : ⟨call, op, result⟩ ∈ s.log) :
    Explained U init (s.respond call result) := Linearizes.respond h he

theorem Explained.finish (h : Explained U init s) (hp : Pending s call op) {result : StoreResult}
    {store : TemplateMap} (hspec : spec U s.store op = (result, store)) :
    Explained U init (s.finish call op result store) :=
  (h.effect hp hspec).respond (List.mem_append_right _ List.mem_cons_self)

/-- The calls in a log were invoked before. -/
theorem Explained.fresh (h : Explained U init s) (hn : Numbered s) : s.history.length ∉ ids s.log := by
  intro hm
  obtain ⟨e, he, heq⟩ := List.mem_map.mp hm
  exact absurd (hn e.id e.op (h.invoked e he)) (by omega)

/-- A step takes effect as the specification says, and establishes the next assertion. -/
theorem Explained.step (h : Explained U init s) (hn : Numbered s) (ha : Asserted U s p)
    (hs : step U s p = some (s', q)) : Explained U init s' ∧ ∀ r ∈ q, Asserted U s' r := by
  cases p with
  | begin op =>
      cases hs
      have hfresh := h.fresh hn
      refine ⟨Linearizes.invoke h hfresh, ?_⟩
      rintro r ⟨⟩
      have hp : Pending (s.invoke op) s.history.length op :=
        ⟨List.mem_append_right _ List.mem_cons_self, hfresh⟩
      cases op <;> exact hp
  | containsKey call' t =>
      simp only [TemplateRace.step] at hs
      split at hs
      · rename_i e hv
        cases hs
        exact ⟨h.finish ha (by rw [spec, TemplateMap.create_of_invalid hv]), by simp⟩
      · rename_i hv
        cases hl : s.store.lookup t.id with
        | some t' =>
            rw [hl, Option.isSome_some, if_pos rfl] at hs
            cases hs
            exact ⟨h.finish ha (by rw [spec, TemplateMap.create_of_stored hv hl]), by simp⟩
        | none =>
            rw [hl] at hs
            cases hs
            exact ⟨h, by rintro r ⟨⟩; exact ⟨ha, hv, hl⟩⟩
  | insertNew call' t =>
      obtain ⟨hp, hv, hl⟩ := ha
      cases hs
      refine ⟨h.effect hp (by rw [spec, TemplateMap.create_of_fresh hv hl]), ?_⟩
      rintro r ⟨⟩
      exact ⟨t, List.mem_append_right _ List.mem_cons_self, AList.lookup_insert _⟩
  | reread call' id =>
      obtain ⟨t, hlog, hl⟩ := ha
      simp only [TemplateRace.step, hl] at hs
      cases hs
      exact ⟨h.respond hlog, by simp⟩
  | get call' id =>
      cases hs
      exact ⟨h.finish ha rfl, by simp⟩
  | getForUpdate call' id updates now =>
      simp only [TemplateRace.step, TemplateMap.get] at hs
      cases hl : s.store.lookup id with
      | none =>
          simp only [hl] at hs
          cases hs
          exact ⟨h.finish ha (by rw [spec, TemplateMap.update_of_absent updates hl]), by simp⟩
      | some t =>
          simp only [hl] at hs
          split at hs
          · rename_i e hv
            cases hs
            refine ⟨h.finish ha ?_, by simp⟩
            rw [spec, TemplateMap.update_of_stored updates hl]
            simp only [hv]
          · rename_i hv
            cases hs
            exact ⟨h, by rintro r ⟨⟩; exact ⟨ha, t, hl, rfl, hv⟩⟩
  | insertUpdated call' id updates now t =>
      obtain ⟨hp, t₀, hl, rfl, hv⟩ := ha
      cases hs
      refine ⟨h.finish hp ?_, by simp⟩
      rw [spec, TemplateMap.update_of_stored updates hl]
      simp only [hv]
  | remove call' id =>
      simp only [TemplateRace.step] at hs
      split at hs <;> rename_i hl <;> cases hs
      · refine ⟨h.finish ha ?_, by simp⟩
        simp only [spec, TemplateMap.delete, hl]
      · refine ⟨h.finish ha ?_, by simp⟩
        simp only [spec, TemplateMap.delete, hl]

end steps

/-! ### Calls in sequence -/

section sequential
variable {U : UnicodeTables} {store store' : TemplateMap} {log : List (Linearization.Entry StoreCall StoreResult)}
  {id : String}

/-- A deletion of the identifier that finds it. -/
def Deletes (id : String) (e : Linearization.Entry StoreCall StoreResult) : Prop :=
  e.op = .delete id ∧ e.result = .deleted (.ok ())

/-- A creation of the identifier that succeeds. -/
def Creates (id : String) (e : Linearization.Entry StoreCall StoreResult) : Prop :=
  ∃ t r, t.id = id ∧ e.op = .create t ∧ e.result = .template (.ok r)

/-- What one call leaves of a template: a deletion removes it, and an update of it sets fields. -/
theorem lookup_spec {t : StoredTemplate} (hl : store.lookup id = some t) (op : StoreCall) :
    (op = .delete id ∧ (spec U store op).1 = .deleted (.ok ())) ∨
      (∃ updates now, op = .update id updates now ∧
        (spec U store op).2.lookup id = some (updates.apply t now)) ∨
      (spec U store op).2.lookup id = some t := by
  cases op with
  | create t' =>
      right; right
      rw [spec]
      cases hv : t'.validate U with
      | error e =>
          rw [TemplateMap.create_of_invalid hv]
          exact hl
      | ok =>
          cases hl' : store.lookup t'.id with
          | some t₀ =>
              rw [TemplateMap.create_of_stored hv hl']
              exact hl
          | none =>
              have hne : id ≠ t'.id := by
                rintro rfl
                rw [hl] at hl'
                cases hl'
              rw [TemplateMap.create_of_fresh hv hl']
              exact (AList.lookup_insert_ne hne).trans hl
  | get id' => exact .inr (.inr hl)
  | update id' updates now =>
      right
      rw [spec]
      cases hl' : store.lookup id' with
      | none =>
          rw [TemplateMap.update_of_absent updates hl']
          exact .inr hl
      | some t' =>
          rw [TemplateMap.update_of_stored updates hl']
          cases (updates.apply t' now).validate U with
          | error e => exact .inr hl
          | ok =>
              by_cases hid : id = id'
              · subst hid
                obtain rfl : t = t' := Option.some.inj (hl.symm.trans hl')
                exact .inl ⟨updates, now, rfl, AList.lookup_insert _⟩
              · exact .inr ((AList.lookup_insert_ne hid).trans hl)
  | delete id' =>
      by_cases hid : id' = id
      · subst hid
        left
        simp [spec, TemplateMap.delete, hl]
      · right; right
        cases hl' : store.lookup id' with
        | none =>
            simp only [spec, TemplateMap.delete, hl']
            exact hl
        | some t' =>
            simp only [spec, TemplateMap.delete, hl']
            exact (AList.lookup_erase_ne (fun he => hid he.symm)).trans hl

/-- Only a creation stores a template where there is none. -/
theorem lookup_spec_none (hl : store.lookup id = none) (op : StoreCall) :
    (∃ t, op = .create t ∧ t.id = id ∧ (spec U store op).1 = .template (.ok t)) ∨
      (spec U store op).2.lookup id = none := by
  cases op with
  | create t =>
      rw [spec]
      cases hv : t.validate U with
      | error e =>
          rw [TemplateMap.create_of_invalid hv]
          exact .inr hl
      | ok =>
          cases hl' : store.lookup t.id with
          | some t' =>
              rw [TemplateMap.create_of_stored hv hl']
              exact .inr hl
          | none =>
              rw [TemplateMap.create_of_fresh hv hl']
              by_cases hid : id = t.id
              · exact .inl ⟨t, rfl, hid.symm, rfl⟩
              · exact .inr ((AList.lookup_insert_ne hid).trans hl)
  | get id' => exact .inr hl
  | update id' updates now =>
      right
      rw [spec]
      cases hl' : store.lookup id' with
      | none =>
          rw [TemplateMap.update_of_absent updates hl']
          exact hl
      | some t' =>
          have hne : id ≠ id' := by
            rintro rfl
            rw [hl] at hl'
            cases hl'
          rw [TemplateMap.update_of_stored updates hl']
          cases (updates.apply t' now).validate U with
          | error e => exact hl
          | ok => exact (AList.lookup_insert_ne hne).trans hl
  | delete id' =>
      right
      cases hl' : store.lookup id' with
      | none =>
          simp only [spec, TemplateMap.delete, hl']
          exact hl
      | some t' =>
          simp only [spec, TemplateMap.delete, hl']
          rw [DashMap.lookup_erase]
          split_ifs
          · rfl
          · exact hl

/-- A field of a stored template keeps its value until an update sets it or the template is deleted. -/
theorem Legal.keeps {α : Type} (field : StoredTemplate → α) (sets : UpdateTemplateRequest → Prop)
    (hfield : ∀ updates t now, ¬ sets updates → field (updates.apply t now) = field t)
    (h : Legal (spec U) store log store') {t : StoredTemplate} (hl : store.lookup id = some t)
    (hdelete : ∀ e ∈ log, ¬ Deletes id e)
    (hset : ∀ e ∈ log, ∀ updates now, e.op = .update id updates now → ¬ sets updates) :
    ∃ t', store'.lookup id = some t' ∧ field t' = field t := by
  induction log generalizing store t with
  | nil =>
      cases h
      exact ⟨t, hl, rfl⟩
  | cons e log ih =>
      obtain ⟨hresult, hrest⟩ := h
      have hnext : ∃ t₁, (spec U store e.op).2.lookup id = some t₁ ∧ field t₁ = field t := by
        rcases lookup_spec (U := U) hl e.op with ⟨hop, hok⟩ | ⟨updates, now, hop, hl₁⟩ | hl₁
        · exact absurd ⟨hop, hresult.symm.trans hok⟩ (hdelete e List.mem_cons_self)
        · exact ⟨_, hl₁, hfield _ _ _ (hset e List.mem_cons_self updates now hop)⟩
        · exact ⟨t, hl₁, rfl⟩
      obtain ⟨t₁, hl₁, hf₁⟩ := hnext
      obtain ⟨t', hl', hf'⟩ := ih hrest hl₁ (fun e he => hdelete e (List.mem_cons_of_mem _ he))
        (fun e he => hset e (List.mem_cons_of_mem _ he))
      exact ⟨t', hl', hf'.trans hf₁⟩

theorem Legal.keeps_absent (h : Legal (spec U) store log store') (hl : store.lookup id = none)
    (hcreate : ∀ e ∈ log, ¬ Creates id e) : store'.lookup id = none := by
  induction log generalizing store with
  | nil =>
      cases h
      exact hl
  | cons e log ih =>
      obtain ⟨hresult, hrest⟩ := h
      have hnext : (spec U store e.op).2.lookup id = none := by
        rcases lookup_spec_none (U := U) hl e.op with ⟨t, hop, hid, hok⟩ | hl₁
        · exact absurd ⟨t, t, hid, hop, hresult.symm.trans hok⟩ (hcreate e List.mem_cons_self)
        · exact hl₁
      exact ih hrest hnext (fun e he => hcreate e (List.mem_cons_of_mem _ he))

theorem not_creates {t : StoredTemplate} (hl : store.lookup id = some t)
    {e : Linearization.Entry StoreCall StoreResult} (hresult : (spec U store e.op).1 = e.result) :
    ¬ Creates id e := by
  rintro ⟨t', r, rfl, hop, hok⟩
  rw [hop, hok, spec] at hresult
  cases hv : t'.validate U with
  | error e =>
      rw [TemplateMap.create_of_invalid hv] at hresult
      cases hresult
  | ok =>
      rw [TemplateMap.create_of_stored hv hl] at hresult
      cases hresult

/-- Between two creations of an identifier that succeed there is a deletion. -/
theorem deleted_between {a b : Linearization.Entry StoreCall StoreResult}
    {before between after : List (Linearization.Entry StoreCall StoreResult)}
    (h : Legal (spec U) store (before ++ a :: between ++ b :: after) store') (ha : Creates id a)
    (hb : Creates id b) : ∃ e ∈ between, Deletes id e := by
  by_contra hno
  obtain ⟨m, hm, hrest⟩ := h.split
  obtain ⟨n, -, hstep, hbetween⟩ := hm.split
  have hstored : ∃ t, (spec U n a.op).2.lookup id = some t := by
    obtain ⟨t, r, rfl, hop, hok⟩ := ha
    rw [hop] at hstep ⊢
    rw [hok, spec] at hstep
    rw [spec]
    cases hv : t.validate U with
    | error e =>
        rw [TemplateMap.create_of_invalid hv] at hstep
        cases hstep
    | ok =>
        cases hl : n.lookup t.id with
        | some t' =>
            rw [TemplateMap.create_of_stored hv hl] at hstep
            cases hstep
        | none =>
            rw [TemplateMap.create_of_fresh hv hl]
            exact ⟨t, AList.lookup_insert _⟩
  obtain ⟨t, hl⟩ := hstored
  obtain ⟨t', hl', -⟩ := Legal.keeps (fun _ => ()) (fun _ => False) (fun _ _ _ _ => rfl)
    hbetween hl (fun e he hd => hno ⟨e, he, hd⟩) (fun _ _ _ _ _ hs => hs)
  exact not_creates hl' hrest.1 hb

/-- An update after a deletion fails until the template is created again. -/
theorem created_between {d u : Linearization.Entry StoreCall StoreResult} {updates : UpdateTemplateRequest}
    {now : DateTime} {r : StoredTemplate} {before between after : List (Linearization.Entry StoreCall StoreResult)}
    (h : Legal (spec U) store (before ++ d :: between ++ u :: after) store') (hd : Deletes id d)
    (hu : u.op = .update id updates now) (hr : u.result = .template (.ok r)) : ∃ e ∈ between, Creates id e := by
  by_contra hno
  obtain ⟨m, hm, hrest⟩ := h.split
  obtain ⟨n, -, -, hbetween⟩ := hm.split
  have habsent : (spec U n d.op).2.lookup id = none := by
    rw [hd.1]
    cases hl : n.lookup id with
    | none =>
        simp only [spec, TemplateMap.delete, hl]
    | some t =>
        simp only [spec, TemplateMap.delete, hl]
        exact AList.lookup_erase id n
  have hl := Legal.keeps_absent hbetween habsent (fun e he hc => hno ⟨e, he, hc⟩)
  have hresult := hrest.1
  rw [hu, hr, spec, TemplateMap.update_of_absent updates hl] at hresult
  cases hresult

end sequential

/-! ### Runs -/

section runs
variable {U : UnicodeTables} {init : TemplateMap} {c c' : Config Shared Pc} {e : Event StoreCall Unit}

/-- Everything that holds in a run. -/
structure Sound (U : UnicodeTables) (init : TemplateMap) (c : Config Shared Pc) : Prop where
  explained : Explained U init c.shared
  numbered : Numbered c.shared
  calls : Tokens Pc.call (fun s call => call < s.history.length) c
  asserted : Holds (Asserted U) c

theorem sound_start : Sound U init (start init) where
  explained := linearizes_empty
  numbered := by rintro call op ⟨⟩
  calls := ⟨List.nodup_nil, by rintro x ⟨⟩⟩
  asserted := by rintro p ⟨⟩

/-- No other call is in its window on an entry that changes. -/
theorem window_ne_of_exclusive {i : ℕ} {p : Pc} {l₁ l₂ : List Pc} (hok : Exclusive c (.run i ()))
    (hp : c.threads[i]? = some p) (hl : c.threads = l₁ ++ p :: l₂) {id : String}
    (hid : p.changes c.shared = some id) : ∀ r ∈ l₁ ++ l₂, r.window ≠ some id := by
  have hcount := hok p hp id hid
  rw [hl, countP_middle] at hcount
  have hzero : (l₁ ++ l₂).countP (fun q => q.window == some id) = 0 := by
    by_cases hw : p.window = some id
    · simp only [hw, BEq.rfl, if_true] at hcount
      omega
    · rw [if_neg hw] at hcount
      omega
  intro r hr hw
  exact absurd (beq_iff_eq.mpr hw) (List.countP_eq_zero.mp hzero r hr)

theorem Sound.next (h : Sound U init c) (hok : Exclusive c e) (hn : (system U).next c e = some c') :
    Sound U init c' := by
  have hshared : ∀ {i : ℕ} {p : Pc} {s : Shared} {q : Option Pc}, c.threads[i]? = some p →
      step U c.shared p = some (s, q) → Explained U init s ∧ Numbered s ∧ ∀ r ∈ q, Asserted U s r := by
    intro i p s q hp hs
    obtain ⟨hexplained, hasserted⟩ :=
      h.explained.step h.numbered (h.asserted p (List.mem_of_getElem? hp)) hs
    exact ⟨hexplained, (grows_step hs).1.numbered h.numbered, hasserted⟩
  refine ⟨?_, ?_, ?_, ?_⟩
  · obtain ⟨op, rfl, rfl⟩ | ⟨i, inp, p, s, q, l₁, l₂, rfl, hp, hs, hl, rfl⟩ := System.next_cases hn
    · exact h.explained
    · exact (hshared hp hs).1
  · obtain ⟨op, rfl, rfl⟩ | ⟨i, inp, p, s, q, l₁, l₂, rfl, hp, hs, hl, rfl⟩ := System.next_cases hn
    · exact h.numbered
    · exact (hshared hp hs).2.1
  · refine h.calls.next hn (by rintro op - x ⟨⟩) ?_
    intro i inp p s q _ _ hs hheld
    obtain ⟨hgrows, hcall⟩ := grows_step hs
    obtain ⟨moments, hhistory⟩ := hgrows.history
    have hlen : c.shared.history.length ≤ s.history.length := by
      rw [hhistory, List.length_append]
      omega
    refine ⟨fun x hx => ?_, fun x hx _ => hx.trans_le hlen⟩
    obtain ⟨r, hr, hrx⟩ := Option.bind_eq_some_iff.mp hx
    obtain rfl : p.acting c.shared = x := Option.some.inj ((hcall r hr).symm.trans hrx)
    cases hpc : p.call with
    | some call =>
        have hact : p.acting c.shared = call := by rw [Pc.acting, hpc, Option.getD_some]
        rw [hact]
        exact ⟨.inl rfl, (hheld call hpc).trans_le hlen⟩
    | none =>
        have hact : p.acting c.shared = c.shared.history.length := by rw [Pc.acting, hpc, Option.getD_none]
        rw [hact]
        refine ⟨.inr (lt_irrefl _), ?_⟩
        cases p <;> cases hpc
        cases hs
        simp [Shared.invoke]
  · refine h.asserted.next hn (fun _ _ => trivial) ?_
    rintro i ⟨⟩ p s q l₁ l₂ rfl hp hl hs
    refine ⟨(hshared hp hs).2.2, fun r hr ha => ?_⟩
    refine ha.grows (grows_step hs).1 ?_ (fun id hid => window_ne_of_exclusive hok hp hl hid r hr)
    intro hr'
    cases hpc : p.call with
    | some call =>
        have hact : p.acting c.shared = call := by rw [Pc.acting, hpc, Option.getD_some]
        exact h.calls.not_mem_of_split hl hr hpc (hact ▸ hr')
    | none =>
        have hact : p.acting c.shared = c.shared.history.length := by rw [Pc.acting, hpc, Option.getD_none]
        have hlt := h.calls.free _ (List.mem_filterMap.mpr ⟨r, mem_of_split hl hr, hact ▸ hr'⟩)
        exact absurd hlt (lt_irrefl _)

theorem Sound.of_reaches (h : Reaches (system U) Exclusive (start init) c) : Sound U init c :=
  h.invariant (I := Sound U init) sound_start (fun _ _ _ _ hs hok hn => hs.next hok hn)

/-- One call at a time never panics. -/
theorem spec_ne_panicked (store : TemplateMap) (op : StoreCall) : (spec U store op).1 ≠ .panicked := by
  cases op with
  | create t =>
      rw [spec]
      cases hv : t.validate U with
      | error e =>
          rw [TemplateMap.create_of_invalid hv]
          exact StoreResult.noConfusion
      | ok =>
          cases hl : store.lookup t.id with
          | some t' =>
              rw [TemplateMap.create_of_stored hv hl]
              exact StoreResult.noConfusion
          | none =>
              rw [TemplateMap.create_of_fresh hv hl]
              exact StoreResult.noConfusion
  | get | update | delete => exact StoreResult.noConfusion

/-- No call has panicked. -/
def NoPanic (s : Shared) : Prop := ∀ call, .respond call .panicked ∉ s.history

theorem Explained.noPanic {s : Shared} (h : Explained U init s) : NoPanic s := by
  intro call hm
  obtain ⟨e, he, -, hr⟩ := h.responded call _ hm
  obtain ⟨store, hs⟩ := h.legal.result e he
  exact spec_ne_panicked store e.op (hs.trans hr)

/-- **Without a change in the window of another call on the same identifier, no call panics, and the
log is a sequential order of the calls that explains all results, respects real time and leads to the
map.** -/
theorem linearizable_of_exclusive (h : Reaches (system U) Exclusive (start init) c) :
    NoPanic c.shared ∧
      Linearizes (spec U) init c.shared.history c.shared.log c.shared.store :=
  have hs := (Sound.of_reaches h).explained
  ⟨hs.noPanic, hs⟩

/-- A valid template. -/
def welcome : StoredTemplate := ⟨⟨"event", .null, .normal, none⟩, "welcome", "Welcome", none, 0, 0⟩

/-- An update of its name. -/
def renamed : UpdateTemplateRequest := ⟨some "Hello", none, none, none, none, none⟩

/-- A creation overlaps with a reader, and an update follows. -/
def orderly : List (Event StoreCall Unit) :=
  [.call (.create welcome), .run 0 (), .call (.get "welcome"), .run 1 (), .run 0 (), .run 0 (), .run 1 (),
    .run 0 (), .call (.update "welcome" renamed 1), .run 0 (), .run 0 (), .run 0 ()]

theorem exists_orderly : ∃ c : Config Shared Pc, Reaches (system .ascii) Exclusive (start ∅) c ∧
    (c.shared.log.length == 3 && c.threads.isEmpty) = true := by
  have hseen : ((system .ascii).play Exclusive (start ∅) orderly).any
      (fun c => c.shared.log.length == 3 && c.threads.isEmpty) = true := by
    decide +kernel
  exact exists_reaches_of_play hseen

/-- Three calls that have all returned. -/
theorem linearizable_orderly : ∃ c : Config Shared Pc, (c.shared.log.length = 3 ∧ c.threads = []) ∧
    NoPanic c.shared ∧ Linearizes (spec .ascii) ∅ c.shared.history c.shared.log c.shared.store := by
  obtain ⟨c, hc, hlog⟩ := exists_orderly
  rw [Bool.and_eq_true, beq_iff_eq, List.isEmpty_iff] at hlog
  exact ⟨c, hlog, linearizable_of_exclusive hc⟩

/-- A deletion between the insertion of a creation and its read. -/
def deletion : List (Event StoreCall Unit) :=
  [.call (.create welcome), .run 0 (), .run 0 (), .run 0 (), .call (.delete "welcome"), .run 1 (), .run 1 (),
    .run 0 ()]

/-- Whether some call has panicked. -/
def anyPanic (history : List (Moment StoreCall StoreResult)) : Bool :=
  history.any (fun m => match m with
    | .respond _ .panicked => true
    | _ => false)

theorem not_noPanic {s : Shared} (h : anyPanic s.history = true) : ¬ NoPanic s := by
  intro hno
  obtain ⟨m, hm, hp⟩ := List.any_eq_true.mp h
  split at hp
  · exact hno _ hm
  · cases hp

/-- The creation panics. -/
theorem not_linearizable :
    ¬ ∀ (U : UnicodeTables) (init : TemplateMap) (c : Config Shared Pc),
        Reaches (system U) (fun _ _ => True) (start init) c →
        NoPanic c.shared ∧ ∃ log, Linearizes (spec U) init c.shared.history log c.shared.store := by
  intro hall
  have hseen : ((system .ascii).play (fun _ _ => True) (start ∅) deletion).any
      (fun c => anyPanic c.shared.history) = true := by
    decide +kernel
  obtain ⟨c, hc, hp⟩ := exists_reaches_of_play hseen
  exact not_noPanic hp (hall .ascii ∅ c hc).1

end runs

end TemplateRace

end AraNotification
