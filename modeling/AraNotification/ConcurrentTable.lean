import AraNotification.Lib.Conservation
import AraNotification.SharedTable
import Mathlib.Data.Multiset.Filter

/-! # Where the rows of the table go

Any number of tenants, on any number of instances, enqueue, drain, clean up and clear at the
same time.  Every statement takes a snapshot of the rows and commits later: a `DELETE` removes
those of the rows it has seen that are still there, and returns only these.  A drain is two
statements, and any statement may fail, before its snapshot or at its commit.

The state keeps every row that was inserted, and for every row that has left the table the way
it took.  In every interleaving all rows are accounted for (`rows_accounted`): each row that was
inserted is in exactly one place, in the table, in the hands of a drain between its two
statements, or gone in one way.  So no message is returned twice, not even by two drains that
see the same rows; a drain returns rows of its own tenant and user only; and a message is gone
without having been returned only if it was replaced in a full queue, had expired, was cleared,
or was in the hands of a drain whose second statement failed. -/

namespace AraNotification

namespace TableRace

open Interleaving

/-! ### The program -/

/-- The calls that change the table. -/
inductive Call where
  | enqueue (tenantId userId : String) (event : NotificationEvent)
  | drain (tenantId userId : String)
  | cleanupExpired (tenantId : String)
  | clearUserQueue (tenantId userId : String)

/-- What the environment decides in a step: the clock, a new identifier, which of several oldest
rows is picked, the order in which rows are returned, and whether the statement fails. -/
structure Input where
  now : DateTime
  fresh : Uuid
  pick : Uuid
  order : RowOrder
  fails : Bool

/-- How a row has left the table: returned by a drain, in a drain that failed, for a new message
of a full queue, or deleted as expired or with the queue of its user. -/
inductive Exit where
  | returned (tenantId userId : String)
  | lost
  | replaced (tenantId userId : String)
  | expired (now : DateTime)
  | cleared (tenantId userId : String)

/-- The committed rows, with the identifiers drawn so far, the rows inserted so far, and those that have
left. -/
structure Shared where
  table : Table
  drawn : List Uuid
  inserted : List Row
  exits : List (Row × Exit)

/-- The statements that delete: the two of a drain, the cleanup of a tenant, and the removal of a
queue. -/
inductive Deletion where
  | fetch (userId : String)
  | sweep (userId : String)
  | cleanup
  | clear (userId : String)

/-- The rows that a statement selects. -/
def Deletion.selects (b : PostgresQueueBackend) (now : DateTime) : Deletion → Row → Bool
  | fetch userId => b.isLive userId now
  | sweep userId => b.isDead userId now
  | cleanup => b.hasExpired now
  | clear userId => Row.isFor b.tenantId userId

/-- Program counters, named after what comes next.  A drain that has fetched carries its rows. -/
inductive Pc where
  | prepare (call : Call)
  | read (tenantId userId : String) (id : Uuid) (data : Json) (expiresAt : DateTime)
  | write (victim : Option Uuid) (row : Row)
  | scan (tenantId : String) (d : Deletion) (fetched : List Row)
  | delete (tenantId : String) (d : Deletion) (now : DateTime) (seen : List Uuid) (fetched : List Row)

namespace Shared
variable (s : Shared)

/-- A call draws an identifier. -/
def draw (id : Uuid) : Shared := { s with drawn := s.drawn ++ [id] }

/-- An enqueue commits. -/
def commit (victim : Option Uuid) (row : Row) : Shared :=
  { s with
    table := s.table.commit victim row
    inserted := s.inserted ++ [row]
    exits := s.exits ++ (s.table.filter (fun r => decide (some r.id = victim))).map
      (fun r => (r, .replaced row.tenantId row.userId)) }

/-- The rows that were seen and are still there. -/
def found (seen : List Uuid) : List Row := s.table.filter (fun r => decide (r.id ∈ seen))

/-- A `DELETE` commits. -/
def deleteSeen (seen : List Uuid) : Shared := { s with table := s.table.filter (fun r => !decide (r.id ∈ seen)) }

/-- Rows have gone. -/
def leave (rows : List Row) (exit : Exit) : Shared := { s with exits := s.exits ++ rows.map (fun r => (r, exit)) }

end Shared

section program
variable (config : String → QueueConfig) (serde : Serde NotificationEvent Json)

/-- The backend of a tenant. -/
def backend (tenantId : String) : PostgresQueueBackend :=
  PostgresQueueBackend.withTenant (config tenantId) serde tenantId

/-- The first statement of a call. -/
def prepare (inp : Input) (s : Shared) : Call → Shared × Option Pc
  | .enqueue tenantId userId event =>
      if (config tenantId).enabled then
        (s.draw inp.fresh, ((backend config serde tenantId).expiresAt inp.now).bind (fun expiresAt =>
          (serde.write event).map (fun data => .read tenantId userId inp.fresh data expiresAt)))
      else (s, none)
  | .drain tenantId userId => (s, if (config tenantId).enabled then some (.scan tenantId (.fetch userId) []) else none)
  | .cleanupExpired tenantId => (s, if (config tenantId).enabled then some (.scan tenantId .cleanup []) else none)
  | .clearUserQueue tenantId userId =>
      (s, if (config tenantId).enabled then some (.scan tenantId (.clear userId) []) else none)

/-- The commit of a statement that deletes. -/
def commitDeletion (inp : Input) (s : Shared) (tenantId : String) (d : Deletion) (now : DateTime) (seen : List Uuid)
    (fetched : List Row) : Shared × Option Pc :=
  match d with
  | .fetch userId => (s.deleteSeen seen, some (.scan tenantId (.sweep userId) (inp.order.arrange (s.found seen))))
  | .sweep userId =>
      (((s.deleteSeen seen).leave (s.found seen) (.expired now)).leave fetched (.returned tenantId userId), none)
  | .cleanup => ((s.deleteSeen seen).leave (s.found seen) (.expired now), none)
  | .clear userId => ((s.deleteSeen seen).leave (s.found seen) (.cleared tenantId userId), none)

/-- Preparing a statement, its snapshot, and its commit. -/
def step (inp : Input) (s : Shared) : Pc → Option (Shared × Option Pc)
  | .prepare call => some (prepare config serde inp s call)
  | .read tenantId userId id data expiresAt =>
      if inp.fails then some (s, none)
      else
        (Table.select (s.table.rowsOf tenantId userId) (asI64 (config tenantId).maxQueueSizePerUser) inp.pick).map
          (fun victim =>
            (s, some (.write victim ((backend config serde tenantId).newRow userId id data inp.now expiresAt))))
  | .write victim row => some (if inp.fails then s else s.commit victim row, none)
  | .scan tenantId d fetched =>
      if inp.fails then some (s.leave fetched .lost, none)
      else some (s, some (.delete tenantId d inp.now
        ((s.table.filter (d.selects (backend config serde tenantId) inp.now)).map (·.id)) fetched))
  | .delete tenantId d now seen fetched =>
      if inp.fails then some (s.leave fetched .lost, none)
      else some (commitDeletion inp s tenantId d now seen fetched)

/-- The backends of all tenants as concurrent programs. -/
def system : System Shared Call Input Pc where
  start := .prepare
  step := step config serde

end program

/-- An empty table. -/
def initial : Config Shared Pc := ⟨⟨[], [], [], []⟩, []⟩

/-- The program draws an identifier. -/
def Pc.draws : Pc → Bool
  | .prepare (.enqueue _ _ _) => true
  | _ => false

/-- Identifiers that are drawn are new. -/
def Legal (c : Config Shared Pc) : Event Call Input → Prop
  | .call _ => True
  | .run i inp => ∀ p ∈ c.threads[i]?, p.draws = true → inp.fresh ∉ c.shared.drawn

instance (c : Config Shared Pc) (e : Event Call Input) : Decidable (Legal c e) := by
  obtain _ | ⟨i, inp⟩ := e <;> dsimp only [Legal] <;> infer_instance

/-! ### Accounts -/

/-- The rows in the hands of a drain. -/
def Pc.fetched : Pc → List Row
  | .scan _ _ fetched | .delete _ _ _ _ fetched => fetched
  | _ => []

/-- The way is one that the row can take. -/
def Exit.Suits (r : Row) : Exit → Prop
  | .returned tenantId userId | .replaced tenantId userId | .cleared tenantId userId => r.isFor tenantId userId = true
  | .expired now => r.expiresAt ≤ now
  | .lost => True

/-- Every row inserted is in exactly one place, and has left the table in a way it can take. -/
structure Accounted (c : Config Shared Pc) : Prop where
  all : c.shared.inserted.Perm
    (c.shared.table ++ (c.threads.flatMap Pc.fetched ++ c.shared.exits.map Prod.fst))
  once : ((c.shared.table ++ (c.threads.flatMap Pc.fetched ++ c.shared.exits.map Prod.fst)).map (·.id)).Nodup
  suits : ∀ x ∈ c.shared.exits, x.2.Suits x.1

/-! ### What a step does -/

/-- The rows that a drain carries to a statement. -/
def Deletion.Carries (tenantId : String) (fetched : List Row) : Deletion → Prop
  | sweep userId => ∀ r ∈ fetched, r.isFor tenantId userId = true
  | _ => fetched = []

/-- A step, with the rows that it moves. -/
inductive Turn (config : String → QueueConfig) (serde : Serde NotificationEvent Json) (inp : Input) (s : Shared) :
    Pc → Shared → Option Pc → Prop
  | stop (p : Pc) : p.fetched = [] → Turn config serde inp s p s none
  | draw (tenantId userId : String) (event : NotificationEvent) (q : Option Pc) :
      (∀ r ∈ q, ∃ data expiresAt, r = .read tenantId userId inp.fresh data expiresAt) →
      Turn config serde inp s (.prepare (.enqueue tenantId userId event)) (s.draw inp.fresh) q
  | scan (call : Call) (tenantId : String) (d : Deletion) : d.Carries tenantId [] →
      Turn config serde inp s (.prepare call) s (some (.scan tenantId d []))
  | snapshot (tenantId userId : String) (id : Uuid) (data : Json) (expiresAt : DateTime) (victim : Option Uuid) :
      (∀ x ∈ victim, ∃ r ∈ s.table.rowsOf tenantId userId, r.id = x) →
      Turn config serde inp s (.read tenantId userId id data expiresAt) s
        (some (.write victim ((backend config serde tenantId).newRow userId id data inp.now expiresAt)))
  | commit (victim : Option Uuid) (row : Row) :
      Turn config serde inp s (.write victim row) (s.commit victim row) none
  | lose (p : Pc) : Turn config serde inp s p (s.leave p.fetched .lost) none
  | see (tenantId : String) (d : Deletion) (fetched : List Row) :
      Turn config serde inp s (.scan tenantId d fetched) s (some (.delete tenantId d inp.now
        ((s.table.filter (d.selects (backend config serde tenantId) inp.now)).map (·.id)) fetched))
  | delete (tenantId : String) (d : Deletion) (now : DateTime) (seen : List Uuid) (fetched : List Row) :
      Turn config serde inp s (.delete tenantId d now seen fetched)
        (commitDeletion inp s tenantId d now seen fetched).1 (commitDeletion inp s tenantId d now seen fetched).2

section turns
variable {config : String → QueueConfig} {serde : Serde NotificationEvent Json} {inp : Input} {s s' : Shared} {p : Pc}
  {q : Option Pc}

theorem turn_of_prepare {call : Call} (h : prepare config serde inp s call = (s', q)) :
    Turn config serde inp s (.prepare call) s' q := by
  have hscan : ∀ (tenantId : String) (d : Deletion), d.Carries tenantId [] →
      (s, if (config tenantId).enabled then some (Pc.scan tenantId d []) else none) = (s', q) →
      Turn config serde inp s (.prepare call) s' q := by
    intro tenantId d hd h
    split_ifs at h with hon
    · cases h
      exact .scan call tenantId d hd
    · cases h
      exact .stop _ rfl
  cases call with
  | enqueue tenantId userId event =>
      simp only [prepare] at h
      split_ifs at h with hon
      · cases h
        refine .draw tenantId userId event _ fun r hr => ?_
        obtain ⟨expiresAt, -, hr⟩ := Option.bind_eq_some_iff.mp hr
        obtain ⟨data, -, rfl⟩ := Option.map_eq_some_iff.mp hr
        exact ⟨data, expiresAt, rfl⟩
      · cases h
        exact .stop _ rfl
  | drain tenantId userId => exact hscan tenantId (.fetch userId) rfl h
  | cleanupExpired tenantId => exact hscan tenantId .cleanup rfl h
  | clearUserQueue tenantId userId => exact hscan tenantId (.clear userId) rfl h

theorem turn_of_step (h : step config serde inp s p = some (s', q)) : Turn config serde inp s p s' q := by
  cases p with
  | prepare call => exact turn_of_prepare (Option.some.inj h)
  | read tenantId userId id data expiresAt =>
      simp only [step] at h
      split_ifs at h with hfail
      · cases h
        exact .stop _ rfl
      · obtain ⟨victim, hselect, heq⟩ := Option.map_eq_some_iff.mp h
        cases heq
        refine .snapshot tenantId userId id data expiresAt victim fun x hx => ?_
        cases hx
        exact Table.mem_of_select hselect
  | write victim row =>
      simp only [step] at h
      split_ifs at h with hfail
      · cases h
        exact .stop _ rfl
      · cases h
        exact .commit victim row
  | scan tenantId d fetched =>
      simp only [step] at h
      split_ifs at h with hfail
      · cases h
        exact .lose (.scan tenantId d fetched)
      · cases h
        exact .see tenantId d fetched
  | delete tenantId d now seen fetched =>
      simp only [step] at h
      split_ifs at h with hfail
      · cases h
        exact .lose (.delete tenantId d now seen fetched)
      · rw [Option.some.injEq, Prod.ext_iff] at h
        obtain ⟨rfl, rfl⟩ := h
        exact .delete tenantId d now seen fetched

end turns

/-! ### The rows that a statement has selected -/

/-- The identifiers of the rows that were inserted. -/
def Shared.ids (s : Shared) : List Uuid := s.inserted.map (·.id)

/-- The identifiers are those of inserted rows, and these rows have the property. -/
def Shared.Selected (s : Shared) (ids : List Uuid) (P : Row → Bool) : Prop :=
  (∀ id ∈ ids, id ∈ s.ids) ∧ ∀ r ∈ s.inserted, r.id ∈ ids → P r = true

/-- What a program counter says about the rows. -/
def Pc.Sound (config : String → QueueConfig) (serde : Serde NotificationEvent Json) (s : Shared) : Pc → Prop
  | .write victim row => s.Selected victim.toList (Row.isFor row.tenantId row.userId)
  | .scan tenantId d fetched => d.Carries tenantId fetched
  | .delete tenantId d now seen fetched =>
      d.Carries tenantId fetched ∧ s.Selected seen (d.selects (backend config serde tenantId) now)
  | _ => True

/-- The identifier that a call has drawn and not used. -/
def Pc.pending : Pc → Option Uuid
  | .read _ _ id _ _ => some id
  | .write _ row => some row.id
  | _ => none

/-- The identifier is drawn and not used. -/
def Shared.Unused (s : Shared) (id : Uuid) : Prop := id ∈ s.drawn ∧ id ∉ s.ids

section selected
variable {s : Shared} {ids : List Uuid} {P : Row → Bool}

theorem Shared.Selected.commit (h : s.Selected ids P) {victim : Option Uuid} {row : Row} (hrow : row.id ∉ s.ids) :
    (s.commit victim row).Selected ids P := by
  obtain ⟨hids, hP⟩ := h
  refine ⟨fun id hid => ?_, fun r hr hid => ?_⟩
  · rw [Shared.ids, Shared.commit, List.map_append]
    exact List.mem_append_left _ (hids id hid)
  · rcases List.mem_append.mp hr with hr | hr
    · exact hP r hr hid
    · rw [List.mem_singleton.mp hr] at hid
      exact absurd (hids _ hid) hrow

/-- A statement selects among the rows that were inserted. -/
theorem Shared.selected_of_filter (hnd : s.ids.Nodup) (hsub : ∀ r ∈ s.table, r ∈ s.inserted) {ids : List Uuid}
    (hids : ∀ id ∈ ids, ∃ r ∈ s.table.filter P, r.id = id) : s.Selected ids P := by
  refine ⟨fun id hid => ?_, fun r hr hid => ?_⟩
  · obtain ⟨r, hr, rfl⟩ := hids id hid
    exact List.mem_map_of_mem (hsub r (List.mem_of_mem_filter hr))
  · obtain ⟨r', hr', heq⟩ := hids r.id hid
    obtain ⟨htable, hP⟩ := List.mem_filter.mp hr'
    have hsame : r' = r := List.inj_on_of_nodup_map hnd (hsub r' htable) hr heq
    rw [← hsame]
    exact hP

theorem Shared.Selected.of_found (h : s.Selected ids P) (hsub : ∀ r ∈ s.table, r ∈ s.inserted) {r : Row}
    (hr : r ∈ s.found ids) : P r = true := by
  obtain ⟨htable, hid⟩ := List.mem_filter.mp hr
  exact h.2 r (hsub r htable) (of_decide_eq_true hid)

end selected

/-! ### Moving rows -/

/-- The rows in the table and those that have left it. -/
def Shared.rows (s : Shared) : Multiset Row := (s.table : Multiset Row) + (s.exits.map Prod.fst : List Row)

section rows
variable {s : Shared}

theorem rows_leave (rows : List Row) (exit : Exit) : (s.leave rows exit).rows = s.rows + (rows : Multiset Row) := by
  have hfst : (rows.map (fun r => (r, exit))).map Prod.fst = rows := by
    rw [List.map_map]
    exact List.map_id rows
  simp only [Shared.rows, Shared.leave, List.map_append, hfst, ← Multiset.coe_add, add_assoc]

theorem rows_deleteSeen (seen : List Uuid) :
    (s.deleteSeen seen).rows + (s.found seen : Multiset Row) = s.rows := by
  have hsplit : ((s.deleteSeen seen).table : Multiset Row) + (s.found seen : Multiset Row) = s.table := by
    rw [add_comm, Multiset.coe_add]
    exact Multiset.coe_eq_coe.mpr (List.filter_append_perm _ s.table)
  calc (s.deleteSeen seen).rows + (s.found seen : Multiset Row)
      = ((s.deleteSeen seen).table + (s.found seen : Multiset Row)) + (s.exits.map Prod.fst : List Row) := by
        rw [Shared.rows, add_right_comm]
        rfl
    _ = s.rows := by rw [hsplit, Shared.rows]

theorem rows_commit (victim : Option Uuid) (row : Row) :
    (s.commit victim row).rows = s.rows + ([row] : List Row) := by
  have hsplit : ((s.table.filter (fun r => decide (some r.id ≠ victim)) : List Row) : Multiset Row) +
      (s.table.filter (fun r => decide (some r.id = victim)) : List Row) = s.table := by
    rw [add_comm, Multiset.coe_add]
    have hperm := List.filter_append_perm (fun r : Row => decide (some r.id = victim)) s.table
    simp only [← decide_not] at hperm
    exact Multiset.coe_eq_coe.mpr hperm
  simp only [Shared.rows, Shared.commit, Table.commit, List.map_append, List.map_map, Function.comp_def,
    List.map_id', ← Multiset.coe_add]
  rw [← hsplit]
  abel

end rows

/-! ### The invariant -/

/-- Every row is in one place, identifiers are drawn and used once, statements have selected what they
say, and rows have left in a way they can take. -/
structure Inv (config : String → QueueConfig) (serde : Serde NotificationEvent Json) (c : Config Shared Pc) : Prop where
  conserved : Conserved Shared.rows (fun s => (s.inserted : Multiset Row)) (fun p => (p.fetched : Multiset Row)) c
  tokens : Tokens Pc.pending Shared.Unused c
  nodup : c.shared.ids.Nodup
  drawn : ∀ id ∈ c.shared.ids, id ∈ c.shared.drawn
  sound : Holds (Pc.Sound config serde) c
  suits : ∀ x ∈ c.shared.exits, x.2.Suits x.1

section invariant
variable {config : String → QueueConfig} {serde : Serde NotificationEvent Json} {inp : Input} {s s' : Shared} {p : Pc}
  {q : Option Pc}

theorem rows_commitDeletion (tenantId : String) (d : Deletion) (now : DateTime) (seen : List Uuid) {fetched : List Row}
    (hc : d.Carries tenantId fetched) :
    (commitDeletion inp s tenantId d now seen fetched).1.rows +
        (commitDeletion inp s tenantId d now seen fetched).2.elim 0 (fun p => (p.fetched : Multiset Row)) =
      s.rows + (fetched : Multiset Row) := by
  have hfound : (s.deleteSeen seen).rows + (s.found seen : Multiset Row) = s.rows := rows_deleteSeen seen
  cases d with
  | fetch userId =>
      have harranged : (inp.order.arrange (s.found seen) : Multiset Row) = (s.found seen : Multiset Row) :=
        Multiset.coe_eq_coe.mpr (inp.order.arrange_perm _)
      have hnil : fetched = [] := hc
      simp only [commitDeletion, Option.elim_some, Pc.fetched]
      rw [harranged, hfound, hnil]
      exact (add_zero _).symm
  | sweep userId =>
      simp only [commitDeletion, Option.elim_none, add_zero]
      rw [rows_leave, rows_leave, hfound]
  | cleanup =>
      have hnil : fetched = [] := hc
      simp only [commitDeletion, Option.elim_none, add_zero]
      rw [rows_leave, hfound, hnil]
      exact (add_zero _).symm
  | clear userId =>
      have hnil : fetched = [] := hc
      simp only [commitDeletion, Option.elim_none, add_zero]
      rw [rows_leave, hfound, hnil]
      exact (add_zero _).symm

variable (inp s) in
theorem inserted_commitDeletion (tenantId : String) (d : Deletion) (now : DateTime) (seen : List Uuid)
    (fetched : List Row) :
    (commitDeletion inp s tenantId d now seen fetched).1.inserted = s.inserted ∧
      (commitDeletion inp s tenantId d now seen fetched).1.drawn = s.drawn := by
  cases d <;> exact ⟨rfl, rfl⟩

/-- A step inserts the row of a commit, or none, and forgets no identifier. -/
theorem Turn.inserted (h : Turn config serde inp s p s' q) :
    (s'.inserted = s.inserted ∧ ∀ id ∈ s.drawn, id ∈ s'.drawn) ∨
    ∃ victim row, p = .write victim row ∧ q = none ∧ s' = s.commit victim row := by
  cases h with
  | draw => exact .inl ⟨rfl, fun _ => List.mem_append_left _⟩
  | commit victim row => exact .inr ⟨victim, row, rfl, rfl, rfl⟩
  | delete tenantId d now seen fetched =>
      obtain ⟨hi, hd⟩ := inserted_commitDeletion inp s tenantId d now seen fetched
      exact .inl ⟨hi, fun id hid => hd.symm ▸ hid⟩
  | stop => exact .inl ⟨rfl, fun _ => id⟩
  | scan => exact .inl ⟨rfl, fun _ => id⟩
  | snapshot => exact .inl ⟨rfl, fun _ => id⟩
  | lose => exact .inl ⟨rfl, fun _ => id⟩
  | see => exact .inl ⟨rfl, fun _ => id⟩

/-- The rows that a step takes out of one place it puts into another. -/
theorem Turn.conserves (h : Turn config serde inp s p s' q) (hsound : p.Sound config serde s) :
    ∃ new : Multiset Row, (s'.inserted : Multiset Row) = (s.inserted : Multiset Row) + new ∧
      s'.rows + q.elim 0 (fun p => (p.fetched : Multiset Row)) = s.rows + (p.fetched : Multiset Row) + new := by
  cases h with
  | stop p hp => exact ⟨0, (add_zero _).symm, by simp [hp]⟩
  | draw tenantId userId event q hq =>
      have hnone : q.elim 0 (fun p => (p.fetched : Multiset Row)) = 0 := by
        cases q with
        | none => rfl
        | some r =>
            obtain ⟨data, expiresAt, rfl⟩ := hq r rfl
            rfl
      refine ⟨0, (add_zero _).symm, ?_⟩
      rw [hnone]
      simp [Pc.fetched, Shared.draw, Shared.rows]
  | scan call tenantId d hd => exact ⟨0, (add_zero _).symm, by simp [Pc.fetched]⟩
  | snapshot => exact ⟨0, (add_zero _).symm, by simp [Pc.fetched]⟩
  | commit victim row =>
      refine ⟨([row] : List Row), (Multiset.coe_add _ _).symm, ?_⟩
      rw [rows_commit]
      simp [Pc.fetched]
  | lose p => exact ⟨0, (add_zero _).symm, by simp [rows_leave]⟩
  | see => exact ⟨0, (add_zero _).symm, by simp [Pc.fetched]⟩
  | delete tenantId d now seen fetched =>
      refine ⟨0, ?_, ?_⟩
      · rw [(inserted_commitDeletion inp s tenantId d now seen fetched).1, add_zero]
      · rw [rows_commitDeletion tenantId d now seen hsound.1, add_zero]
        rfl

/-- A step that only inserts a row with a new identifier spoils no assertion. -/
theorem Pc.Sound.of_turn (h : p.Sound config serde s) {p' : Pc} (ht : Turn config serde inp s p' s' q)
    (hnew : ∀ victim row, p' = .write victim row → row.id ∉ s.ids) : p.Sound config serde s' := by
  have hselected : ∀ ids P, s.Selected ids P → s'.Selected ids P := by
    intro ids P hs
    obtain ⟨hi, -⟩ | ⟨victim, row, hp', -, rfl⟩ := ht.inserted
    · unfold Shared.Selected Shared.ids at hs ⊢
      rw [hi]
      exact hs
    · exact hs.commit (hnew victim row hp')
  cases p with
  | prepare call => trivial
  | read tenantId userId id data expiresAt => trivial
  | write victim row => exact hselected _ _ h
  | scan tenantId d fetched => exact h
  | delete tenantId d now seen fetched => exact ⟨h.1, hselected _ _ h.2⟩

/-- A step establishes the assertion of its successor. -/
theorem Turn.sound (h : Turn config serde inp s p s' q) (hsound : p.Sound config serde s) (hnd : s.ids.Nodup)
    (hsub : ∀ r ∈ s.table, r ∈ s.inserted) : ∀ r ∈ q, r.Sound config serde s' := by
  cases h with
  | stop => exact fun r hr => absurd hr (by simp)
  | draw tenantId userId event q hq =>
      intro r hr
      obtain ⟨data, expiresAt, rfl⟩ := hq r hr
      trivial
  | scan call tenantId d hd =>
      intro r hr
      cases hr
      exact hd
  | snapshot tenantId userId id data expiresAt victim hvictim =>
      intro r hr
      cases hr
      refine Shared.selected_of_filter hnd hsub fun x hx => ?_
      exact hvictim x (Option.mem_toList.mp hx)
  | commit => exact fun r hr => absurd hr (by simp)
  | lose => exact fun r hr => absurd hr (by simp)
  | see tenantId d fetched =>
      intro r hr
      cases hr
      refine ⟨hsound, Shared.selected_of_filter hnd hsub fun x hx => ?_⟩
      exact List.mem_map.mp hx
  | delete tenantId d now seen fetched =>
      intro r hr
      cases d with
      | fetch userId =>
          cases hr
          intro r hr
          have hlive : r.isFor tenantId userId = true ∧ decide (r.expiresAt > now) = true := by
            rw [← Bool.and_eq_true]
            exact hsound.2.of_found hsub ((inp.order.arrange_perm _).subset hr)
          exact hlive.1
      | sweep userId => exact absurd hr (by simp [commitDeletion])
      | cleanup => exact absurd hr (by simp [commitDeletion])
      | clear userId => exact absurd hr (by simp [commitDeletion])

/-- Rows leave in a way they can take. -/
theorem Turn.suits (h : Turn config serde inp s p s' q) (hsound : p.Sound config serde s)
    (hsub : ∀ r ∈ s.table, r ∈ s.inserted) (hsuits : ∀ x ∈ s.exits, x.2.Suits x.1) :
    ∀ x ∈ s'.exits, x.2.Suits x.1 := by
  have hleave : ∀ (t : Shared) (rows : List Row) (exit : Exit), (∀ x ∈ t.exits, x.2.Suits x.1) →
      (∀ r ∈ rows, exit.Suits r) → ∀ x ∈ (t.leave rows exit).exits, x.2.Suits x.1 := by
    intro t rows exit ht hrows x hx
    rcases List.mem_append.mp hx with hx | hx
    · exact ht x hx
    · obtain ⟨r, hr, rfl⟩ := List.mem_map.mp hx
      exact hrows r hr
  cases h with
  | stop => exact hsuits
  | draw => exact hsuits
  | scan => exact hsuits
  | snapshot => exact hsuits
  | see => exact hsuits
  | lose p => exact hleave s p.fetched .lost hsuits (fun _ _ => trivial)
  | commit victim row =>
      intro x hx
      rcases List.mem_append.mp hx with hx | hx
      · exact hsuits x hx
      · obtain ⟨r, hr, rfl⟩ := List.mem_map.mp hx
        obtain ⟨htable, hid⟩ := List.mem_filter.mp hr
        exact hsound.2 r (hsub r htable) (Option.mem_toList.mpr (of_decide_eq_true hid).symm)
  | delete tenantId d now seen fetched =>
      cases d with
      | fetch userId => exact hsuits
      | sweep userId =>
          refine hleave _ _ _ (hleave _ _ _ hsuits fun r hr => ?_) hsound.1
          have hdead : r.isFor tenantId userId = true ∧ decide (r.expiresAt ≤ now) = true := by
            rw [← Bool.and_eq_true]
            exact hsound.2.of_found hsub hr
          have hexpired : r.expiresAt ≤ now := of_decide_eq_true hdead.2
          exact hexpired
      | cleanup =>
          refine hleave _ _ _ hsuits fun r hr => ?_
          have hexpired : r.tenantId = tenantId ∧ r.expiresAt ≤ now := of_decide_eq_true (hsound.2.of_found hsub hr)
          exact hexpired.2
      | clear userId => exact hleave _ _ _ hsuits fun r hr => hsound.2.of_found hsub hr

/-- Identifiers that are drawn and not used are different, and stay unused until their call commits. -/
theorem tokens_next {c c' : Config Shared Pc} {e : Event Call Input} (h : Inv config serde c) (hok : Legal c e)
    (hn : (system config serde).next c e = some c') : Tokens Pc.pending Shared.Unused c' := by
  refine h.tokens.next_of_held hn ?_ ?_
  · intro op he x hx
    cases hx
  · intro i inp p s q he hp hs hown
    subst he
    have hturn : Turn config serde inp c.shared p s q := turn_of_step hs
    obtain ⟨hi, hd⟩ | ⟨victim, row, rfl, rfl, rfl⟩ := hturn.inserted
    · have hids : s.ids = c.shared.ids := congrArg (List.map Row.id) hi
      have hkeep : ∀ x, c.shared.Unused x → s.Unused x := by
        intro x hx
        exact ⟨hd x hx.1, hids.symm ▸ hx.2⟩
      refine ⟨fun x hx => ?_, fun x hx _ _ => hkeep x hx⟩
      cases hturn with
      | stop => cases hx
      | draw tenantId userId event q hq =>
          obtain ⟨r, hr, hx⟩ := Option.mem_bind_iff.mp hx
          obtain ⟨data, expiresAt, rfl⟩ := hq r hr
          cases hx
          -- A new identifier was not drawn before, so that no inserted row has it.
          have hnew : inp.fresh ∉ c.shared.drawn := hok _ hp rfl
          refine ⟨.inr fun hx => hnew hx.1, List.mem_append_right _ (List.mem_singleton.mpr rfl), fun hx => ?_⟩
          exact hnew (h.drawn _ hx)
      | scan => cases hx
      | snapshot tenantId userId id data expiresAt victim =>
          cases hx
          exact ⟨.inl rfl, hown _ rfl⟩
      | commit => cases hx
      | lose => cases hx
      | see => cases hx
      | delete tenantId d now seen fetched =>
          cases d <;> cases hx
    · refine ⟨fun x hx => absurd hx (by simp), fun x hx hne _ => ⟨hx.1, fun hm => ?_⟩⟩
      rw [Shared.ids, Shared.commit, List.map_append, List.mem_append] at hm
      rcases hm with hm | hm
      · exact hx.2 hm
      · rw [List.map_singleton, List.mem_singleton] at hm
        exact hne (congrArg some hm.symm)

theorem Inv.table_subset {c : Config Shared Pc} (h : Inv config serde c) :
    ∀ r ∈ c.shared.table, r ∈ c.shared.inserted := by
  intro r hr
  have hconserved : c.shared.rows + heldBy (fun p => (p.fetched : Multiset Row)) c.threads =
      (c.shared.inserted : Multiset Row) := h.conserved
  rw [← Multiset.mem_coe, ← hconserved]
  exact Multiset.mem_add.mpr (.inl (Multiset.mem_add.mpr (.inl hr)))

theorem Inv.next {c c' : Config Shared Pc} {e : Event Call Input} (h : Inv config serde c) (hok : Legal c e)
    (hn : (system config serde).next c e = some c') : Inv config serde c' := by
  have hpending : ∀ i inp victim row s q, e = .run i inp → c.threads[i]? = some (.write victim row) →
      (system config serde).step inp c.shared (.write victim row) = some (s, q) → c.shared.Unused row.id :=
    fun i inp victim row s q _ hp _ =>
      h.tokens.free row.id (List.mem_filterMap.mpr ⟨_, List.mem_of_getElem? hp, rfl⟩)
  have hids : c'.shared.ids.Nodup ∧ ∀ id ∈ c'.shared.ids, id ∈ c'.shared.drawn := by
    obtain ⟨op, rfl, rfl⟩ | ⟨i, inp, p, s, q, l₁, l₂, rfl, hp, hs, hl, rfl⟩ := System.next_cases hn
    · exact ⟨h.nodup, h.drawn⟩
    · have hturn : Turn config serde inp c.shared p s q := turn_of_step hs
      obtain ⟨hi, hd⟩ | ⟨victim, row, rfl, rfl, rfl⟩ := hturn.inserted
      · have hids : s.ids = c.shared.ids := congrArg (List.map Row.id) hi
        rw [hids]
        exact ⟨h.nodup, fun id hid => hd id (h.drawn id hid)⟩
      · obtain ⟨hdrawn, hfresh⟩ := hpending i inp victim row _ _ rfl hp hs
        have hcommit : (c.shared.commit victim row).ids = c.shared.ids ++ [row.id] := by
          rw [Shared.ids, Shared.commit, List.map_append]
          rfl
        rw [hcommit]
        refine ⟨List.nodup_append.mpr ⟨h.nodup, List.nodup_singleton _, ?_⟩, ?_⟩
        · intro a ha b hb hab
          rw [List.mem_singleton.mp hb] at hab
          exact hfresh (hab ▸ ha)
        · intro id hid
          rcases List.mem_append.mp hid with hid | hid
          · exact h.drawn id hid
          · rw [List.mem_singleton.mp hid]
            exact hdrawn
  refine ⟨?_, tokens_next h hok hn, hids.1, hids.2, ?_, ?_⟩
  · refine h.conserved.next hn (fun _ _ => rfl) fun i inp p s q he hp hs => ?_
    exact (turn_of_step hs).conserves (h.sound p (List.mem_of_getElem? hp))
  · refine h.sound.next hn (fun _ _ => trivial) fun i inp p s q l₁ l₂ he hp hl hs => ?_
    have hturn : Turn config serde inp c.shared p s q := turn_of_step hs
    refine ⟨hturn.sound (h.sound p (List.mem_of_getElem? hp)) h.nodup h.table_subset, fun r hr hsound => ?_⟩
    refine hsound.of_turn hturn fun victim row hp' => ?_
    subst hp'
    exact (hpending i inp victim row s q he hp hs).2
  · obtain ⟨op, rfl, rfl⟩ | ⟨i, inp, p, s, q, l₁, l₂, rfl, hp, hs, hl, rfl⟩ := System.next_cases hn
    · exact h.suits
    · exact (turn_of_step hs).suits (h.sound p (List.mem_of_getElem? hp)) h.table_subset h.suits

theorem inv_initial : Inv config serde initial where
  conserved := rfl
  tokens := ⟨List.nodup_nil, fun x hx => absurd hx (by simp [initial])⟩
  nodup := List.nodup_nil
  drawn := fun id hid => absurd hid (by simp [initial, Shared.ids])
  sound := fun p hp => absurd hp (by simp [initial])
  suits := fun x hx => absurd hx (by simp [initial])

theorem heldBy_fetched (threads : List Pc) :
    heldBy (fun p => (p.fetched : Multiset Row)) threads = (threads.flatMap Pc.fetched : List Row) := by
  induction threads with
  | nil => rfl
  | cons p threads ih =>
      rw [List.flatMap_cons, ← Multiset.coe_add, ← ih]
      rfl

/-- **Every row that was inserted is in exactly one place: in the table, in the hands of a drain, or gone in
one way, which fits it.** -/
theorem rows_accounted {c : Config Shared Pc} (h : Reaches (system config serde) Legal initial c) : Accounted c := by
  have hinv : Inv config serde c := by
    refine h.invariant inv_initial ?_
    intro c e c' _ hc hok hn
    exact hc.next hok hn
  have hall : c.shared.inserted.Perm
      (c.shared.table ++ (c.threads.flatMap Pc.fetched ++ c.shared.exits.map Prod.fst)) := by
    have hconserved := hinv.conserved
    rw [Conserved, heldBy_fetched, Shared.rows, add_right_comm, Multiset.coe_add, Multiset.coe_add,
      List.append_assoc] at hconserved
    exact (Multiset.coe_eq_coe.mp hconserved).symm
  exact ⟨hall, (hall.map _).nodup_iff.mp hinv.nodup, hinv.suits⟩

end invariant

/-! ### Two drains of one queue -/

/-- A message is stored for `bob`, and two drains both see it. -/
def twoDrains : List (Event Call Input) :=
  let run (i : ℕ) : Event Call Input := .run i ⟨0, 1, 0, inOrder, false⟩
  [.call (.enqueue "default" "bob" PostgresRace.digest), run 0, run 0, run 0,
    .call (.drain "default" "bob"), .call (.drain "default" "bob"),
    run 0, run 1, run 0, run 1, run 0, run 1, run 0, run 0, run 0, run 0]

theorem rows_accounted_two_drains :
    ∃ c, Reaches (system twoForAll PostgresRace.digestSerde) Legal initial c ∧
      c.shared.exits.map (fun x => x.1.id) = [1] ∧ Accounted c := by
  have hseen : ((system twoForAll PostgresRace.digestSerde).play Legal initial twoDrains).any
      (fun c => decide (c.shared.exits.map (fun x => x.1.id) = [1])) = true := by
    decide +kernel
  obtain ⟨c, hr, hc⟩ := exists_reaches_of_play hseen
  exact ⟨c, hr, of_decide_eq_true hc, rows_accounted hr⟩

end TableRace

end AraNotification
