import AraNotification.DeliveryCounts
import AraNotification.Lib.Liveness
import AraNotification.OpenSocket
import AraNotification.OutboundChannel

/-! # What the service does eventually

An infinite execution of the service is fair when three kinds of tasks are not put off for ever:
a dispatch that can take a step, the writer of a served connection (the WebSocket's send task or
the SSE stream) that has a message to take, and a handler that is about to unregister.  Nothing is
assumed about the environment: it may leave the channels full, so that sends time out, or end a
connection at any time.

Along fair executions every dispatch returns (`dispatch_returns`): no lock, channel or other
program can hold it up, and `Pc.rank` bounds its further steps whatever it finds.  Every message on
the channel of a served connection is taken off unless the connection ends (`message_taken`), and a
connection whose reader or writer has ended is unregistered for good (`connection_forgotten`). -/

namespace AraNotification

open Interleaving

/-- The tasks that are scheduled fairly. -/
inductive ServiceTask where
  | dispatch (notificationId : Uuid)
  | writer (id : Uuid)
  | closer (id : Uuid)
deriving DecidableEq

/-- The task of a step. -/
def Pc.task (p : Pc) (inp : Input) : Option ServiceTask :=
  match p with
  | .socket sock =>
      match inp.task with
      | .send => if inp.ok then some (.writer sock.handle.id) else none
      | .recv => none
      | .main => some (.closer sock.handle.id)
  | .stream h => if inp.ok then some (.writer h.id) else none
  | .closeStream h => some (.closer h.id)
  | p => p.role.eventId.map .dispatch

/-- All tasks are scheduled fairly. -/
def FairExecution {U : UnicodeTables} {settings : Settings}
    (x : Execution (system U settings) Legal (initial settings)) : Prop := ∀ t, x.Fair Pc.task t

/-! ### Dispatches -/

/-- How far a dispatch is from its end: first what is left of the list of users, and whether the
current batch is still being looked up, then the operations left in this stage. -/
def Pc.rank : Pc → ℕ ×ₗ ℕ
  | .begin call => toLex (2 * call.target.named.length + 5, 0)
  | .userLookup _ _ => toLex (2, 1)
  | .userEnqueue _ _ | .broadcastLookup _ | .channelLookup _ _ => toLex (2, 0)
  | .channelsLookup _ channels _ => toLex (2, channels.length)
  | .usersLookup _ batch _ offline rest => toLex (2 * rest.length + 2, 2 * batch.length + offline.length + 1)
  | .usersEnqueue _ offline _ rest => toLex (2 * rest.length + 2, offline.length)
  | .send _ _ todo rest => toLex (2 * rest.length + 1, 2 * todo.length)
  | .track _ _ _ todo rest => toLex (2 * rest.length + 1, 2 * todo.length + 1)
  | _ => toLex (0, 0)

section dispatches
variable {U : UnicodeTables} {settings : Settings} {inp : Input} {s : Service} {a : Action} {p p' : Pc}
  {d : Dispatch} {found : List ConnectionHandle} {rest : List String} {n : Uuid} {m k : ℕ}
  {c : Config Service Pc}

theorem rank_nextBatch (h : 2 * rest.length < m) : (nextBatch d rest).rank < toLex (m, k) := by
  unfold nextBatch
  split_ifs with hrest
  · exact Prod.Lex.toLex_lt_toLex.mpr (.inl (by omega))
  · have hlen := List.length_pos_iff.mpr (fun hnil => hrest (List.isEmpty_iff.mpr hnil))
    refine Prod.Lex.toLex_lt_toLex.mpr (.inl ?_)
    simp only [List.length_drop, userBatchSize]
    omega

theorem rank_startSend (h : 2 * rest.length + 1 < m) : (startSend d found rest).rank < toLex (m, k) := by
  unfold startSend
  split_ifs
  · exact rank_nextBatch (by omega)
  · exact Prod.Lex.toLex_lt_toLex.mpr (.inl h)

theorem rank_firstLookup (target : NotificationTarget) (h : 2 * target.named.length + 4 < m) :
    (firstLookup d target).rank < toLex (m, k) := by
  cases target with
  | users userIds =>
      have hlen : 2 * userIds.length + 4 < m := h
      exact rank_nextBatch (by omega)
  | _ => exact Prod.Lex.toLex_lt_toLex.mpr (.inl (by omega))

theorem DispatchStep.eventId (h : DispatchStep inp s p a p') (hn : n ∈ p.role.eventId) : n ∈ p'.role.eventId := by
  have hown : ∀ d : Dispatch, d.event.id = n → p'.dispatch = some d → n ∈ p'.role.eventId := by
    rintro d rfl hp'
    exact eventId_of_dispatch hp'
  cases h with
  | begin =>
      rename_i call
      exact hown ⟨call.event, call.tenantId, inp.now, 0, 0⟩ (Option.some.inj hn) (dispatch_firstLookup _ _).1
  | userOnline | batchOnline | stored | broadcast | channel | channels =>
      exact hown _ (Option.some.inj hn) dispatch_startSend.1
  | sent => exact hown _ (Option.some.inj hn) dispatch_nextBatch.1
  | _ => exact hn

/-- Every step of a dispatch brings it closer to its end. -/
theorem DispatchStep.rank_lt (h : DispatchStep inp s p a p') : p'.rank < p.rank := by
  have hless : ∀ {m k k' : ℕ}, k' < k → toLex (m, k') < toLex (m, k) :=
    fun hk => Prod.Lex.toLex_lt_toLex.mpr (.inr ⟨rfl, hk⟩)
  cases h with
  | expire => exact Prod.Lex.toLex_lt_toLex.mpr (.inl (by simp))
  | begin => exact rank_firstLookup _ (by omega)
  | userOffline => exact hless Nat.zero_lt_one
  | userStore => exact Prod.Lex.toLex_lt_toLex.mpr (.inl Nat.zero_lt_two)
  | userOnline | broadcast | channel | channels => exact rank_startSend (by simp)
  | batchOnline | stored => exact rank_startSend (by omega)
  | nextOffline | nextOnline | batchOffline | store | nextChannel => exact hless (by simp; try omega)
  | sent => exact rank_nextBatch (by omega)
  | place hi =>
      obtain ⟨hlt, -⟩ := List.getElem?_eq_some_iff.mp hi
      exact hless (by rw [List.length_eraseIdx_of_lt hlt]; omega)
  | giveUp hi =>
      obtain ⟨hlt, -⟩ := List.getElem?_eq_some_iff.mp hi
      exact hless (by rw [List.length_eraseIdx_of_lt hlt]; omega)
  | track => exact hless (Nat.lt_succ_self _)

theorem task_eq_dispatch_iff : p.task inp = some (.dispatch n) ↔ n ∈ p.role.eventId := by
  cases p with
  | socket sock =>
      refine ⟨fun h => ?_, fun h => by cases h⟩
      simp only [Pc.task] at h
      split at h
      · split_ifs at h
        cases h
      · cases h
      · cases h
  | stream h =>
      refine ⟨fun h => ?_, fun h => by cases h⟩
      simp only [Pc.task] at h
      split_ifs at h
      cases h
  | closeStream h => constructor <;> intro h <;> cases h
  | _ => simp [Pc.task]

variable (U settings s) in
/-- A dispatch can always take a step: it gives up the next send when there is no room. -/
theorem exists_dispatch_step (hn : n ∈ p.role.eventId) :
    ∃ succeeds, ∀ fresh, (step U settings ⟨0, fresh, 0, succeeds, .main, none⟩ s p).isSome = true := by
  cases p with
  | begin call =>
      refine ⟨true, fun fresh => ?_⟩
      simp only [step]
      split_ifs <;> rfl
  | userLookup d userId =>
      refine ⟨true, fun fresh => ?_⟩
      simp only [step]
      split_ifs <;> rfl
  | usersLookup d batch found offline rest =>
      refine ⟨true, fun fresh => ?_⟩
      cases batch <;> simp only [step] <;> split_ifs <;> rfl
  | usersEnqueue d offline found rest =>
      refine ⟨true, fun fresh => ?_⟩
      cases offline <;> rfl
  | channelsLookup d channels found =>
      refine ⟨true, fun fresh => ?_⟩
      cases channels <;> rfl
  | send d concurrent todo rest =>
      cases todo with
      | nil => exact ⟨true, fun fresh => rfl⟩
      | cons conn todo =>
          refine ⟨s.hasRoom conn.id, fun fresh => ?_⟩
          cases hroom : s.hasRoom conn.id <;> simp [step, sendStep, maxConcurrentSends, hroom]
  | userEnqueue | broadcastLookup | channelLookup | track | ret => exact ⟨true, fun fresh => rfl⟩
  | socket sock => cases hn
  | _ => cases hn

/-- A dispatch ends by returning its result. -/
theorem returnedId_of_end (h : step U settings inp s p = some (a, none)) (hn : n ∈ p.role.eventId) :
    a.returnedId = some n := by
  have hm := step_move h
  generalize hq : (none : Option Pc).map Pc.role = q at hm
  generalize p.role = r at hm hn
  cases hm with
  | «return» hr =>
      obtain rfl := Option.some.inj hn
      exact congrArg some hr
  | refuse | leave | idle | removed => cases hn
  | unregister => cases hn
  | _ => cases hq

/-- An event that has begun and not returned has a running dispatch. -/
theorem covered_dispatches (h : Reaches (system U settings) Legal (initial settings) c) :
    Covered (fun s n => n ∈ s.beganIds ∧ n ∉ s.returnedIds) (fun p n => n ∈ p.role.eventId) c := by
  refine h.invariant (by simp [Covered, initial, Service.beganIds]) ?_
  intro c e c' hr hc he hn
  refine hc.next hn ?_
  rintro i inp p s q rfl hp hs n ⟨hbegan, hnot⟩
  obtain ⟨a, hstep, rfl, hmove⟩ := system_move hs
  by_cases hown : n ∈ p.role.eventId
  · right; right
    cases q with
    | none => exact absurd (Service.mem_filterMap_apply.mpr (.inr (returnedId_of_end hstep hown))) hnot
    | some p' => exact ⟨p', rfl, (dispatchStep_of_step hstep hown).eventId hown⟩
  · refine .inl ⟨⟨?_, fun hret => hnot (Service.mem_filterMap_apply.mpr (.inl hret))⟩, hown⟩
    rcases Service.mem_filterMap_apply.mp hbegan with hold | hnew
    · exact hold
    · obtain ⟨call, hrole, hid⟩ := hmove.waiting_of_beganId hnew
      exact absurd (by rw [hrole, ← hid]; rfl) hown

/-- **Every dispatch returns**: along every fair execution the dispatch of an event that has been called or
has begun comes back with its result, whatever other dispatches and handlers do and however many channels
are full or closed. -/
theorem dispatch_returns (x : Execution (system U settings) Legal (initial settings)) (hfair : FairExecution x)
    (n : Uuid) : x.LeadsTo
      (fun c => n ∈ c.shared.beganIds ∨ n ∈ c.threads.filterMap Pc.waitingId)
      (fun c => n ∈ c.shared.returnedIds) := by
  have hends : x.LeadsTo (fun c => ∃ p ∈ c.threads, n ∈ p.role.eventId) (fun c => n ∈ c.shared.returnedIds) := by
    refine Execution.finishes Pc.rank (hfair (.dispatch n)) (fun p inp => task_eq_dispatch_iff.mpr)
      (fun p inp => task_eq_dispatch_iff.mp) ?_ ?_ ?_
    · intro k l₁ p l₂ hl hp r hr
      exact (dispatches_of_reaches (fun _ _ he => he) (x.reaches k)).tokens.not_mem_of_split hl hr hp
    · intro k i p hi hp
      obtain ⟨succeeds, hsome⟩ := exists_dispatch_step U settings (x.config k).shared hp
      obtain ⟨fresh, hfresh⟩ := Infinite.exists_notMem_finset (x.config k).shared.enqueuedIds.toFinset
      refine ⟨⟨0, fresh, 0, succeeds, .main, none⟩, ?_, ?_⟩
      · intro p' hp'
        obtain rfl := Option.some.inj (hi.symm.trans hp')
        refine ⟨fun hreg => ?_, fun _ hmem => hfresh (List.mem_toFinset.mpr hmem)⟩
        cases p with
        | connect => cases hp
        | _ => cases hreg
      · simpa [system] using hsome fresh
    · intro k inp p q hp hmem hs
      obtain ⟨a, hstep, hshared, -⟩ := system_move hs
      cases q with
      | some p' =>
          have hnext := dispatchStep_of_step hstep hp
          exact .inl ⟨p', rfl, hnext.eventId hp, hnext.rank_lt⟩
      | none =>
          refine .inr ⟨rfl, ?_⟩
          rw [hshared]
          exact Service.mem_filterMap_apply.mpr (.inr (returnedId_of_end hstep hp))
  intro k hk
  by_cases hret : n ∈ (x.config k).shared.returnedIds
  · exact ⟨k, le_rfl, hret⟩
  · refine hends k ?_
    rcases hk with hbegan | hwaiting
    · exact covered_dispatches (x.reaches k) n ⟨hbegan, hret⟩
    · obtain ⟨p, hp, hid⟩ := List.mem_filterMap.mp hwaiting
      refine ⟨p, hp, ?_⟩
      cases p <;> first | exact hid | cases hid

end dispatches

/-! ### Served connections -/

/-- The program serves the connection: the stream, or a WebSocket both of whose tasks run. -/
def Pc.Serves (id : Uuid) : Pc → Prop
  | .socket sock =>
      sock.handle.id = id ∧ sock.registered = true ∧ (sock.sendTask && sock.recvTask.isSome) = true
  | .stream h => h.id = id
  | _ => False

instance (id : Uuid) (p : Pc) : Decidable (p.Serves id) := by
  unfold Pc.Serves
  split <;> infer_instance

/-- The reader or the writer of the connection has ended. -/
def Stopped (s : Service) (id : Uuid) : Prop := .sendEnded id ∈ s.history ∨ .recvEnded id ∈ s.history

section writers
variable {U : UnicodeTables} {settings : Settings} {inp : Input} {s : Service} {a : Action} {p : Pc}
  {q : Option Pc} {id : Uuid} {l : List OutboundMessage} {k : ℕ}

theorem Stopped.apply (h : Stopped s id) : Stopped (s.apply a) id :=
  h.imp Service.mem_history_of_mem Service.mem_history_of_mem

theorem stopped_apply_of_end (h : a = .sendEnded id ∨ a = .recvEnded id) : Stopped (s.apply a) id := by
  rcases h with rfl | rfl
  · exact .inl Service.mem_history_self
  · exact .inr Service.mem_history_self

/-- A connection is served until its reader or writer ends. -/
theorem Pc.Serves.step (hp : p.Serves id) (h : step U settings inp s p = some (a, q)) :
    (∃ p' ∈ q, p'.Serves id) ∨ a = .sendEnded id ∨ a = .recvEnded id := by
  cases p with
  | socket sock =>
      obtain ⟨hid, hreg, hboth⟩ := hp
      obtain ⟨hsend, hrecv⟩ := Bool.and_eq_true_iff.mp hboth
      obtain ⟨-, -, -, -, rfl⟩ | ⟨-, -, ha, -⟩ | ⟨-, r, r', -, hs, rfl⟩ | ⟨-, -, hone, -⟩ | ⟨-, hreg', -⟩ :=
        socketStep_cases h
      · exact .inl ⟨_, rfl, hid, hreg, hboth⟩
      · exact .inr (.inl (hid ▸ ha))
      · rcases receiveStep_cases hs with ⟨-, hr'⟩ | ⟨ha, -⟩ | ⟨m, -, -, hr'⟩
        · exact .inl ⟨_, rfl, hid, hreg, Bool.and_eq_true_iff.mpr ⟨hsend, hr'⟩⟩
        · exact .inr (.inr (hid ▸ ha))
        · exact .inl ⟨_, rfl, hid, hreg, Bool.and_eq_true_iff.mpr ⟨hsend, hr'⟩⟩
      · rw [hboth] at hone
        cases hone
      · rw [hreg] at hreg'
        cases hreg'
  | stream h' =>
      simp only [AraNotification.step] at h
      split_ifs at h <;> cases h
      · exact .inl ⟨_, rfl, hp⟩
      · exact .inr (.inl (congrArg _ hp))
  | _ => exact hp.elim

/-- The writer takes the next message off the channel. -/
theorem deliver_of_task (ht : p.task inp = some (.writer id)) (h : step U settings inp s p = some (a, q)) :
    a = .deliver id ∧ s.buffer id ≠ [] := by
  cases p with
  | socket sock =>
      simp only [Pc.task] at ht
      split at ht
      · rename_i htask
        split_ifs at ht with hok
        obtain rfl := ServiceTask.writer.inj (Option.some.inj ht)
        simp only [step, socketStep, htask, hok, if_true] at h
        split_ifs at h with hsend hempty
        cases h
        exact ⟨rfl, fun hnil => hempty (by rw [hnil]; rfl)⟩
      · cases ht
      · cases ht
  | stream h' =>
      simp only [Pc.task] at ht
      split_ifs at ht with hok
      obtain rfl := ServiceTask.writer.inj (Option.some.inj ht)
      simp only [step, hok, if_true] at h
      split_ifs at h with hempty
      cases h
      exact ⟨rfl, fun hnil => hempty (by rw [hnil]; rfl)⟩
  | closeStream h' => cases ht
  | _ => simp [Pc.task] at ht

/-- A program that draws no identifier can always be scheduled. -/
theorem legal_run {c : Config Service Pc} {i : ℕ} (hi : c.threads[i]? = some p) (hreg : p.registers = false)
    (henq : p.enqueues = false) : Legal c (.run i inp) := by
  intro p' hp'
  obtain rfl := Option.some.inj (hi.symm.trans hp')
  rw [hreg, henq]
  exact ⟨fun h => (by cases h), fun h => (by cases h)⟩

/-- The writer of a served connection can take a message when there is one. -/
theorem enabled_writer {c : Config Service Pc} (hp : p ∈ c.threads) (hserves : p.Serves id)
    (hne : c.shared.buffer id ≠ []) : Enabled (system U settings) Legal Pc.task (.writer id) c := by
  obtain ⟨i, hi⟩ := List.mem_iff_getElem?.mp hp
  cases p with
  | socket sock =>
      obtain ⟨rfl, -, hboth⟩ := hserves
      refine ⟨.run i ⟨0, 0, 0, true, .send, none⟩, legal_run hi rfl rfl, ⟨i, _, _, rfl, hi, rfl⟩, ?_⟩
      simp [System.next, hi, system, step, socketStep, (Bool.and_eq_true_iff.mp hboth).1, hne]
  | stream h =>
      obtain rfl := hserves
      refine ⟨.run i ⟨0, 0, 0, true, .main, none⟩, legal_run hi rfl rfl, ⟨i, _, _, rfl, hi, rfl⟩, ?_⟩
      simp [System.next, hi, system, step, hne]
  | _ => exact hserves.elim

/-- What is put on a channel stays in place, and messages are taken off one by one. -/
theorem channel_grows (x : Execution (system U settings) Legal (initial settings)) (id : Uuid) (k : ℕ) :
    (x.config k).shared.put id <+: (x.config (k + 1)).shared.put id ∧
      (((x.config (k + 1)).shared.received id settings).length =
        ((x.config k).shared.received id settings).length ∨
      ((x.config (k + 1)).shared.received id settings).length =
        ((x.config k).shared.received id settings).length + 1) := by
  obtain ⟨op, -, hc⟩ | ⟨i, inp, p, s, q, l₁, l₂, -, -, hs, -, hc⟩ := System.next_cases (x.next k)
  · rw [hc]
    exact ⟨List.prefix_rfl, .inl rfl⟩
  · obtain ⟨a, -, rfl, -⟩ := system_move hs
    rw [hc]
    dsimp only
    rw [put_apply, received_apply (x.reaches k), List.length_append]
    refine ⟨List.prefix_append _ _, ?_⟩
    cases a.takenOff (x.config k).shared id
    · exact .inl rfl
    · exact .inr rfl

/-- **Messages on the channel of a served connection are taken**: along every fair execution, all that is on
the channel at some time, whoever put it there, is taken off in order by the writer of the connection, unless
the connection stops. -/
theorem message_taken (x : Execution (system U settings) Legal (initial settings)) (hfair : FairExecution x)
    (id : Uuid) (l : List OutboundMessage) : x.LeadsTo
      (fun c => (∃ p ∈ c.threads, p.Serves id) ∧ c.shared.put id = l)
      (fun c => l <+: c.shared.received id settings ∨ Stopped c.shared id) := by
  have hline : ∀ k, (x.config k).shared.received id settings ++ (x.config k).shared.buffer id =
      (x.config k).shared.put id := fun k => line_of_reaches (x.reaches k) id
  have hserved : ∀ k, (∃ p ∈ (x.config k).threads, p.Serves id) →
      (∃ p ∈ (x.config (k + 1)).threads, p.Serves id) ∨ Stopped (x.config (k + 1)).shared id := by
    intro k hp
    refine Execution.lasts (Q := fun c => Stopped c.shared id) hp ?_
    intro inp p q hserves _ hs
    obtain ⟨a, hstep, hshared, -⟩ := system_move hs
    rw [hshared]
    exact (hserves.step hstep).imp_right stopped_apply_of_end
  -- `a` messages are still to be taken off
  have hrank : ∀ a, x.LeadsTo
      (fun c => (∃ p ∈ c.threads, p.Serves id) ∧ l <+: c.shared.put id ∧
        (c.shared.received id settings).length + a = l.length)
      (fun c => l <+: c.shared.received id settings ∨ Stopped c.shared id) := by
    refine Execution.leadsTo_of_rank (fun a => ?_)
    cases a with
    | zero =>
        refine .of_imp ?_
        rintro k ⟨-, hput, hlen⟩
        refine .inl (.inl (List.prefix_of_prefix_length_le hput ?_ (Nat.le_of_eq hlen.symm)))
        rw [← hline k]
        exact List.prefix_append _ _
    | succ a =>
        refine Execution.leadsTo_of_fair (hfair (.writer id)) ?_ ?_ ?_
        · rintro k ⟨⟨p, hp, hserves⟩, hput, hlen⟩
          refine enabled_writer hp hserves (fun hnil => ?_)
          have hle := hput.length_le
          rw [← hline k, hnil, List.append_nil] at hle
          omega
        · rintro k ⟨hp, hput, hlen⟩
          obtain ⟨hput', hlen'⟩ := channel_grows x id k
          rcases hserved k hp with hp' | hstopped
          · rcases hlen' with hlen' | hlen'
            · exact .inl ⟨hp', hput.trans hput', by omega⟩
            · exact .inr (.inr ⟨a, Nat.lt_succ_self a, hp', hput.trans hput', by omega⟩)
          · exact .inr (.inl (.inr hstopped))
        · rintro k ⟨hp, hput, hlen⟩ ht
          rcases hserved k hp with hp' | hstopped
          · obtain ⟨i, inp, p, q, htask, -, hs⟩ := Execution.step_of_taken ht
            obtain ⟨b, hstep, hshared, -⟩ := system_move hs
            obtain ⟨rfl, hne⟩ := deliver_of_task htask hstep
            refine .inr ⟨a, Nat.lt_succ_self a, hp', hput.trans (channel_grows x id k).1, ?_⟩
            rw [hshared, received_apply (x.reaches k), List.length_append, Action.takenOff, if_pos rfl,
              List.head?_eq_some_head hne, Option.toList_some, List.length_singleton]
            omega
          · exact .inl (.inr hstopped)
  rintro k ⟨hp, rfl⟩
  refine hrank _ k ⟨hp, List.prefix_rfl, Nat.add_sub_cancel' ?_⟩
  rw [← hline k, List.length_append]
  exact Nat.le_add_right _ _

end writers

/-! ### Stopped connections -/

/-- The program is about to unregister the connection. -/
def Pc.Closing (id : Uuid) : Pc → Prop
  | .socket sock =>
      sock.handle.id = id ∧ sock.registered = true ∧ (sock.sendTask && sock.recvTask.isSome) = false
  | .closeStream h => h.id = id
  | _ => False

/-- A handler that has unregistered its connection leaves it so. -/
def Pc.Gone (s : Service) : Pc → Prop
  | .socket sock => sock.registered = false → s.identityOf sock.handle.id = none
  | _ => True

section closers
variable {U : UnicodeTables} {settings : Settings} {c : Config Service Pc} {inp : Input} {s : Service} {a : Action}
  {p p' : Pc} {q : Option Pc} {id : Uuid} {k : ℕ}

/-- What is not registered stays so until it is registered. -/
theorem identityOf_eq_none_apply (h : s.identityOf id = none) (hreg : a.registeredId ≠ some id) :
    (s.apply a).identityOf id = none := by
  by_cases hunreg : a = .unregister id
  · rw [hunreg, Service.identityOf_unregister, if_pos rfl]
  · rw [Service.identityOf_kept hreg hunreg]
    exact h

/-- What the next actions of a handler mean for its registration. -/
theorem Pc.Gone.own_step (hp : p.Gone s) (h : step U settings inp s p = some (a, some p')) : p'.Gone (s.apply a) := by
  cases p' with
  | socket sock' =>
      intro hgone
      have hconn : sock'.handle.id ∈ (Pc.socket sock').role.connection := rfl
      rcases (step_move h).connection hconn with hold | ⟨hrole, -, -⟩
      · cases p with
        | drain transport h' => cases h
        | replay transport h' start backlog =>
            cases backlog with
            | nil =>
                cases transport <;> cases h
                cases hgone
            | cons m backlog =>
                simp only [step] at h
                split_ifs at h <;> cases h
        | socket sock =>
            obtain ⟨-, -, -, rfl, hq⟩ | ⟨-, -, rfl, hq⟩ | ⟨-, r, r', -, hs, hq⟩ | ⟨-, -, -, rfl, hq⟩ |
              ⟨-, -, -, hq⟩ := socketStep_cases h
            · cases hq
              exact identityOf_eq_none_apply (hp hgone) (by simp [Action.registeredId])
            · cases hq
              exact identityOf_eq_none_apply (hp hgone) (by simp [Action.registeredId])
            · cases hq
              refine identityOf_eq_none_apply (hp hgone) ?_
              rcases receiveStep_cases hs with ⟨ha, -⟩ | ⟨rfl, -⟩ | ⟨m, -, rfl, -⟩
              · cases a <;> first | exact ha.elim | simp [Action.registeredId]
              · simp [Action.registeredId]
              · simp [Action.registeredId]
            · cases hq
              rw [Service.identityOf_unregister, if_pos rfl]
            · cases hq
        | stream h' =>
            simp only [step] at h
            split_ifs at h <;> cases h
        | closeStream h' => cases h
        | _ => cases hold
      · obtain ⟨transport, claims, rfl⟩ := connect_of_role hrole
        simp only [step] at h
        split at h
        · cases h
        · split_ifs at h <;> cases transport <;> cases h
          cases hgone
  | _ => trivial

theorem gone_of_reaches (h : Reaches (system U settings) Legal (initial settings) c) :
    Holds (fun s p => p.Gone s) c := by
  refine h.invariant (by simp [Holds, initial]) ?_
  intro c e c' hr hc he hn
  refine hc.next hn ?_ ?_
  · rintro op rfl
    cases op <;> trivial
  · rintro i inp p s q l₁ l₂ rfl hp hl hs
    obtain ⟨a, hstep, rfl, hmove⟩ := system_move hs
    refine ⟨?_, fun p' hmem hgone => ?_⟩
    · rintro p' rfl
      exact (hc p (List.mem_of_getElem? hp)).own_step hstep
    · cases p' with
      | socket sock =>
          intro hreg
          refine identityOf_eq_none_apply (hgone hreg) (fun hnew => ?_)
          obtain ⟨hrole, hid⟩ := hmove.fresh_of_registeredId hnew
          refine (he p hp).1 (registers_of_connecting hrole) (hid ▸ ?_)
          exact (connections_of_reaches (fun _ _ h => h) hr).free _
            (List.mem_filterMap.mpr ⟨_, mem_of_split hl hmem, rfl⟩)
      | _ => trivial

/-- A handler that is about to unregister its connection does so. -/
theorem Pc.Closing.step (hp : p.Closing id) (h : step U settings inp s p = some (a, q)) :
    (∃ p' ∈ q, p'.Closing id) ∨ a = .unregister id := by
  cases p with
  | socket sock =>
      obtain ⟨rfl, hreg, hone⟩ := hp
      obtain ⟨-, -, -, -, rfl⟩ | ⟨-, -, -, rfl⟩ | ⟨-, r, r', hr, -, rfl⟩ | ⟨-, -, -, rfl, -⟩ | ⟨-, hreg', -⟩ :=
        socketStep_cases h
      · exact .inl ⟨_, rfl, rfl, hreg, hone⟩
      · exact .inl ⟨_, rfl, rfl, hreg, rfl⟩
      · refine .inl ⟨_, rfl, rfl, hreg, ?_⟩
        rw [hr, Option.isSome_some, Bool.and_true] at hone
        show (sock.sendTask && r'.isSome) = false
        rw [hone, Bool.false_and]
      · exact .inr rfl
      · rw [hreg] at hreg'
        cases hreg'
  | closeStream h' =>
      cases h
      exact .inr (congrArg _ hp)
  | _ => exact hp.elim

/-- The end of a task makes the handler unregister, unless it has done so before. -/
theorem closing_of_end (h : step U settings inp s p = some (a, q)) (hp : p.Gone s)
    (ha : a = .sendEnded id ∨ a = .recvEnded id) : (∃ p' ∈ q, p'.Closing id) ∨ s.identityOf id = none := by
  have hends : a.Ends id := by rcases ha with rfl | rfl <;> rfl
  rcases (step_move h).connection_of_ends hends with hold | ⟨-, hreg, -⟩
  · cases p with
    | drain transport h' =>
        cases h
        exact hends.elim
    | replay transport h' start backlog =>
        cases backlog with
        | nil =>
            cases h
            exact hends.elim
        | cons m backlog =>
            simp only [step] at h
            split_ifs at h <;> cases h <;> exact hends.elim
    | socket sock =>
        obtain rfl := Option.some.inj hold
        by_cases hreg : sock.registered = true
        · obtain ⟨-, -, -, rfl, -⟩ | ⟨-, -, -, rfl⟩ | ⟨-, r, r', hr, hs, rfl⟩ | ⟨-, -, -, rfl, -⟩ | ⟨-, -, rfl, -⟩ :=
            socketStep_cases h
          · exact hends.elim
          · exact .inl ⟨_, rfl, rfl, hreg, rfl⟩
          · rcases receiveStep_cases hs with ⟨hquiet, -⟩ | ⟨-, rfl⟩ | ⟨m, -, rfl, -⟩
            · cases a <;> first | exact hends.elim | exact hquiet.elim
            · exact .inl ⟨_, rfl, rfl, hreg, Bool.and_false _⟩
            · exact hends.elim
          · exact hends.elim
          · exact hends.elim
        · exact .inr (hp (Bool.eq_false_iff.mpr hreg))
    | stream h' =>
        obtain rfl := Option.some.inj hold
        simp only [step] at h
        split_ifs at h <;> cases h
        · exact hends.elim
        · exact .inl ⟨_, rfl, rfl⟩
    | closeStream h' =>
        cases h
        exact hends.elim
    | _ => cases hold
  · rcases ha with rfl | rfl <;> cases hreg

/-- A stopped connection is not registered again. -/
theorem Stopped.not_registered (hstopped : Stopped c.shared id) {i : ℕ}
    (h : Reaches (system U settings) Legal (initial settings) c) (he : Legal c (.run i inp))
    (hp : c.threads[i]? = some p) (hmove : Move settings inp c.shared p.role a (q.map Pc.role)) :
    a.registeredId ≠ some id := by
  intro hreg
  have hover : Over c.shared id := by
    rcases hstopped with hend | hend
    · exact ⟨_, hend, rfl⟩
    · exact ⟨_, hend, rfl⟩
  obtain ⟨hrole, rfl⟩ := hmove.fresh_of_registeredId hreg
  exact (he p hp).1 (registers_of_connecting hrole) (registered_of_over (fun _ _ h => h) h _ hover)

/-- The handler of a stopped connection that is still registered is about to unregister it. -/
theorem covered_stopped (h : Reaches (system U settings) Legal (initial settings) c) :
    Covered (fun s id => Stopped s id ∧ s.identityOf id ≠ none) (fun p id => p.Closing id) c := by
  refine h.invariant (by simp [Covered, initial, Stopped]) ?_
  intro c e c' hr hc he hn
  refine hc.next hn ?_
  rintro i inp p s q rfl hp hs id ⟨hstopped, hsome⟩
  obtain ⟨a, hstep, rfl, hmove⟩ := system_move hs
  have hp' := List.mem_of_getElem? hp
  by_cases hbefore : c.shared.identityOf id = none
  · -- it is not registered again
    by_contra
    refine hsome (identityOf_eq_none_apply hbefore (fun hreg => ?_))
    have hold : Stopped c.shared id := by
      rcases hstopped with hend | hend <;> rcases Service.mem_history_apply.mp hend with hold | rfl
      · exact .inl hold
      · cases hreg
      · exact .inr hold
      · cases hreg
    exact hold.not_registered hr he hp hmove hreg
  · by_cases hold : Stopped c.shared id
    · by_cases hown : p.Closing id
      · rcases hown.step hstep with hnext | rfl
        · exact .inr (.inr hnext)
        · rw [Service.identityOf_unregister, if_pos rfl] at hsome
          exact absurd rfl hsome
      · exact .inl ⟨⟨hold, hbefore⟩, hown⟩
    · have hend : a = .sendEnded id ∨ a = .recvEnded id := by
        rcases hstopped with hend | hend <;> rcases Service.mem_history_apply.mp hend with hold' | rfl
        · exact absurd (.inl hold') hold
        · exact .inl rfl
        · exact absurd (.inr hold') hold
        · exact .inr rfl
      rcases closing_of_end hstep (gone_of_reaches hr p hp') hend with hnext | hnone
      · exact .inr (.inr hnext)
      · exact absurd hnone hbefore

/-- The handler that is about to unregister can do so. -/
theorem enabled_closer (hp : p ∈ c.threads) (hclosing : p.Closing id) :
    Enabled (system U settings) Legal Pc.task (.closer id) c := by
  obtain ⟨i, hi⟩ := List.mem_iff_getElem?.mp hp
  cases p with
  | socket sock =>
      obtain ⟨rfl, hreg, hone⟩ := hclosing
      refine ⟨.run i ⟨0, 0, 0, true, .main, none⟩, legal_run hi rfl rfl, ⟨i, _, _, rfl, hi, rfl⟩, ?_⟩
      simpa [System.next, hi, system, step, socketStep, hreg] using hone
  | closeStream h =>
      obtain rfl := hclosing
      exact ⟨.run i ⟨0, 0, 0, true, .main, none⟩, legal_run hi rfl rfl, ⟨i, _, _, rfl, hi, rfl⟩,
        by simp [System.next, hi, system, step]⟩
  | _ => exact hclosing.elim

/-- The step of the handler unregisters the connection, unless it has been unregistered. -/
theorem identityOf_of_closer (ht : p.task inp = some (.closer id)) (h : step U settings inp s p = some (a, q))
    (hp : p.Gone s) : (s.apply a).identityOf id = none := by
  cases p with
  | socket sock =>
      simp only [Pc.task] at ht
      split at ht
      · split_ifs at ht
        cases ht
      · cases ht
      · rename_i htask
        obtain rfl := ServiceTask.closer.inj (Option.some.inj ht)
        simp only [step, socketStep, htask] at h
        split_ifs at h with hreg hone <;> cases h
        · rw [Service.identityOf_unregister, if_pos rfl]
        · exact identityOf_eq_none_apply (hp (Bool.eq_false_iff.mpr hreg)) (by simp [Action.registeredId])
  | stream h' =>
      simp only [Pc.task] at ht
      split_ifs at ht
      cases ht
  | closeStream h' =>
      obtain rfl := ServiceTask.closer.inj (Option.some.inj ht)
      cases h
      rw [Service.identityOf_unregister, if_pos rfl]
  | _ => simp [Pc.task] at ht

/-- **A stopped connection is forgotten for good**: along every fair execution a connection whose reader or
writer has ended is unregistered, and from then on is never found again. -/
theorem connection_forgotten (x : Execution (system U settings) Legal (initial settings)) (hfair : FairExecution x)
    (hstopped : Stopped (x.config k).shared id) :
    ∃ k', k ≤ k' ∧ ∀ k'', k' ≤ k'' → (x.config k'').shared.manager.connections.lookup id = none := by
  -- what has been unregistered after its end stays so
  have hkept : ∀ m, Stopped (x.config m).shared id ∧ (x.config m).shared.identityOf id = none →
      Stopped (x.config (m + 1)).shared id ∧ (x.config (m + 1)).shared.identityOf id = none := by
    rintro m ⟨hstop, hnone⟩
    obtain ⟨op, -, hc⟩ | ⟨i, inp, p, s, q, l₁, l₂, he, hp, hs, -, hc⟩ := System.next_cases (x.next m)
    · rw [hc]
      exact ⟨hstop, hnone⟩
    · obtain ⟨a, -, rfl, hmove⟩ := system_move hs
      rw [hc]
      exact ⟨hstop.apply, identityOf_eq_none_apply hnone
        (hstop.not_registered (x.reaches m) (he ▸ x.admissible m) hp hmove)⟩
  have hcloses : x.LeadsTo (fun c => ∃ p ∈ c.threads, p.Closing id) (fun c => c.shared.identityOf id = none) := by
    refine Execution.leadsTo_of_fair (hfair (.closer id)) ?_ ?_ ?_
    · rintro m ⟨p, hp, hclosing⟩
      exact enabled_closer hp hclosing
    · intro m hp
      refine Execution.lasts (Q := fun c => c.shared.identityOf id = none) hp ?_
      intro inp p q hclosing _ hs
      obtain ⟨a, hstep, hshared, -⟩ := system_move hs
      refine (hclosing.step hstep).imp_right ?_
      rintro rfl
      rw [hshared, Service.identityOf_unregister, if_pos rfl]
    · intro m _ ht
      obtain ⟨i, inp, p, q, htask, hi, hs⟩ := Execution.step_of_taken ht
      obtain ⟨a, hstep, hshared, -⟩ := system_move hs
      rw [hshared]
      exact identityOf_of_closer htask hstep (gone_of_reaches (x.reaches m) p (List.mem_of_getElem? hi))
  have hstays : ∀ {m m' : ℕ}, m ≤ m' → Stopped (x.config m).shared id → Stopped (x.config m').shared id := by
    intro m m' hm hstop
    refine x.stable (P := fun c => Stopped c.shared id) ?_ hm hstop
    intro m hstop
    obtain ⟨op, -, hc⟩ | ⟨i, inp, p, s, q, l₁, l₂, -, -, hs, -, hc⟩ := System.next_cases (x.next m)
    · rw [hc]
      exact hstop
    · obtain ⟨a, -, rfl, -⟩ := system_move hs
      rw [hc]
      exact hstop.apply
  obtain ⟨k', hk', hnone⟩ : ∃ k', k ≤ k' ∧ (x.config k').shared.identityOf id = none := by
    by_cases hnone : (x.config k).shared.identityOf id = none
    · exact ⟨k, le_rfl, hnone⟩
    · exact hcloses k (covered_stopped (x.reaches k) id ⟨hstopped, hnone⟩)
  refine ⟨k', hk', fun k'' hk'' => ?_⟩
  have hlater := x.stable (P := fun c => Stopped c.shared id ∧ c.shared.identityOf id = none) hkept hk''
    ⟨hstays hk' hstopped, hnone⟩
  exact Option.map_eq_none_iff.mp hlater.2

end closers

/-! ### A session -/

/-- `bob` is sent two events, which he takes off his channel, and leaves. -/
def takenThenLeft : List (Event ServiceCall Input) :=
  storedThenSent ++ List.replicate 2 (.run 0 { tick with task := .send }) ++
    [.run 0 { tick with task := .recv }, .run 0 tick, .run 0 tick]

/-- A schedule after which nothing runs can be continued fairly. -/
theorem exists_fair (U : UnicodeTables) (settings : Settings) (es : List (Event ServiceCall Input))
    (h : ((system U settings).play Legal (initial settings) es).any (fun c => c.threads.isEmpty) = true) :
    ∃ x : Execution (system U settings) Legal (initial settings), FairExecution x ∧
      ∀ k, x.config k = Execution.configAfter (system U settings) (initial settings) es .heartbeat k := by
  obtain ⟨c, hplay, hempty⟩ := (Option.any_eq_true _ _).mp h
  have hop : ∀ c, Legal c (.call .heartbeat) := fun _ => trivial
  refine ⟨Execution.ofPlay hop hplay, fun t => Execution.fair_ofPlay hop hplay ?_ (fun inp => rfl) t, fun k => rfl⟩
  rw [List.isEmpty_iff.mp hempty]
  intro p hp
  cases hp

/-- Along a fair execution with `bob`'s session both dispatches return. -/
theorem dispatch_returns_bob :
    ∃ x : Execution (system .ascii .withQueue) Legal (initial .withQueue), FairExecution x ∧
      2 ∈ (x.config 11).threads.filterMap Pc.waitingId ∧ ∃ k, 11 ≤ k ∧ 2 ∈ (x.config k).shared.returnedIds := by
  obtain ⟨x, hfair, hconfig⟩ := exists_fair .ascii .withQueue takenThenLeft (by decide +kernel)
  have hwaiting : 2 ∈ (x.config 11).threads.filterMap Pc.waitingId := by
    rw [hconfig]
    decide +kernel
  exact ⟨x, hfair, hwaiting, dispatch_returns x hfair 2 11 (.inr hwaiting)⟩

/-- Both messages on `bob`'s channel are taken, or his connection stops. -/
theorem message_taken_bob :
    ∃ x : Execution (system .ascii .withQueue) Legal (initial .withQueue), FairExecution x ∧
      ((x.config 17).shared.put 0).length = 2 ∧ ((x.config 17).shared.received 0 .withQueue).length = 0 ∧
      ∃ k, 17 ≤ k ∧ ((x.config 17).shared.put 0 <+: (x.config k).shared.received 0 .withQueue ∨
        Stopped (x.config k).shared 0) := by
  obtain ⟨x, hfair, hconfig⟩ := exists_fair .ascii .withQueue takenThenLeft (by decide +kernel)
  have hserved : ∃ p ∈ (x.config 17).threads, p.Serves 0 := by
    rw [hconfig]
    decide +kernel
  refine ⟨x, hfair, ?_, ?_, message_taken x hfair 0 _ 17 ⟨hserved, rfl⟩⟩
  · rw [hconfig]
    decide +kernel
  · rw [hconfig]
    decide +kernel

/-- `bob`'s connection is forgotten. -/
theorem connection_forgotten_bob :
    ∃ x : Execution (system .ascii .withQueue) Legal (initial .withQueue), FairExecution x ∧
      ((x.config 20).shared.manager.connections.lookup 0).isSome = true ∧ Stopped (x.config 20).shared 0 ∧
      ∃ k, 20 ≤ k ∧ ∀ k', k ≤ k' → (x.config k').shared.manager.connections.lookup 0 = none := by
  obtain ⟨x, hfair, hconfig⟩ := exists_fair .ascii .withQueue takenThenLeft (by decide +kernel)
  have hended : ∃ a ∈ (x.config 20).shared.history, a.Ends 0 ∧ a.registeredId = none := by
    rw [hconfig]
    decide +kernel
  have hstopped : Stopped (x.config 20).shared 0 := by
    obtain ⟨a, ha, hends, hnone⟩ := hended
    cases a with
    | sendEnded id =>
        obtain rfl := hends
        exact .inl ha
    | recvEnded id =>
        obtain rfl := hends
        exact .inr ha
    | register transport h => cases hnone
    | _ => exact hends.elim
  refine ⟨x, hfair, ?_, hstopped, connection_forgotten x hfair hstopped⟩
  rw [hconfig]
  decide +kernel

end AraNotification
