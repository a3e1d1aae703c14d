import AraNotification.OpenSocket

/-! # Whose messages a connection replays

A message is stored under the queue key of a tenant and a user, and a connection replays
what it finds under the key of its own identity.  What it replays was therefore stored for an
identity with the same key (`sourced_of_reaches`).  The key of an identity does not determine
it: the default tenant has no prefix, and tenant and user are joined by a colon that both may
contain.

`Faithful` says that every replayed message has gone to a connection of the identity for
which it was stored.  For any set of identities, the runs in which only these are stored for
and connect are faithful exactly when no two of them `Collide` (`faithful_iff`): if two do,
a message stored for the one is replayed to the other. -/

namespace AraNotification

open Interleaving

/-- The message was stored for an identity with this queue key. -/
def StoredFor (s : Service) (key : String) (m : StoredMessage) : Prop :=
  ∃ i, .enqueue i m ∈ s.history ∧ Identity.key i = key

/-- Every message that was stored and replayed went to a connection of the identity for which it
was stored. -/
def Faithful (s : Service) : Prop :=
  ∀ i m transport h message now, .enqueue i m ∈ s.history → .register transport h ∈ s.history →
    .place h.id message now (.replay m.id) ∈ s.history → h.identity = i

/-- The action stores only for an identity of the set, or registers only a connection of such. -/
def Action.Among (S : Set Identity) : Action → Prop
  | .enqueue i _ => i ∈ S
  | .register _ h => h.identity ∈ S
  | _ => True

/-- The step stores for and registers identities of the set only. -/
def Among (S : Set Identity) (U : UnicodeTables) (settings : Settings) (c : Config Service Pc) :
    Event ServiceCall Input → Prop
  | .call _ => True
  | .run i inp => ∀ out ∈ upcoming U settings c i inp, out.1.Among S

/-! ### Where a replayed message comes from -/

section provenance
variable {U : UnicodeTables} {settings : Settings} {c : Config Service Pc}
  {ok : Config Service Pc → Event ServiceCall Input → Prop} {s : Service} {a : Action} {key : String}
  {m : StoredMessage}

theorem StoredFor.apply (h : StoredFor s key m) : StoredFor (s.apply a) key m := by
  obtain ⟨i, hi, hk⟩ := h
  exact ⟨i, Service.mem_history_of_mem hi, hk⟩

theorem storedFor_of_storedUnder (h : m ∈ a.storedUnder key) : StoredFor (s.apply a) key m := by
  cases a with
  | enqueue i m' =>
      simp only [Action.storedUnder] at h
      split_ifs at h with hk
      · cases h
        exact ⟨i, Service.mem_history_self, hk⟩
      · cases h
  | _ => cases h

/-- A handler was registered, and its backlog was stored under its key. -/
def Role.Sourced (s : Service) : Role → Prop
  | .registered transport h => .register transport h ∈ s.history
  | .replaying transport h _ backlog =>
      .register transport h ∈ s.history ∧ ∀ m ∈ backlog, StoredFor s h.identity.key m
  | _ => True

/-- A replayed message was stored under the key of the connection to which it went. -/
def Action.Sourced (s : Service) : Action → Prop
  | .place id _ _ (.replay x) =>
      ∃ transport h m, .register transport h ∈ s.history ∧ h.id = id ∧ m.id = x ∧
        StoredFor s h.identity.key m
  | _ => True

theorem Role.Sourced.apply {r : Role} (h : r.Sourced s) : r.Sourced (s.apply a) := by
  cases r with
  | registered transport h' => exact Service.mem_history_of_mem h
  | replaying transport h' start backlog =>
      exact ⟨Service.mem_history_of_mem h.1, fun m hm => (h.2 m hm).apply⟩
  | _ => trivial

theorem Action.Sourced.apply {b : Action} (h : b.Sourced s) : b.Sourced (s.apply a) := by
  unfold Action.Sourced at h ⊢
  split
  · obtain ⟨transport, h', m, hr, hid, hx, hs⟩ := h
    exact ⟨transport, h', m, Service.mem_history_of_mem hr, hid, hx, hs.apply⟩
  · trivial

/-- Every step keeps track of where messages come from. -/
theorem Move.sourced {inp : Input} {r : Role} {q : Option Role} (h : Move settings inp s r a q)
    (hqueue : ∀ key, ∀ m ∈ s.queue.messages key, StoredFor s key m) (hr : r.Sourced s) :
    a.Sourced (s.apply a) ∧ ∀ r' ∈ q, r'.Sourced (s.apply a) := by
  cases h with
  | quiet ha =>
      refine ⟨?_, by rintro _ ⟨⟩; exact hr.apply⟩
      cases a <;> trivial
  | register hid hreg =>
      refine ⟨trivial, ?_⟩
      rintro _ ⟨⟩
      rcases hreg with rfl | ⟨-, rfl⟩
      · exact Service.mem_history_self
      · trivial
  | drain =>
      refine ⟨trivial, ?_⟩
      rintro _ ⟨⟩
      refine ⟨Service.mem_history_of_mem hr, fun m hm => ?_⟩
      exact (hqueue _ m (MemoryQueueBackend.mem_drain hm).1).apply
  | replay hroom =>
      rename_i transport h start m backlog
      obtain ⟨hreg, hback⟩ := hr
      refine ⟨?_, ?_⟩
      · exact ⟨transport, h, m, Service.mem_history_of_mem hreg, rfl, rfl,
          (hback m List.mem_cons_self).apply⟩
      · rintro _ ⟨⟩
        exact ⟨Service.mem_history_of_mem hreg, fun x hx => (hback x (List.mem_cons_of_mem _ hx)).apply⟩
  | skip =>
      obtain ⟨hreg, hback⟩ := hr
      refine ⟨trivial, ?_⟩
      rintro _ ⟨⟩
      exact ⟨Service.mem_history_of_mem hreg, fun x hx => (hback x (List.mem_cons_of_mem _ hx)).apply⟩
  | unregister hreg =>
      refine ⟨trivial, ?_⟩
      rcases hreg with rfl | rfl
      · rintro _ ⟨⟩
        trivial
      · rintro _ ⟨⟩
  | «end» ha =>
      refine ⟨?_, by rintro _ ⟨⟩; trivial⟩
      rcases ha with rfl | rfl <;> trivial
  | _ =>
      refine ⟨trivial, ?_⟩
      rintro _ ⟨⟩ <;> trivial

/-- Stored messages, backlogs and replayed messages were all stored under the key in question. -/
structure AllSourced (c : Config Service Pc) : Prop where
  queue : ∀ key, ∀ m ∈ c.shared.queue.messages key, StoredFor c.shared key m
  handlers : Holds (fun s p => p.role.Sourced s) c
  history : ∀ a ∈ c.shared.history, a.Sourced c.shared

theorem sourced_of_reaches (h : Reaches (system U settings) ok (initial settings) c) : AllSourced c := by
  refine h.invariant ⟨fun key m hm => ?_, by simp [Holds, initial], by simp [initial]⟩ ?_
  · exact absurd hm (by simp [initial, MemoryQueueBackend.messages_new])
  · intro c e c' _ hc _ hn
    have hqueue : ∀ key, ∀ m ∈ c'.shared.queue.messages key, StoredFor c'.shared key m := by
      intro key m hm
      obtain ⟨op, rfl, rfl⟩ | ⟨i, inp, p, s, q, l₁, l₂, rfl, hp, hs, hl, rfl⟩ := System.next_cases hn
      · exact hc.queue key m hm
      · obtain ⟨a, -, rfl, -⟩ := system_move hs
        have hm' := (Service.messages_apply_sublist key).subset hm
        rw [List.mem_append, Option.mem_toList] at hm'
        rcases hm' with hold | hnew
        · exact (hc.queue key m hold).apply
        · exact storedFor_of_storedUnder hnew
    refine ⟨hqueue, hc.handlers.next hn ?_ ?_, ?_⟩
    · rintro op rfl
      cases op <;> trivial
    · rintro i inp p s q l₁ l₂ rfl hp hl hs
      obtain ⟨a, -, rfl, hmove⟩ := system_move hs
      obtain ⟨-, hq⟩ := hmove.sourced hc.queue (hc.handlers p (List.mem_of_getElem? hp))
      exact ⟨fun r hr => hq r.role (Option.mem_map_of_mem Pc.role hr), fun r _ hr => hr.apply⟩
    · obtain ⟨op, rfl, rfl⟩ | ⟨i, inp, p, s, q, l₁, l₂, rfl, hp, hs, hl, rfl⟩ := System.next_cases hn
      · exact hc.history
      · obtain ⟨a, -, rfl, hmove⟩ := system_move hs
        obtain ⟨ha, -⟩ := hmove.sourced hc.queue (hc.handlers p (List.mem_of_getElem? hp))
        intro b hb
        rcases Service.mem_history_apply.mp hb with hb | rfl
        · exact (hc.history b hb).apply
        · exact ha

end provenance

/-! ### Identifiers are used once -/

section identifiers
variable {U : UnicodeTables} {settings : Settings} {c : Config Service Pc} {inp : Input}
  {ok : Config Service Pc → Event ServiceCall Input → Prop} {s : Service} {a : Action}

/-- Only the two program counters that store a message do so, under a new identifier. -/
theorem fresh_of_enqueuedId {p : Pc} {q : Option Pc} {x : Uuid} (h : step U settings inp s p = some (a, q))
    (hx : a.enqueuedId = some x) : p.enqueues = true ∧ x = inp.fresh := by
  have hm := step_move h
  generalize hr : p.role = r at hm
  generalize q.map Pc.role = r' at hm
  cases hm with
  | enqueue hs =>
      refine ⟨?_, (Option.some.inj hx).symm⟩
      cases p with
      | userEnqueue d userId => rfl
      | usersEnqueue d offline found rest =>
          cases offline with
          | nil => cases h
          | cons userId offline => rfl
      | userLookup d userId =>
          simp only [step] at h
          split_ifs at h <;> cases h
      | usersLookup d batch found offline rest =>
          cases batch <;> simp only [step] at h <;> split_ifs at h <;> cases h
      | broadcastLookup d => cases h
      | channelLookup d channel => cases h
      | channelsLookup d channels found => cases channels <;> cases h
      | send d concurrent todo rest =>
          obtain ⟨-, ha, -⟩ | ⟨i, conn, -, -, ha, -⟩ | ⟨i, conn, -, -, ha, -⟩ := step_send_cases h <;> cases ha
      | track d concurrent conn todo rest => cases h
      | _ => cases hr
  | quiet ha => cases a <;> first | exact ha.elim | cases hx
  | «end» ha => rcases ha with rfl | rfl <;> cases hx
  | _ => cases hx

theorem nodup_filterMap_apply {β : Type} {f : Action → Option β} (h : (s.history.filterMap f).Nodup)
    (hnew : ∀ x, f a = some x → x ∉ s.history.filterMap f) : ((s.apply a).history.filterMap f).Nodup := by
  rw [Service.history_apply, List.filterMap_append]
  cases ha : f a with
  | none => simpa [ha] using h
  | some x =>
      simp only [List.filterMap_cons, ha, List.filterMap_nil]
      rw [← List.concat_eq_append]
      exact h.concat (hnew x ha)

/-- Stored messages and registered connections have different identifiers. -/
theorem nodup_of_reaches (hok : ∀ c e, ok c e → Legal c e)
    (h : Reaches (system U settings) ok (initial settings) c) :
    c.shared.enqueuedIds.Nodup ∧ c.shared.registeredIds.Nodup := by
  refine service_invariant (P := fun s => s.enqueuedIds.Nodup ∧ s.registeredIds.Nodup) h
    ⟨List.nodup_nil, List.nodup_nil⟩ ?_
  intro c i inp p a q _ hc he hp hstep hmove
  obtain ⟨hreg, henq⟩ := hok _ _ he p hp
  refine ⟨nodup_filterMap_apply hc.1 ?_, nodup_filterMap_apply hc.2 ?_⟩
  · intro x hx
    obtain ⟨hpc, rfl⟩ := fresh_of_enqueuedId hstep hx
    exact henq hpc
  · intro x hx
    obtain ⟨hrole, rfl⟩ := hmove.fresh_of_registeredId hx
    exact hreg (registers_of_connecting hrole)

/-- Two actions of a history are the same when what is read off each is the same and not repeated. -/
theorem eq_of_nodup {β : Type} {f : Action → Option β} {history : List Action} (hn : (history.filterMap f).Nodup)
    {b : Action} {x : β} (ha : a ∈ history) (hb : b ∈ history) (hfa : f a = some x)
    (hfb : f b = some x) : a = b := by
  have hpair : history.Pairwise (fun a b => ∀ x ∈ f a, ∀ y ∈ f b, x ≠ y) := List.pairwise_filterMap.mp hn
  have hsymm : Std.Symm (fun a b => ∀ x ∈ f a, ∀ y ∈ f b, x ≠ y) :=
    ⟨fun a b h x hx y hy heq => h y hy x hx heq.symm⟩
  by_contra hne
  exact hpair.forall ha hb hne x hfa x hfb rfl

end identifiers

/-! ### Identities that do not collide -/

section faithful
variable {U : UnicodeTables} {settings : Settings} {c : Config Service Pc} {S : Set Identity}

/-- Only identities of the set are in the history. -/
theorem among_of_reaches
    (h : Reaches (system U settings) (fun c e => Legal c e ∧ Among S U settings c e) (initial settings) c) :
    (∀ i m, .enqueue i m ∈ c.shared.history → i ∈ S) ∧
      ∀ transport h, .register transport h ∈ c.shared.history → h.identity ∈ S := by
  refine service_invariant (P := fun s => (∀ i m, .enqueue i m ∈ s.history → i ∈ S) ∧
      ∀ transport h, .register transport h ∈ s.history → h.identity ∈ S) h
    ⟨by simp [initial], by simp [initial]⟩ ?_
  intro c i inp p a q _ hc he hp hstep _
  have hup : upcoming U settings c i inp = some (a, q) := (upcoming_eq hp).trans hstep
  have hamong := he.2 _ hup
  refine ⟨fun j m hm => ?_, fun transport h hm => ?_⟩
  · rcases Service.mem_history_apply.mp hm with hold | rfl
    · exact hc.1 j m hold
    · exact hamong
  · rcases Service.mem_history_apply.mp hm with hold | rfl
    · exact hc.2 transport h hold
    · exact hamong

theorem faithful_of_reaches (hS : ∀ i ∈ S, ∀ j ∈ S, ¬ Collide i j)
    (h : Reaches (system U settings) (fun c e => Legal c e ∧ Among S U settings c e) (initial settings) c) :
    Faithful c.shared := by
  intro i m transport h' message now henq hreg hplace
  obtain ⟨henqs, hregs⟩ := nodup_of_reaches (fun _ _ h => h.1) h
  obtain ⟨hstored, hregistered⟩ := among_of_reaches h
  obtain ⟨transport', h'', m', hreg', hid, hm', j, henq', hkey⟩ := (sourced_of_reaches h).history _ hplace
  obtain ⟨-, rfl⟩ : transport = transport' ∧ h' = h'' :=
    Action.register.inj (eq_of_nodup hregs hreg hreg' rfl (congrArg some hid))
  obtain ⟨rfl, -⟩ : i = j ∧ m = m' :=
    Action.enqueue.inj (eq_of_nodup henqs henq henq' rfl (congrArg some hm'))
  rcases key_eq_iff.mp hkey.symm with heq | hcollide
  · exact heq
  · exact absurd hcollide (hS _ (hregistered _ _ hreg) _ (hstored _ _ henq))

end faithful

/-! ### Identities that collide -/

section crossing
variable {U : UnicodeTables} {settings : Settings} {S : Set Identity} {s : Service} {p : Pc} {a : Action}
  {q : Option Pc} {inp : Input}

/-- One step of a program that runs alone. -/
theorem reaches_alone (inp : Input)
    (hr : Reaches (system U settings) (fun c e => Legal c e ∧ Among S U settings c e) (initial settings)
      ⟨s, [p]⟩)
    (hs : step U settings inp s p = some (a, q))
    (hreg : p.registers = true → inp.fresh ∉ s.registeredIds)
    (henq : p.enqueues = true → inp.fresh ∉ s.enqueuedIds) (ha : a.Among S) :
    Reaches (system U settings) (fun c e => Legal c e ∧ Among S U settings c e) (initial settings)
      ⟨s.apply a, q.toList⟩ := by
  refine hr.step (e := .run 0 inp) ⟨?_, ?_⟩ ?_
  · rintro p' hp'
    obtain rfl : p = p' := Option.some.inj hp'
    exact ⟨hreg, henq⟩
  · intro out hout
    have hup : upcoming U settings ⟨s, [p]⟩ 0 inp = some (a, q) := hs
    obtain rfl := Option.some.inj (hup.symm.trans hout)
    exact ha
  · simp [System.next, system, hs]

theorem step_connect {transport : Transport} {claims : Claims} {h : ConnectionHandle}
    (hreg : (s.manager.register inp.fresh claims.sub claims.getTenantId claims.roles inp.now).1 = .ok h)
    (hq : s.queue.config.enabled = true) :
    step U settings inp s (.connect transport claims) =
      some (.register transport h, some (.drain transport h)) := by
  simp [step, hreg, MemoryQueueBackend.isEnabled, hq]

/-- A dispatch to an identity without connections stores one message and returns. -/
theorem exists_stored (henabled : settings.queue.enabled = true) {i : Identity} (hi : i ∈ S) :
    ∃ s m, Reaches (system U settings) (fun c e => Legal c e ∧ Among S U settings c e) (initial settings)
        ⟨s, []⟩ ∧
      s.manager = .withLimits settings.connectionLimits ∧ s.registeredIds = [] ∧
      s.queue.messages i.key = [m] ∧ m.queuedAt = 0 ∧ .enqueue i m ∈ s.history := by
  let call : DispatchCall := ⟨maintenance, .user i.userId, some i.tenantId, false⟩
  let d : Dispatch := ⟨maintenance, some i.tenantId, 0, 0, 0⟩
  let m := StoredMessage.new 0 0 maintenance
  have r₀ : Reaches (system U settings) (fun c e => Legal c e ∧ Among S U settings c e) (initial settings)
      ⟨(initial settings).shared, [.begin call]⟩ :=
    Reaches.refl.step (e := .call (.dispatch call))
      ⟨⟨by simp [initial, Service.beganIds], by simp [initial]⟩, trivial⟩ rfl
  have r₁ := reaches_alone tick (a := .began maintenance) (q := some (.userLookup d i.userId)) r₀ rfl
    (by simp [Pc.registers]) (by simp [Pc.enqueues]) trivial
  have r₂ := reaches_alone tick (a := .silent) (q := some (.userEnqueue d i.userId)) r₁
    (if_pos henabled) (by simp [Pc.registers]) (by simp [Pc.enqueues]) trivial
  have r₃ := reaches_alone tick (a := .enqueue i m) (q := some (.ret d)) r₂ rfl
    (by simp [Pc.registers]) (fun _ => List.not_mem_nil) hi
  have r₄ := reaches_alone tick (a := .returned (.new 1 0 0)) (q := none) r₃ rfl
    (by simp [Pc.registers]) (by simp [Pc.enqueues]) trivial
  refine ⟨_, m, r₄, rfl, rfl, ?_, rfl, ?_⟩
  · rw [Service.queue_apply (by simp) (by simp), Service.messages_apply_enqueue henabled, if_pos rfl]
    simp [MemoryQueueBackend.pushBack, Service.queue_apply, initial, MemoryQueueBackend.messages_new]
  · exact Service.mem_history_of_mem Service.mem_history_self

/-- The first connection replays the message that it finds under its key. -/
theorem exists_replayed (henabled : settings.queue.enabled = true)
    (httl : 0 < asI64 settings.queue.messageTtlSeconds)
    (hr : Reaches (system U settings) (fun c e => Legal c e ∧ Among S U settings c e) (initial settings)
      ⟨s, []⟩)
    (hmanager : s.manager = .withLimits settings.connectionLimits) (hregs : s.registeredIds = [])
    {j : Identity} (hj : j ∈ S) {m : StoredMessage} (hm : s.queue.messages j.key = [m]) (hat : m.queuedAt = 0) :
    ∃ c, Reaches (system U settings) (fun c e => Legal c e ∧ Among S U settings c e) (initial settings) c ∧
      (∀ a ∈ s.history, a ∈ c.shared.history) ∧
      ∃ transport h message now, h.identity = j ∧ .register transport h ∈ c.shared.history ∧
        .place h.id message now (.replay m.id) ∈ c.shared.history := by
  let claims : Claims := ⟨j.userId, [], some j.tenantId⟩
  let h := ConnectionHandle.new 0 j.userId j.tenantId [] 0
  have hconfig : s.queue.config = settings.queueConfig := config_of_reaches hr
  have hq : s.queue.config.enabled = true := enabled_of_reaches henabled hr
  have r₁ : Reaches (system U settings) (fun c e => Legal c e ∧ Among S U settings c e) (initial settings)
      ⟨s, [.connect .webSocket claims]⟩ :=
    hr.step (e := .call (.connect .webSocket claims)) ⟨trivial, trivial⟩ rfl
  have hreg : (s.manager.register 0 claims.sub claims.getTenantId claims.roles 0).1 = .ok h := by
    rw [hmanager, ConnectionManager.register_withLimits]
    rfl
  have r₂ := reaches_alone tick r₁ (step_connect hreg hq)
    (fun _ => by rw [hregs]; exact List.not_mem_nil) (by simp [Pc.enqueues]) hj
  have r₃ := reaches_alone tick r₂ rfl (by simp [Pc.registers]) (by simp [Pc.enqueues]) trivial
  have hback : ((s.apply (.register .webSocket h)).queue.drain h.identity.key tick.now).1.messages = [m] := by
    have hlive : m.isExpired 0 s.queue.config.messageTtlSeconds = false := by
      simp [StoredMessage.isExpired, hat, Duration.numSeconds, hconfig, Settings.queueConfig, httl]
    show (s.queue.drain j.key 0).1.messages = [m]
    rw [MemoryQueueBackend.drained_messages hq, hm]
    simp [hlive]
  rw [hback] at r₃
  let s₃ := (s.apply (.register .webSocket h)).apply (.drain h.identity.key tick.now)
  have hchannel : s₃.channels.lookup h.id = some ⟨[], true⟩ := by
    show (s.channels.insert h.id ⟨[], true⟩).lookup h.id = some ⟨[], true⟩
    rw [DashMap.lookup_insert, if_pos rfl]
  have hopen : s₃.isOpen h.id = true := by
    simp [Service.isOpen, hchannel]
  have hroom : s₃.hasRoom h.id = true :=
    hasRoom_of_lt hopen (by simp [Service.buffer, hchannel, channelBufferSize])
  have hstep : step U settings tick s₃ (.replay .webSocket h tick.now [m]) =
      some (.place h.id (.raw (.notification m.event)) 0 (.replay m.id),
        some (.replay .webSocket h tick.now [])) := by
    simp [step, hopen, hroom, tick]
  have r₄ := reaches_alone tick r₃ hstep (by simp [Pc.registers]) (by simp [Pc.enqueues]) trivial
  refine ⟨_, r₄, ?_, .webSocket, h, _, 0, rfl, ?_, Service.mem_history_self⟩
  · intro a ha
    exact Service.mem_history_of_mem (Service.mem_history_of_mem (Service.mem_history_of_mem ha))
  · exact Service.mem_history_of_mem (Service.mem_history_of_mem Service.mem_history_self)

/-- A message for one of two identities that collide is replayed to the other. -/
theorem not_faithful_of_collide (henabled : settings.queue.enabled = true)
    (httl : 0 < asI64 settings.queue.messageTtlSeconds) {i j : Identity} (hi : i ∈ S) (hj : j ∈ S)
    (hcollide : Collide i j) :
    ∃ c, Reaches (system U settings) (fun c e => Legal c e ∧ Among S U settings c e) (initial settings) c ∧
      ¬ Faithful c.shared := by
  have hkey : i.key = j.key := key_eq_iff.mpr (.inr hcollide)
  obtain ⟨s, m, hr, hmanager, hregs, hm, hat, henq⟩ := exists_stored henabled hi
  rw [hkey] at hm
  obtain ⟨c, hc, hmore, transport, h, message, now, hident, hreg, hplace⟩ :=
    exists_replayed henabled httl hr hmanager hregs hj hm hat
  refine ⟨c, hc, fun hfaithful => ?_⟩
  have heq := hfaithful i m transport h message now (hmore _ henq) hreg hplace
  exact hcollide.ne (heq.symm.trans hident)

/-- **Queued messages stay with their identity exactly when no two identities collide.**  The runs
are those that store for and connect identities of the set only, with a queue that keeps
messages at all. -/
theorem faithful_iff (henabled : settings.queue.enabled = true)
    (httl : 0 < asI64 settings.queue.messageTtlSeconds) (S : Set Identity) :
    (∀ c, Reaches (system U settings) (fun c e => Legal c e ∧ Among S U settings c e) (initial settings) c →
        Faithful c.shared) ↔
      ∀ i ∈ S, ∀ j ∈ S, ¬ Collide i j := by
  constructor
  · intro hall i hi j hj hcollide
    obtain ⟨c, hr, hnot⟩ := not_faithful_of_collide (U := U) henabled httl hi hj hcollide
    exact hnot (hall c hr)
  · intro hS c hr
    exact faithful_of_reaches hS hr

/-- Two users of `acme` and one of the default tenant keep their messages apart, in a run that
replays one of them. -/
theorem faithful_iff_three :
    ∃ c, Reaches (system .ascii .withQueue)
        (fun c e => Legal c e ∧ Among {i | i ∈ [⟨"acme", "bob"⟩, ⟨"acme", "eve"⟩, ⟨"default", "bob"⟩]}
          .ascii .withQueue c e) (initial .withQueue) c ∧
      (∃ id message now x, .place id message now (.replay x) ∈ c.shared.history) ∧ Faithful c.shared := by
  have henabled : Settings.withQueue.queue.enabled = true := rfl
  have httl : 0 < asI64 Settings.withQueue.queue.messageTtlSeconds := by decide
  have hinj : ∀ i ∈ [Identity.mk "acme" "bob", ⟨"acme", "eve"⟩, ⟨"default", "bob"⟩],
      ∀ j ∈ [Identity.mk "acme" "bob", ⟨"acme", "eve"⟩, ⟨"default", "bob"⟩], i.key = j.key → i = j := by
    decide
  have hbob : Identity.mk "acme" "bob" ∈
      {i : Identity | i ∈ [⟨"acme", "bob"⟩, ⟨"acme", "eve"⟩, ⟨"default", "bob"⟩]} := List.mem_cons_self
  obtain ⟨s, m, hr, hmanager, hregs, hm, hat, -⟩ := exists_stored henabled hbob
  obtain ⟨c, hc, -, transport, h, message, now, -, -, hplace⟩ :=
    exists_replayed henabled httl hr hmanager hregs hbob hm hat
  refine ⟨c, hc, ⟨_, _, _, _, hplace⟩, (faithful_iff henabled httl _).mpr (fun i hi j hj hcollide => ?_) c hc⟩
  exact hcollide.ne (hinj i hi j hj (key_eq_iff.mpr (.inr hcollide)))

/-- A message for the user `acme:bob` of the default tenant is replayed to the user `bob` of
`acme`. -/
theorem replayed_across_tenants :
    ¬ ∀ (U : UnicodeTables) (settings : Settings), settings.Accepted U → settings.queue.enabled = true →
        ∀ c, Reaches (system U settings) Legal (initial settings) c → Faithful c.shared := by
  intro hall
  have hcollide : Collide ⟨"default", "acme:bob"⟩ ⟨"acme", "bob"⟩ := .inl (.inl ⟨rfl, by decide, by decide⟩)
  obtain ⟨c, hr, hnot⟩ := not_faithful_of_collide (U := .ascii) (S := Set.univ)
    (show Settings.withQueue.queue.enabled = true from rfl) (by decide) trivial trivial hcollide
  exact hnot (hall .ascii .withQueue Settings.accepted_withQueue rfl c (hr.mono (fun _ _ h => h.1)))

end crossing

end AraNotification
