import AraNotification.SessionStore
import AraNotification.Lib.Interleaving

/-! # The user index of a cluster

Any number of servers register, unregister, update and refresh their sessions in one
Redis.  Every command is a step, so is every access to the local map of a server, and
the clock moves between them.  `Stage` follows a connection: it is registered from the end of its
`register_session` to the start of its `unregister_session`.

A server must be in the set of a user while it has a registered session of that user.  Three
things remove it:

1. the set expires, since only a registration renews it and `refresh_sessions` does not;
2. `unregister_session` removes the server when its local map shows no other connection of the
   user, but a registration adds the server to the set before it adds the connection to the map;
3. `refresh_sessions` drops a connection from the map when its session key has expired, and with
   it what the look at the map relies on.

In runs without these (`Orderly`) the index is complete (`complete_of_orderly`). -/

namespace AraNotification

namespace SessionRace

open Interleaving

/-! ### The programs -/

/-- How far a connection has come: its registration has run its `SADD` from `added` on. -/
inductive Stage where
  | unused
  | registering
  | added (serverId userId : String)
  | registered (serverId userId : String)
  | leaving
deriving DecidableEq, Repr

/-- Redis, the local maps of the servers, the identifier of the next connection, and what has
been observed: the stages, and when the last refresh of a server that has come to its end began. -/
structure Cluster where
  db : RedisDb
  ttl : ℕ
  localConnections : String → DashMap Uuid String
  fresh : Uuid
  stage : Uuid → Stage
  refreshed : String → ℕ

/-- The calls, and the passing of time up to a clock reading. -/
inductive Call where
  | registerSession (serverId userId tenantId : String) (connectedAt : ℤ) (channels : List String)
  | unregisterSession (serverId : String) (connectionId : Uuid)
  | updateSessionChannels (serverId : String) (connectionId : Uuid) (channels : List String)
  | refreshSessions (serverId : String)
  | tick (time : ℕ)

/-- Program counters.  A registration carries the commands that it has still to send, and tracks
its connection when there are none left; an unregistration goes on from the local map to the
`GET`, the look at the map and its commands; a refresh carries the time at which it began and the
connections that it has still to visit. -/
inductive Pc where
  | register (serverId userId tenantId : String) (connectedAt : ℤ) (channels : List String)
  | registering (serverId : String) (session : SessionInfo) (rest : List Command)
  | unregister (serverId : String) (connectionId : Uuid)
  | unregisterGet (serverId : String) (connectionId : Uuid)
  | unregisterLook (serverId : String) (connectionId : Uuid) (session : SessionInfo)
  | update (serverId : String) (connectionId : Uuid) (channels : List String)
  | sending (rest : List Command)
  | refresh (serverId : String)
  | refreshing (serverId : String) (since : ℕ) (todo : List Uuid)
  | tick (time : ℕ)

def start : Call → Pc
  | .registerSession serverId userId tenantId connectedAt channels =>
      .register serverId userId tenantId connectedAt channels
  | .unregisterSession serverId connectionId => .unregister serverId connectionId
  | .updateSessionChannels serverId connectionId channels => .update serverId connectionId channels
  | .refreshSessions serverId => .refresh serverId
  | .tick time => .tick time

namespace Cluster

variable (σ : Cluster)

/-- The session store of a server. -/
def store (serverId : String) : RedisSessionStore := ⟨serverId, σ.ttl, σ.localConnections serverId⟩

def exec (command : Command) : Cluster := { σ with db := σ.db.exec command }

def setStage (connectionId : Uuid) (stage : Stage) : Cluster :=
  { σ with stage := Function.update σ.stage connectionId stage }

/-- Put back the session store of a server. -/
def setStore (store : RedisSessionStore) : Cluster :=
  { σ with localConnections := Function.update σ.localConnections store.serverId store.localConnections }

end Cluster

/-- The command by which a server enters the set of a user. -/
def enter (serverId userId : String) : Command := .sadd (.userServers userId) serverId

/-- A command of a registration. -/
def registerStep (σ : Cluster) (serverId : String) (session : SessionInfo) (command : Command) : Cluster :=
  if command = enter serverId session.userId then
    (σ.exec command).setStage session.connectionId (.added serverId session.userId)
  else σ.exec command

/-- One step of a call.  A refresh visits the connection of the input, or comes to its end when
all connections that it has to visit have been visited or dropped. -/
def access (visit : Option Uuid) (σ : Cluster) : Pc → Option (Cluster × Option Pc)
  | .register serverId userId tenantId connectedAt channels =>
      let session : SessionInfo := ⟨σ.fresh, userId, tenantId, serverId, connectedAt, channels⟩
      some ({ σ.setStage σ.fresh .registering with fresh := σ.fresh + 1 },
        some (.registering serverId session ((σ.store serverId).registerCommands session)))
  | .registering serverId session (command :: rest) =>
      some (registerStep σ serverId session command, some (.registering serverId session rest))
  | .registering serverId session [] =>
      some ((σ.setStore ((σ.store serverId).track session)).setStage session.connectionId
        (.registered serverId session.userId), none)
  | .unregister serverId connectionId =>
      match σ.stage connectionId with
      | .registered serverId' _ =>
          if serverId' = serverId then
            some ((σ.setStore ((σ.store serverId).untrack connectionId)).setStage connectionId .leaving,
              some (.unregisterGet serverId connectionId))
          else none
      | _ => none
  | .unregisterGet serverId connectionId =>
      some (σ, (σ.db.getSession (.session connectionId)).map (.unregisterLook serverId connectionId))
  | .unregisterLook serverId connectionId session =>
      let others := (σ.store serverId).userHasOtherConnections connectionId session.userId
      some (σ, some (.sending ((σ.store serverId).unregisterCommands connectionId session others)))
  | .update serverId connectionId channels =>
      some (σ, (σ.db.getSession (.session connectionId)).map (fun session =>
        .sending ((σ.store serverId).updateCommands connectionId session channels)))
  | .sending [] => some (σ, none)
  | .sending (command :: rest) => some (σ.exec command, some (.sending rest))
  | .refresh serverId =>
      some (σ, some (.refreshing serverId σ.db.now (σ.localConnections serverId).keys))
  | .refreshing serverId since todo =>
      match visit with
      | some connectionId =>
          if connectionId ∈ σ.localConnections serverId then
            let found := (σ.db.getSession (.session connectionId)).isSome
            let σ' := σ.exec (.expire (.session connectionId) σ.ttl)
            some (if found then σ' else σ'.setStore ((σ.store serverId).untrack connectionId),
              some (.refreshing serverId since (todo.erase connectionId)))
          else none
      | none =>
          if todo.all (fun connectionId => decide (connectionId ∉ σ.localConnections serverId)) then
            some ({ σ.exec (.expire (.serverConnections serverId) σ.ttl) with
              refreshed := Function.update σ.refreshed serverId since }, none)
          else none
  | .tick time =>
      if σ.db.now ≤ time then some ({ σ with db := { σ.db with now := time } }, none) else none

/-- The calls of the stores as concurrent programs. -/
def system : System Cluster Call (Option Uuid) Pc where
  start := start
  step := access

/-- An empty Redis with no call running; the servers have just been started. -/
def initial (ttl now : ℕ) : Config Cluster Pc :=
  ⟨⟨.empty now, ttl, fun _ => ∅, 0, fun _ => .unused, fun _ => now⟩, []⟩

/-! ### What is claimed, and when it holds -/

/-- A server that has a registered session of a user is found for the user. -/
def Complete (σ : Cluster) : Prop :=
  ∀ connectionId serverId userId, σ.stage connectionId = .registered serverId userId →
    serverId ∈ σ.db.findUserServers userId

/-- The clock moves on only while every server with a registered session has refreshed its sessions
in an interval shorter than their lifetime. -/
def Punctual (c : Config Cluster Pc) : Event Call (Option Uuid) → Bool
  | .run i _ =>
      match c.threads[i]? with
      | some (.tick time) =>
          (List.range c.shared.fresh).all (fun connectionId =>
            match c.shared.stage connectionId with
            | .registered serverId _ => decide (time < c.shared.refreshed serverId + 1000 * c.shared.ttl)
            | _ => true)
      | _ => true
  | _ => true

/-- The set of a user expires before a time. -/
def Cluster.expires (σ : Cluster) (time : ℕ) (userId : String) : Bool :=
  (σ.db.sets.get σ.db.now (.userServers userId)).isSome &&
    (σ.db.sets.get time (.userServers userId)).isNone

/-- The commands that a call has still to send. -/
def Pc.rest : Pc → List Command
  | .registering _ _ rest | .sending rest => rest
  | _ => []

/-- The command by which a server leaves the set of a user. -/
def leave (serverId userId : String) : Command := .srem (.userServers userId) serverId

/-- What must hold where a call takes its step:

* the clock moves on: no set of a user expires of whom a session is registered or has been added;
* an unregistration finds no other connection: no registration of the user on the server is
  between its `SADD` and its entry in the local map;
* a registration sends its `SADD`: no unregistration is going to remove the server from the set;
* a refresh visits a registered connection: its session key is alive. -/
def orderlyStep (c : Config Cluster Pc) (visit : Option Uuid) : Pc → Bool
  | .tick time =>
      (List.range c.shared.fresh).all (fun connectionId =>
        match c.shared.stage connectionId with
        | .added _ userId | .registered _ userId => !c.shared.expires time userId
        | _ => true)
  | .unregisterLook serverId connectionId session =>
      (c.shared.store serverId).userHasOtherConnections connectionId session.userId ||
        (List.range c.shared.fresh).all (fun other =>
          decide (c.shared.stage other ≠ .added serverId session.userId))
  | .registering serverId session (command :: _) =>
      decide (command ≠ enter serverId session.userId) ||
        c.threads.all (fun p => decide (leave serverId session.userId ∉ p.rest))
  | .refreshing serverId _ _ =>
      visit.all (fun connectionId =>
        match c.shared.stage connectionId with
        | .registered serverId' _ =>
            decide (serverId' ≠ serverId) || (c.shared.db.getSession (.session connectionId)).isSome
        | _ => true)
  | _ => true

/-- Every step is in order. -/
def Orderly (c : Config Cluster Pc) : Event Call (Option Uuid) → Bool
  | .run i visit => (c.threads[i]?).all (orderlyStep c visit)
  | _ => true

/-! ### Invariants -/

/-- Some connection keeps the server in the set of the user. -/
def Cluster.Present (σ : Cluster) (serverId userId : String) : Prop :=
  ∃ connectionId, σ.stage connectionId = .added serverId userId ∨
    σ.stage connectionId = .registered serverId userId

/-- A command that takes no server out of the set of a user that has to be there. -/
def Cluster.Safe (σ : Cluster) : Command → Prop
  | .del key => ∃ connectionId, key = .session connectionId
  | .srem (.userServers userId) serverId => ¬ σ.Present serverId userId
  | .expire _ seconds => 0 < seconds
  | _ => True

/-- The shared state between two steps. -/
structure Sound (σ : Cluster) : Prop where
  lifetime : 0 < σ.ttl
  fresh : ∀ connectionId, σ.fresh ≤ connectionId → σ.stage connectionId = .unused
  tracked : ∀ connectionId serverId userId, σ.stage connectionId = .registered serverId userId →
    (σ.localConnections serverId).lookup connectionId = some userId
  found : ∀ serverId userId, σ.Present serverId userId → serverId ∈ σ.db.findUserServers userId

/-- The assertion of a program counter. -/
def Fits (σ : Cluster) : Pc → Prop
  | .registering serverId session rest =>
      rest.Nodup ∧ (∀ command ∈ rest, σ.Safe command) ∧ σ.stage session.connectionId =
        if enter serverId session.userId ∈ rest then .registering else .added serverId session.userId
  | .unregisterGet _ connectionId | .unregisterLook _ connectionId _ => σ.stage connectionId = .leaving
  | .sending rest => ∀ command ∈ rest, σ.Safe command
  | _ => True

/-- The connection that a call registers. -/
def token : Pc → Option Uuid
  | .registering _ session _ => some session.connectionId
  | _ => none

/-- The connection is being registered. -/
def Free (σ : Cluster) (connectionId : Uuid) : Prop :=
  σ.stage connectionId = .registering ∨ ∃ serverId userId, σ.stage connectionId = .added serverId userId

/-- What a step keeps: only a registration that sends its `SADD` makes a server present, and the
stage of a connection is changed by its own registration, at its beginning and when its
unregistration starts. -/
structure Keeps (σ : Cluster) (p : Pc) (σ' : Cluster) (q : Option Pc) : Prop where
  sound : Sound σ'
  fits : ∀ r ∈ q, Fits σ' r
  present : ∀ serverId userId, σ'.Present serverId userId → σ.Present serverId userId ∨
    ∃ session rest, p = .registering serverId session (enter serverId userId :: rest) ∧
      session.userId = userId
  stage : ∀ connectionId, σ'.stage connectionId = σ.stage connectionId ∨
    token p = some connectionId ∨ σ.stage connectionId = .unused ∨
    ∃ serverId userId, σ.stage connectionId = .registered serverId userId
  token : ∀ connectionId ∈ q.bind SessionRace.token,
    connectionId ∈ SessionRace.token p ∨ σ.stage connectionId = .unused

/-! ### Commands and the clock -/

section commands
variable {σ : Cluster} {command : Command} {serverId userId : String}

/-- A safe command leaves a server that must be found where it is. -/
theorem found_exec (hsafe : σ.Safe command) (hp : σ.Present serverId userId)
    (h : serverId ∈ σ.db.findUserServers userId) :
    serverId ∈ (σ.db.exec command).findUserServers userId := by
  unfold RedisDb.findUserServers at h ⊢
  cases command with
  | setEx key session seconds => exact h
  | incr key => exact h
  | decr key => exact h
  | del key =>
      obtain ⟨connectionId, rfl⟩ := hsafe
      rw [RedisDb.members_del, if_neg (by simp)]
      exact h
  | sadd key member =>
      rw [RedisDb.members_sadd]
      split_ifs with hkey
      · exact Finset.mem_insert_of_mem (hkey ▸ h)
      · exact h
  | srem key member =>
      rw [RedisDb.members_srem]
      split_ifs with hkey
      · subst hkey
        refine Finset.mem_erase.mpr ⟨?_, h⟩
        rintro rfl
        exact hsafe hp
      · exact h
  | expire key seconds =>
      rw [RedisDb.members_expire hsafe]
      exact h

theorem Sound.exec (h : Sound σ) (hsafe : σ.Safe command) : Sound (σ.exec command) where
  lifetime := h.lifetime
  fresh := h.fresh
  tracked := h.tracked
  found s u hp := found_exec hsafe hp (h.found s u hp)

/-- The commands of a registration are safe, and its `SADD` is one of them. -/
theorem registerCommands_safe (h : Sound σ) (serverId : String) (session : SessionInfo) :
    ((σ.store serverId).registerCommands session).Nodup ∧
      (∀ command ∈ (σ.store serverId).registerCommands session, σ.Safe command) ∧
      enter serverId session.userId ∈ (σ.store serverId).registerCommands session := by
  have hpos := h.lifetime
  refine ⟨?_, fun command hc => ?_, ?_⟩
  · simp [RedisSessionStore.registerCommands]
  · simp only [RedisSessionStore.registerCommands, Cluster.store, List.mem_cons, List.not_mem_nil,
      or_false] at hc
    rcases hc with rfl | rfl | rfl | rfl | rfl | rfl | rfl <;> simp [Cluster.Safe, hpos]
  · simp [RedisSessionStore.registerCommands, Cluster.store, enter]

/-- The commands of an unregistration are safe when it has no `SREM` of the user or the server need
not be found. -/
theorem unregisterCommands_safe (serverId : String) (connectionId : Uuid) (session : SessionInfo)
    (others : Bool) (hothers : others = false → ¬ σ.Present serverId session.userId) :
    ∀ command ∈ (σ.store serverId).unregisterCommands connectionId session others, σ.Safe command := by
  intro command hc
  simp only [RedisSessionStore.unregisterCommands, Cluster.store, List.mem_append, List.mem_cons,
    List.not_mem_nil, or_false, List.mem_map] at hc
  rcases hc with ((rfl | rfl) | hc) | ⟨channel, -, rfl⟩
  · exact ⟨connectionId, rfl⟩
  · trivial
  · cases others with
    | true => simp at hc
    | false =>
        obtain rfl : command = .srem (.userServers session.userId) serverId := by simpa using hc
        exact hothers rfl
  · trivial

theorem updateCommands_safe (h : Sound σ) (serverId : String) (connectionId : Uuid)
    (session : SessionInfo) (channels : List String) :
    ∀ command ∈ (σ.store serverId).updateCommands connectionId session channels, σ.Safe command := by
  have hpos := h.lifetime
  intro command hc
  simp only [RedisSessionStore.updateCommands, Cluster.store, List.mem_cons, List.mem_append,
    List.mem_map, List.mem_flatMap, List.not_mem_nil, or_false] at hc
  rcases hc with rfl | ⟨channel, -, rfl⟩ | ⟨channel, -, rfl | rfl⟩
  · trivial
  · trivial
  · trivial
  · exact hpos

/-- A set that does not expire is the same at a later time. -/
theorem found_tick {time : ℕ} (hle : σ.db.now ≤ time) (hexp : σ.expires time userId = false)
    (h : serverId ∈ σ.db.findUserServers userId) :
    serverId ∈ ({ σ.db with now := time } : RedisDb).findUserServers userId := by
  unfold RedisDb.findUserServers RedisDb.members at h ⊢
  cases hnow : σ.db.sets.get σ.db.now (.userServers userId) with
  | none => simp [hnow] at h
  | some members =>
      cases hlater : σ.db.sets.get time (.userServers userId) with
      | none => simp [Cluster.expires, hnow, hlater] at hexp
      | some members' =>
          have hsame := ExpiringMap.get_of_le hle hlater
          rw [hnow] at hsame
          cases hsame
          simpa [hnow] using h

end commands

/-! ### One step of a call -/

section steps
variable {σ : Cluster} {p : Pc} {q : Option Pc} {serverId userId : String} {connectionId : Uuid}
  {session : SessionInfo} {command : Command} {rest : List Command}

theorem keeps_of_stage {σ' : Cluster} (hsound : Sound σ') (hstage : σ'.stage = σ.stage)
    (hfits : ∀ r ∈ q, Fits σ' r) (htoken : ∀ id ∈ q.bind token, id ∈ token p) : Keeps σ p σ' q where
  sound := hsound
  fits := hfits
  present s u hp := .inl (by rwa [Cluster.Present, hstage] at hp)
  stage id := .inl (by rw [hstage])
  token id hid := .inl (htoken id hid)

theorem stage_setStage (stage : Stage) (id : Uuid) :
    (σ.setStage connectionId stage).stage id = if id = connectionId then stage else σ.stage id :=
  Function.update_apply _ _ _ _

theorem present_setStage {stage : Stage} {s u : String}
    (h : (σ.setStage connectionId stage).Present s u) :
    σ.Present s u ∨ stage = .added s u ∨ stage = .registered s u := by
  obtain ⟨id, hid⟩ := h
  rw [stage_setStage] at hid
  split_ifs at hid
  · exact .inr hid
  · exact .inl ⟨id, hid⟩

/-- The connections to come are not those whose stage changes. -/
theorem Sound.fresh_setStage (h : Sound σ) (stage : Stage) {id : Uuid} (hused : σ.stage connectionId ≠ .unused)
    (hid : σ.fresh ≤ id) : (σ.setStage connectionId stage).stage id = .unused := by
  have hne : id ≠ connectionId := by
    rintro rfl
    exact hused (h.fresh id hid)
  rw [stage_setStage, if_neg hne]
  exact h.fresh id hid

/-- A registration begins with a new connection. -/
theorem keeps_register (h : Sound σ) (userId tenantId : String) (connectedAt : ℤ) (channels : List String) :
    Keeps σ (.register serverId userId tenantId connectedAt channels)
      { σ.setStage σ.fresh .registering with fresh := σ.fresh + 1 }
      (some (.registering serverId ⟨σ.fresh, userId, tenantId, serverId, connectedAt, channels⟩
        ((σ.store serverId).registerCommands
          ⟨σ.fresh, userId, tenantId, serverId, connectedAt, channels⟩))) := by
  have hunused := h.fresh σ.fresh le_rfl
  have hpresent (s u : String) (hp : (σ.setStage σ.fresh .registering).Present s u) : σ.Present s u := by
    rcases present_setStage hp with hp | hp | hp
    · exact hp
    · cases hp
    · cases hp
  obtain ⟨hnodup, hsafe, henter⟩ := registerCommands_safe h serverId
    ⟨σ.fresh, userId, tenantId, serverId, connectedAt, channels⟩
  refine ⟨⟨h.lifetime, fun id hid => ?_, fun id s u hs => ?_, fun s u hp => h.found s u (hpresent s u hp)⟩,
    ?_, fun s u hp => .inl (hpresent s u hp), fun id => ?_, ?_⟩
  · have hne : id ≠ σ.fresh := Nat.ne_of_gt hid
    exact (stage_setStage _ _).trans ((if_neg hne).trans (h.fresh id (Nat.le_of_succ_le hid)))
  · have hs' := (stage_setStage _ _).symm.trans hs
    split_ifs at hs'
    exact h.tracked id s u hs'
  · rintro r ⟨⟩
    refine ⟨hnodup, fun command hc => ?_, ?_⟩
    · have hold := hsafe command hc
      cases command with
      | srem key s =>
          cases key with
          | userServers u => exact fun hp => hold (hpresent s u hp)
          | _ => exact trivial
      | _ => exact hold
    · rw [if_pos henter]
      exact Function.update_self _ _ _
  · by_cases hid : id = σ.fresh
    · exact .inr (.inr (.inl (hid ▸ hunused)))
    · exact .inl ((stage_setStage _ _).trans (if_neg hid))
  · rintro id ⟨⟩
    exact .inr hunused

/-- A command of a registration other than its `SADD`. -/
theorem keeps_registering (h : Sound σ) (hp : Fits σ (.registering serverId session (command :: rest)))
    (hne : command ≠ enter serverId session.userId) :
    Keeps σ (.registering serverId session (command :: rest)) (σ.exec command)
      (some (.registering serverId session rest)) := by
  obtain ⟨hnodup, hsafe, hstage⟩ := hp
  refine keeps_of_stage (h.exec (hsafe command List.mem_cons_self)) rfl ?_ (fun id hid => hid)
  rintro r ⟨⟩
  refine ⟨hnodup.of_cons, fun c hc => hsafe c (List.mem_cons_of_mem _ hc), hstage.trans ?_⟩
  simp only [List.mem_cons, hne.symm, false_or]

/-- The `SADD` of a registration, when no call is going to take the server out of the set again. -/
theorem keeps_enter (h : Sound σ)
    (hp : Fits σ (.registering serverId session (enter serverId session.userId :: rest)))
    (hnone : leave serverId session.userId ∉ rest) :
    Keeps σ (.registering serverId session (enter serverId session.userId :: rest))
      ((σ.exec (enter serverId session.userId)).setStage session.connectionId
        (.added serverId session.userId))
      (some (.registering serverId session rest)) := by
  obtain ⟨hnodup, hsafe, hstage⟩ := hp
  rw [if_pos List.mem_cons_self] at hstage
  obtain ⟨hnot, hnodup'⟩ := List.nodup_cons.mp hnodup
  have hpresent (s u : String) (hp : ((σ.exec (enter serverId session.userId)).setStage
      session.connectionId (.added serverId session.userId)).Present s u) :
      σ.Present s u ∨ (serverId = s ∧ session.userId = u) := by
    rcases present_setStage hp with hp | hp | hp
    · exact .inl hp
    · cases hp
      exact .inr ⟨rfl, rfl⟩
    · cases hp
  refine ⟨⟨h.lifetime, fun id hid => ?_, fun id s u hs => ?_, fun s u hp => ?_⟩, ?_, fun s u hp => ?_,
    fun id => ?_, fun id hid => .inl hid⟩
  · exact h.fresh_setStage _ (by rw [hstage]; exact nofun) hid
  · have hs' := (stage_setStage _ _).symm.trans hs
    split_ifs at hs'
    exact h.tracked id s u hs'
  · rcases hpresent s u hp with hp | ⟨rfl, rfl⟩
    · have hsafe : σ.Safe (enter serverId session.userId) := trivial
      exact found_exec hsafe hp (h.found s u hp)
    · change serverId ∈ (σ.db.exec (.sadd _ _)).members _
      rw [RedisDb.members_sadd, if_pos rfl]
      exact Finset.mem_insert_self _ _
  · rintro r ⟨⟩
    refine ⟨hnodup', fun c hc => ?_, ?_⟩
    · have hold := hsafe c (List.mem_cons_of_mem _ hc)
      cases c with
      | srem key s =>
          cases key with
          | userServers u =>
              intro hp
              rcases hpresent s u hp with hp | ⟨rfl, rfl⟩
              · exact hold hp
              · exact hnone hc
          | _ => exact trivial
      | _ => exact hold
    · rw [if_neg hnot]
      exact Function.update_self _ _ _
  · rcases hpresent s u hp with hp | ⟨rfl, rfl⟩
    · exact .inl hp
    · exact .inr ⟨session, rest, rfl, rfl⟩
  · by_cases hid : id = session.connectionId
    · exact .inr (.inl (by rw [hid]; rfl))
    · exact .inl ((stage_setStage _ _).trans (if_neg hid))

/-- The end of a registration. -/
theorem keeps_registered (h : Sound σ) (hp : Fits σ (.registering serverId session [])) :
    Keeps σ (.registering serverId session [])
      ((σ.setStore ((σ.store serverId).track session)).setStage session.connectionId
        (.registered serverId session.userId)) none := by
  obtain ⟨-, -, hstage⟩ := hp
  rw [if_neg List.not_mem_nil] at hstage
  have hpresent (s u : String) (hp : ((σ.setStore ((σ.store serverId).track session)).setStage
      session.connectionId (.registered serverId session.userId)).Present s u) : σ.Present s u := by
    rcases present_setStage hp with hp | hp | hp
    · exact hp
    · cases hp
    · cases hp
      exact ⟨_, .inl hstage⟩
  refine ⟨⟨h.lifetime, fun id hid => ?_, fun id s u hs => ?_, fun s u hp => h.found s u (hpresent s u hp)⟩,
    fun r hr => (nomatch hr), fun s u hp => .inl (hpresent s u hp), fun id => ?_, fun id hid => (nomatch hid)⟩
  · exact h.fresh_setStage _ (by rw [hstage]; exact nofun) hid
  · have hs' := (stage_setStage _ _).symm.trans hs
    change (Function.update σ.localConnections serverId _ s).lookup id = some u
    split_ifs at hs' with hid
    · cases hs'
      rw [Function.update_self, hid]
      exact AList.lookup_insert _
    · have hold := h.tracked id s u hs'
      by_cases hserver : s = serverId
      · subst hserver
        rw [Function.update_self]
        exact (AList.lookup_insert_ne hid).trans hold
      · rw [Function.update_of_ne hserver]
        exact hold
  · by_cases hid : id = session.connectionId
    · exact .inr (.inl (by rw [hid]; rfl))
    · exact .inl ((stage_setStage _ _).trans (if_neg hid))

/-- The start of an unregistration. -/
theorem keeps_unregister (h : Sound σ) (hstage : σ.stage connectionId = .registered serverId userId) :
    Keeps σ (.unregister serverId connectionId)
      ((σ.setStore ((σ.store serverId).untrack connectionId)).setStage connectionId .leaving)
      (some (.unregisterGet serverId connectionId)) := by
  have hpresent (s u : String) (hp : ((σ.setStore ((σ.store serverId).untrack connectionId)).setStage
      connectionId .leaving).Present s u) : σ.Present s u := by
    rcases present_setStage hp with hp | hp | hp
    · exact hp
    · cases hp
    · cases hp
  refine ⟨⟨h.lifetime, fun id hid => ?_, fun id s u hs => ?_, fun s u hp => h.found s u (hpresent s u hp)⟩,
    ?_, fun s u hp => .inl (hpresent s u hp), fun id => ?_, fun id hid => (nomatch hid)⟩
  · exact h.fresh_setStage _ (by rw [hstage]; exact nofun) hid
  · have hs' := (stage_setStage _ _).symm.trans hs
    split_ifs at hs' with hid
    have hold := h.tracked id s u hs'
    change (Function.update σ.localConnections serverId _ s).lookup id = some u
    by_cases hserver : s = serverId
    · subst hserver
      rw [Function.update_self]
      exact (AList.lookup_erase_ne hid).trans hold
    · rw [Function.update_of_ne hserver]
      exact hold
  · rintro r ⟨⟩
    exact Function.update_self _ _ _
  · by_cases hid : id = connectionId
    · exact .inr (.inr (.inr ⟨serverId, userId, hid ▸ hstage⟩))
    · exact .inl ((stage_setStage _ _).trans (if_neg hid))

/-- When the local map shows no other connection of the user and no registration is on its way into
the map, no connection keeps the server in the set of the user. -/
theorem not_present_of_look (h : Sound σ) (hstage : σ.stage connectionId = .leaving)
    (hothers : (σ.store serverId).userHasOtherConnections connectionId userId = false)
    (hadded : ∀ id < σ.fresh, σ.stage id ≠ .added serverId userId) : ¬ σ.Present serverId userId := by
  rintro ⟨id, hid | hid⟩
  · have hlt : id < σ.fresh := by
      by_contra hge
      rw [h.fresh id (Nat.le_of_not_lt hge)] at hid
      cases hid
    exact hadded id hlt hid
  · have hne : id ≠ connectionId := by
      rintro rfl
      rw [hid] at hstage
      cases hstage
    have hmem : (⟨id, userId⟩ : Σ _ : Uuid, String) ∈ (σ.localConnections serverId).entries :=
      AList.mem_lookup_iff.mp (h.tracked id serverId userId hid)
    have hfalse := List.any_eq_false.mp hothers _ hmem
    simp [hne] at hfalse

/-- The look at the local map. -/
theorem keeps_look (h : Sound σ) (hstage : σ.stage connectionId = .leaving)
    (hadded : (σ.store serverId).userHasOtherConnections connectionId session.userId = false →
      ∀ id < σ.fresh, σ.stage id ≠ .added serverId session.userId) :
    Keeps σ (.unregisterLook serverId connectionId session) σ
      (some (.sending ((σ.store serverId).unregisterCommands connectionId session
        ((σ.store serverId).userHasOtherConnections connectionId session.userId)))) := by
  refine keeps_of_stage h rfl ?_ (fun id hid => (nomatch hid))
  rintro r ⟨⟩
  exact unregisterCommands_safe serverId connectionId session _
    (fun hothers => not_present_of_look h hstage hothers (hadded hothers))

/-- A refresh visits a connection, which it drops only when it is not registered on the server. -/
theorem keeps_visit (h : Sound σ) (since : ℕ) (todo todo' : List Uuid)
    (halive : ∀ userId, σ.stage connectionId = .registered serverId userId →
      (σ.db.getSession (.session connectionId)).isSome = true) :
    Keeps σ (.refreshing serverId since todo)
      (if (σ.db.getSession (.session connectionId)).isSome
        then σ.exec (.expire (.session connectionId) σ.ttl)
        else (σ.exec (.expire (.session connectionId) σ.ttl)).setStore
          ((σ.store serverId).untrack connectionId))
      (some (.refreshing serverId since todo')) := by
  have hexec : Sound (σ.exec (.expire (.session connectionId) σ.ttl)) := h.exec h.lifetime
  have hfits (σ' : Cluster) : ∀ r ∈ some (Pc.refreshing serverId since todo'), Fits σ' r := by
    rintro r ⟨⟩
    exact trivial
  split_ifs with hfound
  · exact keeps_of_stage hexec rfl (hfits _) (fun id hid => (nomatch hid))
  · refine keeps_of_stage ⟨h.lifetime, h.fresh, fun id s u hs => ?_, hexec.found⟩ rfl (hfits _)
      (fun id hid => (nomatch hid))
    have hold := h.tracked id s u hs
    change (Function.update σ.localConnections serverId _ s).lookup id = some u
    by_cases hserver : s = serverId
    · subst hserver
      have hne : id ≠ connectionId := by
        rintro rfl
        exact hfound (halive u hs)
      rw [Function.update_self]
      exact (AList.lookup_erase_ne hne).trans hold
    · rw [Function.update_of_ne hserver]
      exact hold

/-- The clock moves on while no set expires that is needed. -/
theorem keeps_tick (h : Sound σ) {time : ℕ} (hle : σ.db.now ≤ time)
    (hexp : ∀ s u, σ.Present s u → σ.expires time u = false) :
    Keeps σ (.tick time) { σ with db := { σ.db with now := time } } none := by
  refine keeps_of_stage ⟨h.lifetime, h.fresh, h.tracked, fun s u hp => ?_⟩ rfl (fun r hr => (nomatch hr))
    (fun id hid => (nomatch hid))
  exact found_tick hle (hexp s u hp) (h.found s u hp)

/-- A step that is in order keeps the invariants. -/
theorem keeps_of_access {c : Config Cluster Pc} {visit : Option Uuid} {σ' : Cluster} (h : Sound c.shared)
    (hmem : p ∈ c.threads) (hp : Fits c.shared p) (hok : orderlyStep c visit p = true)
    (hs : access visit c.shared p = some (σ', q)) : Keeps c.shared p σ' q := by
  have hnone {p : Pc} : Keeps c.shared p c.shared none :=
    keeps_of_stage h rfl (fun r hr => (nomatch hr)) (fun id hid => (nomatch hid))
  cases p with
  | register serverId userId tenantId connectedAt channels =>
      cases hs
      exact keeps_register h userId tenantId connectedAt channels
  | registering serverId session rest =>
      cases rest with
      | nil =>
          cases hs
          exact keeps_registered h hp
      | cons command rest =>
          simp only [access, registerStep, Option.some.injEq, Prod.mk.injEq] at hs
          obtain ⟨rfl, rfl⟩ := hs
          split_ifs with henter
          · subst henter
            have hall : c.threads.all (fun p => decide (leave serverId session.userId ∉ p.rest)) = true := by
              simpa [orderlyStep] using hok
            have hleave := of_decide_eq_true (List.all_eq_true.mp hall _ hmem)
            exact keeps_enter h hp (fun hin => hleave (List.mem_cons_of_mem _ hin))
          · exact keeps_registering h hp henter
  | unregister serverId connectionId =>
      simp only [access] at hs
      split at hs
      · next s u hstage =>
          split_ifs at hs with hserver
          subst hserver
          cases hs
          exact keeps_unregister h hstage
      · cases hs
  | unregisterGet serverId connectionId =>
      cases hs
      refine keeps_of_stage h rfl (fun r hr => ?_) (fun id hid => ?_)
      · obtain ⟨session, -, rfl⟩ := Option.mem_map.mp hr
        exact hp
      · obtain ⟨r, hr, hid⟩ := Option.bind_eq_some_iff.mp hid
        obtain ⟨session, -, rfl⟩ := Option.mem_map.mp hr
        cases hid
  | unregisterLook serverId connectionId session =>
      cases hs
      refine keeps_look h hp (fun hothers id hlt => ?_)
      have hall : ∀ id < c.shared.fresh, c.shared.stage id ≠ .added serverId session.userId := by
        simpa [orderlyStep, hothers] using hok
      exact hall id hlt
  | update serverId connectionId channels =>
      cases hs
      refine keeps_of_stage h rfl (fun r hr => ?_) (fun id hid => ?_)
      · obtain ⟨session, -, rfl⟩ := Option.mem_map.mp hr
        exact updateCommands_safe h serverId connectionId session channels
      · obtain ⟨r, hr, hid⟩ := Option.bind_eq_some_iff.mp hid
        obtain ⟨session, -, rfl⟩ := Option.mem_map.mp hr
        cases hid
  | sending rest =>
      cases rest with
      | nil =>
          cases hs
          exact hnone
      | cons command rest =>
          cases hs
          refine keeps_of_stage (h.exec (hp command List.mem_cons_self)) rfl ?_ (fun id hid => (nomatch hid))
          rintro r ⟨⟩
          exact fun command hc => hp command (List.mem_cons_of_mem _ hc)
  | refresh serverId =>
      cases hs
      refine keeps_of_stage h rfl ?_ (fun id hid => (nomatch hid))
      rintro r ⟨⟩
      exact trivial
  | refreshing serverId since todo =>
      cases visit with
      | some connectionId =>
          by_cases htracked : connectionId ∈ c.shared.localConnections serverId
          · simp only [access, if_pos htracked] at hs
            cases hs
            refine keeps_visit h since todo _ (fun userId hstage => ?_)
            simpa [orderlyStep, hstage] using hok
          · simp only [access, if_neg htracked] at hs
            cases hs
      | none =>
          simp only [access] at hs
          split_ifs at hs with hdone
          cases hs
          have hsafe : c.shared.Safe (.expire (.serverConnections serverId) c.shared.ttl) := h.lifetime
          have hexec := h.exec hsafe
          exact keeps_of_stage ⟨hexec.lifetime, hexec.fresh, hexec.tracked, hexec.found⟩ rfl
            (fun r hr => (nomatch hr)) (fun id hid => (nomatch hid))
  | tick time =>
      simp only [access] at hs
      split_ifs at hs with hle
      cases hs
      refine keeps_tick h hle (fun s u ⟨id, hid⟩ => ?_)
      have hlt : id < c.shared.fresh := by
        by_contra hge
        rw [h.fresh id (Nat.le_of_not_lt hge)] at hid
        rcases hid with hid | hid <;> cases hid
      have hstep := List.all_eq_true.mp hok id (List.mem_range.mpr hlt)
      rcases hid with hid | hid <;> simpa [hid] using hstep

end steps

/-! ### Runs -/

section runs
variable {c c' : Config Cluster Pc} {e : Event Call (Option Uuid)}

/-- The invariants of a configuration. -/
structure Inv (c : Config Cluster Pc) : Prop where
  sound : Sound c.shared
  fits : Holds Fits c
  tokens : Tokens token Free c

theorem fits_start (σ : Cluster) (call : Call) : Fits σ (start call) ∧ token (start call) = none := by
  cases call <;> exact ⟨trivial, rfl⟩

theorem free_of_fits {σ : Cluster} {r : Pc} {id : Uuid} (h : Fits σ r) (hid : id ∈ token r) : Free σ id := by
  cases r with
  | registering serverId session rest =>
      cases hid
      have hstage := h.2.2
      split_ifs at hstage
      · exact .inl hstage
      · exact .inr ⟨_, _, hstage⟩
  | _ => cases hid

/-- The assertion of a call is not disturbed by the step of another one. -/
theorem fits_of_keeps {σ σ' : Cluster} {p r : Pc} {q : Option Pc} (hk : Keeps σ p σ' q) (hp : Fits σ p)
    (hr : Fits σ r) (htoken : ∀ id ∈ token p, id ∉ token r)
    (hleave : ∀ serverId session rest, p = .registering serverId session (enter serverId session.userId :: rest) →
      leave serverId session.userId ∉ r.rest) : Fits σ' r := by
  have hsafe : ∀ command ∈ r.rest, σ.Safe command → σ'.Safe command := by
    intro command hc hold
    cases command with
    | srem key s =>
        cases key with
        | userServers u =>
            intro hpresent
            rcases hk.present s u hpresent with hbefore | ⟨session, rest, rfl, rfl⟩
            · exact hold hbefore
            · exact hleave s session rest rfl hc
        | _ => exact trivial
    | _ => exact hold
  have hstage : ∀ id, (σ.stage id = .leaving ∨ id ∈ token r) → σ'.stage id = σ.stage id := by
    intro id hid
    have hbusy : σ.stage id = .leaving ∨ Free σ id := hid.imp_right (free_of_fits hr)
    rcases hk.stage id with hsame | hown | hunused | ⟨s, u, hreg⟩
    · exact hsame
    · rcases hid with hleaving | hother
      · rcases free_of_fits hp hown with hfree | ⟨s, u, hfree⟩ <;> rw [hleaving] at hfree <;> cases hfree
      · exact absurd hother (htoken id hown)
    · rcases hbusy with hb | hb | ⟨s, u, hb⟩ <;> rw [hunused] at hb <;> cases hb
    · rcases hbusy with hb | hb | ⟨s, u, hb⟩ <;> rw [hreg] at hb <;> cases hb
  cases r with
  | registering serverId session rest =>
      exact ⟨hr.1, fun command hc => hsafe command hc (hr.2.1 command hc),
        (hstage _ (.inr rfl)).trans hr.2.2⟩
  | unregisterGet serverId id => exact (hstage id (.inl hr)).trans hr
  | unregisterLook serverId id session => exact (hstage id (.inl hr)).trans hr
  | sending rest => exact fun command hc => hsafe command hc (hr command hc)
  | _ => exact trivial

theorem Inv.next (h : Inv c) (hok : Orderly c e = true) (hn : system.next c e = some c') : Inv c' := by
  have hkeeps : ∀ i visit p s q, e = .run i visit → c.threads[i]? = some p →
      access visit c.shared p = some (s, q) → Keeps c.shared p s q ∧ orderlyStep c visit p = true := by
    rintro i visit p s q rfl hp hs
    have hmem := List.mem_of_getElem? hp
    have hstep : orderlyStep c visit p = true := by simpa [Orderly, hp] using hok
    exact ⟨keeps_of_access h.sound hmem (h.fits p hmem) hstep hs, hstep⟩
  refine ⟨?_, ?_, ?_⟩
  · obtain ⟨call, rfl, rfl⟩ | ⟨i, visit, p, s, q, l₁, l₂, rfl, hp, hs, -, rfl⟩ := System.next_cases hn
    · exact h.sound
    · exact (hkeeps i visit p s q rfl hp hs).1.sound
  · refine h.fits.next hn (fun call _ => (fits_start _ call).1) ?_
    intro i visit p s q l₁ l₂ he hp hl hs
    obtain ⟨hk, hstep⟩ := hkeeps i visit p s q he hp hs
    refine ⟨hk.fits, fun r hr hfits => ?_⟩
    refine fits_of_keeps hk (h.fits p (List.mem_of_getElem? hp)) hfits
      (fun id hid => h.tokens.not_mem_of_split hl hr hid) ?_
    rintro serverId session rest rfl
    have hall : c.threads.all (fun p => decide (leave serverId session.userId ∉ p.rest)) = true := by
      simpa [orderlyStep] using hstep
    exact of_decide_eq_true (List.all_eq_true.mp hall r (mem_of_split hl hr))
  · refine h.tokens.next hn (fun call _ id hid => ?_) ?_
    · change token (start call) = some id at hid
      rw [(fits_start c.shared call).2] at hid
      cases hid
    · intro i visit p s q he hp hs _
      obtain ⟨hk, -⟩ := hkeeps i visit p s q he hp hs
      have hown := h.fits p (List.mem_of_getElem? hp)
      refine ⟨fun id hid => ?_, fun id hfree hnot => ?_⟩
      · obtain ⟨r, hr, hidr⟩ := Option.bind_eq_some_iff.mp hid
        refine ⟨(hk.token id hid).imp_right (fun hunused hfree => ?_), free_of_fits (hk.fits r hr) hidr⟩
        rcases hfree with hfree | ⟨s, u, hfree⟩ <;> rw [hunused] at hfree <;> cases hfree
      · have hsame : s.stage id = c.shared.stage id := by
          rcases hk.stage id with hsame | hheld | hunused | ⟨s, u, hreg⟩
          · exact hsame
          · exact absurd hheld hnot
          · rcases hfree with hfree | ⟨s, u, hfree⟩ <;> rw [hunused] at hfree <;> cases hfree
          · rcases hfree with hfree | ⟨s', u', hfree⟩ <;> rw [hreg] at hfree <;> cases hfree
        unfold Free at hfree ⊢
        rwa [hsame]

/-- **In every orderly run every server with a registered session of a user is found for the
user.** -/
theorem complete_of_orderly (ttl now : ℕ) (ht : 0 < ttl)
    (hr : Reaches system (fun c e => Orderly c e = true) (initial ttl now) c) : Complete c.shared := by
  have hinv : Inv c := by
    refine hr.invariant ⟨⟨ht, fun _ _ => rfl, fun id s u hs => ?_, fun s u hp => ?_⟩, ?_, ?_⟩
      (fun c e c' _ h hok hn => h.next hok hn)
    · cases hs
    · obtain ⟨id, hid | hid⟩ := hp <;> cases hid
    · exact fun p hp => absurd hp List.not_mem_nil
    · exact ⟨List.nodup_nil, fun id hid => absurd hid List.not_mem_nil⟩
  intro id s u hs
  exact hinv.sound.found s u ⟨id, .inr hs⟩

/-- The registration of a connection of alice, which runs to its end. -/
def registerAlice : List (Event Call (Option Uuid)) :=
  .call (.registerSession "ara-1" "alice" "default" 0 []) :: List.replicate 9 (.run 0 none)

/-- The clock moves on, and a refresh visits the connection. -/
def refreshAt (time : ℕ) : List (Event Call (Option Uuid)) :=
  [.call (.tick time), .run 0 none, .call (.refreshSessions "ara-1"), .run 0 none, .run 0 (some 0),
    .run 0 none]

/-- The connection is registered, and its server is not found. -/
def missing (c : Config Cluster Pc) : Bool :=
  decide (c.shared.stage 0 = .registered "ara-1" "alice") &&
    decide ("ara-1" ∉ c.shared.db.findUserServers "alice")

theorem complete_of_orderly_refreshed :
    ∃ c : Config Cluster Pc, c.shared.stage 0 = .registered "ara-1" "alice" ∧ Complete c.shared := by
  have hseen : (system.play (fun c e => Orderly c e = true) (initial 60 0)
      (registerAlice ++ refreshAt 30000)).any
      (fun c => decide (c.shared.stage 0 = .registered "ara-1" "alice")) = true := by
    decide +kernel
  obtain ⟨c, hr, hstage⟩ := exists_reaches_of_play hseen
  exact ⟨c, of_decide_eq_true hstage, complete_of_orderly 60 0 (by decide) hr⟩

/-- The sessions of the server are refreshed after half of their lifetime, and the set of the user
expires at its end. -/
theorem expired_user_set :
    ¬ ∀ (ttl now : ℕ), 0 < ttl → ∀ c : Config Cluster Pc,
        Reaches system (fun c e => Punctual c e = true) (initial ttl now) c → Complete c.shared := by
  intro hall
  have hseen : (system.play (fun c e => Punctual c e = true) (initial 60 0)
      (registerAlice ++ (refreshAt 30000 ++ [.call (.tick 60000), .run 0 none]))).any missing = true := by
    decide +kernel
  obtain ⟨c, hr, hmissing⟩ := exists_reaches_of_play hseen
  rw [missing, Bool.and_eq_true, decide_eq_true_eq, decide_eq_true_eq] at hmissing
  exact hmissing.2 (hall 60 0 (by decide) c hr 0 "ara-1" "alice" hmissing.1)

end runs

end SessionRace

end AraNotification
