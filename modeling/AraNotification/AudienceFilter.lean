import AraNotification.DispatchRecipients
import AraNotification.Http

/-! # The audience of a broadcast

The metadata of an event may restrict its audience to some roles or users.  `should_deliver_to_roles`
decides the first restriction for the roles of a connection, but nothing calls it: a broadcast selects its
connections by tenant alone.  The audience is honoured exactly when it excludes none of the connections to
which the broadcast goes (`audience_honoured_iff`), for a dispatch as for the endpoint. -/

namespace AraNotification

open Dispatcher

/-- The audience of the event includes the connection. -/
def NotificationEvent.includes (e : NotificationEvent) (c : ConnectionHandle) : Prop :=
  match e.metadata.audience with
  | some (.roles _) => e.shouldDeliverToRoles c.roles = true
  | some (.users users) => c.userId ∈ users
  | _ => True

/-- What has been put on outbound channels in between is meant for the audience. -/
def AudienceHonoured (d d' : Dispatcher) : Prop :=
  ∀ new, d'.outbox = d.outbox ++ new → ∀ p ∈ new, ∀ e, p.message.event = some e → e.includes p.conn

/-- The audience includes every registered connection of the tenant that takes the message. -/
def AudienceOpen (m : ConnectionManager) (env : Surroundings) (tenantId : Option String)
    (event : NotificationEvent) : Prop :=
  ∀ c, m.connections.lookup c.id = some c → ofTenant tenantId c = true → env.accepts c.id = true →
    event.includes c

section audience
variable {m : ConnectionManager} {limits : ConnectionLimits} {env : Surroundings} {event : NotificationEvent}
  {conns : List ConnectionHandle} {d d' : Dispatcher} {delivered failed : ℕ} {T : Option String}

/-- What was sent honours the audience exactly when the audience includes all connections that took it. -/
theorem Sent.honoured_iff (h : Sent env event conns d d' delivered failed) :
    AudienceHonoured d d' ↔ ∀ c ∈ conns, env.accepts c.id = true → event.includes c := by
  obtain ⟨new, hout, hperm, hevent⟩ := h.placed
  constructor
  · intro hhonoured c hc haccepts
    have hmem : c ∈ new.map (·.conn) := hperm.mem_iff.mpr (List.mem_filter.mpr ⟨hc, haccepts⟩)
    obtain ⟨p, hp, rfl⟩ := List.mem_map.mp hmem
    exact hhonoured new hout p hp event (hevent p hp)
  · intro hall new' hout' p hp e he
    obtain rfl : new' = new := List.append_cancel_left (hout'.symm.trans hout)
    obtain rfl : event = e := Option.some.inj ((hevent p hp).symm.trans he)
    have hmem : p.conn ∈ conns.filter (fun c => env.accepts c.id) :=
      hperm.mem_iff.mp (List.mem_map_of_mem hp)
    obtain ⟨hc, haccepts⟩ := List.mem_filter.mp hmem
    exact hall p.conn hc haccepts

/-- A broadcast honours the audience of its event exactly when that excludes no connection that it finds. -/
theorem dispatch_honoured_iff (hm : ConnectionManager.Reachable limits m)
    (hlive : event.isExpired env.now = false) :
    AudienceHonoured d (d.dispatchForTenant env m .broadcast event T).2 ↔ AudienceOpen m env T event := by
  have hsent : Sent env event (intendedConnections m T .broadcast) d
      (d.dispatchForTenant env m .broadcast event T).2
      (d.dispatchForTenant env m .broadcast event T).1.deliveredTo
      (d.dispatchForTenant env m .broadcast event T).1.failed :=
    sent_dispatchForTenant hm.indexed T hlive (fun us hus => absurd hus (by simp))
  have hfound := enumerates_intendedConnections hm.indexed T .broadcast
  rw [hsent.honoured_iff]
  constructor
  · intro h c hlookup htenant haccepts
    exact h c ((hfound.mem_iff c).mpr ⟨hlookup, htenant⟩) haccepts
  · intro h c hc haccepts
    obtain ⟨hlookup, htenant⟩ := (hfound.mem_iff c).mp hc
    exact h c hlookup htenant haccepts

end audience

/-- **The audience of a broadcast.**  In every reachable state of the manager, an unexpired broadcast
is put only on connections of its audience exactly when its audience includes every connection of the
tenant that takes it; so it is for the endpoint, whose event carries the audience of the request. -/
theorem audience_honoured_iff (limits : ConnectionLimits) (m : ConnectionManager)
    (hm : ConnectionManager.Reachable limits m) :
    (∀ (d : Dispatcher) (env : Surroundings) (event : NotificationEvent) (T : Option String),
      event.isExpired env.now = false →
        (AudienceHonoured d (d.dispatchForTenant env m .broadcast event T).2 ↔ AudienceOpen m env T event)) ∧
    ∀ (store : TemplateStore) (ctx : Option TenantContext) (d : Dispatcher) (o : Occasion)
      (r : BroadcastNotificationRequest) (resolved : ResolvedContent),
      r.content.resolveForTenant store (Http.tenantId ctx) r.priority r.ttl = .ok resolved →
      (buildEvent resolved r.audience r.correlationId o).isExpired o.env.now = false →
        (AudienceHonoured d (Http.broadcastNotification m store ctx d o r).2 ↔
          AudienceOpen m o.env (Http.tenantId ctx) (buildEvent resolved r.audience r.correlationId o)) := by
  refine ⟨fun d env event T hlive => dispatch_honoured_iff hm hlive, ?_⟩
  intro store ctx d o r resolved hresolved hlive
  have hsend : (Http.broadcastNotification m store ctx d o r).2 =
      (d.dispatchForTenant o.env m .broadcast (buildEvent resolved r.audience r.correlationId o)
        (Http.tenantId ctx)).2 := by
    unfold Http.broadcastNotification Http.sendWith
    rw [hresolved]
  rw [hsend]
  exact dispatch_honoured_iff hm hlive

/-- An event for administrators. -/
def forAdmins : NotificationEvent :=
  ⟨7, 0, "disk.full", .null, ⟨"http-api", .high, none, some (.roles ["admin"]), none⟩⟩

/-- A manager with one connection, of a user with the given roles. -/
def oneConnection (roles : List String) : ConnectionManager :=
  ((ConnectionManager.withLimits .default).call (.register 1 "alice" "acme" roles 0)).2

/-- An administrator who is the only one connected receives it. -/
theorem admin_honoured :
    AudienceHonoured emptyQueue
      (emptyQueue.dispatchForTenant quiet (oneConnection ["admin"]) .broadcast forAdmins (some "acme")).2 := by
  have hm : ConnectionManager.Reachable .default (oneConnection ["admin"]) :=
    ConnectionManager.Reachable.empty.call (.register 1 "alice" "acme" ["admin"] 0) rfl
  refine ((audience_honoured_iff .default _ hm).1 emptyQueue quiet forAdmins (some "acme") rfl).mpr ?_
  intro c hc _ _
  have hmem : c ∈ (oneConnection ["admin"]).connections.values := DashMap.mem_values.mpr ⟨c.id, hc⟩
  obtain rfl := List.mem_singleton.mp hmem
  show forAdmins.shouldDeliverToRoles ["admin"] = true
  decide

/-- A user without the role receives it as well. -/
theorem user_not_honoured :
    ¬ ∀ (limits : ConnectionLimits) (m : ConnectionManager), ConnectionManager.Reachable limits m →
      ∀ (d : Dispatcher) (env : Surroundings) (event : NotificationEvent) (T : Option String),
        event.isExpired env.now = false →
          AudienceHonoured d (d.dispatchForTenant env m .broadcast event T).2 := by
  intro hall
  have hm : ConnectionManager.Reachable .default (oneConnection ["user"]) :=
    ConnectionManager.Reachable.empty.call (.register 1 "alice" "acme" ["user"] 0) rfl
  have hhonoured := hall .default _ hm emptyQueue quiet forAdmins none rfl
  have hincludes : forAdmins.shouldDeliverToRoles ["user"] = true := hhonoured
    [⟨.new 1 "alice" "acme" ["user"] 0, .raw (.notification forAdmins)⟩] rfl _ (List.mem_singleton_self _)
    forAdmins rfl
  exact absurd hincludes (by decide)

end AraNotification
