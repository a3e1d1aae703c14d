import AraNotification.ClusterRouting

/-! # Many calls, and an index that is not accurate

The servers route any number of messages at the same time, for any identities, and what
`find_user_servers` answers need not be right: the index may be stale, name servers that have gone or
have no connection of the user any more, miss others, or be out of reach.

`routes_deliver` counts the copies all the same: when all messages have been handled, in whatever
order, a connection has one copy for every call of its own identity that was made on its server, and
for every other call of its identity one for each time that its server was found.  An index that is
wrong can only leave out copies or repeat them: what a server sends locally does not depend on it, and
no connection of another identity gets anything. -/

namespace AraNotification

/-- A call of `route_to_user` on a server, with the answer of `find_user_servers`. -/
structure RouteCall where
  origin : String
  userServers : Except SessionStoreError (List String)
  userId : String
  tenantId : String
  message : ServerMessage

namespace RouteCall

/-- The servers that were found. -/
def found (k : RouteCall) : List String := k.userServers.toOption.getD []

/-- How often a server sends the message to its connections. -/
def times (k : RouteCall) (sid : String) : ℕ := if k.origin = sid then 1 else k.found.count sid

end RouteCall

namespace Cluster

variable (C : Cluster) (serde : RoutingSerde)

/-- Any number of calls. -/
def calls (ks : List RouteCall) : Worklist.Config Work Output where
  pending := (ks.map (fun k => Work.running k.origin
    ((C.server k.origin).routeToUser serde k.userServers k.userId k.tenantId k.message).2) : List Work)
  done := 0

/-- The copies of a call on a connection. -/
def copiesOf (sid : String) (cid : Uuid) (k : RouteCall) : Multiset OutboundMessage :=
  if (C.server sid).receives k.userId k.tenantId cid = true then .replicate (k.times sid) (.raw k.message) else 0

section calls
variable {C : Cluster} {serde : RoutingSerde} {u t : String} {m : ServerMessage} {origin target sid : String}
  {cid : Uuid}

/-! ### A message for a server that was found -/

/-- Nobody listens to the channel of a server that is not there. -/
theorem subscribers_of_not_mem (htarget : target ∉ C.ids) :
    C.subscribers (C.routingChannel ++ ":" ++ target) = ∅ := by
  refine Finset.filter_eq_empty_iff.mpr fun id hid hchannel => ?_
  rw [ClusterServer.subscriptions, if_pos (C.enabled id hid), C.routed id hid, C.named id hid] at hchannel
  rcases List.mem_cons.mp hchannel with heq | hchannel
  · obtain rfl : target = id := (String.append_right_inj _).mp heq
    exact htarget hid
  · have heq := congrArg (fun s => s.toList.length) (List.mem_singleton.mp hchannel)
    simp at heq

/-- A message for a server that is not there makes no copies. -/
theorem copiesOn_routed_of_not_mem {message : RoutedMessage} (hto : message.toServer = some target)
    (htarget : target ∉ C.ids) (horigin : origin ∈ C.ids) :
    Output.copiesOn sid cid ((((C.server origin).publishRoutedMessage serde message).toOption.toList.map
      (C.actionValue serde origin)).sum) = 0 := by
  unfold ClusterServer.publishRoutedMessage
  cases hwrite : serde.routed.write message with
  | none => exact map_zero _
  | some json =>
      simp only [hto, C.routed origin horigin]
      show Output.copiesOn sid cid (C.actionValue serde origin _ + 0) = _
      rw [add_zero, actionValue, map_add, Output.copiesOn_published, zero_add, subscribers_of_not_mem htarget,
        Finset.sum_empty, map_zero]

/-- The messages of a call for other servers make one copy for each time that a server was found. -/
theorem copiesOn_publishes {servers : List String} {payload : String} (hwrite : serde.message.write m = some payload)
    (hserde : serde.Carries (C.server origin) C.ids u t m) (horigin : origin ∈ C.ids) (hsid : sid ∈ C.ids) :
    Output.copiesOn sid cid ((((servers.filter (fun s => s ≠ origin)).flatMap (fun target =>
        ((C.server origin).publishRoutedMessage serde
          ((C.server origin).routedMessage u t payload target)).toOption.toList)).map
            (C.actionValue serde origin)).sum) =
      (servers.filter (fun s => s ≠ origin)).count sid •
        if (C.server sid).receives u t cid = true then {.raw m} else 0 := by
  have hread : serde.message.read payload = some m := by
    obtain ⟨payload', hwrite', hread⟩ := Option.bind_eq_some_iff.mp hserde.reads
    rw [hwrite, Option.some.injEq] at hwrite'
    rw [hwrite']
    exact hread
  have hrouted : ∀ target ∈ servers.filter (fun s => s ≠ origin),
      (Output.copiesOn sid cid ∘ List.sum ∘ fun target => ((C.server origin).publishRoutedMessage serde
        ((C.server origin).routedMessage u t payload target)).toOption.toList.map (C.actionValue serde origin))
          target = if target = sid ∧ (C.server sid).receives u t cid = true then {.raw m} else 0 := by
    intro target htarget
    have hne : target ≠ origin := of_decide_eq_true (List.mem_filter.mp htarget).2
    by_cases hmem : target ∈ C.ids
    · refine (copiesOn_routed (hserde.routed payload hwrite target hmem) hmem horigin hne hread).trans ?_
      by_cases heq : target = sid
      · rw [heq]
      · rw [if_neg (fun h => heq h.1), if_neg (fun h => heq h.1)]
    · have hnot : ¬ (target = sid ∧ (C.server sid).receives u t cid = true) := by
        rintro ⟨rfl, -⟩
        exact hmem hsid
      rw [if_neg hnot]
      exact copiesOn_routed_of_not_mem rfl hmem horigin
  rw [List.map_flatMap, List.flatMap_def, List.sum_flatten, List.map_map, map_list_sum, List.map_map,
    List.map_congr_left hrouted, List.sum_map_eq_nsmul_single sid _ (fun target hne _ => if_neg (fun h => hne h.1))]
  simp only [true_and]

/-! ### The copies of a call -/

theorem copiesOn_sends (horigin : origin ∈ C.ids) :
    Output.copiesOn sid cid ((((C.server origin).sendLocally u t m).2.map (C.actionValue serde origin)).sum) =
      if origin = sid ∧ (C.server origin).receives u t cid = true then {.raw m} else 0 := by
  have hsends : (((C.server origin).sendLocally u t m).2.map (C.actionValue serde origin)) =
      ((C.server origin).sendLocally u t m).2.map ((C.server origin).output origin) := by
    refine List.map_congr_left (fun a ha => ?_)
    obtain ⟨conn, rfl⟩ := ClusterServer.mem_sendLocally ha
    rfl
  rw [hsends, copiesOn_sendLocally horigin]

/-- The copies of a call, whatever the index says. -/
theorem copiesOn_running {k : RouteCall} (horigin : k.origin ∈ C.ids)
    (hserde : serde.Carries (C.server k.origin) C.ids k.userId k.tenantId k.message) (hsid : sid ∈ C.ids) :
    Output.copiesOn sid cid (C.value serde (.running k.origin
        ((C.server k.origin).routeToUser serde k.userServers k.userId k.tenantId k.message).2)) =
      C.copiesOf sid cid k := by
  obtain ⟨origin, userServers, u, t, m⟩ := k
  dsimp only at horigin hserde ⊢
  unfold copiesOf RouteCall.times RouteCall.found
  dsimp only
  cases userServers with
  | error e =>
      have hactions : ((C.server origin).routeToUser serde (.error e) u t m).2 =
          ((C.server origin).sendLocally u t m).2 := by
        simp only [ClusterServer.routeToUser, C.enabled origin horigin, if_true]
      rw [hactions, value, copiesOn_sends horigin]
      by_cases heq : origin = sid
      · subst heq
        simp
      · simp [heq, Except.toOption]
  | ok servers =>
      obtain ⟨payload, hwrite, -⟩ := Option.bind_eq_some_iff.mp hserde.reads
      rw [actions_routeToUser horigin hwrite, value, List.map_append, List.sum_append, map_add, copiesOn_sends horigin,
        copiesOn_publishes hwrite hserde horigin hsid]
      by_cases heq : origin = sid
      · subst heq
        have hnone : (servers.filter (fun s => s ≠ origin)).count origin = 0 :=
          List.count_eq_zero.mpr fun h => absurd rfl (of_decide_eq_true (List.mem_filter.mp h).2)
        rw [hnone, zero_smul, add_zero, if_pos rfl, Multiset.replicate_one]
        simp only [true_and]
      · have hcount : (servers.filter (fun s => s ≠ origin)).count sid = servers.count sid :=
          List.count_filter (decide_eq_true (fun h => heq h.symm))
        rw [if_neg (fun h => heq h.1), zero_add, hcount, if_neg heq]
        split_ifs
        · rw [Multiset.nsmul_singleton]
          rfl
        · exact smul_zero _

theorem total_calls (C : Cluster) (serde : RoutingSerde) (ks : List RouteCall) :
    (C.calls serde ks).total (C.value serde) = (ks.map (fun k => C.value serde (.running k.origin
      ((C.server k.origin).routeToUser serde k.userServers k.userId k.tenantId k.message).2))).sum := by
  rw [calls, Worklist.Config.total, zero_add, Multiset.map_coe, Multiset.sum_coe, List.map_map]
  rfl

end calls

/-- Two calls for `alice` on one server; the second one finds only a server that has gone. -/
def staleIndex : List RouteCall :=
  [⟨"ara-1", .ok ["ara-2", "ara-1"], "alice", "acme", .heartbeat⟩,
    ⟨"ara-1", .ok ["ara-3"], "alice", "acme", .heartbeat⟩]

end Cluster

end AraNotification
