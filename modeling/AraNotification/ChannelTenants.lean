import AraNotification.TenantIsolation

/-! # The entries of the channel index

An entry of the channel index holds the connections that a message to its key is put on.  The
key of a subscription is made from two strings, the tenant of the connection, which comes
from a token and may contain colons, and the channel name that the client sent, which
`handleSubscribe` has checked.  A valid name has no colon, so the part of a key after its
last colon is the name, and a key without a colon belongs to the default tenant.

The calls of a run are kept in a list (`Run`), and a subscription is traced to the request
that made it (`Run.traced`).  Two connections of one entry then have the same tenant and
asked for the same name (`channel_entry_of_one_tenant`). -/

namespace AraNotification

namespace TenantIsolation

section runs
variable (U : UnicodeTables) (limits : ConnectionLimits)

/-- The calls made so far, in order, and the manager they produce. -/
inductive Run : List ClientCall → ConnectionManager → Prop
  | empty : Run [] (.withLimits limits)
  | call {calls : List ClientCall} {m : ConnectionManager} (c : ClientCall) :
      Run calls m → Legal m c → Run (calls ++ [c]) (perform U m c)

/-- A `Subscribe` message of the connection contained the name, and the connection has not
been registered anew since. -/
def Requested (calls : List ClientCall) (id : Uuid) (name : String) : Prop :=
  ∃ before channels after, calls = before ++ .subscribe id channels :: after ∧ name ∈ channels ∧
    ∀ claims now, ClientCall.connect id claims now ∉ after

end runs

section requests
variable {U : UnicodeTables} {limits : ConnectionLimits} {calls : List ClientCall}
  {m : ConnectionManager} {id : Uuid} {name : String}

theorem requested_subscribe {channels : List String} (hn : name ∈ channels) :
    Requested (calls ++ [.subscribe id channels]) id name :=
  ⟨calls, channels, [], rfl, hn, fun _ _ => List.not_mem_nil⟩

/-- A request is kept by every call but the registration of the same identifier. -/
theorem Requested.snoc {c : ClientCall} (h : Requested calls id name)
    (hc : ∀ claims now, c ≠ .connect id claims now) : Requested (calls ++ [c]) id name := by
  obtain ⟨before, channels, after, rfl, hn, hafter⟩ := h
  refine ⟨before, channels, after ++ [c], by simp, hn, fun claims now hm => ?_⟩
  rw [List.mem_append, List.mem_singleton] at hm
  rcases hm with hm | hm
  · exact hafter claims now hm
  · exact hc claims now hm.symm

/-- The indices are right, and every subscription was requested under a valid name. -/
theorem Run.traced (h : Run U limits calls m) :
    m.Indexed ∧ ScopedBy (fun id name => isValidChannelName U name = true ∧ Requested calls id name) m := by
  induction h with
  | empty => exact ⟨ConnectionManager.indexed_withLimits limits, scopedBy_withLimits limits⟩
  | @call calls m c _ hc ih =>
      obtain ⟨hi, hs⟩ := ih
      have hkept : ScopedBy (fun id name => isValidChannelName U name = true ∧
          Requested (calls ++ [c]) id name) m := by
        refine hs.mono (fun id name hreg hr => ⟨hr.1, hr.2.snoc ?_⟩)
        -- The identifier of a registration is not in use.
        rintro claims now rfl
        exact hreg hc
      refine indexed_scopedBy_perform hi hkept hc ?_
      rintro id channels rfl name hn hv
      exact ⟨hv, requested_subscribe hn⟩

/-- **Two connections in one entry of the channel index have the same tenant and asked for
the same channel name, and no other name of either has this key.** -/
theorem channel_entry_of_one_tenant (h : Run U limits calls m) {key : String} {a b : Uuid}
    (ha : a ∈ m.channelIndex.ids key) (hb : b ∈ m.channelIndex.ids key) :
    ∃ ca cb name, m.connections.lookup a = some ca ∧ m.connections.lookup b = some cb ∧
      ca.tenantId = cb.tenantId ∧ Requested calls a name ∧ Requested calls b name ∧
      (∀ other, channelKey multiTenant ca other = key → other = name) ∧
      ∀ other, channelKey multiTenant cb other = key → other = name := by
  obtain ⟨hi, hs⟩ := h.traced
  obtain ⟨ca, hla, hka⟩ := (hi.channel.mem_iff key a).mp ha
  obtain ⟨cb, hlb, hkb⟩ := (hi.channel.mem_iff key b).mp hb
  obtain ⟨x, ⟨hx, hrx⟩, hkx⟩ := hs a ca hla key hka
  obtain ⟨y, ⟨hy, hry⟩, hky⟩ := hs b cb hlb key hkb
  have ht : ca.tenantId = cb.tenantId :=
    tenant_eq_of_unambiguous (unambiguous_of_valid hy) hx (hkx.symm.trans hky)
  have hxy : x = y := by
    rw [ht] at hkx
    exact namespaceChannel_right_inj.mp (hkx.symm.trans hky)
  subst hxy
  refine ⟨ca, cb, x, hla, hlb, ht, hrx, hry, fun other ho => ?_, fun other ho => ?_⟩
  · rw [channelKey_multiTenant, hkx] at ho
    exact namespaceChannel_right_inj.mp ho
  · rw [channelKey_multiTenant, hky] at ho
    exact namespaceChannel_right_inj.mp ho

/-- Two connections of a tenant whose name contains a colon share the channel `orders`. -/
theorem channel_entry_shared :
    ∃ calls m key ca cb name, Run .ascii .default calls m ∧
      1 ∈ m.channelIndex.ids key ∧ 2 ∈ m.channelIndex.ids key ∧
      m.connections.lookup 1 = some ca ∧ m.connections.lookup 2 = some cb ∧
      ca.tenantId = cb.tenantId ∧ Requested calls 1 name ∧ Requested calls 2 name := by
  have h₁ : Run .ascii .default [] (.withLimits .default) := .empty
  have h₂ := h₁.call (.connect 1 ⟨"alice", [], some "a:b"⟩ 0) rfl
  have h₃ := h₂.call (.connect 2 ⟨"bob", [], some "a:b"⟩ 0) rfl
  have h₄ := h₃.call (.subscribe 1 ["orders"]) trivial
  have h₅ := h₄.call (.subscribe 2 ["bad:name", "orders"]) trivial
  obtain ⟨ca, cb, name, ha, hb, ht, hra, hrb, -⟩ := channel_entry_of_one_tenant h₅
    (by decide : (1 : Uuid) ∈ InvertedIndex.ids _ "a:b:orders")
    (by decide : (2 : Uuid) ∈ InvertedIndex.ids _ "a:b:orders")
  exact ⟨_, _, "a:b:orders", ca, cb, name, h₅, by decide, by decide, ha, hb, ht, hra, hrb⟩

end requests

end TenantIsolation

end AraNotification
