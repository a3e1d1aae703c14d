import AraNotification.Lib.Runs
import AraNotification.QueueIdentity
import AraNotification.Recipients

/-! # Who can acknowledge a notification

The tracker keeps one entry for a notification, whoever it was sent to.  A notification that
goes to two users is tracked for the second one in place of the first, whose acknowledgement
is then refused (`first_recipient_refused`); one that is replayed is not tracked at all; and
one that is acknowledged before its dispatch has tracked it is not known yet.

`Exclusive n` is the condition under which every recipient of `n` can acknowledge it: `n` is
put on a channel by its dispatch only, and only when every other user it has been sent to has
acknowledged it.  Then the user who was tracked last is the only one who has not
acknowledged (`HandedOver`), and an acknowledgement that does not come before the tracking
finds the entry of its user (`acknowledged_of_exclusive`).

Nothing in the service calls the clean-up of the tracker.  So that the timeout is not lost
sight of, the tracker is described by what happens to it (`ackAfter`), the actions of the
service with clean-ups anywhere in between, and an entry survives every clean-up that is made
before its timeout. -/

namespace AraNotification

open Interleaving

/-! ### The tracker and what happens to it -/

/-- An action of the service, or a clean-up at some time, at the tracker. -/
def MemoryAckBackend.perform (b : MemoryAckBackend) : Action ⊕ DateTime → MemoryAckBackend
  | .inl (.track notificationId userId id now) => b.track notificationId userId id now
  | .inl (.acknowledge notificationId userId now) => (b.acknowledge notificationId userId now).2
  | .inl _ => b
  | .inr now => (b.cleanupExpired now).2

/-- The tracker after some actions and clean-ups. -/
def ackAfter (settings : Settings) (steps : List (Action ⊕ DateTime)) : MemoryAckBackend :=
  steps.foldl MemoryAckBackend.perform (.new settings.ackConfig)

/-- The actions without the clean-ups. -/
def actionsOf (steps : List (Action ⊕ DateTime)) : List Action := steps.filterMap Sum.getLeft?

/-- The action is an acknowledgement by the user. -/
def Action.Acks (n : Uuid) (u : String) : Action → Prop
  | .acknowledge n' u' _ => n' = n ∧ u' = u
  | _ => False

instance (n : Uuid) (u : String) (a : Action) : Decidable (a.Acks n u) := by
  unfold Action.Acks
  split <;> infer_instance

/-- The user has acknowledged the notification before, with whatever result. -/
def Acked (history : List Action) (n : Uuid) (u : String) : Prop := ∃ a ∈ history, a.Acks n u

instance (history : List Action) (n : Uuid) (u : String) : Decidable (Acked history n u) :=
  inferInstanceAs (Decidable (∃ a ∈ history, a.Acks n u))

/-- Whenever the notification is tracked, every other user for whom it was tracked before has
acknowledged it, and the clock has not gone back. -/
def HandedOver (n : Uuid) (history : List Action) : Prop :=
  ∀ l₁ l₂ u id t, history = l₁ ++ .track n u id t :: l₂ →
    ∀ u' id' t', .track n u' id' t' ∈ l₁ → (u' = u ∨ Acked l₁ n u') ∧ t' ≤ t

section tracker
variable {settings : Settings} {steps : List (Action ⊕ DateTime)} {H : List Action} {a : Action}
  {n : Uuid} {u : String} {now : DateTime} {b : MemoryAckBackend}

theorem ackAfter_append (x : Action ⊕ DateTime) :
    ackAfter settings (steps ++ [x]) = (ackAfter settings steps).perform x := by
  rw [ackAfter, List.foldl_append]
  rfl

theorem actionsOf_inl (a : Action) : actionsOf (steps ++ [.inl a]) = actionsOf steps ++ [a] := by
  rw [actionsOf, List.filterMap_append]
  rfl

theorem actionsOf_inr (w : DateTime) : actionsOf (steps ++ [.inr w]) = actionsOf steps := by
  rw [actionsOf, List.filterMap_append]
  exact List.append_nil _

theorem actionsOf_map_inl (H : List Action) : actionsOf (H.map .inl) = H := by
  simp [actionsOf, List.filterMap_map, Function.comp_def]

theorem config_ackAfter (settings : Settings) (steps : List (Action ⊕ DateTime)) :
    (ackAfter settings steps).config = settings.ackConfig := by
  induction steps using List.reverseRecOn with
  | nil => rfl
  | append_singleton steps x ih =>
      rw [ackAfter_append, ← ih]
      rcases x with a | w
      · cases a with
        | track | acknowledge => simp [MemoryAckBackend.perform]
        | _ => rfl
      · simp [MemoryAckBackend.perform]

theorem enabled_ackAfter (henabled : settings.ack.enabled = true) :
    (ackAfter settings steps).config.enabled = true := by
  rw [config_ackAfter]
  exact henabled

theorem Acked.append (h : Acked H n u) : Acked (H ++ [a]) n u := by
  obtain ⟨x, hx, hacks⟩ := h
  exact ⟨x, List.mem_append_left _ hx, hacks⟩

theorem HandedOver.of_append (h : HandedOver n (H ++ [a])) : HandedOver n H := by
  intro l₁ l₂ u id t hH
  refine h l₁ (l₂ ++ [a]) u id t ?_
  rw [hH]
  simp

theorem HandedOver.append (h : HandedOver n H)
    (ha : ∀ u id t, a = .track n u id t →
      ∀ u' id' t', .track n u' id' t' ∈ H → (u' = u ∨ Acked H n u') ∧ t' ≤ t) :
    HandedOver n (H ++ [a]) := by
  intro l₁ l₂ u id t hH
  rcases Runs.snoc_split_cases hH with ⟨rfl, heq, -⟩ | ⟨l₂', -, hH'⟩
  · exact ha u id t heq.symm
  · exact h l₁ l₂' u id t hH'

/-- The entry of the notification is for the user and not older than any tracking for the user. -/
def Awaits (b : MemoryAckBackend) (H : List Action) (n : Uuid) (u : String) : Prop :=
  ∃ p, b.pending.lookup n = some p ∧ p.userId = u ∧ ∀ id t, .track n u id t ∈ H → t ≤ p.sentAt

/-- Every tracking of the notification for the user has timed out. -/
def Overdue (settings : Settings) (now : DateTime) (H : List Action) (n : Uuid) (u : String) : Prop :=
  ∀ id t, .track n u id t ∈ H → asI64 settings.ack.timeoutSeconds ≤ Duration.numSeconds (now - t)

/-- An action that does not track the notification for the user adds no tracking. -/
theorem mem_of_mem_append_of_ne {id : Uuid} {t : DateTime} (ha : ∀ id t, a ≠ .track n u id t)
    (h : .track n u id t ∈ H ++ [a]) : .track n u id t ∈ H := by
  rcases List.mem_append.mp h with hold | hnew
  · exact hold
  · exact absurd (List.mem_singleton.mp hnew).symm (ha id t)

/-- What is known of the user stays when the entry does and nothing is tracked for the user. -/
theorem awaits_or_overdue_of_eq {b' : MemoryAckBackend} (ha : ∀ id t, a ≠ .track n u id t)
    (hl : b'.pending.lookup n = b.pending.lookup n) (h : Awaits b H n u ∨ Overdue settings now H n u) :
    Awaits b' (H ++ [a]) n u ∨ Overdue settings now (H ++ [a]) n u := by
  rcases h with ⟨p, hp, hu, hle⟩ | hdue
  · exact .inl ⟨p, hl.trans hp, hu, fun id t ht => hle id t (mem_of_mem_append_of_ne ha ht)⟩
  · exact .inr (fun id t ht => hdue id t (mem_of_mem_append_of_ne ha ht))

/-- A clean-up removes only entries that have timed out. -/
theorem awaits_or_overdue_cleanup {w : DateTime} (henabled : b.config.enabled = true)
    (hconfig : b.config.timeoutSeconds = settings.ack.timeoutSeconds) (hw : w ≤ now)
    (h : Awaits b H n u ∨ Overdue settings now H n u) :
    Awaits (b.cleanupExpired w).2 H n u ∨ Overdue settings now H n u := by
  rcases h with ⟨p, hp, hu, hle⟩ | hdue
  · cases hexp : p.isExpired w b.config.timeoutSeconds with
    | false =>
        refine .inl ⟨p, ?_, hu, hle⟩
        rw [MemoryAckBackend.pending_cleanupExpired henabled, hp, Option.filter_some, hexp]
        rfl
    | true =>
        refine .inr (fun id t ht => ?_)
        have hage : asI64 b.config.timeoutSeconds ≤ Duration.numSeconds (w - p.sentAt) := of_decide_eq_true hexp
        rw [hconfig] at hage
        exact hage.trans (Duration.numSeconds_mono (sub_le_sub hw (hle id t ht)))
  · exact .inr hdue

/-- The tracking of the notification makes its user the one who is awaited. -/
theorem awaits_track {u' : String} {id : Uuid} {t : DateTime} (henabled : b.config.enabled = true)
    (hH : HandedOver n (H ++ [.track n u' id t]))
    (htracked : ∃ id' t', .track n u id' t' ∈ H ++ [.track n u' id t]) (hfirst : ¬ Acked H n u) :
    Awaits (b.track n u' id t) (H ++ [.track n u' id t]) n u := by
  have hbefore := hH H [] u' id t rfl
  have hsame : u' = u := by
    obtain ⟨id', t', ht'⟩ := htracked
    rcases List.mem_append.mp ht' with hold | hnew
    · exact ((hbefore u id' t' hold).1.resolve_right hfirst).symm
    · exact (Action.track.inj (List.mem_singleton.mp hnew)).2.1.symm
  subst hsame
  refine ⟨⟨n, u', id, t⟩, by rw [MemoryAckBackend.pending_track henabled, if_pos rfl], rfl, ?_⟩
  intro id' t' ht'
  rcases List.mem_append.mp ht' with hold | hnew
  · exact (hbefore u' id' t' hold).2
  · exact le_of_eq (Action.track.inj (List.mem_singleton.mp hnew)).2.2.2

/-- **The user who is to acknowledge next is awaited until the timeout**, whatever clean-ups are
made. -/
theorem awaits_or_overdue (henabled : settings.ack.enabled = true)
    (hsteps : ∀ w, .inr w ∈ steps → w ≤ now) (hH : HandedOver n (actionsOf steps))
    (htracked : ∃ id t, .track n u id t ∈ actionsOf steps) (hfirst : ¬ Acked (actionsOf steps) n u) :
    Awaits (ackAfter settings steps) (actionsOf steps) n u ∨
      Overdue settings now (actionsOf steps) n u := by
  induction steps using List.reverseRecOn with
  | nil =>
      obtain ⟨id, t, ht⟩ := htracked
      exact absurd ht List.not_mem_nil
  | append_singleton steps x ih =>
      have hconfig := config_ackAfter settings steps
      have hen : (ackAfter settings steps).config.enabled = true := enabled_ackAfter henabled
      have hsteps' : ∀ w, .inr w ∈ steps → w ≤ now := fun w hw => hsteps w (List.mem_append_left _ hw)
      rw [ackAfter_append]
      rcases x with a | w
      · rw [actionsOf_inl] at hH htracked hfirst ⊢
        have hfirst' : ¬ Acked (actionsOf steps) n u := fun hacked => hfirst hacked.append
        -- Everything but a tracking for the user leaves what is known of the user to the induction.
        have hold : (∀ id t, a ≠ .track n u id t) → Awaits (ackAfter settings steps) (actionsOf steps) n u ∨
            Overdue settings now (actionsOf steps) n u := by
          intro ha
          obtain ⟨id, t, ht⟩ := htracked
          exact ih hsteps' hH.of_append ⟨id, t, mem_of_mem_append_of_ne ha ht⟩ hfirst'
        cases a with
        | track n' u' id t =>
            by_cases hn : n' = n
            · subst hn
              exact .inl (awaits_track hen hH htracked hfirst')
            · have ha : ∀ id' t', Action.track n' u' id t ≠ .track n u id' t' :=
                fun id' t' heq => hn (Action.track.inj heq).1
              refine awaits_or_overdue_of_eq ha ?_ (hold ha)
              exact (MemoryAckBackend.pending_track hen).trans (if_neg (fun h => hn h.symm))
        | acknowledge n' u' t =>
            have ha : ∀ id' t', Action.acknowledge n' u' t ≠ .track n u id' t' := fun _ _ h => by cases h
            by_cases hn : n' = n
            · subst hn
              have hu : u' ≠ u := by
                rintro rfl
                exact hfirst ⟨_, List.mem_append_right _ List.mem_cons_self, rfl, rfl⟩
              rcases hold ha with ⟨p, hp, hpu, hle⟩ | hdue
              · refine .inl ⟨p, ?_, hpu, fun id t ht => hle id t (mem_of_mem_append_of_ne ha ht)⟩
                refine (MemoryAckBackend.pending_acknowledge hen).trans ?_
                rw [if_pos rfl, hp, Option.filter_some, if_pos]
                rw [hpu]
                exact decide_eq_true hu.symm
              · exact .inr (fun id t ht => hdue id t (mem_of_mem_append_of_ne ha ht))
            · refine awaits_or_overdue_of_eq ha ?_ (hold ha)
              exact (MemoryAckBackend.pending_acknowledge hen).trans (if_neg (fun h => hn h.symm))
        | _ => exact awaits_or_overdue_of_eq (by simp) rfl (hold (by simp))
      · rw [actionsOf_inr] at hH htracked hfirst ⊢
        have hw : w ≤ now := hsteps w (List.mem_append_right _ List.mem_cons_self)
        exact awaits_or_overdue_cleanup hen (by rw [hconfig]; rfl) hw (ih hsteps' hH htracked hfirst)

/-- An entry was made by a tracking for its user. -/
theorem track_of_pending (henabled : settings.ack.enabled = true) {p : PendingAckInfo}
    (h : (ackAfter settings steps).pending.lookup n = some p) :
    ∃ id t, .track n p.userId id t ∈ actionsOf steps := by
  induction steps using List.reverseRecOn with
  | nil => cases h
  | append_singleton steps x ih =>
      have hen : (ackAfter settings steps).config.enabled = true := enabled_ackAfter henabled
      have hold : (ackAfter settings steps).pending.lookup n = some p →
          ∃ id t, .track n p.userId id t ∈ actionsOf (steps ++ [x]) := by
        intro hp
        obtain ⟨id, t, ht⟩ := ih hp
        rw [actionsOf, List.filterMap_append]
        exact ⟨id, t, List.mem_append_left _ ht⟩
      rw [ackAfter_append] at h
      rcases x with a | w
      · cases a with
        | track n' u' id t =>
            rw [MemoryAckBackend.perform, MemoryAckBackend.pending_track hen] at h
            split_ifs at h with hn
            · obtain rfl := Option.some.inj h
              rw [hn, actionsOf_inl]
              exact ⟨id, t, List.mem_append_right _ List.mem_cons_self⟩
            · exact hold h
        | acknowledge n' u' t =>
            rw [MemoryAckBackend.perform, MemoryAckBackend.pending_acknowledge hen] at h
            split_ifs at h with hn
            · rw [← hn] at h
              exact hold (Option.filter_eq_some_iff.mp h).1
            · exact hold h
        | _ => exact hold h
      · rw [MemoryAckBackend.perform, MemoryAckBackend.pending_cleanupExpired hen] at h
        exact hold (Option.filter_eq_some_iff.mp h).1

end tracker

/-! ### Recipients -/

/-- The user for whom the action registers the connection. -/
def Action.ownerOf (id : Uuid) : Action → Option String
  | .register _ h => if h.id = id then some h.userId else none
  | _ => none

namespace Service
variable (s : Service)

/-- The user for whom a connection was registered. -/
def owners (id : Uuid) : List String := s.history.filterMap (Action.ownerOf id)

/-- The users on whose connections a dispatch or a replay has put the notification. -/
def recipients (n : Uuid) : List String :=
  s.registeredIds.flatMap (fun id => if n ∈ s.placedIds id then s.owners id else [])

end Service

/-- The step puts the notification on a channel only directly, and only when every other user it was
sent to has acknowledged it. -/
def Exclusive (n : Uuid) (U : UnicodeTables) (settings : Settings) (c : Config Service Pc) :
    Event ServiceCall Input → Prop
  | .call _ => True
  | .run i inp =>
      match upcoming U settings c i inp with
      | some (.place id m _ .direct, _) => m.event.map (·.id) = some n →
          ∀ u ∈ c.shared.recipients n, u ∈ c.shared.owners id ∨ Acked c.shared.history n u
      | some (.place _ m _ (.replay _), _) => m.event.map (·.id) ≠ some n
      | _ => True

instance (n : Uuid) (U : UnicodeTables) (settings : Settings) (c : Config Service Pc)
    (e : Event ServiceCall Input) : Decidable (Exclusive n U settings c e) := by
  obtain _ | ⟨i, inp⟩ := e <;> dsimp only [Exclusive]
  · infer_instance
  · obtain _ | ⟨⟨⟩, _⟩ := upcoming U settings c i inp
    case some.place origin => obtain _ | _ := origin <;> dsimp only <;> infer_instance
    all_goals dsimp only; infer_instance

/-- The time of a tracking. -/
def Action.trackedAt : Action → Option DateTime
  | .track _ _ _ t => some t
  | _ => none

/-- The clock does not go back behind a tracking. -/
def Ticks (c : Config Service Pc) : Event ServiceCall Input → Prop
  | .call _ => True
  | .run _ inp => ∀ t ∈ c.shared.history.filterMap Action.trackedAt, t ≤ inp.now

instance (c : Config Service Pc) (e : Event ServiceCall Input) : Decidable (Ticks c e) := by
  obtain _ | _ := e <;> dsimp only [Ticks] <;> infer_instance

/-- A dispatch that has put the notification on a channel and has not tracked it yet. -/
def Pc.Tracks (n : Uuid) : Pc → Prop
  | .track d _ _ _ _ => d.event.id = n
  | _ => False

instance (n : Uuid) (p : Pc) : Decidable (p.Tracks n) := by
  unfold Pc.Tracks
  split <;> infer_instance

section recipients
variable {s : Service} {a : Action} {n id : Uuid} {u u' : String} {conn : ConnectionHandle}

theorem mem_owners : u ∈ s.owners id ↔
    ∃ transport h, .register transport h ∈ s.history ∧ h.id = id ∧ h.userId = u := by
  rw [Service.owners, List.mem_filterMap]
  constructor
  · rintro ⟨a, ha, howner⟩
    cases a with
    | register transport h =>
        simp only [Action.ownerOf] at howner
        split_ifs at howner with hid
        exact ⟨transport, h, ha, hid, Option.some.inj howner⟩
    | _ => cases howner
  · rintro ⟨transport, h, ha, hid, hu⟩
    exact ⟨_, ha, by rw [Action.ownerOf, if_pos hid, hu]⟩

theorem mem_recipients : u ∈ s.recipients n ↔ ∃ id, n ∈ s.placedIds id ∧ u ∈ s.owners id := by
  rw [Service.recipients, List.mem_flatMap]
  constructor
  · rintro ⟨id, -, hu⟩
    split_ifs at hu with hn
    · exact ⟨id, hn, hu⟩
    · exact absurd hu List.not_mem_nil
  · rintro ⟨id, hn, hu⟩
    obtain ⟨transport, h, hreg, hid, -⟩ := mem_owners.mp hu
    refine ⟨id, List.mem_filterMap.mpr ⟨_, hreg, congrArg some hid⟩, ?_⟩
    rw [if_pos hn]
    exact hu

/-- A connection has one user. -/
theorem owner_unique (hnodup : s.registeredIds.Nodup) (hu : u ∈ s.owners id) (hu' : u' ∈ s.owners id) :
    u = u' := by
  obtain ⟨transport, h, hreg, hid, rfl⟩ := mem_owners.mp hu
  obtain ⟨transport', h', hreg', hid', rfl⟩ := mem_owners.mp hu'
  have heq := eq_of_nodup hnodup hreg hreg' (congrArg some hid) (congrArg some hid')
  rw [(Action.register.inj heq).2]

theorem Known.mem_owners (h : Known s conn) : conn.userId ∈ s.owners conn.id := by
  obtain ⟨transport, h', hreg, hid, hident⟩ := h
  exact AraNotification.mem_owners.mpr ⟨transport, h', hreg, hid, congrArg Identity.userId hident⟩

theorem mem_owners_apply : u ∈ (s.apply a).owners id ↔ u ∈ s.owners id ∨ a.ownerOf id = some u :=
  Service.mem_filterMap_apply

theorem mem_placedIds_apply : n ∈ (s.apply a).placedIds id ↔ n ∈ s.placedIds id ∨ a.placedId id = some n :=
  Service.mem_filterMap_apply

theorem registeredId_of_ownerOf (h : a.ownerOf id = some u) : a.registeredId = some id := by
  cases a with
  | register transport h' =>
      simp only [Action.ownerOf] at h
      split_ifs at h with hid
      exact congrArg some hid
  | _ => cases h

/-- A new recipient is the user of the connection that is sent to. -/
theorem mem_recipients_apply (hnew : ∀ id ∈ a.registeredId, n ∉ s.placedIds id)
    (h : u ∈ (s.apply a).recipients n) :
    u ∈ s.recipients n ∨ ∃ id, a.placedId id = some n ∧ u ∈ s.owners id := by
  obtain ⟨id, hplaced, howner⟩ := mem_recipients.mp h
  rcases mem_owners_apply.mp howner with howner | howner
  · rcases mem_placedIds_apply.mp hplaced with hplaced | hplaced
    · exact .inl (mem_recipients.mpr ⟨id, hplaced, howner⟩)
    · exact .inr ⟨id, hplaced, howner⟩
  · have hreg := registeredId_of_ownerOf howner
    rcases mem_placedIds_apply.mp hplaced with hplaced | hplaced
    · exact absurd hplaced (hnew id hreg)
    · cases a with
      | register => cases hplaced
      | _ => cases hreg

end recipients

/-! ### What the service tracks -/

section tracking
variable {U : UnicodeTables} {settings : Settings} {c : Config Service Pc} {inp : Input} {n : Uuid}
  {ok : Config Service Pc → Event ServiceCall Input → Prop}

/-- What is about to be tracked has been put on the channel. -/
theorem placed_of_tracking (h : Reaches (system U settings) ok (initial settings) c) :
    Holds (fun s p => ∀ d concurrent conn todo rest, p = .track d concurrent conn todo rest →
      d.event.id ∈ s.placedIds conn.id) c := by
  refine h.invariant (by simp [Holds, initial]) ?_
  intro c e c' _ hc _ hn
  refine hc.next hn ?_ ?_
  · rintro op rfl d concurrent conn todo rest hstart
    cases op <;> cases hstart
  · rintro i inp p s q l₁ l₂ rfl hp hl hs
    obtain ⟨a, hstep, rfl, -⟩ := system_move hs
    refine ⟨?_, fun p' _ hp' d concurrent conn todo rest heq =>
      mem_placedIds_apply.mpr (.inl (hp' d concurrent conn todo rest heq))⟩
    rintro p' hp' d concurrent conn todo rest rfl
    obtain rfl : q = some (.track d concurrent conn todo rest) := hp'
    obtain ⟨d', todo', rfl, -, -, rfl⟩ := send_of_track hstep
    refine mem_placedIds_apply.mpr (.inr ?_)
    rw [Action.placedId, if_pos rfl]
    cases concurrent <;> rfl

/-- What is tracked for a user has been put on a channel of this user. -/
theorem sent_of_tracked (h : Reaches (system U settings) ok (initial settings) c) :
    ∀ n u id t, .track n u id t ∈ c.shared.history → n ∈ c.shared.placedIds id ∧ u ∈ c.shared.owners id := by
  refine service_invariant (P := fun s => ∀ n u id t, .track n u id t ∈ s.history →
    n ∈ s.placedIds id ∧ u ∈ s.owners id) h (by simp [initial]) ?_
  intro c i inp p a q hr hc _ hp hstep _ n u id t htrack
  have hp' := List.mem_of_getElem? hp
  have hbefore : n ∈ c.shared.placedIds id ∧ u ∈ c.shared.owners id := by
    rcases Service.mem_history_apply.mp htrack with hold | rfl
    · exact hc n u id t hold
    · obtain ⟨d, concurrent, conn, todo, rest, rfl, rfl, rfl, rfl, -⟩ := track_of_track hstep
      have hknown := (known_of_reaches hr).found _ hp' conn List.mem_cons_self
      exact ⟨placed_of_tracking hr _ hp' d concurrent conn todo rest rfl, hknown.mem_owners⟩
  exact ⟨mem_placedIds_apply.mpr (.inl hbefore.1), mem_owners_apply.mpr (.inl hbefore.2)⟩

/-- In an exclusive run the notification is put on a channel by its dispatch, which goes on to track
it. -/
theorem Exclusive.sends {i : ℕ} {p : Pc} {a : Action} {q : Option Pc} {id : Uuid}
    (he : Exclusive n U settings c (.run i inp)) (hp : c.threads[i]? = some p)
    (hstep : step U settings inp c.shared p = some (a, q)) (hplaced : a.placedId id = some n) :
    (∃ d concurrent conn todo rest, q = some (.track d concurrent conn todo rest) ∧ d.event.id = n ∧
      conn.id = id) ∧
    n ∈ p.role.eventId ∧ ∀ u ∈ c.shared.recipients n, u ∈ c.shared.owners id ∨ Acked c.shared.history n u := by
  have hup : upcoming U settings c i inp = some (a, q) := (upcoming_eq hp).trans hstep
  simp only [Exclusive, hup] at he
  cases a with
  | place id' m now origin =>
      cases origin with
      | direct =>
          simp only [Action.placedId] at hplaced
          split_ifs at hplaced with hid
          subst hid
          obtain ⟨d, concurrent, todo, rest, rfl⟩ := send_of_direct hstep
          obtain ⟨-, ha, -⟩ | ⟨j, conn, -, -, ha, rfl⟩ | ⟨j, conn, -, -, ha, -⟩ := step_send_cases hstep
          · cases ha
          · cases ha
            have hn : d.event.id = n := by
              cases concurrent <;> exact Option.some.inj hplaced
            exact ⟨⟨_, concurrent, conn, _, rest, rfl, hn, rfl⟩, congrArg some hn, he hplaced⟩
          · cases ha
      | replay x =>
          simp only [Action.placedId] at hplaced
          split_ifs at hplaced
          exact absurd hplaced he
      | reply | heartbeat => cases hplaced
  | _ => cases hplaced

/-- Whatever has been put on a channel is tracked or about to be. -/
theorem covered_tracking
    (h : Reaches (system U settings) (fun c e => Legal c e ∧ Ticks c e ∧ Exclusive n U settings c e)
      (initial settings) c) :
    Covered (fun s id => n ∈ s.placedIds id ∧ ∀ u t, .track n u id t ∉ s.history)
      (fun p id => ∃ d concurrent conn todo rest, p = .track d concurrent conn todo rest ∧ d.event.id = n ∧
        conn.id = id) c := by
  refine h.invariant (fun id hid => absurd hid.1 List.not_mem_nil) ?_
  rintro c e c' hr hc ⟨-, -, hexclusive⟩ hn
  refine hc.next hn ?_
  rintro i inp p s q rfl hp hs id ⟨hplaced, huntracked⟩
  obtain ⟨a, hstep, rfl, -⟩ := system_move hs
  rcases mem_placedIds_apply.mp hplaced with hold | hnew
  · refine .inl ⟨⟨hold, fun u t ht => huntracked u t (Service.mem_history_of_mem ht)⟩, ?_⟩
    rintro ⟨d, concurrent, conn, todo, rest, rfl, rfl, rfl⟩
    cases hstep
    exact huntracked _ _ Service.mem_history_self
  · obtain ⟨⟨d, concurrent, conn, todo, rest, rfl, hevent, hid⟩, -, -⟩ := hexclusive.sends hp hstep hnew
    exact .inr (.inr ⟨_, rfl, d, concurrent, conn, todo, rest, rfl, hevent, hid⟩)

/-- When the notification is about to be tracked for a user, every other recipient has acknowledged
it. -/
theorem acked_of_tracking
    (h : Reaches (system U settings) (fun c e => Legal c e ∧ Ticks c e ∧ Exclusive n U settings c e)
      (initial settings) c) :
    Holds (fun s p => ∀ d concurrent conn todo rest, p = .track d concurrent conn todo rest →
      d.event.id = n → ∀ u ∈ s.recipients n, u = conn.userId ∨ Acked s.history n u) c := by
  refine h.invariant (by simp [Holds, initial]) ?_
  rintro c e c' hr hc ⟨hlegal, -, hexclusive⟩ hn
  have hnodup := (nodup_of_reaches (fun _ _ he => he.1) hr).2
  have hdispatches := dispatches_of_reaches (fun _ _ he => he.1) hr
  have hknown := (known_of_reaches hr).found
  refine hc.next hn ?_ ?_
  · rintro op rfl d concurrent conn todo rest hstart
    cases op <;> cases hstart
  · rintro i inp p s q l₁ l₂ rfl hp hl hs
    obtain ⟨a, hstep, rfl, hmove⟩ := system_move hs
    have hp' := List.mem_of_getElem? hp
    have hnew : ∀ id ∈ a.registeredId, n ∉ c.shared.placedIds id := by
      intro id hid hplaced
      obtain ⟨hrole, rfl⟩ := hmove.fresh_of_registeredId hid
      exact (hlegal p hp).1 (registers_of_connecting hrole) ((registered_of_placed hr).2 _ n hplaced)
    have hacked : ∀ {u}, Acked c.shared.history n u → Acked (c.shared.apply a).history n u := by
      intro u hacked
      rw [Service.history_apply]
      exact hacked.append
    refine ⟨?_, ?_⟩
    · rintro p' hq d concurrent conn todo rest rfl hevent u hu
      obtain rfl : q = some (.track d concurrent conn todo rest) := hq
      obtain ⟨d', todo', rfl, hconn, -, rfl⟩ := send_of_track hstep
      have howner := (hknown _ hp' conn hconn).mem_owners
      have hplaced : (Action.place conn.id (outbound concurrent (.notification d.event)) inp.now .direct).placedId
          conn.id = some n := by
        rw [Action.placedId, if_pos rfl, ← hevent]
        cases concurrent <;> rfl
      obtain ⟨-, -, hothers⟩ := hexclusive.sends hp hstep hplaced
      rcases mem_recipients_apply hnew hu with hold | ⟨id, hid, hu'⟩
      · rcases hothers u hold with hu' | hu'
        · exact .inl (owner_unique hnodup hu' howner)
        · exact .inr (hacked hu')
      · simp only [Action.placedId] at hid
        split_ifs at hid with heq
        subst heq
        exact .inl (owner_unique hnodup hu' howner)
    · rintro p' hmem hp'' d concurrent conn todo rest rfl hevent u hu
      rcases mem_recipients_apply hnew hu with hold | ⟨id, hid, -⟩
      · rcases hp'' d concurrent conn todo rest rfl hevent u hold with hu' | hu'
        · exact .inl hu'
        · exact .inr (hacked hu')
      · obtain ⟨-, hown, -⟩ := hexclusive.sends hp hstep hid
        exact absurd (congrArg some hevent) (hdispatches.tokens.not_mem_of_split hl hmem hown)

theorem handedOver_of_reaches
    (h : Reaches (system U settings) (fun c e => Legal c e ∧ Ticks c e ∧ Exclusive n U settings c e)
      (initial settings) c) : HandedOver n c.shared.history := by
  refine service_invariant (P := fun s => HandedOver n s.history) h ?_ ?_
  · intro l₁ l₂ u id t hnil
    simp [initial] at hnil
  · rintro c i inp p a q hr hc ⟨-, hticks, -⟩ hp hstep -
    rw [Service.history_apply]
    refine hc.append ?_
    rintro u id t rfl u' id' t' hbefore
    obtain ⟨d, concurrent, conn, todo, rest, rfl, hevent, rfl, rfl, rfl⟩ := track_of_track hstep
    obtain ⟨hplaced, howner⟩ := sent_of_tracked hr n u' id' t' hbefore
    refine ⟨?_, hticks t' (List.mem_filterMap.mpr ⟨_, hbefore, rfl⟩)⟩
    exact acked_of_tracking hr _ (List.mem_of_getElem? hp) d concurrent conn todo rest rfl hevent.symm u'
      (mem_recipients.mpr ⟨id', hplaced, howner⟩)

end tracking

/-! ### Acknowledgements -/

/-- Not every tracking of the notification on the user's connection has timed out. -/
def BeforeTimeout (settings : Settings) (now : DateTime) (history : List Action) (n : Uuid) (u : String)
    (id : Uuid) : Prop :=
  (∃ t, .track n u id t ∈ history) → ∃ t, .track n u id t ∈ history ∧
    Duration.numSeconds (now - t) < asI64 settings.ack.timeoutSeconds

section acknowledgements
variable {U : UnicodeTables} {settings : Settings} {c : Config Service Pc} {n : Uuid} {now : DateTime}
  {steps : List (Action ⊕ DateTime)} {ok : Config Service Pc → Event ServiceCall Input → Prop}

/-- The tracker of the service is what its actions make of it. -/
theorem ack_eq_ackAfter (h : Reaches (system U settings) ok (initial settings) c) :
    c.shared.ack = ackAfter settings (c.shared.history.map .inl) := by
  refine service_invariant (P := fun s => s.ack = ackAfter settings (s.history.map .inl)) h rfl ?_
  intro c i inp p a q _ hc _ _ _ _
  rw [Service.history_apply, List.map_append, List.map_singleton, ackAfter_append, ← hc]
  cases a <;> rfl

/-- Whoever was never sent the notification is refused. -/
theorem refused_of_not_recipient (henabled : settings.ack.enabled = true)
    (h : Reaches (system U settings) ok (initial settings) c) (hactions : actionsOf steps = c.shared.history)
    {u : String} (hu : u ∉ c.shared.recipients n) : ((ackAfter settings steps).acknowledge n u now).1 = false := by
  have hen : (ackAfter settings steps).config.enabled = true := enabled_ackAfter henabled
  rw [Bool.eq_false_iff]
  intro htrue
  obtain ⟨p, hp, rfl⟩ := (MemoryAckBackend.acknowledge_eq_true_iff hen).mp htrue
  obtain ⟨id, t, ht⟩ := track_of_pending henabled hp
  rw [hactions] at ht
  obtain ⟨hplaced, howner⟩ := sent_of_tracked h n p.userId id t ht
  exact hu (mem_recipients.mpr ⟨id, hplaced, howner⟩)

/-- **In an exclusive run every recipient can acknowledge**: the first acknowledgement by the user of a
connection on which the notification was put succeeds, when it comes before the timeout and not
between the send and the tracking; and whoever was never sent the notification is refused. -/
theorem acknowledged_of_exclusive (henabled : settings.ack.enabled = true)
    (h : Reaches (system U settings) (fun c e => Legal c e ∧ Ticks c e ∧ Exclusive n U settings c e)
      (initial settings) c)
    (hactions : actionsOf steps = c.shared.history) (hsteps : ∀ w, .inr w ∈ steps → w ≤ now) :
    (∀ id u, n ∈ c.shared.placedIds id → u ∈ c.shared.owners id → ¬ Acked c.shared.history n u →
        (∀ p ∈ c.threads, ¬ p.Tracks n) → BeforeTimeout settings now c.shared.history n u id →
          ((ackAfter settings steps).acknowledge n u now).1 = true) ∧
      ∀ u, u ∉ c.shared.recipients n → ((ackAfter settings steps).acknowledge n u now).1 = false := by
  refine ⟨?_, fun u hu => refused_of_not_recipient henabled h hactions hu⟩
  intro id u hplaced howner hfirst hquiet htimeout
  have hen : (ackAfter settings steps).config.enabled = true := enabled_ackAfter henabled
  have htracked : ∃ t, .track n u id t ∈ c.shared.history := by
    by_contra hnone
    have hbad : ∀ u' t, .track n u' id t ∉ c.shared.history := by
      intro u' t ht
      have hsame := owner_unique (nodup_of_reaches (fun _ _ he => he.1) h).2 howner
        (sent_of_tracked h n u' id t ht).2
      exact hnone ⟨t, by rw [hsame]; exact ht⟩
    refine (covered_tracking h).quiescent ?_ id ⟨hplaced, hbad⟩
    rintro p hp x ⟨d, concurrent, conn, todo, rest, rfl, hevent, -⟩
    exact hquiet _ hp hevent
  obtain ⟨t, ht, htime⟩ := htimeout htracked
  have hover := handedOver_of_reaches h
  rw [← hactions] at hover ht hfirst
  rcases awaits_or_overdue henabled hsteps hover ⟨id, t, ht⟩ hfirst with ⟨p, hp, hu, -⟩ | hdue
  · exact (MemoryAckBackend.acknowledge_eq_true_iff hen).mpr ⟨p, hp, hu⟩
  · exact absurd (hdue id t ht) (not_le.mpr htime)

end acknowledgements

/-! ### Two recipients -/

section schedules

/-- The default values with the queue and the tracker switched on. -/
def Settings.withAck : Settings := { Settings.withQueue with ack := ⟨true, 30, 60, "memory"⟩ }

theorem Settings.accepted_withAck : Settings.withAck.Accepted .ascii := by
  unfold Settings.Accepted
  decide

/-- Two connections are opened, and the notification is dispatched to the target. -/
def twoConnections (first second : String) (target : NotificationTarget) (length : ℕ) :
    List (Event ServiceCall Input) :=
  [.call (.connect .webSocket ⟨first, [], none⟩)] ++ List.replicate 3 (.run 0 tick) ++
    [.call (.connect .webSocket ⟨second, [], none⟩), .run 1 { tick with fresh := 1 }, .run 1 tick, .run 1 tick,
      .call (.dispatch ⟨maintenance, target, none, true⟩)] ++ List.replicate length (.run 2 tick)

/-- A user with two devices acknowledges after twenty seconds, with a clean-up before; another user is
refused. -/
theorem acknowledged_of_exclusive_alice :
    ∃ c, Reaches (system .ascii .withAck)
        (fun c e => Legal c e ∧ Ticks c e ∧ Exclusive 1 .ascii .withAck c e) (initial .withAck) c ∧
      c.shared.recipients 1 = ["alice", "alice"] ∧
      ((ackAfter .withAck (c.shared.history.map .inl ++ [.inr (10 * nanosPerSecond)])).acknowledge 1 "alice"
        (20 * nanosPerSecond)).1 = true ∧
      ((ackAfter .withAck (c.shared.history.map .inl ++ [.inr (10 * nanosPerSecond)])).acknowledge 1 "bob"
        (20 * nanosPerSecond)).1 = false := by
  have hseen : ((system .ascii .withAck).play
      (fun c e => Legal c e ∧ Ticks c e ∧ Exclusive 1 .ascii .withAck c e) (initial .withAck)
      (twoConnections "alice" "alice" (.user "alice") 8)).any (fun c => decide (
        c.shared.recipients 1 = ["alice", "alice"] ∧ 1 ∈ c.shared.placedIds 0 ∧ "alice" ∈ c.shared.owners 0 ∧
        ¬ Acked c.shared.history 1 "alice" ∧ (∀ p ∈ c.threads, ¬ p.Tracks 1) ∧
        ∀ t ∈ c.shared.history.filterMap Action.trackedAt, t = 0)) = true := by
    decide +kernel
  obtain ⟨c, hr, hc⟩ := exists_reaches_of_play hseen
  obtain ⟨hrecipients, hplaced, howner, hfirst, hquiet, htimes⟩ := of_decide_eq_true hc
  have hactions : actionsOf (c.shared.history.map .inl ++ [.inr (10 * nanosPerSecond)]) = c.shared.history := by
    rw [actionsOf_inr, actionsOf_map_inl]
  have hsteps : ∀ w, .inr w ∈ c.shared.history.map .inl ++ [Sum.inr (10 * nanosPerSecond)] →
      w ≤ 20 * nanosPerSecond := by
    intro w hw
    have hw' : w = 10 * nanosPerSecond := by simpa using hw
    rw [hw']
    decide
  have htimeout : BeforeTimeout .withAck (20 * nanosPerSecond) c.shared.history 1 "alice" 0 := by
    rintro ⟨t, ht⟩
    refine ⟨t, ht, ?_⟩
    rw [htimes t (List.mem_filterMap.mpr ⟨_, ht, rfl⟩)]
    decide
  obtain ⟨hyes, hno⟩ := acknowledged_of_exclusive rfl hr hactions hsteps
  refine ⟨c, hr, hrecipients, hyes 0 "alice" hplaced howner hfirst hquiet htimeout, hno "bob" ?_⟩
  rw [hrecipients]
  decide

/-- The notification goes to two users, and the one it was sent to first is refused. -/
theorem first_recipient_refused :
    ¬ ∀ (U : UnicodeTables) (settings : Settings), settings.Accepted U → settings.ack.enabled = true →
        ∀ c, Reaches (system U settings) (fun c e => Legal c e ∧ Ticks c e) (initial settings) c →
        ∀ steps now, actionsOf steps = c.shared.history → (∀ w, .inr w ∈ steps → w ≤ now) →
        ∀ n id u, n ∈ c.shared.placedIds id → u ∈ c.shared.owners id → ¬ Acked c.shared.history n u →
          BeforeTimeout settings now c.shared.history n u id →
            ((ackAfter settings steps).acknowledge n u now).1 = true := by
  intro hall
  have hseen : ((system .ascii .withAck).play (fun c e => Legal c e ∧ Ticks c e) (initial .withAck)
      (twoConnections "alice" "bob" (.users ["alice", "bob"]) 10)).any (fun c => decide (
        c.threads.length = 2 ∧ 1 ∈ c.shared.placedIds 0 ∧ "alice" ∈ c.shared.owners 0 ∧
        ¬ Acked c.shared.history 1 "alice" ∧ (∀ t ∈ c.shared.history.filterMap Action.trackedAt, t = 0) ∧
        (c.shared.ack.acknowledge 1 "alice" 0).1 = false)) = true := by
    decide +kernel
  obtain ⟨c, hr, hc⟩ := exists_reaches_of_play hseen
  obtain ⟨-, hplaced, howner, hfirst, htimes, hrefused⟩ := of_decide_eq_true hc
  have htimeout : BeforeTimeout .withAck 0 c.shared.history 1 "alice" 0 := by
    rintro ⟨t, ht⟩
    refine ⟨t, ht, ?_⟩
    rw [htimes t (List.mem_filterMap.mpr ⟨_, ht, rfl⟩)]
    decide
  have htrue := hall .ascii .withAck Settings.accepted_withAck rfl c hr _ 0 (actionsOf_map_inl _)
    (fun w hw => absurd hw (by simp)) 1 0 "alice" hplaced howner hfirst htimeout
  rw [← ack_eq_ackAfter hr, hrefused] at htrue
  cases htrue

end schedules

end AraNotification
