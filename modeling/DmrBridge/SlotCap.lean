import DmrBridge.Statics

/-!
# A slot is never over-subscribed

Removes go before adds so that a slot holds at no time more than it did or is to hold. The adds are
made all the same when a remove has failed.
-/

open SetEdits

namespace DmrBridge

/-- At each call and at the end the slot holds no more than the larger of the two sets, and at an add
there is room for it. -/
def NoOverSubscription (ok : Nat → Bool) (slot : Slot) (desired : List Talkgroup) (current : List StaticTalkgroup)
    (api : Api) :
    Prop :=
  let after := reconcileSlot ok slot desired current api
  let cap := max (slotTalkgroups slot current).length desired.length
  (∀ call ∈ after.sent.drop api.sent.length, call.held.card ≤ cap ∧ ∀ tg, call.edit = .add tg → call.held.card < cap) ∧
    (after.statics slot).card ≤ cap

theorem noOverSubscription_bounded (ok : Nat → Bool) (slot : Slot) (desired : List Talkgroup)
    (current : List StaticTalkgroup) (api : Api) :
    NoOverSubscription ok slot desired current api ↔
      Bounded ok api.sent.length (slotTalkgroups slot current) desired (api.statics slot) := by
  unfold NoOverSubscription Bounded
  simp only
  rw [reconcileSlot_eq, foldl_call, List.drop_left, List.forall_mem_map]
  simp only [Function.update_self]

theorem over_subscription_iff (ok : Nat → Bool) (slot : Slot) (desired : List Talkgroup)
    (current : List StaticTalkgroup)
    (api : Api) (hcurrent : (slotTalkgroups slot current).Nodup) (hdesired : desired.Nodup)
    (hlists : (slotTalkgroups slot current).toFinset = api.statics slot) :
    NoOverSubscription ok slot desired current api ↔
      Affordable ok api.sent.length ((slotTalkgroups slot current).filter (· ∉ desired)).length
        (desired.filter (· ∉ slotTalkgroups slot current)).length := by
  rw [noOverSubscription_bounded, ← hlists]
  exact bounded_iff ok api.sent.length hcurrent hdesired

/-- The swap of one talkgroup for another, when every call goes through. -/
theorem over_subscription_swap :
    NoOverSubscription (fun _ => true) .one [talkgroup3100] [⟨talkgroup9990, .one⟩]
      { statics := fun _ => {talkgroup9990}, sent := [] } := by
  apply (over_subscription_iff (fun _ => true) .one [talkgroup3100] [⟨talkgroup9990, .one⟩] _ (by decide)
    (by decide) rfl).mpr
  unfold Affordable
  decide

/-- The remove fails, the add is made, and the slot holds both. -/
theorem over_subscribed :
    ¬ ∀ (ok : Nat → Bool) (slot : Slot) (desired : List Talkgroup) (current : List StaticTalkgroup) (api : Api),
      (slotTalkgroups slot current).Nodup → desired.Nodup → (slotTalkgroups slot current).toFinset = api.statics slot →
      NoOverSubscription ok slot desired current api := by
  intro hall
  have hswap := hall (fun n => n ≠ 0) .one [talkgroup3100] [⟨talkgroup9990, .one⟩]
    { statics := fun _ => {talkgroup9990}, sent := [] } (by decide) (by decide) rfl
  exact absurd hswap.2 (by decide)

end DmrBridge
