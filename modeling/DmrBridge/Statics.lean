import DmrBridge.Lib.SetEdits
import DmrBridge.Types

/-!
# Static talkgroups

`brandmeister_provision`: at startup and on each tick the static talkgroups of the peer are listed, and
those of a declared slot brought to the declared ones, removes first.
-/

open SetEdits

namespace DmrBridge

/-- An entry of the list that the API returns. -/
structure StaticTalkgroup where
  talkgroup : Talkgroup
  slot : Slot
  deriving DecidableEq

structure BrandmeisterApiConfig where
  apiKey : Option String
  staticTalkgroupsTs1 : Option (List Talkgroup)
  staticTalkgroupsTs2 : Option (List Talkgroup)

/-- A DELETE or POST, and what its slot held when it was sent. -/
structure ApiCall where
  slot : Slot
  edit : Edit Talkgroup
  held : Finset Talkgroup

/-- What Brandmeister holds for the peer, and the calls it was sent. -/
structure Api where
  statics : Slot → Finset Talkgroup
  sent : List ApiCall

/-- Call number `n` succeeds when `ok n`. A failed one changes nothing. -/
def Api.call (ok : Nat → Bool) (slot : Slot) (api : Api) (edit : Edit Talkgroup) : Api where
  statics := Function.update api.statics slot (attempt ok api.sent.length (api.statics slot) edit)
  sent := api.sent ++ [{ slot, edit, held := api.statics slot }]

def Api.removeStaticTalkgroup (ok : Nat → Bool) (slot : Slot) (api : Api) (tg : Talkgroup) : Api :=
  api.call ok slot (.remove tg)

def Api.addStaticTalkgroup (ok : Nat → Bool) (slot : Slot) (api : Api) (tg : Talkgroup) : Api :=
  api.call ok slot (.add tg)

def slotTalkgroups (slot : Slot) (current : List StaticTalkgroup) : List Talkgroup :=
  (current.filter fun s => s.slot = slot).map fun s => s.talkgroup

/-- The loops go on after an error. -/
def reconcileSlot (ok : Nat → Bool) (slot : Slot) (desired : List Talkgroup) (currentAllSlots : List StaticTalkgroup)
    (api : Api) : Api :=
  let current := slotTalkgroups slot currentAllSlots
  let toAdd := desired.filter (· ∉ current)
  let toRemove := current.filter (· ∉ desired)
  if toAdd.isEmpty ∧ toRemove.isEmpty then api
  else toAdd.foldl (Api.addStaticTalkgroup ok slot) (toRemove.foldl (Api.removeStaticTalkgroup ok slot) api)

/-- Both slots against the same list; `none` when it could not be fetched. -/
def reconcileStatics (ok : Nat → Bool) (config : BrandmeisterApiConfig) (fetched : Option (List StaticTalkgroup))
    (api : Api) : Api :=
  match fetched with
  | none => api
  | some current =>
    let api := config.staticTalkgroupsTs1.elim api fun desired => reconcileSlot ok .one desired current api
    config.staticTalkgroupsTs2.elim api fun desired => reconcileSlot ok .two desired current api

/-- Without a key there is only the log line. -/
def runOnce (ok : Nat → Bool) (config : BrandmeisterApiConfig) (fetched : Option (List StaticTalkgroup))
    (api : Api) : Api :=
  if config.apiKey.isSome then reconcileStatics ok config fetched api else api

/-! ## One slot -/

theorem reconcileSlot_eq (ok : Nat → Bool) (slot : Slot) (desired : List Talkgroup)
    (currentAllSlots : List StaticTalkgroup) (api : Api) :
    reconcileSlot ok slot desired currentAllSlots api =
      (diff (slotTalkgroups slot currentAllSlots) desired).foldl (Api.call ok slot) api := by
  unfold reconcileSlot diff
  rw [List.foldl_append, List.foldl_map, List.foldl_map]
  simp only
  split
  · rename_i hempty
    rw [List.isEmpty_iff.mp hempty.1, List.isEmpty_iff.mp hempty.2]
    rfl
  · rfl

/-- The calls of a slot are its edits, and leave the other slot alone. -/
theorem foldl_call (ok : Nat → Bool) (slot : Slot) (edits : List (Edit Talkgroup)) (api : Api) :
    edits.foldl (Api.call ok slot) api =
      { statics := Function.update api.statics slot (perform ok api.sent.length edits (api.statics slot))
        sent := api.sent ++ (moments ok api.sent.length edits (api.statics slot)).map fun m =>
          { slot, edit := m.1, held := m.2 } } := by
  induction edits generalizing api with
  | nil => simp [perform, moments]
  | cons e edits ih =>
    rw [List.foldl_cons, ih]
    simp [Api.call, perform, moments]

/-! ## Both slots -/

def BrandmeisterApiConfig.declared (config : BrandmeisterApiConfig) : Slot → Option (List Talkgroup)
  | .one => config.staticTalkgroupsTs1
  | .two => config.staticTalkgroupsTs2

/-- What is done about one slot: edits of that slot, and none when it is not declared. -/
structure SlotReconciled (ok : Nat → Bool) (slot : Slot) (desired : Option (List Talkgroup))
    (current : List StaticTalkgroup) (api after : Api) : Prop where
  undeclared : desired = none → after.statics slot = api.statics slot
  declared : ∀ d, desired = some d →
    ∃ i, after.statics slot = perform ok i (diff (slotTalkgroups slot current) d) (api.statics slot)
  other : ∀ other, other ≠ slot → after.statics other = api.statics other
  sent : ∃ new, after.sent = api.sent ++ new ∧
    ∀ call ∈ new, call.slot = slot ∧ ∃ d, desired = some d ∧ call.edit ∈ diff (slotTalkgroups slot current) d

theorem reconcileSlot_spec (ok : Nat → Bool) (slot : Slot) (desired : Option (List Talkgroup))
    (current : List StaticTalkgroup) (api : Api) :
    SlotReconciled ok slot desired current api (desired.elim api fun d => reconcileSlot ok slot d current api) := by
  cases desired with
  | none =>
    refine ⟨fun _ => rfl, ?_, fun _ _ => rfl, [], (List.append_nil _).symm, ?_⟩
    · rintro d ⟨⟩
    · rintro call ⟨⟩
  | some d =>
    rw [Option.elim_some, reconcileSlot_eq, foldl_call]
    refine ⟨?_, ?_, ?_, _, rfl, ?_⟩
    · rintro ⟨⟩
    · rintro d' ⟨⟩
      exact ⟨_, Function.update_self ..⟩
    · intro other hother
      exact Function.update_of_ne hother ..
    · intro call hcall
      obtain ⟨m, hm, rfl⟩ := List.mem_map.mp hcall
      exact ⟨rfl, d, rfl, edit_of_mem_moments hm⟩

/-- What a run does to each slot, and the calls it makes. -/
structure Reconciled (ok : Nat → Bool) (config : BrandmeisterApiConfig) (current : List StaticTalkgroup)
    (api after : Api) : Prop where
  undeclared : ∀ slot, config.declared slot = none → after.statics slot = api.statics slot
  declared : ∀ slot desired, config.declared slot = some desired →
    ∃ i, after.statics slot = perform ok i (diff (slotTalkgroups slot current) desired) (api.statics slot)
  sent : ∃ new, after.sent = api.sent ++ new ∧
    ∀ call ∈ new, ∃ desired, config.declared call.slot = some desired ∧
      call.edit ∈ diff (slotTalkgroups call.slot current) desired

theorem reconcileStatics_spec (ok : Nat → Bool) (config : BrandmeisterApiConfig) (current : List StaticTalkgroup)
    (api : Api) :
    Reconciled ok config current api (reconcileStatics ok config (some current) api) := by
  unfold reconcileStatics
  simp only
  have hfirst := reconcileSlot_spec ok .one config.staticTalkgroupsTs1 current api
  generalize (config.staticTalkgroupsTs1.elim api fun desired => reconcileSlot ok .one desired current api) =
    mid at hfirst
  have hsecond := reconcileSlot_spec ok .two config.staticTalkgroupsTs2 current mid
  generalize (config.staticTalkgroupsTs2.elim mid fun desired => reconcileSlot ok .two desired current mid) =
    after at hsecond
  -- Each run leaves the slot of the other one alone.
  have hone : after.statics .one = mid.statics .one := hsecond.other .one (by decide)
  have htwo : mid.statics .two = api.statics .two := hfirst.other .two (by decide)
  refine ⟨?_, ?_, ?_⟩
  · intro slot hnone
    cases slot with
    | one => rw [hone, hfirst.undeclared hnone]
    | two => rw [hsecond.undeclared hnone, htwo]
  · intro slot desired hsome
    cases slot with
    | one =>
      rw [hone]
      exact hfirst.declared desired hsome
    | two =>
      rw [← htwo]
      exact hsecond.declared desired hsome
  · obtain ⟨new1, hsent1, hnew1⟩ := hfirst.sent
    obtain ⟨new2, hsent2, hnew2⟩ := hsecond.sent
    refine ⟨new1 ++ new2, by rw [hsent2, hsent1, List.append_assoc], ?_⟩
    intro call hcall
    rcases List.mem_append.mp hcall with hcall | hcall
    · obtain ⟨hslot, d, hd, hedit⟩ := hnew1 call hcall
      rw [hslot]
      exact ⟨d, hd, hedit⟩
    · obtain ⟨hslot, d, hd, hedit⟩ := hnew2 call hcall
      rw [hslot]
      exact ⟨d, hd, hedit⟩

/-! ## What the runs come to -/

/-- `current` lists what is held, in any order and with repetitions. -/
def Lists (current : List StaticTalkgroup) (statics : Slot → Finset Talkgroup) : Prop :=
  ∀ slot, (slotTalkgroups slot current).toFinset = statics slot

/-- Declared slots hold what is declared, the others what they held. -/
def Settled (config : BrandmeisterApiConfig) (before after : Slot → Finset Talkgroup) : Prop :=
  ∀ slot, after slot = (config.declared slot).elim (before slot) List.toFinset

/-- Any number of runs, whatever calls of them fail. -/
inductive Ticks (config : BrandmeisterApiConfig) : Api → Api → Prop
  | none (api : Api) : Ticks config api api
  | tick {api later : Api} (ok : Nat → Bool) (fetched : Option (List StaticTalkgroup)) :
      Ticks config api later → Ticks config api (runOnce ok config fetched later)

/-- A talkgroup that is not declared is removed, one that is declared is added, on a declared slot. -/
def Wanted (config : BrandmeisterApiConfig) (call : ApiCall) : Prop :=
  ∃ desired, config.declared call.slot = some desired ∧
    ((∃ tg, call.edit = .remove tg ∧ tg ∉ desired) ∨ ∃ tg, call.edit = .add tg ∧ tg ∈ desired)

theorem reconcileStatics_settles (config : BrandmeisterApiConfig) {current : List StaticTalkgroup} {api : Api}
    (h : Lists current api.statics) :
    Settled config api.statics (reconcileStatics (fun _ => true) config (some current) api).statics := by
  obtain ⟨hundeclared, hdeclared, -⟩ := reconcileStatics_spec (fun _ => true) config current api
  intro slot
  cases hslot : config.declared slot with
  | none => exact hundeclared slot hslot
  | some desired =>
    obtain ⟨i, hi⟩ := hdeclared slot desired hslot
    rw [hi, ← h slot, perform_diff]
    rfl

theorem reconcileStatics_idle (ok : Nat → Bool) (config : BrandmeisterApiConfig) {current : List StaticTalkgroup}
    {api : Api} (h : Lists current api.statics) (hsettled : Settled config api.statics api.statics) :
    reconcileStatics ok config (some current) api = api := by
  have hslot (slot : Slot) (other : Api) :
      ((config.declared slot).elim other fun desired => reconcileSlot ok slot desired current other) = other := by
    cases hdesired : config.declared slot with
    | none => rfl
    | some desired =>
      have hheld := hsettled slot
      rw [hdesired, Option.elim_some, ← h slot] at hheld
      rw [Option.elim_some, reconcileSlot_eq, diff_eq_nil hheld]
      rfl
  have hone := hslot .one api
  have htwo := hslot .two api
  unfold BrandmeisterApiConfig.declared at hone htwo
  unfold reconcileStatics
  simp only
  rw [hone, htwo]

theorem settled_again {config : BrandmeisterApiConfig} {before after : Slot → Finset Talkgroup}
    (h : Settled config before after) :
    Settled config after after := by
  intro slot
  have hslot := h slot
  cases hdesired : config.declared slot with
  | none => rfl
  | some desired =>
    rw [hdesired] at hslot
    exact hslot

theorem ticks_safe {config : BrandmeisterApiConfig} {api later : Api} (h : Ticks config api later) :
    (∀ slot, config.declared slot = none → later.statics slot = api.statics slot) ∧
      ∃ new, later.sent = api.sent ++ new ∧ ∀ call ∈ new, Wanted config call := by
  induction h with
  | none =>
    refine ⟨fun _ _ => rfl, [], (List.append_nil _).symm, ?_⟩
    rintro call ⟨⟩
  | @tick later ok fetched _ ih =>
    unfold runOnce
    split
    · cases fetched with
      | none => exact ih
      | some current =>
        obtain ⟨hundeclared, -, new', hsent', hnew'⟩ := reconcileStatics_spec ok config current later
        obtain ⟨hsame, new, hsent, hnew⟩ := ih
        refine ⟨fun slot hslot => (hundeclared slot hslot).trans (hsame slot hslot), new ++ new', ?_, ?_⟩
        · rw [hsent', hsent, List.append_assoc]
        · intro call hcall
          rcases List.mem_append.mp hcall with hcall | hcall
          · exact hnew call hcall
          · obtain ⟨desired, hdesired, hedit⟩ := hnew' call hcall
            exact ⟨desired, hdesired, mem_diff hedit⟩
    · exact ih

theorem statics_reconciled (config : BrandmeisterApiConfig) (api : Api) (current : List StaticTalkgroup)
    (h : Lists current api.statics) :
    let after := reconcileStatics (fun _ => true) config (some current) api
    Settled config api.statics after.statics ∧
      (∀ ok current', Lists current' after.statics → reconcileStatics ok config (some current') after = after) ∧
      ∀ later, Ticks config api later →
        (∃ new, later.sent = api.sent ++ new ∧ ∀ call ∈ new, Wanted config call) ∧
          ∀ current', Lists current' later.statics →
            Settled config api.statics (reconcileStatics (fun _ => true) config (some current') later).statics := by
  intro after
  have hsettled := reconcileStatics_settles config h
  refine ⟨hsettled, ?_, ?_⟩
  · intro ok current' hlists
    exact reconcileStatics_idle ok config hlists (settled_again hsettled)
  · intro later hticks
    obtain ⟨hsame, hnew⟩ := ticks_safe hticks
    refine ⟨hnew, ?_⟩
    intro current' hlists slot
    have hlater := reconcileStatics_settles config hlists slot
    rw [hlater]
    cases hslot : config.declared slot with
    | none => exact hsame slot hslot
    | some desired => rfl

def talkgroup9990 : Talkgroup := ⟨9990, by decide, by decide⟩
def talkgroup3100 : Talkgroup := ⟨3100, by decide, by decide⟩

/-- A swap on slot 1, declared twice over; slot 2 is not declared. -/
theorem statics_reconciled_sample :
    let config : BrandmeisterApiConfig :=
      { apiKey := some "key", staticTalkgroupsTs1 := some [talkgroup3100, talkgroup3100], staticTalkgroupsTs2 := none }
    let api : Api := { statics := fun _ => {talkgroup9990}, sent := [] }
    let current : List StaticTalkgroup := [⟨talkgroup9990, .two⟩, ⟨talkgroup9990, .one⟩]
    (reconcileStatics (fun _ => true) config (some current) api).statics .one = {talkgroup3100} ∧
      (reconcileStatics (fun _ => true) config (some current) api).statics .two = {talkgroup9990} := by
  intro config api current
  have hlists : Lists current api.statics := by
    intro slot
    cases slot <;> rfl
  obtain ⟨hsettled, -⟩ := statics_reconciled config api current hlists
  exact ⟨hsettled .one, hsettled .two⟩

end DmrBridge
