import Combat.Proofs.Aura.Contributions
import Combat.Proofs.Resolution.Account
import Mathlib.Algebra.Order.Ring.Nat

/-!
Stacks that passes consume. In a pass whose effects apply and remove no auras, each slot keeps its
aura and gives up stacks only to its own entries: to each that it lets fire while it is active, as
many as the entry consumes at that moment.
-/

namespace Combat
open Checked

theorem Count.val_sub_ofInt (a : Count) (n : Int) : (a.sub (ofInt n)).val = a.val - n.toNat := by
  rcases Nat.le_total n.toNat greatest with small | large
  · rw [val_sub, ofInt, val_ofNat_of_le small]
  · have full : (ofInt n).val = greatest := Nat.min_eq_right large
    have bounded : a.val ≤ greatest := a.le_greatest
    rw [val_sub, full]
    omega

/-! ### Effects that spare auras -/

/-- The effect neither applies nor removes an aura. -/
def Effect.SparesAuras (effect : Effect) : Prop :=
  ∀ kind, effect.type? ≠ some (.applyAura kind) ∧ effect.type? ≠ some (.removeAura kind)

namespace Context

def SameAuras (before after : Context) : Prop :=
  ∀ seat, (after.get seat).auras = (before.get seat).auras

theorem SameAuras.of_encounter {before after : Context}
    (same : after.encounter = before.encounter) : SameAuras before after := fun seat => by
  rw [get, get, same]

theorem SameAuras.trans {first second third : Context} (h₁ : SameAuras first second)
    (h₂ : SameAuras second third) : SameAuras first third :=
  fun seat => (h₂ seat).trans (h₁ seat)

theorem sameAuras_setCharacter {ctx : Context} {seat : Seat} {c : Character}
    (auras : c.auras = (ctx.get seat).auras) : SameAuras ctx (ctx.setCharacter seat c) :=
  setCharacter_relates (R := fun c after => after.auras = c.auras) (fun _ => rfl) auras

end Context

namespace Handler
open Context

theorem forEach_sameAuras {step : Seat → Context → Checked (List Change × Context)}
    (each : ∀ {target ctx changes after}, step target ctx = .ok (changes, after) →
      SameAuras ctx after)
    {targets : List Seat} {ctx after : Context} {changes : List Change}
    (h : forEach step targets ctx = .ok (changes, after)) : SameAuras ctx after :=
  forEach_relates (R := SameAuras) (fun _ => .of_encounter rfl) .trans each h

theorem damageOne_sameAuras {amount : Int} {target : Seat} {ctx after : Context}
    {changes : List Change} (h : damageOne amount target ctx = .ok (changes, after)) :
    SameAuras ctx after := by
  unfold damageOne at h
  obtain ⟨⟨blow, c⟩, taken, h⟩ := bind_ok h
  have same : c.auras = (ctx.get target).auras := by rw [(Character.takeDamage_ok taken).1]
  obtain ⟨-, rfl⟩ := pair_ok h
  split
  · exact sameAuras_setCharacter same
  · exact sameAuras_setCharacter same

theorem healOne_sameAuras {mode : HealMode} {amount : Int} {target : Seat} {ctx after : Context}
    {changes : List Change} (h : healOne mode amount target ctx = .ok (changes, after)) :
    SameAuras ctx after := by
  unfold healOne at h
  obtain ⟨value, _, h⟩ := bind_ok h
  obtain ⟨⟨healed, c⟩, restored, h⟩ := bind_ok h
  have same : c.auras = (ctx.get target).auras := by rw [(Character.heal_ok restored).1]
  obtain ⟨-, rfl⟩ := pair_ok h
  split
  · exact sameAuras_setCharacter same
  · exact sameAuras_setCharacter same

theorem restoreEnergyOne_sameAuras {amount : Int} {target : Seat} {ctx after : Context}
    {changes : List Change} (h : restoreEnergyOne amount target ctx = .ok (changes, after)) :
    SameAuras ctx after := by
  unfold restoreEnergyOne at h
  obtain ⟨⟨restored, c⟩, done, h⟩ := bind_ok h
  obtain ⟨-, rfl⟩ := pair_ok h
  exact sameAuras_setCharacter (by rw [(Character.restoreEnergy_ok done).1])

theorem reviveOne_sameAuras {percent : Int} {target : Seat} {ctx after : Context}
    {changes : List Change} (h : reviveOne percent target ctx = .ok (changes, after)) :
    SameAuras ctx after := by
  unfold reviveOne at h
  obtain ⟨⟨revived, c⟩, done, h⟩ := bind_ok h
  obtain ⟨rfl, -⟩ | ⟨hitpoints, rfl, -, same⟩ := Character.revive_ok done
  · obtain ⟨-, rfl⟩ := pair_ok h
    exact .of_encounter rfl
  · obtain ⟨-, rfl⟩ := pair_ok h
    have auras : c.auras = (ctx.get target).auras := by rw [same]
    exact sameAuras_setCharacter auras

theorem builtin_sameAuras {type : EffectType} {effect : Effect} {targets : List Seat}
    {ctx after : Context} {changes : List Change}
    (spares : ∀ kind, type ≠ .applyAura kind ∧ type ≠ .removeAura kind)
    (h : Handler.builtin type effect targets ctx = .ok (changes, after)) : SameAuras ctx after := by
  cases type with
  | damage =>
    obtain ⟨amount, _, h⟩ := bind_ok h
    exact forEach_sameAuras damageOne_sameAuras h
  | heal => exact forEach_sameAuras healOne_sameAuras h
  | restoreEnergy => exact forEach_sameAuras restoreEnergyOne_sameAuras h
  | revive => exact forEach_sameAuras reviveOne_sameAuras h
  | applyAura kind => exact absurd rfl (spares kind).1
  | removeAura kind => exact absurd rfl (spares kind).2
  | statModifier => exact .of_encounter (builtin_apart rfl h).1
  | grantMaterial => exact .of_encounter (builtin_apart rfl h).1
  | consumeMaterial => exact .of_encounter (builtin_apart rfl h).1

end Handler

theorem process_sameAuras {handlers : Handlers} {effect : Effect} {ctx after : Context}
    {outcome : Option Outcome} (builtin : handlers.AllBuiltin) (spares : effect.SparesAuras)
    (h : process handlers effect ctx = .ok (outcome, after)) : ctx.SameAuras after := by
  cases process_resolution h with
  | unhandled => exact .of_encounter rfl
  | blocked => exact .of_encounter rfl
  | @resolved type _ _ handled _ typed known free handling counted =>
    obtain rfl := builtin _ _ known
    have sought : ctx.SameAuras (ctx.seek type effect).2 :=
      .of_encounter (by rw [Context.seek_rest])
    have recorded : handled.SameAuras after :=
      .of_encounter (by rw [Context.recordUse_rest counted])
    have types : ∀ kind, type ≠ .applyAura kind ∧ type ≠ .removeAura kind := fun kind =>
      ⟨fun same => (spares kind).1 (same ▸ typed), fun same => (spares kind).2 (same ▸ typed)⟩
    exact (sought.trans (Handler.builtin_sameAuras types handling)).trans recorded

/-! ### What turns take from slots -/

namespace AuraPass

/-- The slot that an entry fires from when its turn comes: its own, as long as that is active and no
limit stops the entry. -/
def firingSlot? (owner : Seat) (source : String) (queued : QueuedEffect) (ctx : Context) :
    Option AuraSlot :=
  ((ctx.get owner).auras.slots[queued.slot]?).filter fun slot =>
    slot.isActive && !ctx.isBlocked queued.effect source

/-- The stacks that a turn asks of its slot if its effect consumes, with the stats of whoever
applied the aura; none for a negative number. -/
def Turn.consumed (owner : Seat) (source : String) (turn : Turn) : Nat :=
  match firingSlot? owner source turn.queued turn.before with
  | some slot =>
    if turn.queued.effect.consume then
      (turn.queued.effect.stacksValue (some (scalingStats owner slot turn.before))).toNat
    else 0
  | none => 0

/-- The turn hands out a share of its slot's stored amount. -/
def Turn.shares (owner : Seat) (source : String) (turn : Turn) : Bool :=
  (firingSlot? owner source turn.queued turn.before).isSome && turn.queued.effect.split

/-- The stacks that turns ask of one slot in all. -/
def consumedFrom (owner : Seat) (source : String) (turns : List Turn) (index : Nat) : Nat :=
  ((turns.filter (·.queued.slot = index)).map (Turn.consumed owner source)).sum

/-- What turns leave of a slot. -/
structure SlotAccounted (owner : Seat) (source : String) (turns : List Turn) (index : Nat)
    (before after : AuraSlot) : Prop where
  held : after.held = before.held
  applier : after.source = before.source
  stackCount : after.stackCount.val =
    before.stackCount.val - consumedFrom owner source turns index
  amount : (∀ turn ∈ turns, turn.queued.slot = index → turn.shares owner source = false) →
    after.amount = before.amount

structure Accounted (owner : Seat) (source : String) (turns : List Turn)
    (before after : AuraSlots) : Prop where
  length : after.slots.length = before.slots.length
  slots : ∀ {index slot}, before.slots[index]? = some slot →
    ∃ last, after.slots[index]? = some last ∧ SlotAccounted owner source turns index slot last

section
variable {owner : Seat} {source : String}

theorem consumedFrom_append (early late : List Turn) (index : Nat) :
    consumedFrom owner source (early ++ late) index =
      consumedFrom owner source early index + consumedFrom owner source late index := by
  simp only [consumedFrom, List.filter_append, List.map_append, List.sum_append]

theorem consumedFrom_self (turn : Turn) :
    consumedFrom owner source [turn] turn.queued.slot = turn.consumed owner source := by
  simp [consumedFrom]

theorem consumedFrom_elsewhere {turn : Turn} {index : Nat} (other : turn.queued.slot ≠ index) :
    consumedFrom owner source [turn] index = 0 := by
  simp [consumedFrom, other]

theorem SlotAccounted.untouched {turns : List Turn} {index : Nat}
    (none : consumedFrom owner source turns index = 0) (slot : AuraSlot) :
    SlotAccounted owner source turns index slot slot :=
  ⟨rfl, rfl, by rw [none, Nat.sub_zero], fun _ => rfl⟩

theorem SlotAccounted.append {early late : List Turn} {index : Nat}
    {first second third : AuraSlot} (h₁ : SlotAccounted owner source early index first second)
    (h₂ : SlotAccounted owner source late index second third) :
    SlotAccounted owner source (early ++ late) index first third where
  held := h₂.held.trans h₁.held
  applier := h₂.applier.trans h₁.applier
  stackCount := by rw [h₂.stackCount, h₁.stackCount, consumedFrom_append, Nat.sub_sub]
  amount unshared := by
    rw [h₂.amount fun turn member => unshared turn (List.mem_append_right early member),
      h₁.amount fun turn member => unshared turn (List.mem_append_left late member)]

theorem Accounted.untouched {turns : List Turn}
    (none : ∀ index, consumedFrom owner source turns index = 0) (auras : AuraSlots) :
    Accounted owner source turns auras auras :=
  ⟨rfl, fun here => ⟨_, here, .untouched (none _) _⟩⟩

theorem Accounted.append {early late : List Turn} {first second third : AuraSlots}
    (h₁ : Accounted owner source early first second)
    (h₂ : Accounted owner source late second third) :
    Accounted owner source (early ++ late) first third where
  length := h₂.length.trans h₁.length
  slots here := by
    obtain ⟨middle, between, earlier⟩ := h₁.slots here
    obtain ⟨last, there, later⟩ := h₂.slots between
    exact ⟨last, there, earlier.append later⟩

theorem Accounted.of_set {turn : Turn} {before after : AuraSlots} {slot last : AuraSlot}
    (here : before.slots[turn.queued.slot]? = some slot)
    (accounted : SlotAccounted owner source [turn] turn.queued.slot slot last)
    (changed : after.slots = before.slots.set turn.queued.slot last) :
    Accounted owner source [turn] before after where
  length := by rw [changed, List.length_set]
  slots := AuraSlots.each_of_set here changed accounted fun _ found other =>
    .untouched (consumedFrom_elsewhere other) found

end

/-! ### One turn -/

/-- What firing leaves of the slot: drawn from, and without the stacks that the effect consumes. -/
def fireFrom (queued : QueuedEffect) (stats : StatBlock) (slot : AuraSlot) : AuraSlot :=
  let drawn := (slot.draw queued.effect (queued.effect.amountValue (some stats))).2
  if queued.effect.consume then
    drawn.removeStacks (Count.ofInt (queued.effect.stacksValue (some stats)))
  else drawn

theorem spend_waiting {queued : QueuedEffect} {count : Count} {auras after : AuraSlots}
    {slot : AuraSlot} (here : auras.slots[queued.slot]? = some slot)
    (waits : queued.isFrom slot = true) (h : spend queued count auras = .ok ((), after)) :
    after.slots = auras.slots.set queued.slot (slot.removeStacks count) := by
  unfold spend at h
  rw [here] at h
  dsimp only at h
  rw [if_pos waits] at h
  obtain ⟨last, removed, h⟩ := bind_ok h
  obtain ⟨-, rfl⟩ := pair_ok h
  obtain ⟨beyond, -⟩ | ⟨-, worked⟩ := AuraSlots.modifyAt_ok removed
  · exact absurd (List.getElem?_eq_some_iff.mp here).1 (Nat.not_lt.mpr beyond)
  · rw [AuraSlots.ofSlots_slots worked, List.modify_eq_set_getElem?, here]
    rfl

section
variable {handlers : Handlers} {owner : Seat} {source : String} {queued : QueuedEffect}
  {ctx after : Context} {outcome : Option Outcome}

/-- Drawing changes one slot, and neither resolving nor counting changes any. -/
theorem Firing.draws {slot : AuraSlot} {drawn : Int} {drained : Character}
    {resolved counted : Context} (builtin : handlers.AllBuiltin)
    (spares : queued.effect.SparesAuras)
    (here : (ctx.get owner).auras.slots[queued.slot]? = some slot) (active : slot.isActive = true)
    (h : Firing handlers owner source queued slot ctx outcome after drawn drained resolved
      counted) :
    (counted.get owner).auras.slots = (ctx.get owner).auras.slots.set queued.slot
        (slot.draw queued.effect
          (queued.effect.amountValue (some (scalingStats owner slot ctx)))).2 ∧
      ∀ seat, seat ≠ owner → (counted.get seat).auras = (ctx.get seat).auras := by
  obtain ⟨auras, drew, worked⟩ := Character.withAuras_ok h.drew
  rw [AuraSlots.draw_active _ here active] at drew
  obtain ⟨last, done, drew⟩ := bind_ok drew
  obtain ⟨-, rfl⟩ := pair_ok drew
  have undrawn : (fired queued.effect slot.amount.isSome drawn).SparesAuras := by
    unfold Effect.SparesAuras
    rw [fired_type]
    exact spares
  have kept : ∀ seat, (counted.get seat).auras =
      ((ctx.setCharacter owner drained).get seat).auras := fun seat => by
    rw [h.counted_rest]
    exact process_sameAuras builtin undrawn h.resolving seat
  constructor
  · rw [kept, Context.get_setCharacter_self, (Character.rebuild_ok worked).2]
    exact AuraSlots.ofSlots_slots done
  · intro seat other
    rw [kept, Context.get_setCharacter, if_neg (Ne.symm other)]

theorem Firing.leaves {slot : AuraSlot} {drawn : Int} {drained : Character}
    {resolved counted : Context} (builtin : handlers.AllBuiltin)
    (spares : queued.effect.SparesAuras)
    (here : (ctx.get owner).auras.slots[queued.slot]? = some slot)
    (waits : queued.isFrom slot = true)
    (h : Firing handlers owner source queued slot ctx outcome after drawn drained resolved
      counted) :
    (after.get owner).auras.slots = (ctx.get owner).auras.slots.set queued.slot
        (fireFrom queued (scalingStats owner slot ctx) slot) ∧
      ∀ seat, seat ≠ owner → (after.get seat).auras = (ctx.get seat).auras := by
  obtain ⟨slots, others⟩ := h.draws builtin spares here (QueuedEffect.isFrom_iff.mp waits).1
  have consuming := h.consuming
  unfold fireFrom
  split at consuming
  · rename_i consumes
    rw [consume_eq] at consuming
    obtain ⟨⟨_, c⟩, changed, consuming⟩ := bind_ok consuming
    obtain rfl := pure_ok consuming
    obtain ⟨auras, spent, worked⟩ := Character.withAuras_ok changed
    constructor
    · have there := congrArg (·[queued.slot]?) slots
      rw [List.getElem?_set_self (List.getElem?_eq_some_iff.mp here).1] at there
      -- drawing left the aura and its stacks, so the entry still waits
      have left := spend_waiting there waits spent
      rw [slots, List.set_set] at left
      rw [Context.get_setCharacter_self, (Character.rebuild_ok worked).2, if_pos consumes]
      exact left
    · intro seat other
      rw [Context.get_setCharacter, if_neg (Ne.symm other)]
      exact others seat other
  · rename_i keeps
    obtain rfl := Except.ok.inj consuming
    rw [if_neg keeps]
    exact ⟨slots, others⟩

/-- The slot of the entry holds the aura that the entry waits on, with or without stacks. -/
def Holds (owner : Seat) (queued : QueuedEffect) (ctx : Context) : Prop :=
  ∃ slot, (ctx.get owner).auras.slots[queued.slot]? = some slot ∧ slot.held = some queued.held

/-- While the slot holds the aura of the entry, only missing stacks and limits keep it from
firing. -/
theorem TurnCase.unfired_or_fires (holds : Holds owner queued ctx)
    (h : TurnCase handlers owner source queued ctx outcome after) :
    (firingSlot? owner source queued ctx = none ∧ after = ctx) ∨
      ∃ slot drawn drained resolved counted, firingSlot? owner source queued ctx = some slot ∧
        (ctx.get owner).auras.slots[queued.slot]? = some slot ∧ queued.isFrom slot = true ∧
        Firing handlers owner source queued slot ctx outcome after drawn drained resolved
          counted := by
  obtain ⟨found, here, holding⟩ := holds
  unfold firingSlot?
  rw [here]
  cases h with
  | skipped gone =>
    have idle : found.isActive = false := Bool.eq_false_iff.mpr fun active =>
      gone ⟨found, here, QueuedEffect.isFrom_iff.mpr ⟨active, holding⟩⟩
    exact .inl ⟨by simp [idle], rfl⟩
  | stopped _ _ spent => exact .inl ⟨by simp [spent], rfl⟩
  | @fires slot _ drawn drained resolved counted _ there waits free firing =>
    obtain rfl := Option.some.inj (here.symm.trans there)
    have active := (QueuedEffect.isFrom_iff.mp waits).1
    exact .inr ⟨found, drawn, drained, resolved, counted, by simp [active, free], rfl, waits,
      firing⟩

end

section
variable {handlers : Handlers} {owner : Seat} {source : String} {turn : Turn}

theorem SlotAccounted.fired {slot : AuraSlot}
    (fires : firingSlot? owner source turn.queued turn.before = some slot) :
    SlotAccounted owner source [turn] turn.queued.slot slot
      (fireFrom turn.queued (scalingStats owner slot turn.before) slot) where
  held := by
    unfold fireFrom
    split <;> rfl
  applier := by
    unfold fireFrom
    split <;> rfl
  stackCount := by
    rw [consumedFrom_self, Turn.consumed, fires]
    unfold fireFrom
    dsimp only
    split
    · exact Count.val_sub_ofInt ..
    · rfl
  amount unshared := by
    have whole := unshared turn List.mem_cons_self rfl
    rw [Turn.shares, fires, Option.isSome_some, Bool.true_and] at whole
    unfold fireFrom
    rw [AuraSlot.draw_unsplit slot _ whole]
    split <;> rfl

/-- What one turn does to auras: it accounts for those of the owner, and is idle without stacks. -/
structure TurnAccounted (owner : Seat) (source : String) (turn : Turn) : Prop where
  owned : Accounted owner source [turn] (turn.before.get owner).auras (turn.after.get owner).auras
  others : ∀ seat, seat ≠ owner → (turn.after.get seat).auras = (turn.before.get seat).auras
  exhausted : ∀ slot, (turn.before.get owner).auras.slots[turn.queued.slot]? = some slot →
    slot.stackCount.val = 0 → turn.outcome = none ∧ turn.after = turn.before

theorem Accounted.unfired (unfired : firingSlot? owner source turn.queued turn.before = none)
    (auras : AuraSlots) : Accounted owner source [turn] auras auras := by
  refine .untouched (fun index => ?_) auras
  by_cases own : turn.queued.slot = index
  · rw [← own, consumedFrom_self, Turn.consumed, unfired]
  · exact consumedFrom_elsewhere own

theorem TurnCase.accounted (builtin : handlers.AllBuiltin)
    (spares : turn.queued.effect.SparesAuras) (holds : Holds owner turn.queued turn.before)
    (h : TurnCase handlers owner source turn.queued turn.before turn.outcome turn.after) :
    TurnAccounted owner source turn where
  owned := by
    rcases h.unfired_or_fires holds with
      ⟨unfired, same⟩ | ⟨slot, _, _, _, _, fires, here, waits, firing⟩
    · rw [same]
      exact .unfired unfired _
    · exact .of_set here (.fired fires) (firing.leaves builtin spares here waits).1
  others := by
    rcases h.unfired_or_fires holds with ⟨-, same⟩ | ⟨slot, _, _, _, _, -, here, waits, firing⟩
    · rw [same]
      exact fun _ _ => rfl
    · exact (firing.leaves builtin spares here waits).2
  exhausted := by
    intro slot here empty
    refine h.skips ?_
    rintro ⟨other, there, waits⟩
    obtain rfl := Option.some.inj (here.symm.trans there)
    have active := (QueuedEffect.isFrom_iff.mp waits).1
    simp [AuraSlot.isActive, empty] at active

/-! ### Whole passes -/

theorem Accounted.holds {turns : List Turn} {queued : QueuedEffect} {first second : Context}
    (h : Accounted owner source turns (first.get owner).auras (second.get owner).auras)
    (holds : Holds owner queued first) : Holds owner queued second := by
  obtain ⟨slot, here, holding⟩ := holds
  obtain ⟨last, there, accounted⟩ := h.slots here
  exact ⟨last, there, accounted.held.trans holding⟩

theorem turns_accounted {queue : List QueuedEffect} {ctx last : Context} {taken : List Turn}
    (builtin : handlers.AllBuiltin) (spares : ∀ queued ∈ queue, queued.effect.SparesAuras)
    (holds : ∀ queued ∈ queue, Holds owner queued ctx)
    (h : turns handlers owner source queue ctx = .ok (taken, last)) :
    Accounted owner source taken (ctx.get owner).auras (last.get owner).auras ∧
      (∀ seat, seat ≠ owner → (last.get seat).auras = (ctx.get seat).auras) ∧
      ∀ turn ∈ taken, TurnAccounted owner source turn := by
  -- carried along: the slots of the entries to come still hold what these wait on
  induction queue generalizing ctx taken with
  | nil =>
    obtain ⟨rfl, rfl⟩ := pair_ok h
    exact ⟨.untouched (fun _ => rfl) _, fun _ _ => rfl, fun _ member => nomatch member⟩
  | cons queued rest ih =>
    obtain ⟨turn, more, rfl, rfl, rfl, turnCase, later⟩ := turns_cons h
    rw [List.forall_mem_cons] at spares holds
    have first := turnCase.accounted builtin spares.1 holds.1
    have still : ∀ queued ∈ rest, Holds owner queued turn.after := fun queued member =>
      first.owned.holds (holds.2 queued member)
    obtain ⟨owned, others, each⟩ := ih spares.2 still later
    exact ⟨first.owned.append owned, fun seat other => (others seat other).trans
      (first.others seat other), List.forall_mem_cons.mpr ⟨first, each⟩⟩

end
end AuraPass

/-- In a pass whose effects apply and remove no auras, every slot of the owner keeps its aura and
whoever applied it. Its stacks at the end are those of the beginning without what its entries
consume, each that fires from it while it is active; a stored amount changes only where such an
entry shares it out. No turn adds stacks, a turn without stacks to fire from does nothing, and
nobody else's auras change. -/
theorem triggerAuras_accounted {handlers : Handlers} {owner : Seat} {trigger : Trigger}
    {ctx after : Context} {outcomes : List Outcome} (builtin : handlers.AllBuiltin)
    (spares : ∀ queued ∈ AuraPass.queue owner trigger ctx, queued.effect.SparesAuras)
    (h : triggerAuras handlers owner trigger ctx = .ok (outcomes, after)) :
    ∃ turns last, AuraPass.turnsOf handlers owner trigger ctx = .ok (turns, last) ∧
      turns.map (·.queued) = AuraPass.queue owner trigger ctx ∧
      outcomes = turns.filterMap (·.outcome) ∧
      AuraPass.Accounted owner (AuraPass.enter owner ctx).sourceKey turns (ctx.get owner).auras
        (after.get owner).auras ∧
      (∀ seat, seat ≠ owner → (after.get seat).auras = (ctx.get seat).auras) ∧
      ∀ turn ∈ turns,
        AuraPass.TurnAccounted owner (AuraPass.enter owner ctx).sourceKey turn ∧
        ∀ (index : Nat) (slot left : AuraSlot),
          (turn.before.get owner).auras.slots[index]? = some slot →
          (turn.after.get owner).auras.slots[index]? = some left →
            left.stackCount.val ≤ slot.stackCount.val := by
  rw [AuraPass.triggerAuras_eq_turnsOf] at h
  obtain ⟨⟨turns, last⟩, taken, h⟩ := map_ok h
  obtain ⟨rfl, rfl⟩ := Prod.mk.inj h
  have holds : ∀ queued ∈ AuraPass.queue owner trigger ctx,
      AuraPass.Holds owner queued (AuraPass.enter owner ctx) := by
    intro queued member
    obtain ⟨slot, here, waits, -⟩ := AuraPass.mem_queue member
    exact ⟨slot, here, (QueuedEffect.isFrom_iff.mp waits).2⟩
  obtain ⟨owned, others, each⟩ := AuraPass.turns_accounted builtin spares holds taken
  refine ⟨turns, last, taken, AuraPass.turns_queued taken, rfl, owned, others, ?_⟩
  intro turn member
  refine ⟨each turn member, fun index slot left here there => ?_⟩
  obtain ⟨other, found, accounted⟩ := (each turn member).owned.slots here
  obtain rfl := Option.some.inj (found.symm.trans there)
  rw [accounted.stackCount]
  exact Nat.sub_le ..

/-! A knight with three stacks of an aura of which two effects consume two stacks each and a third
comes too late, and with two stacks of another that consumes one. -/

namespace AuraPass

def tithing (stackCount : Option Formula) : Effect :=
  { selfEffect .restoreEnergy with stackCount, consume := true }

def tithed : Context where
  encounter := ⟨⟨{ id := "knight", name := "Knight", role := some "fighter", auras := {
    slots := [
      .setAura ⟨0, { id := "tithe", name := "Tithe", effects :=
        [tithing (some (.flat 2)), tithing (some (.flat 2)), tithing none] }⟩ 3 none none,
      .setAura ⟨1, { id := "ward", name := "Ward", effects := [tithing none] }⟩ 2 none none] } },
    .empty, .empty⟩, ⟨.empty, .empty, .empty⟩⟩
  content := { auras := {} }

theorem tithed_turns :
    ∃ turns last, turnsOf Handlers.builtin ⟨.heroes, .front⟩ .turnStart tithed =
        .ok (turns, last) ∧ (turns.filterMap (·.outcome)).length = 3 ∧
      consumedFrom ⟨.heroes, .front⟩ (enter ⟨.heroes, .front⟩ tithed).sourceKey turns 0 = 4 ∧
      consumedFrom ⟨.heroes, .front⟩ (enter ⟨.heroes, .front⟩ tithed).sourceKey turns 1 = 1 := by
  obtain ⟨⟨turns, last⟩, taken, told⟩ := Checked.holds_ok (P := fun result : List Turn × Context =>
      (result.1.filterMap (·.outcome)).length = 3 ∧
      consumedFrom ⟨.heroes, .front⟩ (enter ⟨.heroes, .front⟩ tithed).sourceKey result.1 0 = 4 ∧
      consumedFrom ⟨.heroes, .front⟩ (enter ⟨.heroes, .front⟩ tithed).sourceKey result.1 1 = 1)
    (x := turnsOf Handlers.builtin ⟨.heroes, .front⟩ .turnStart tithed) (by decide +kernel)
  exact ⟨turns, last, taken, told⟩

end AuraPass

theorem triggerAuras_accounted_tithed :
    ∃ outcomes after tithe ward,
      (∀ queued ∈ AuraPass.queue ⟨.heroes, .front⟩ .turnStart AuraPass.tithed,
        queued.effect.SparesAuras) ∧
      triggerAuras Handlers.builtin ⟨.heroes, .front⟩ .turnStart AuraPass.tithed =
        .ok (outcomes, after) ∧ outcomes.length = 3 ∧
      (after.get ⟨.heroes, .front⟩).auras.slots[0]? = some tithe ∧ tithe.stackCount.val = 0 ∧
      (after.get ⟨.heroes, .front⟩).auras.slots[1]? = some ward ∧ ward.stackCount.val = 1 := by
  have spares : ∀ queued ∈ AuraPass.queue ⟨.heroes, .front⟩ .turnStart AuraPass.tithed,
      queued.effect.SparesAuras := by
    intro queued member
    have listed := List.mem_map_of_mem (f := (·.effect.type?)) member
    have typed : queued.effect.type? ∈ List.replicate 4 (some .restoreEnergy) := listed
    intro kind
    simp [List.eq_of_mem_replicate typed]
  obtain ⟨turns, last, taken, fired, tithes, wards⟩ := AuraPass.tithed_turns
  have h : triggerAuras Handlers.builtin ⟨.heroes, .front⟩ .turnStart AuraPass.tithed =
      .ok (turns.filterMap (·.outcome), AuraPass.leave AuraPass.tithed last) := by
    rw [AuraPass.triggerAuras_eq_turnsOf, taken]
    rfl
  obtain ⟨turns', last', taken', -, -, owned, -, -⟩ :=
    triggerAuras_accounted Handlers.builtin_allBuiltin spares h
  obtain ⟨rfl, rfl⟩ := Prod.mk.inj (Except.ok.inj (taken.symm.trans taken'))
  have three : (AuraPass.tithed.get ⟨.heroes, .front⟩).auras.slots[0]? = some _ := rfl
  have two : (AuraPass.tithed.get ⟨.heroes, .front⟩).auras.slots[1]? = some _ := rfl
  obtain ⟨tithe, first, titheLeft⟩ := owned.slots three
  obtain ⟨ward, second, wardLeft⟩ := owned.slots two
  refine ⟨_, _, tithe, ward, spares, h, fired, first, ?_, second, ?_⟩
  · rw [titheLeft.stackCount, tithes]
    rfl
  · rw [wardLeft.stackCount, wards]
    rfl

end Combat
