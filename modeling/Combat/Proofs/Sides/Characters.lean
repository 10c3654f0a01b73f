import Combat.Proofs.Action
import Combat.Resolution.Context

/-!
Exchanging the sides. Characters whose attackers and appliers sit on the other side do as they did
before, with the sides exchanged.
-/

namespace Combat
open Checked

/-! ### Exchanging the sides -/

def Seat.swapSides (seat : Seat) : Seat := { seat with side := seat.side.opponent }

def AuraSlot.swapSides (slot : AuraSlot) : AuraSlot :=
  { slot with source := slot.source.map Seat.swapSides }

def AuraSlots.swapSides (auras : AuraSlots) : AuraSlots :=
  { auras with slots := auras.slots.map AuraSlot.swapSides }

def AuraApplication.swapSides (application : AuraApplication) : AuraApplication :=
  { application with source := application.source.map Seat.swapSides }

def Character.swapSides (c : Character) : Character :=
  { c with lastAttacker := c.lastAttacker.map Seat.swapSides, auras := c.auras.swapSides }

def Party.swapSides (party : Party) : Party :=
  { front := party.front.swapSides
    center := party.center.swapSides
    back := party.back.swapSides }

/-- The heroes sit where the enemies sat and the other way round. -/
def Encounter.swapSides (encounter : Encounter) : Encounter :=
  { heroes := encounter.enemies.swapSides, enemies := encounter.heroes.swapSides }

/-- Roles go with the characters; content, stash, limits, log and random numbers have no side. -/
def Context.swapSides (ctx : Context) : Context :=
  { ctx with
    encounter := ctx.encounter.swapSides
    source := ctx.source.map Seat.swapSides
    target := ctx.target.map Seat.swapSides
    attacker := ctx.attacker.map Seat.swapSides
    credited := ctx.credited.map Seat.swapSides
    exclude := ctx.exclude.map Seat.swapSides }

def Change.swapSides : Change → Change
  | .damage target amount killing => .damage target.swapSides amount killing
  | .heal target amount => .heal target.swapSides amount
  | .energyRestored target amount => .energyRestored target.swapSides amount
  | .revived target hitpoints => .revived target.swapSides hitpoints
  | .auraApplied target aura stackCount => .auraApplied target.swapSides aura stackCount
  | .auraRemoved target aura => .auraRemoved target.swapSides aura
  | .statModifier stat amount percent => .statModifier stat amount percent
  | .materialGranted id amount => .materialGranted id amount
  | .materialConsumed id amount => .materialConsumed id amount

def Outcome.swapSides (outcome : Outcome) : Outcome :=
  { outcome with
    targets := outcome.targets.map Seat.swapSides
    changes := outcome.changes.map Change.swapSides }

namespace Seat

@[simp] theorem swapSides_swapSides (seat : Seat) : seat.swapSides.swapSides = seat := by
  simp [swapSides]

theorem swapSides_injective : Function.Injective swapSides := by
  intro a b same
  rw [← a.swapSides_swapSides, same, swapSides_swapSides]

@[simp] theorem swapSides_inj {a b : Seat} : a.swapSides = b.swapSides ↔ a = b :=
  swapSides_injective.eq_iff

theorem map_swapSides_inj {a b : Option Seat} :
    a.map swapSides = b.map swapSides ↔ a = b :=
  (Option.map_injective swapSides_injective).eq_iff

end Seat

/-! ### Aura slots -/

namespace AuraSlots

theorem contributions_swapSides (slots : List AuraSlot) :
    contributions (slots.map AuraSlot.swapSides) = contributions slots := by
  unfold contributions
  rw [List.mapM_map]
  rfl

theorem ofSlots_swapSides (slots : List AuraSlot) :
    ofSlots (slots.map AuraSlot.swapSides) = swapSides <$> ofSlots slots := by
  unfold ofSlots
  rw [contributions_swapSides, map_bind]
  rfl

theorem merges_swapSides (held : RegisteredAura) (application : AuraApplication)
    (slot : AuraSlot) :
    merges held application.swapSides slot.swapSides = merges held application slot := by
  have same : decide (slot.swapSides.source = application.swapSides.source) =
      decide (slot.source = application.source) :=
    decide_eq_decide.mpr Seat.map_swapSides_inj
  unfold merges
  rw [same]
  rfl

theorem modify_swapSides {f g : AuraSlot → AuraSlot} (slots : List AuraSlot) (index : Nat)
    (commute : ∀ slot, g slot.swapSides = (f slot).swapSides) :
    (slots.map AuraSlot.swapSides).modify index g =
      (slots.modify index f).map AuraSlot.swapSides := by
  apply List.ext_getElem?
  intro i
  simp only [List.getElem?_modify, List.getElem?_map]
  split <;> simp [Function.comp_def, commute]

theorem mergeInto_swapSides (held : RegisteredAura) (application : AuraApplication)
    (slot : AuraSlot) :
    mergeInto held application.swapSides slot.swapSides =
      (mergeInto held application slot).swapSides := by
  have empty : slot.swapSides.isEmpty = slot.isEmpty := rfl
  unfold mergeInto AuraSlot.set
  rw [empty]
  split <;> rfl

theorem apply_swapSides (held : RegisteredAura) (application : AuraApplication)
    (slots : List AuraSlot) :
    apply held application.swapSides (slots.map AuraSlot.swapSides) =
      ((apply held application slots).1,
        (apply held application slots).2.map AuraSlot.swapSides) := by
  have merging : merges held application.swapSides ∘ AuraSlot.swapSides =
      merges held application := funext (merges_swapSides held application)
  have idle : (fun slot : AuraSlot => !slot.isActive) ∘ AuraSlot.swapSides =
      fun slot => !slot.isActive := rfl
  have fresh : (AuraSlot.setAura held application.stackCount application.amount
      application.source).swapSides = .setAura held application.swapSides.stackCount
        application.swapSides.amount application.swapSides.source := rfl
  unfold apply
  rw [List.findIdx?_map, merging]
  cases slots.findIdx? (merges held application) with
  | some index => exact congrArg _ (modify_swapSides _ _ (mergeInto_swapSides held application))
  | none =>
    dsimp only
    rw [List.findIdx?_map, idle]
    cases slots.findIdx? (!·.isActive) with
    | some index => simp [List.map_set, fresh]
    | none => simp [fresh]

/-- What an operation answers stays, and the slots it leaves have their sides exchanged. -/
def answered {α : Type} (done : α × AuraSlots) : α × AuraSlots := (done.1, done.2.swapSides)

variable (auras : AuraSlots)

theorem add_swapSides (held : RegisteredAura) (application : AuraApplication) :
    auras.swapSides.add held application.swapSides = answered <$> auras.add held application := by
  unfold add
  change (if application.stackCount.val = 0 then _ else _) = _
  split
  · rfl
  · have applied : apply held application.swapSides auras.swapSides.slots = _ :=
      apply_swapSides held application auras.slots
    rw [applied]
    dsimp only
    rw [ofSlots_swapSides, bind_map_left, map_bind]
    rfl

theorem remove_swapSides (id : String) :
    auras.swapSides.remove id = answered <$> auras.remove id := by
  have carried : (auras.slots.map AuraSlot.swapSides).any (·.carries id) =
      auras.slots.any (·.carries id) := by
    rw [List.any_map]
    rfl
  have emptied : (auras.slots.map AuraSlot.swapSides).map
        (fun slot => if slot.carries id then .empty else slot) =
      (auras.slots.map fun slot => if slot.carries id then .empty else slot).map
        AuraSlot.swapSides := by
    simp only [List.map_map]
    refine List.map_congr_left fun slot _ => ?_
    change (if slot.carries id then _ else _) =
      AuraSlot.swapSides (if slot.carries id then _ else _)
    split <;> rfl
  unfold remove
  change (if (auras.slots.map AuraSlot.swapSides).any (·.carries id) then
    ofSlots ((auras.slots.map AuraSlot.swapSides).map _) >>= _ else _) = _
  rw [carried]
  split
  · rw [emptied, ofSlots_swapSides, bind_map_left, map_bind]
    rfl
  · rfl

theorem removeStacksAt_swapSides (index : Nat) (count : Count) :
    auras.swapSides.removeStacksAt index count =
      swapSides <$> auras.removeStacksAt index count := by
  unfold removeStacksAt modifyAt
  change (if index < (auras.slots.map AuraSlot.swapSides).length then
    ofSlots ((auras.slots.map AuraSlot.swapSides).modify index (·.removeStacks count)) else _) = _
  rw [List.length_map]
  split
  · rw [modify_swapSides (f := (·.removeStacks count)) _ _ fun _ => rfl, ofSlots_swapSides]
  · rfl

theorem removeStacks_swapSides (id : String) (count : Count) :
    auras.swapSides.removeStacks id count = answered <$> auras.removeStacks id count := by
  have carrying : (fun slot : AuraSlot => slot.carries id) ∘ AuraSlot.swapSides =
      fun slot => slot.carries id := rfl
  have slots : auras.swapSides.slots = auras.slots.map AuraSlot.swapSides := rfl
  unfold removeStacks
  rw [slots, List.findIdx?_map, carrying]
  cases auras.slots.findIdx? (·.carries id) with
  | none => rfl
  | some index =>
    dsimp only
    rw [removeStacksAt_swapSides, bind_map_left, map_bind]
    rfl

theorem draw_swapSides (index : Nat) (effect : Effect) (evaluated : Int) :
    auras.swapSides.draw index effect evaluated =
      answered <$> auras.draw index effect evaluated := by
  have slots : auras.swapSides.slots = auras.slots.map AuraSlot.swapSides := rfl
  unfold draw
  rw [slots, List.getElem?_map]
  cases auras.slots[index]? with
  | none => rfl
  | some slot =>
    change (if slot.isActive then ofSlots ((auras.slots.map AuraSlot.swapSides).set index
      (slot.draw effect evaluated).2.swapSides) >>= _ else _) = answered <$> (if slot.isActive then
        _ else _)
    split
    · rw [← List.map_set, ofSlots_swapSides, bind_map_left, map_bind]
      rfl
    · rfl

theorem stacksOf_swapSides (id : String) : auras.swapSides.stacksOf id = auras.stacksOf id := by
  have carrying : (fun slot : AuraSlot => slot.carries id) ∘ AuraSlot.swapSides =
      fun slot => slot.carries id := rfl
  change Count.sumChecked (((auras.slots.map AuraSlot.swapSides).filter (·.carries id)).map _) = _
  rw [List.filter_map, carrying, List.map_map]
  rfl

theorem effectsFor_swapSides (trigger : Trigger) :
    auras.swapSides.effectsFor trigger = auras.effectsFor trigger := by
  unfold effectsFor
  congr 1
  apply List.ext_getElem?
  intro i
  simp only [swapSides, List.getElem?_mapIdx, List.getElem?_map, Option.map_map]
  rfl

end AuraSlots

/-! ### Characters -/

namespace Character
variable (c : Character)

def answered {α : Type} (done : α × Character) : α × Character := (done.1, done.2.swapSides)

theorem rebuild_swapSides : c.swapSides.rebuild = swapSides <$> c.rebuild := by
  unfold rebuild
  rw [map_bind]
  rfl

theorem withAuras_swapSides {α : Type} {f g : AuraSlots → Checked (α × AuraSlots)}
    (commute : g c.auras.swapSides = AuraSlots.answered <$> f c.auras) :
    c.swapSides.withAuras g = answered <$> c.withAuras f := by
  unfold withAuras
  change (g c.auras.swapSides >>= _) = _
  rw [commute, bind_map_left, map_bind]
  refine bind_congr ?_
  rintro ⟨result, auras⟩
  change (rebuild (swapSides { c with auras }) >>= _) = _
  rw [rebuild_swapSides, bind_map_left, map_bind]
  rfl

theorem heal_swapSides (amount : Int) : c.swapSides.heal amount = answered <$> c.heal amount := by
  unfold heal
  change (if c.dead || amount ≤ 0 then _ else _) = _
  split
  · rfl
  · rw [map_bind]
    refine bind_congr fun sum => ?_
    rw [map_bind]
    rfl

theorem takeDamage_swapSides (amount : Int) (attacker : Option Seat) :
    c.swapSides.takeDamage amount (attacker.map Seat.swapSides) =
      answered <$> c.takeDamage amount attacker := by
  have credited : (attacker.map Seat.swapSides <|> c.lastAttacker.map Seat.swapSides) =
      (attacker <|> c.lastAttacker).map Seat.swapSides := by
    cases attacker <;> rfl
  unfold takeDamage
  change (if c.dead then _ else _) = _
  split
  · rfl
  · rw [map_bind]
    refine bind_congr fun left => ?_
    rw [map_bind]
    refine bind_congr fun lost => ?_
    change pure _ = pure _
    simp only [answered, swapSides, credited]

theorem restoreEnergy_swapSides (amount : Int) :
    c.swapSides.restoreEnergy amount = answered <$> c.restoreEnergy amount := by
  unfold restoreEnergy
  rw [map_bind]
  refine bind_congr fun sum => ?_
  rw [map_bind]
  refine bind_congr fun energy => ?_
  rw [map_bind]
  rfl

theorem revive_swapSides (percent : Int) :
    c.swapSides.revive percent = answered <$> c.revive percent := by
  unfold revive
  change (if !c.dead || !c.inCombat then _ else _) = _
  split
  · rfl
  · rw [map_bind]
    refine bind_congr fun whole => ?_
    rw [map_bind]
    rfl

end Character

end Combat
