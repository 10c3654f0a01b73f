import Combat.Aura.Slot
import Combat.Stat.Source

/-!
The aura slots of one character, and the stat modifiers that its active auras come to. Every change
of the slots works the modifiers out anew.
-/

namespace Combat

/-- What is handed over with an aura. -/
structure AuraApplication where
  stackCount : Count
  amount : Option Float := none
  source : Option Seat := none
  deriving DecidableEq

/-- An effect waiting to fire, with the slot and the aura it waits on. -/
structure QueuedEffect where
  slot : Nat
  held : RegisteredAura
  effect : Effect
  deriving DecidableEq

/-- Whether the slot is active with the very aura that the effect waits on. -/
def QueuedEffect.isFrom (queued : QueuedEffect) (slot : AuraSlot) : Bool :=
  slot.isActive && slot.held = some queued.held

/-- The modifier that an effect of a carried aura is: the stored amount rounded down or else the
effect's own amount, once per stack if it counts so. -/
def AuraSlot.modifier? (slot : AuraSlot) (held : RegisteredAura) (effect : Effect) :
    Checked (Option StatModifier) :=
  match effect.kind with
  | .statModifier stat percent => do
    let value := match slot.amount with
      | some amount => Binary64.toInt (Binary64.floor amount)
      | none => effect.amountValue none
    let value ← if effect.stack then Checked.mul value slot.stackCount.toInt else pure value
    return some { aura := held.id, stat, value, percent }
  | _ => return none

/-- The modifiers of a slot, in the order of its aura's effects; none unless it is active. -/
def AuraSlot.modifiers (slot : AuraSlot) : Checked (List StatModifier) :=
  match slot.held with
  | some held =>
    if slot.isActive then do
      return (← held.aura.effects.mapM (slot.modifier? held)).filterMap id
    else return []
  | none => return []

structure AuraSlots where
  slots : List AuraSlot := []
  modifiers : List StatModifier := []
  deriving DecidableEq

namespace AuraSlots

/-- The modifiers of the slots in turn. -/
def contributions (slots : List AuraSlot) : Checked (List StatModifier) := do
  return (← slots.mapM AuraSlot.modifiers).flatten

/-- Slots with their modifiers worked out. -/
def ofSlots (slots : List AuraSlot) : Checked AuraSlots := do
  return { slots, modifiers := ← contributions slots }

/-- The slots that carry an aura. -/
def carrying (auras : AuraSlots) (id : String) : List AuraSlot :=
  auras.slots.filter (·.carries id)

/-- The stacks of an aura over all its slots. -/
def stacksOf (auras : AuraSlots) (id : String) : Checked Count :=
  Count.sumChecked ((auras.carrying id).map (·.stackCount))

def has (auras : AuraSlots) (id : String) : Checked Bool := do
  return 0 < (← auras.stacksOf id).val

/-! ### Applying and removing -/

/-- Whether the application merges into the slot: the same aura, of the same source unless the
aura combines. -/
def merges (held : RegisteredAura) (application : AuraApplication) (slot : AuraSlot) : Bool :=
  slot.carries held.id && (held.aura.combine || slot.source = application.source)

def mergeInto (held : RegisteredAura) (application : AuraApplication) (slot : AuraSlot) :
    AuraSlot :=
  slot.set (held.aura.stackPolicy.merge slot.stackCount application.stackCount)
    (held.aura.amountPolicy.merge slot.amount application.amount)

/-- The slots after the application and the slot it went to: the first that it merges into, or
else the first that is not active, or else a new one. -/
def apply (held : RegisteredAura) (application : AuraApplication) (slots : List AuraSlot) :
    Nat × List AuraSlot :=
  match slots.findIdx? (merges held application) with
  | some index => (index, slots.modify index (mergeInto held application))
  | none =>
    let fresh := AuraSlot.setAura held application.stackCount application.amount application.source
    match slots.findIdx? (!·.isActive) with
    | some index => (index, slots.set index fresh)
    | none => (slots.length, slots ++ [fresh])

/-- Without stacks nothing is applied. -/
def add (auras : AuraSlots) (held : RegisteredAura) (application : AuraApplication) :
    Checked (Option Nat × AuraSlots) :=
  if application.stackCount.val = 0 then return (none, auras)
  else do
    let (index, slots) := apply held application auras.slots
    return (some index, ← ofSlots slots)

/-- Empties every slot that carries the aura; whether there was one. -/
def remove (auras : AuraSlots) (id : String) : Checked (Bool × AuraSlots) :=
  if auras.slots.any (·.carries id) then do
    return (true, ← ofSlots (auras.slots.map fun slot => if slot.carries id then .empty else slot))
  else return (false, auras)

/-! ### Single slots -/

/-- Puts an aura into a slot, after as many empty slots as it takes. -/
def setAuraAt (auras : AuraSlots) (index : Nat) (held : RegisteredAura) (stackCount : Count)
    (amount : Option Float) (source : Option Seat) : Checked AuraSlots :=
  let padded := auras.slots ++ List.replicate (index + 1 - auras.slots.length) .empty
  ofSlots (padded.set index (.setAura held stackCount amount source))

/-- Changes a slot; nothing where there is none. -/
def modifyAt (auras : AuraSlots) (index : Nat) (change : AuraSlot → AuraSlot) : Checked AuraSlots :=
  if index < auras.slots.length then ofSlots (auras.slots.modify index change) else return auras

def setAt (auras : AuraSlots) (index : Nat) (stackCount : Count) (amount : Option Float) :
    Checked AuraSlots :=
  auras.modifyAt index (·.set stackCount amount)

def removeAt (auras : AuraSlots) (index : Nat) : Checked AuraSlots :=
  auras.modifyAt index fun _ => .empty

def removeStacksAt (auras : AuraSlots) (index : Nat) (count : Count) : Checked AuraSlots :=
  auras.modifyAt index (·.removeStacks count)

/-- Takes stacks off the first slot that carries the aura; whether there was one. -/
def removeStacks (auras : AuraSlots) (id : String) (count : Count) : Checked (Bool × AuraSlots) :=
  match auras.slots.findIdx? (·.carries id) with
  | some index => do return (true, ← auras.removeStacksAt index count)
  | none => return (false, auras)

/-- What an effect delivers from a slot: nothing unless it is active. -/
def draw (auras : AuraSlots) (index : Nat) (effect : Effect) (evaluated : Int) :
    Checked (Int × AuraSlots) :=
  match auras.slots[index]? with
  | some slot =>
    if slot.isActive then do
      let (drawn, drained) := slot.draw effect evaluated
      return (drawn, ← ofSlots (auras.slots.set index drained))
    else return (0, auras)
  | none => return (0, auras)

/-! ### Effects that wait for a trigger -/

/-- The effects of a slot that fire on the trigger; stat modifiers never do. -/
def queueOf (trigger : Trigger) (index : Nat) (slot : AuraSlot) : List QueuedEffect :=
  match slot.held with
  | some held =>
    if slot.isActive then
      (held.aura.effects.filter fun effect =>
        effect.trigger = trigger && !effect.kind.isStatModifier).map (QueuedEffect.mk index held)
    else []
  | none => []

/-- By slot, then in the order of the aura's effects. -/
def effectsFor (auras : AuraSlots) (trigger : Trigger) : List QueuedEffect :=
  (auras.slots.mapIdx (queueOf trigger)).flatten

/-! ### Keeping -/

def save (auras : AuraSlots) : List SavedAura := auras.slots.map AuraSlot.save

def load (catalog : AuraCatalog) (saved : List SavedAura) : Checked AuraSlots :=
  ofSlots (saved.map (AuraSlot.restore catalog))

end AuraSlots
end Combat
