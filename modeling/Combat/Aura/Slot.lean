import Combat.Aura.Catalog
import Combat.Aura.Draw
import Combat.Seat

/-!
Slots for auras. A slot is empty while it holds no aura and active while it holds one with stacks;
a slot whose stacks ran out keeps its aura until it is used again.
-/

namespace Combat

structure AuraSlot where
  held : Option RegisteredAura := none
  stackCount : Count := 0
  /-- Stored potency, which split effects hand out. -/
  amount : Option Float := none
  /-- Who applied the aura. -/
  source : Option Seat := none
  deriving DecidableEq

/-- A slot as it is kept between sessions. -/
structure SavedAura where
  hasAura : Bool
  id : String
  stackCount : Count
  /-- The seat's index; any other byte stands for no source. -/
  source : Nat
  deriving DecidableEq

namespace AuraSlot

def empty : AuraSlot := {}

def id? (slot : AuraSlot) : Option String := slot.held.map (·.id)

def isEmpty (slot : AuraSlot) : Bool := slot.held.isNone

def isActive (slot : AuraSlot) : Bool := slot.held.isSome && 0 < slot.stackCount.val

/-- Active with an aura of the id. -/
def carries (slot : AuraSlot) (id : String) : Bool := slot.isActive && slot.id? = some id

def setAura (held : RegisteredAura) (stackCount : Count) (amount : Option Float)
    (source : Option Seat) : AuraSlot :=
  { held := some held, stackCount, amount, source }

/-- New stacks and amount for the aura held; nothing for an empty slot. -/
def set (slot : AuraSlot) (stackCount : Count) (amount : Option Float) : AuraSlot :=
  if slot.isEmpty then slot else { slot with stackCount, amount }

/-- Takes stacks off, stopping at zero. -/
def removeStacks (slot : AuraSlot) (count : Count) : AuraSlot :=
  { slot with stackCount := slot.stackCount.sub count }

/-- What an effect delivers from this slot. -/
def draw (slot : AuraSlot) (effect : Effect) (evaluated : Int) : Int × AuraSlot :=
  let (drawn, amount) := Aura.draw effect slot.amount slot.stackCount evaluated
  (drawn, { slot with amount })

/-! ### Keeping -/

/-- The byte for no source. -/
def noSource : Nat := 255

/-- The stored amount is not kept. -/
def save (slot : AuraSlot) : SavedAura :=
  { hasAura := slot.held.isSome
    id := slot.id?.getD ""
    stackCount := slot.stackCount
    source := (slot.source.map Seat.index).getD noSource }

/-- An aura that the catalog does not know comes back as an empty slot. -/
def restore (catalog : AuraCatalog) (saved : SavedAura) : AuraSlot :=
  if saved.hasAura then
    match catalog.get? saved.id with
    | some held => setAura held saved.stackCount none (Seat.ofIndex? saved.source)
    | none => empty
  else empty

end AuraSlot

namespace SavedAura

def toValue (saved : SavedAura) : Value :=
  .table [("has_aura", .bool saved.hasAura), ("definition_id", .text saved.id),
    ("stacks", .int saved.stackCount.toInt), ("source_index", .int saved.source)]

def ofValue? (origin : Value.Origin) (value : Value) : Option SavedAura := do
  let record ← value.record? origin 4
  let hasAura ← Value.required Value.bool? (record.member 0 "has_aura")
  let id ← Value.required Value.text? (record.member 1 "definition_id")
  let stackCount ← Value.required Value.count? (record.member 2 "stacks")
  let source ← Value.required Value.byte? (record.member 3 "source_index")
  return { hasAura, id, stackCount, source }

end SavedAura
end Combat
