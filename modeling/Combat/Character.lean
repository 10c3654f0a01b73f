import Combat.Aura.Slots

/-!
Characters: stats worked out from innate stats, gear and auras, and the hitpoints, energy and life
that a fight wears down. Every change of a source of stats works the stats out anew, and hitpoints
never stay above their greatest value after it.
-/

namespace Combat

structure Character where
  id : String
  name : String
  /-- Without a role the seat is empty. -/
  role : Option String
  innate : StatBlock := {}
  gear : List (GearSlot × StatBlock) := []
  stats : StatBlock := {}
  hitpoints : Int := 0
  energy : Int := 0
  maxEnergy : Int := 100
  dead : Bool := false
  /-- Who damaged the character last. -/
  lastAttacker : Option Seat := none
  auras : AuraSlots := {}
  deriving DecidableEq

/-- What a blow did. -/
structure Blow where
  amount : Int
  before : Int
  after : Int
  killing : Bool
  deriving DecidableEq, Repr

namespace Character

/-- A seat that nobody takes. -/
def empty : Character := { id := "empty", name := "Empty", role := none, dead := true }

/-- Whether it takes part in the fight. -/
def inCombat (c : Character) : Bool :=
  match c.role with
  | some role => role ≠ "" && role ≠ "none"
  | none => false

def isAlive (c : Character) : Bool := !c.dead

def maxHitpoints (c : Character) : Int := c.stats.value StatBlock.hitpoints

/-- The part of the hitpoints left, zero where there can be none. -/
def hitpointsFraction (α : Type) [Arithmetic α] (c : Character) : α :=
  if c.maxHitpoints ≤ 0 then Arithmetic.ofInt 0
  else Arithmetic.div (Arithmetic.ofInt c.hitpoints) (Arithmetic.ofInt c.maxHitpoints)

/-! ### Stats -/

/-- In order of priority. -/
def sources (c : Character) : List StatSource :=
  .innate c.innate :: (c.gear.map fun item => .worn item.1 item.2) ++ [.auras c.auras.modifiers]

def rebuild (c : Character) : Checked Character := do
  let stats ← StatBlock.ofSources c.sources
  return { c with stats, hitpoints := min c.hitpoints (stats.value StatBlock.hitpoints) }

/-- Takes the innate stats and full hitpoints. -/
def withInnate (c : Character) (stats : StatBlock) : Checked Character := do
  let c ← { c with innate := stats }.rebuild
  return { c with hitpoints := c.maxHitpoints }

def setInnate (c : Character) (stats : StatBlock) : Checked Character :=
  { c with innate := stats }.rebuild

/-- Worn items with one more, in the place of an item of the same slot. -/
def wear (slot : GearSlot) (item : StatBlock) :
    List (GearSlot × StatBlock) → List (GearSlot × StatBlock)
  | [] => [(slot, item)]
  | worn :: rest => if worn.1 = slot then (slot, item) :: rest else worn :: wear slot item rest

def equip (c : Character) (slot : GearSlot) (item : StatBlock) : Checked Character :=
  { c with gear := wear slot item c.gear }.rebuild

/-- The item that was taken off. -/
def unequip (c : Character) (slot : GearSlot) : Checked (Option StatBlock × Character) :=
  match c.gear.find? (·.1 = slot) with
  | some item => do
    return (some item.2, ← { c with gear := c.gear.filter (·.1 ≠ slot) }.rebuild)
  | none => return (none, c)

/-- Changes the auras and works the stats out anew. -/
def withAuras {α : Type} (c : Character) (change : AuraSlots → Checked (α × AuraSlots)) :
    Checked (α × Character) := do
  let (result, auras) ← change c.auras
  return (result, ← { c with auras }.rebuild)

/-! ### Vitals -/

/-- The hitpoints restored; none to the dead. -/
def heal (c : Character) (amount : Int) : Checked (Int × Character) :=
  if c.dead || amount ≤ 0 then return (0, c)
  else do
    let hitpoints := min (← Checked.add c.hitpoints amount) c.maxHitpoints
    return (← Checked.sub hitpoints c.hitpoints, { c with hitpoints })

/-- Hitpoints stop at zero, and there the character dies. -/
def takeDamage (c : Character) (amount : Int) (attacker : Option Seat) :
    Checked (Blow × Character) :=
  if c.dead then return (⟨0, c.hitpoints, c.hitpoints, false⟩, c)
  else do
    let hitpoints := max (← Checked.sub c.hitpoints (max amount 0)) 0
    let killing : Bool := hitpoints = 0
    let amount ← Checked.sub c.hitpoints hitpoints
    return (⟨amount, c.hitpoints, hitpoints, killing⟩,
      { c with
        hitpoints
        lastAttacker := attacker <|> c.lastAttacker
        dead := killing })

/-- The energy restored. -/
def restoreEnergy (c : Character) (amount : Int) : Checked (Int × Character) := do
  let energy ← Checked.clamp (← Checked.add c.energy amount) 0 c.maxEnergy
  return (← Checked.sub energy c.energy, { c with energy })

/-- Brings a dead character back with a percentage of its greatest hitpoints, one at least. -/
def revive (c : Character) (percent : Int) : Checked (Option Int × Character) :=
  if !c.dead || !c.inCombat then return (none, c)
  else do
    let share := (← Checked.mul c.maxHitpoints percent).tdiv 100
    let hitpoints ← Checked.clamp share 1 (max c.maxHitpoints 1)
    return (some hitpoints, { c with dead := false, hitpoints })

end Character
end Combat
