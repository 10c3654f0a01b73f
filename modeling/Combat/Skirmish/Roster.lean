import Combat.Character
import Combat.Effect.Codec
import Combat.WeightedTable

/-!
Rosters: who fights in a skirmish, with which abilities. Heroes always use their one ability;
enemies draw theirs from a weighted table and leave loot behind.
-/

namespace Combat

namespace GearSlot

def ofValue? : Value.Origin → Value → Option GearSlot := Value.case? all name

end GearSlot

namespace StatBlock

def ofValue? : Value → Option StatBlock := Value.idMap? Value.int?

end StatBlock

namespace WeightedTable
variable {α : Type}

def entryOfValue? (id? : Value → Option α) (origin : Value.Origin) (value : Value) :
    Option (WeightedEntry α) := do
  let record ← value.record? origin 2
  let id ← Value.required id? (record.member 0 "id")
  let weight ← Value.required Value.count? (record.member 1 "weight")
  return { id, weight }

/-- A table is written as the list of its entries. -/
def readBy? (id? : Value → Option α) (origin : Value.Origin) (value : Value) :
    Option (WeightedTable α) :=
  (Value.list? (entryOfValue? id? origin) value).map ofEntries

def ofValue? : Value.Origin → Value → Option (WeightedTable String) := readBy? Value.text?

end WeightedTable

structure Fighter where
  id : String
  name : String
  role : String
  stats : StatBlock
  gear : List (GearSlot × StatBlock) := []

structure Hero where
  fighter : Fighter
  ability : String
  /-- Effects used once at the start. -/
  opening : List Effect := []

structure Enemy where
  fighter : Fighter
  abilities : WeightedTable String
  /-- Effects of its death. -/
  loot : List Effect := []

structure Roster where
  heroes : List Hero
  enemies : List Enemy
  /-- The effects of each ability. -/
  abilities : IdMap (List Effect)

namespace Fighter

/-- The character, with its gear on and at full hitpoints. -/
def character (fighter : Fighter) : Checked Character := do
  let bare ← ({ id := fighter.id, name := fighter.name, role := some fighter.role } :
    Character).withInnate fighter.stats
  let geared ← fighter.gear.foldlM (fun c item => c.equip item.1 item.2) bare
  return (← geared.heal geared.maxHitpoints).2

def gearOfValue? (origin : Value.Origin) (value : Value) : Option (GearSlot × StatBlock) := do
  let record ← value.record? origin 2
  let slot ← Value.required (GearSlot.ofValue? origin) (record.member 0 "slot")
  let stats ← Value.required StatBlock.ofValue? (record.member 1 "stats")
  return (slot, stats)

def ofRecord? (origin : Value.Origin) (record : Value.Record) : Option Fighter := do
  let id ← Value.required Value.text? (record.member 0 "id")
  let name ← Value.required Value.text? (record.member 1 "name")
  let role ← Value.required Value.text? (record.member 2 "role")
  let stats ← Value.required StatBlock.ofValue? (record.member 3 "stats")
  let gear ← Value.defaulted [] (Value.list? (gearOfValue? origin)) (record.member 4 "gear")
  return { id, name, role, stats, gear }

end Fighter

namespace Roster

def effects? (origin : Value.Origin) : Value → Option (List Effect) :=
  Value.list? (Effect.ofValue? origin)

/-- The members of the fighter stand beside those of the hero and are gathered. -/
def heroOfValue? (origin : Value.Origin) (value : Value) : Option Hero := do
  let record ← value.named?
  let fighter ← Fighter.ofRecord? origin.gather record
  let ability ← Value.required Value.text? (record.member 5 "ability")
  let opening ← Value.defaulted [] (effects? origin) (record.member 6 "opening")
  return { fighter, ability, opening }

/-- The members of the fighter stand beside those of the enemy and are gathered. -/
def enemyOfValue? (origin : Value.Origin) (value : Value) : Option Enemy := do
  let record ← value.named?
  let fighter ← Fighter.ofRecord? origin.gather record
  let abilities ← Value.required (WeightedTable.ofValue? origin) (record.member 5 "abilities")
  let loot ← Value.defaulted [] (effects? origin) (record.member 6 "loot")
  return { fighter, abilities, loot }

def ofValue? (origin : Value.Origin) (value : Value) : Option Roster := do
  let record ← value.record? origin 3
  let heroes ← Value.required (Value.list? (heroOfValue? origin)) (record.member 0 "heroes")
  let enemies ← Value.required (Value.list? (enemyOfValue? origin)) (record.member 1 "enemies")
  let abilities ← Value.required (Value.idMap? (effects? origin)) (record.member 2 "abilities")
  return { heroes, enemies, abilities }

end Roster
end Combat
