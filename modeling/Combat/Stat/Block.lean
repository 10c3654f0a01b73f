import Combat.Checked
import Combat.IdMap

/-!
Blocks of stats: an integer under each stat id. A stat that a block does not list reads as zero.
-/

namespace Combat

abbrev StatBlock := IdMap Int

namespace StatBlock

def value (block : StatBlock) (stat : String) : Int := (block.get? stat).getD 0

def add (block : StatBlock) (stat : String) (amount : Int) : Checked StatBlock := do
  return block.insert stat (← Checked.add (block.value stat) amount)

/-- Adds each of the pairs in turn. -/
def addAll (block : StatBlock) (pairs : List (String × Int)) : Checked StatBlock :=
  pairs.foldlM (fun block pair => block.add pair.1 pair.2) block

/-- Adds every stat of the other block. -/
def merge (block other : StatBlock) : Checked StatBlock := block.addAll other.entries

/-- Pairs of the same stat add up. -/
def ofPairs (pairs : List (String × Int)) : Checked StatBlock := addAll {} pairs

/-- The stat that bounds a character's hitpoints. -/
def hitpoints : String := "hitpoints"

end StatBlock
end Combat
