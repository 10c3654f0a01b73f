import Combat.Seat
import Combat.Stat.Totals

/-!
Where a character's stats come from: innate stats, worn items and active auras. Sources are added
up by rising priority.
-/

namespace Combat

/-- A change of one stat by an active aura. -/
structure StatModifier where
  aura : String
  stat : String
  value : Int
  percent : Bool
  deriving DecidableEq, Repr

inductive StatSource where
  | innate (stats : StatBlock)
  | worn (slot : GearSlot) (stats : StatBlock)
  | auras (modifiers : List StatModifier)

namespace StatSource

def id : StatSource → String
  | .innate _ => "base_stats"
  | .worn slot _ => "gear_" ++ slot.name
  | .auras _ => "auras"

def priority : StatSource → Int
  | .innate _ => -100
  | .worn .. => 0
  | .auras _ => 200

def addModifier (totals : Totals) (modifier : StatModifier) : Checked Totals :=
  if modifier.percent then totals.addPercent modifier.stat modifier.value
  else totals.addFlat modifier.stat modifier.value

def addTo (totals : Totals) : StatSource → Checked Totals
  | .innate stats => totals.addBlock stats
  | .worn _ stats => totals.addBlock stats
  | .auras modifiers => modifiers.foldlM addModifier totals

end StatSource

/-- The stats that the sources come to. -/
def StatBlock.ofSources (sources : List StatSource) : Checked StatBlock := do
  (← sources.foldlM StatSource.addTo {}).finish

end Combat
