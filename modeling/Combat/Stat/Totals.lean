import Combat.Stat.Block

/-!
Totals of flat and percent changes per stat. The percents of a stat add up before they multiply
its flat total, and the product is rounded down.
-/

namespace Combat

structure Totals where
  flat : StatBlock := {}
  percent : StatBlock := {}

namespace Totals

def addFlat (totals : Totals) (stat : String) (amount : Int) : Checked Totals := do
  return { totals with flat := ← totals.flat.add stat amount }

def addPercent (totals : Totals) (stat : String) (amount : Int) : Checked Totals := do
  return { totals with percent := ← totals.percent.add stat amount }

def addBlock (totals : Totals) (block : StatBlock) : Checked Totals := do
  return { totals with flat := ← totals.flat.merge block }

/-- `flat` raised by so many percent. -/
def raised (flat percent : Int) : Checked Int := do
  return (← Checked.mul flat (← Checked.add 100 percent)) / 100

/-- The stats with a flat total, each raised by its percents. -/
def finish (totals : Totals) : Checked StatBlock :=
  totals.flat.entries.foldlM (fun done entry => do
    return done.insert entry.1 (← raised entry.2 (totals.percent.value entry.1))) {}

end Totals
end Combat
