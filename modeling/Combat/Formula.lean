import Combat.Binary64.Decimal
import Combat.Stat.Block
import Combat.Value.Record

/-!
Amounts that scale with stats: a base, plus a multiple of each of some stats, rounded down. What is
shown to a reader is built from the same terms as the value.
-/

namespace Combat

structure Formula where
  base : Float
  scaling : IdMap Float := {}
  deriving DecidableEq

/-- What one stat adds; nothing is known without stats to read. -/
structure Formula.Term where
  stat : String
  multiplier : Float
  contribution : Option Float

/-- A formula laid out for a reader. -/
structure Formula.Breakdown where
  base : Float
  terms : List Formula.Term
  /-- The value, once every term is known. -/
  total : Option Int

namespace Formula

def flat (base : Float) : Formula := { base }

def withScaling (formula : Formula) (stat : String) (multiplier : Float) : Formula :=
  { formula with scaling := formula.scaling.insert stat multiplier }

def isScaling (formula : Formula) : Bool := !formula.scaling.isEmpty

/-- One term per scaling stat, by id. An empty block gives nothing to read. -/
def terms (formula : Formula) (source : Option StatBlock) : List Term :=
  let readable := source.filter (!·.isEmpty)
  formula.scaling.entries.map fun (stat, multiplier) =>
    { stat, multiplier
      contribution := readable.map fun stats => Float.ofInt (stats.value stat) * multiplier }

/-- The known contributions, added up from negative zero. -/
def scaled (formula : Formula) (source : Option StatBlock) : Float :=
  ((formula.terms source).filterMap (·.contribution)).foldl (· + ·) (-0.0)

def evaluate (formula : Formula) (source : Option StatBlock) : Int :=
  Binary64.toInt (Binary64.floor (formula.base + formula.scaled source))

def describe (formula : Formula) (source : Option StatBlock) : Breakdown :=
  let terms := formula.terms source
  { base := formula.base
    terms
    total := if terms.all (·.contribution.isSome) then some (formula.evaluate source) else none }

def Term.text (term : Term) : String :=
  match term.contribution with
  | some value => s!" + {Binary64.text value} ({term.stat})"
  | none => s!" + {Binary64.text term.multiplier} × {term.stat}"

def Breakdown.text (breakdown : Breakdown) : String :=
  if breakdown.terms.isEmpty then Binary64.text (Binary64.floor breakdown.base)
  else
    let total := match breakdown.total with
      | some total => s!" = {total}"
      | none => ""
    Binary64.text breakdown.base ++ String.join (breakdown.terms.map Term.text) ++ total

/-! ### Written form -/

def toValue (formula : Formula) : Value :=
  .table (("base", Value.ofFloat formula.base) ::
    if formula.isScaling then [("scaling", Value.ofIdMap Value.ofFloat formula.scaling)] else [])

/-- A bare number, or a table of an optional base and optional multipliers. -/
def ofValue? (value : Value) : Option Formula :=
  match value.float? with
  | some base => some (flat base)
  | none => do
    let record ← value.named?
    let base ← Value.defaulted 0.0 Value.float? (record.member 0 "base")
    let scaling ← Value.defaulted {} (Value.idMap? Value.float?) (record.member 1 "scaling")
    return { base, scaling }

end Formula
end Combat
