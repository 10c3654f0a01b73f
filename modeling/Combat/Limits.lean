import Combat.Effect.Codec
import Combat.Value.Json.Printer

/-!
Limits on how often an effect fires. Uses are counted by source and by what identifies an effect,
in spans of a turn, a round or the whole fight.
-/

namespace Combat

/-- A formula as it identifies an effect: numbers that are not finite are all one. -/
structure FormulaSignature where
  base : Option Float
  scaling : List (String × Option Float)
  deriving DecidableEq

/-- What identifies an effect. -/
structure Signature where
  type : Option EffectType
  trigger : Trigger
  reference : Option String
  stat : Option String
  amount : Option FormulaSignature
  deriving DecidableEq

def Formula.signature (formula : Formula) : FormulaSignature :=
  let finite (x : Float) := if Binary64.isFinite x then some x else none
  { base := finite formula.base
    scaling := formula.scaling.entries.map fun entry => (entry.1, finite entry.2) }

def Effect.signature (effect : Effect) : Signature :=
  { type := effect.type?
    trigger := effect.trigger
    reference := effect.kind.reference?
    stat := effect.kind.stat?
    amount := effect.amount.map Formula.signature }

def FormulaSignature.toValue (signature : FormulaSignature) : Value :=
  let number := Value.ofOption .float
  .table (("base", number signature.base) ::
    if signature.scaling.isEmpty then []
    else
      [("scaling", .table (signature.scaling.map fun entry => (entry.1, number entry.2)))])

namespace Signature

def toValue (signature : Signature) : Value :=
  .table [("type", Value.ofOption EffectType.toValue signature.type),
    ("trigger", signature.trigger.toValue),
    ("id", Value.ofOption .text signature.reference),
    ("stat", Value.ofOption .text signature.stat),
    ("amount", Value.ofOption FormulaSignature.toValue signature.amount)]

/-- The signature as a text. -/
def text (signature : Signature) : String := signature.toValue.toJson

end Signature

/-- A source and an effect. -/
abbrev LimitKey := String × Signature

/-- Uses by key; a key that is missing has none. -/
abbrev UseCounts := List (LimitKey × Count)

namespace UseCounts

def count (key : LimitKey) : UseCounts → Count
  | [] => 0
  | (k, n) :: rest => if k = key then n else count key rest

/-- One more use. -/
def record (key : LimitKey) : UseCounts → Checked UseCounts
  | [] => .ok [(key, 1)]
  | (k, n) :: rest =>
    if k = key then do return (k, ← n.addChecked 1) :: rest
    else do return (k, n) :: (← record key rest)

end UseCounts

structure LimitTracker where
  combat : UseCounts := []
  round : UseCounts := []
  turn : UseCounts := []
  deriving DecidableEq

namespace LimitTracker

def counts (tracker : LimitTracker) : LimitScope → UseCounts
  | .combat => tracker.combat
  | .round => tracker.round
  | .turn => tracker.turn

def setCounts (tracker : LimitTracker) (scope : LimitScope) (counts : UseCounts) : LimitTracker :=
  match scope with
  | .combat => { tracker with combat := counts }
  | .round => { tracker with round := counts }
  | .turn => { tracker with turn := counts }

/-- How often the effect fired for the source in the current span. -/
def count (tracker : LimitTracker) (scope : LimitScope) (effect : Effect) (source : String) :
    Count :=
  (tracker.counts scope).count (source, effect.signature)

/-- Whether the effect may fire once more. -/
def canFire (tracker : LimitTracker) (effect : Effect) (source : String) : Bool :=
  match effect.limit with
  | none => true
  | some scope => (tracker.count scope effect source).val < effect.allowance.val

/-- Counts a use; effects without a limit are not counted. -/
def record (tracker : LimitTracker) (effect : Effect) (source : String) : Checked LimitTracker :=
  match effect.limit with
  | none => return tracker
  | some scope => do
    return tracker.setCounts scope (← (tracker.counts scope).record (source, effect.signature))

/-- Starts a span anew; the fight starts all three. -/
def reset (tracker : LimitTracker) : LimitScope → LimitTracker
  | .combat => {}
  | .round => { tracker with round := [] }
  | .turn => { tracker with turn := [] }

end LimitTracker
end Combat
