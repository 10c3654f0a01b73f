import Combat.Effect.Codec
import Combat.Seat

/-!
Outcomes: the record of what an effect did, change by change.
-/

namespace Combat

namespace Side

def ofValue? : Value.Origin → Value → Option Side := Value.case? all name

end Side

namespace Position

def ofValue? : Value.Origin → Value → Option Position := Value.case? all name

end Position

namespace Seat

def toValue (seat : Seat) : Value :=
  .table [("side", .text seat.side.name), ("position", .text seat.position.name)]

def ofValue? (origin : Value.Origin) (value : Value) : Option Seat := do
  let record ← value.record? origin 2
  let side ← Value.required (Side.ofValue? origin) (record.member 0 "side")
  let position ← Value.required (Position.ofValue? origin) (record.member 1 "position")
  return { side, position }

end Seat

/-- One change made by an effect. -/
inductive Change where
  | damage (target : Seat) (amount : Int) (killing : Bool)
  | heal (target : Seat) (amount : Int)
  | energyRestored (target : Seat) (amount : Int)
  | revived (target : Seat) (hitpoints : Int)
  /-- With the stacks of the aura afterwards, over all sources. -/
  | auraApplied (target : Seat) (aura : String) (stackCount : Count)
  | auraRemoved (target : Seat) (aura : String)
  /-- Part of the stats, not applied by itself. -/
  | statModifier (stat : String) (amount : Int) (percent : Bool)
  | materialGranted (id : String) (amount : Count)
  | materialConsumed (id : String) (amount : Count)
  deriving DecidableEq

structure Outcome where
  type : EffectType
  /-- Whom the selector stood for. -/
  targets : List Seat
  changes : List Change
  /-- Its limit was used up, so it did nothing. -/
  blocked : Bool := false
  deriving DecidableEq

namespace Change

def damageAmount : Change → Int
  | .damage _ amount _ => amount
  | _ => 0

def healAmount : Change → Int
  | .heal _ amount => amount
  | _ => 0

def isKilling : Change → Bool
  | .damage _ _ killing => killing
  | _ => false

/-- A number with its sign, plus included. -/
def signed (n : Int) : String := if 0 ≤ n then s!"+{n}" else s!"{n}"

/-- What a summary says of one change; damage and heals are summed up instead. -/
def summary? : Change → Option String
  | .damage .. | .heal .. => none
  | .energyRestored _ amount => some s!"{amount} energy"
  | .revived _ hitpoints => some s!"revived at {hitpoints} hp"
  | .auraApplied _ aura stackCount => some s!"{aura} x{stackCount.val}"
  | .auraRemoved _ aura => some s!"{aura} removed"
  | .statModifier stat amount percent =>
    some (signed amount ++ (if percent then "%" else "") ++ " " ++ stat)
  | .materialGranted id amount => some s!"+{amount.val} {id}"
  | .materialConsumed id amount => some s!"-{amount.val} {id}"

end Change

namespace Outcome

def blockedBy (type : EffectType) : Outcome :=
  { type, targets := [], changes := [], blocked := true }

def totalDamage (outcome : Outcome) : Checked Int :=
  Checked.sum (outcome.changes.map Change.damageAmount)

def totalHealing (outcome : Outcome) : Checked Int :=
  Checked.sum (outcome.changes.map Change.healAmount)

def killingBlows (outcome : Outcome) : Nat := (outcome.changes.filter Change.isKilling).length

/-- Nothing changed. -/
def isNoop (outcome : Outcome) : Bool := outcome.changes.isEmpty

/-- Totals first, then the single changes, and at last whether someone died. -/
def summary (outcome : Outcome) : Checked String :=
  if outcome.blocked then return outcome.type.name ++ " blocked by limit"
  else do
    let damage ← outcome.totalDamage
    let healing ← outcome.totalHealing
    let parts :=
      (if 0 < damage then [s!"{damage} damage"] else [])
        ++ (if 0 < healing then [s!"{healing} healed"] else [])
        ++ outcome.changes.filterMap Change.summary?
        ++ (if 0 < outcome.killingBlows then ["FATAL"] else [])
    return if parts.isEmpty then outcome.type.name ++ " had no effect" else ", ".intercalate parts

end Outcome
end Combat
