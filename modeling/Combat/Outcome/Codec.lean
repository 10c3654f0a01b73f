import Combat.Character
import Combat.Outcome

/-!
The written form of outcomes. The name of a change stands under `kind`, beside its members.
-/

namespace Combat

namespace Change

def toValue (change : Change) : Value :=
  let written (kind : String) (members : List (String × Value)) : Value :=
    .table (("kind", .text kind) :: members)
  match change with
  | .damage target amount killing =>
    written "damage"
      [("target", target.toValue), ("amount", .int amount), ("killing_blow", .bool killing)]
  | .heal target amount => written "heal" [("target", target.toValue), ("amount", .int amount)]
  | .energyRestored target amount =>
    written "energy_restored" [("target", target.toValue), ("amount", .int amount)]
  | .revived target hitpoints =>
    written "revived" [("target", target.toValue), ("hitpoints", .int hitpoints)]
  | .auraApplied target aura stackCount =>
    written "aura_applied"
      [("target", target.toValue), ("aura_id", .text aura), ("stacks", .int stackCount.toInt)]
  | .auraRemoved target aura =>
    written "aura_removed" [("target", target.toValue), ("aura_id", .text aura)]
  | .statModifier stat amount percent =>
    written "stat_modifier"
      [("stat", .text stat), ("amount", .int amount), ("percent", .bool percent)]
  | .materialGranted id amount =>
    written "material_granted" [("id", .text id), ("amount", .int amount.toInt)]
  | .materialConsumed id amount =>
    written "material_consumed" [("id", .text id), ("amount", .int amount.toInt)]

/-- How many members stand beside the kind. -/
def size : String → Nat
  | "damage" | "aura_applied" | "stat_modifier" => 3
  | _ => 2

/-- The members are gathered, since the kind alone tells which of them count. -/
def ofRecord? (origin : Value.Origin) (kind : String) (record : Value.Record) : Option Change :=
  let target := Value.required (Seat.ofValue? origin.gather) (record.member 0 "target")
  let amount := Value.required Value.int? (record.member 1 "amount")
  let aura := Value.required Value.text? (record.member 1 "aura_id")
  let id := Value.required Value.text? (record.member 0 "id")
  let quantity := Value.required Value.count? (record.member 1 "amount")
  match kind with
  | "damage" => do
    let killing ← Value.required Value.bool? (record.member 2 "killing_blow")
    return .damage (← target) (← amount) killing
  | "heal" => do return .heal (← target) (← amount)
  | "energy_restored" => do return .energyRestored (← target) (← amount)
  | "revived" => do
    return .revived (← target) (← Value.required Value.int? (record.member 1 "hitpoints"))
  | "aura_applied" => do
    let stackCount ← Value.required Value.count? (record.member 2 "stacks")
    return .auraApplied (← target) (← aura) stackCount
  | "aura_removed" => do return .auraRemoved (← target) (← aura)
  | "stat_modifier" => do
    let stat ← Value.required Value.text? (record.member 0 "stat")
    let percent ← Value.required Value.bool? (record.member 2 "percent")
    return .statModifier stat (← amount) percent
  | "material_granted" => do return .materialGranted (← id) (← quantity)
  | "material_consumed" => do return .materialConsumed (← id) (← quantity)
  | _ => none

/-- A table with the kind under `kind`, or a list that begins with it. -/
def ofValue? (origin : Value.Origin) : Value → Option Change
  | .table entries => do
    let kind ← Value.required Value.text? (IdMap.find "kind" entries)
    ofRecord? origin kind (.named entries)
  | .list (.text kind :: items) =>
    if items.length ≤ size kind then ofRecord? origin kind (.ordered items) else none
  | _ => none

end Change

namespace Outcome

def toValue (outcome : Outcome) : Value :=
  .table [("effect_type", outcome.type.toValue),
    ("targets", .list (outcome.targets.map Seat.toValue)),
    ("applied", .list (outcome.changes.map Change.toValue)),
    ("blocked_by_limit", .bool outcome.blocked)]

def ofValue? (origin : Value.Origin) (value : Value) : Option Outcome := do
  let record ← value.record? origin 4
  let type ← Value.required (EffectType.ofValue? origin) (record.member 0 "effect_type")
  let targets ← Value.required (Value.list? (Seat.ofValue? origin)) (record.member 1 "targets")
  let changes ← Value.required (Value.list? (Change.ofValue? origin)) (record.member 2 "applied")
  let blocked ← Value.required Value.bool? (record.member 3 "blocked_by_limit")
  return { type, targets, changes, blocked }

end Outcome

namespace Blow

def toValue (blow : Blow) : Value :=
  .table [("amount", .int blow.amount), ("hitpoints_before", .int blow.before),
    ("hitpoints_after", .int blow.after), ("killing_blow", .bool blow.killing)]

end Blow
end Combat
