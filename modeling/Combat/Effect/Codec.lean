import Combat.Effect.Basic

/-!
The written form of effects. The kind's own members stand beside those of the effect; members that
say nothing are left out, and members that are missing take their defaults.
-/

namespace Combat

namespace Trigger

def toValue (trigger : Trigger) : Value := .text trigger.name

def ofValue? (origin : Value.Origin) (value : Value) : Option Trigger :=
  (Value.name? origin value).map ofName

end Trigger

namespace Selector

def toValue (selector : Selector) : Value := .text selector.name

def ofValue? (origin : Value.Origin) (value : Value) : Option Selector :=
  (Value.name? origin value).map ofName

end Selector

namespace LimitScope

def toValue (scope : LimitScope) : Value := .text scope.name

def ofValue? : Value.Origin → Value → Option LimitScope := Value.case? all name

end LimitScope

namespace PartyScope

def toValue (scope : PartyScope) : Value := .text scope.name

def ofValue? : Value.Origin → Value → Option PartyScope := Value.case? all name

end PartyScope

namespace HealMode

def toValue (mode : HealMode) : Value := .text mode.name

def ofValue? : Value.Origin → Value → Option HealMode := Value.case? all name

end HealMode

namespace EffectType

def toValue (type : EffectType) : Value := .text type.name

def ofName? (s : String) : Option EffectType := all.find? (·.name = s)

def ofValue? : Value.Origin → Value → Option EffectType := Value.case? all name

end EffectType

namespace EffectKind

/-- The name under `type`. -/
def typeName (kind : EffectKind) : String := (kind.type?.map (·.name)).getD "unknown"

/-- The members apart from `type`. -/
def details : EffectKind → List (String × Value)
  | .damage stat => Value.member "stat" .text stat
  | .heal mode => [("mode", mode.toValue)]
  | .statModifier stat percent => [("stat", .text stat), ("percent", .bool percent)]
  | .applyAura _ id | .removeAura _ id | .grantMaterial id | .consumeMaterial id =>
    [("id", .text id)]
  | .restoreEnergy | .revive | .unknown => []

def members (kind : EffectKind) : List (String × Value) :=
  ("type", .text kind.typeName) :: kind.details

/-- The members that a kind of the given type has, read from a record that may hold more. They are
gathered, since the type alone tells which of them count. -/
def ofDetails? (origin : Value.Origin) (type : EffectType) (record : Value.Record) :
    Option EffectKind :=
  let id := Value.required Value.text? (record.member 0 "id")
  match type with
  | .damage => do return .damage (← Value.optional Value.text? (record.member 0 "stat"))
  | .heal => do
    let mode := Value.defaulted .flat (HealMode.ofValue? origin.gather)
    return .heal (← mode (record.member 0 "mode"))
  | .restoreEnergy => some .restoreEnergy
  | .revive => some .revive
  | .applyAura kind => id.map (.applyAura kind)
  | .removeAura kind => id.map (.removeAura kind)
  | .statModifier => do
    let stat ← Value.required Value.text? (record.member 0 "stat")
    let percent ← Value.defaulted false Value.bool? (record.member 1 "percent")
    return .statModifier stat percent
  | .grantMaterial => id.map .grantMaterial
  | .consumeMaterial => id.map .consumeMaterial

/-- How many members a kind of the type has. -/
def size : EffectType → Nat
  | .restoreEnergy | .revive => 0
  | .statModifier => 2
  | _ => 1

/-- A type that is not known is no failure. -/
def ofRecord? (origin : Value.Origin) (type : Option EffectType) (record : Value.Record) :
    Option EffectKind :=
  match type with
  | some type => ofDetails? origin type record
  | none => some .unknown

/-- A table with the type under `type`, or a list that begins with it. -/
def ofValue? (origin : Value.Origin) : Value → Option EffectKind
  | .table entries => do
    let type ← Value.required Value.text? (IdMap.find "type" entries)
    ofRecord? origin (EffectType.ofName? type) (.named entries)
  | .list (.text type :: items) =>
    let type := EffectType.ofName? type
    if items.length ≤ (type.map size).getD 0 then ofRecord? origin type (.ordered items) else none
  | _ => none

end EffectKind

namespace Effect

/-- The members apart from those of the kind. -/
def settings (effect : Effect) : List (String × Value) :=
  [("target", effect.target.toValue)]
    ++ Value.member "party" PartyScope.toValue effect.party
    ++ [("trigger", effect.trigger.toValue)]
    ++ Value.member "amount" Formula.toValue effect.amount
    ++ Value.member "stacks" Formula.toValue effect.stackCount
    ++ [("consume", .bool effect.consume), ("stack", .bool effect.stack),
      ("split", .bool effect.split)]
    ++ Value.member "limit" LimitScope.toValue effect.limit
    ++ Value.member "times" (fun times => .int times.toInt) effect.times

def toValue (effect : Effect) : Value := .table (effect.kind.members ++ effect.settings)

/-- The type of an effect, if it is known. It is gathered with the members of the kind, and a
position counts the types from zero. -/
def typeOfValue? (origin : Value.Origin) : Value → Option (Option EffectType)
  | .text s => some (EffectType.ofName? s)
  | .int n => if origin.numbersCases && 0 ≤ n then some EffectType.all[n.toNat]? else none
  | _ => none

def ofEntries? (origin : Value.Origin) (entries : List (String × Value)) : Option Effect := do
  let member (key : String) := IdMap.find key entries
  let type ← Value.required (typeOfValue? origin) (member "type")
  let kind ← EffectKind.ofRecord? origin type (.named entries)
  let selector ← Value.defaulted .target (Selector.ofValue? origin) (member "target")
  let party ← Value.optional (PartyScope.ofValue? origin) (member "party")
  let trigger ← Value.defaulted .immediate (Trigger.ofValue? origin) (member "trigger")
  let amount ← Value.optional Formula.ofValue? (member "amount")
  let stackCount ← Value.optional Formula.ofValue? (member "stacks")
  let consume ← Value.defaulted false Value.bool? (member "consume")
  let stack ← Value.defaulted false Value.bool? (member "stack")
  let split ← Value.defaulted false Value.bool? (member "split")
  let limit ← Value.optional (LimitScope.ofValue? origin) (member "limit")
  let times ← Value.optional Value.count? (member "times")
  return {
    kind, party, trigger, amount, stackCount, consume, stack, split, limit, times
    target := selector }

def ofValue? (origin : Value.Origin) : Value → Option Effect
  | .table entries => ofEntries? origin entries
  | _ => none

end Effect
end Combat
