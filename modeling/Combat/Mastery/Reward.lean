import Combat.Effect.Codec

/-!
Rewards of mastery: a type, a value and free parameters. A reward whose type is that of an effect
can be resolved as that effect.
-/

namespace Combat

structure Reward where
  type : String
  value : Float := 0.0
  params : IdMap Value := {}

namespace Reward

def withParam (reward : Reward) (key : String) (value : Value) : Reward :=
  { reward with params := reward.params.insert key value }

/-- The reward of a milestone that grows with the level. -/
def scaledBy (reward : Reward) (level : Count) : Reward :=
  { reward with value := reward.value * Float.ofInt level.toInt }

/-- The parameters as an effect is written, under the reward's own type and with its value as the
amount. -/
def effectEntries (reward : Reward) : List (String × Value) :=
  ((reward.params.insert "type" (.text reward.type)).insert "amount"
    (Value.ofFloat reward.value)).entries

/-- The effect that the reward is, if its type is one and the parameters fit. -/
def effect? (reward : Reward) : Option Effect := do
  let effect ← Effect.ofEntries? .json reward.effectEntries
  if effect.type?.isSome then return effect else none

/-! ### Written form -/

mutual

/-- Numbers that are not finite stand as null among parameters. -/
def plain : Value → Value
  | .float x => Value.ofFloat x
  | .list items => .list (plainItems items)
  | .table entries => .table (plainEntries entries)
  | value => value

def plainItems : List Value → List Value
  | [] => []
  | item :: rest => plain item :: plainItems rest

def plainEntries : List (String × Value) → List (String × Value)
  | [] => []
  | (key, value) :: rest => (key, plain value) :: plainEntries rest

end

def toValue (reward : Reward) : Value :=
  .table (("type", .text reward.type) :: ("value", Value.ofFloat reward.value)
    :: reward.params.entries)

/-- Every member besides `type` and `value` is a parameter. -/
def ofValue? : Value → Option Reward
  | .table entries => do
    let type ← Value.required Value.text? (IdMap.find "type" entries)
    let value ← Value.defaulted 0.0 Value.float? (IdMap.find "value" entries)
    let others := entries.filter fun entry => entry.1 ≠ "type" && entry.1 ≠ "value"
    return { type, value, params := .ofList (plainEntries others) }
  | _ => none

end Reward
end Combat
