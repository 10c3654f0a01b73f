import Combat.Aura.Basic
import Combat.Effect.Codec
import Combat.Text.Blank

/-!
Auras as content declares them: policies are flags, and a declaration with two flags for one policy
is refused.
-/

namespace Combat

/-- Why a declaration is no aura. -/
inductive AuraError where
  | blankId
  | twoStackPolicies (id : String)
  | twoAmountPolicies (id : String)
  deriving DecidableEq

def AuraError.message : AuraError → String
  | .blankId => "aura has an empty id"
  | .twoStackPolicies id => s!"aura '{id}' sets both `stack` and `refresh`"
  | .twoAmountPolicies id => s!"aura '{id}' sets both `accumulate` and `overwrite`"

structure AuraDeclaration where
  id : String
  name : String := ""
  description : String := ""
  effects : List Effect := []
  combine : Bool := false
  stack : Bool := false
  refresh : Bool := false
  accumulate : Bool := false
  overwrite : Bool := false
  deriving DecidableEq

namespace AuraDeclaration

def stackPolicy (declaration : AuraDeclaration) : Except AuraError StackPolicy :=
  match declaration.stack, declaration.refresh with
  | true, true => .error (.twoStackPolicies declaration.id)
  | true, false => .ok .stack
  | false, true => .ok .refresh
  | false, false => .ok .keep

def amountPolicy (declaration : AuraDeclaration) : Except AuraError AmountPolicy :=
  match declaration.accumulate, declaration.overwrite with
  | true, true => .error (.twoAmountPolicies declaration.id)
  | true, false => .ok .accumulate
  | false, true => .ok .overwrite
  | false, false => .ok .keep

/-- The aura declared, named by its id if it has no name. -/
def aura (declaration : AuraDeclaration) : Except AuraError Aura :=
  if Text.isBlank declaration.id then .error .blankId
  else do
    let stackPolicy ← declaration.stackPolicy
    let amountPolicy ← declaration.amountPolicy
    return {
      id := declaration.id
      name := if declaration.name = "" then declaration.id else declaration.name
      description := declaration.description
      effects := declaration.effects
      combine := declaration.combine
      stackPolicy, amountPolicy }

def ofValue? (origin : Value.Origin) (value : Value) : Option AuraDeclaration := do
  let record ← value.record? origin 9
  let flag (index : Nat) (name : String) :=
    Value.defaulted false Value.bool? (record.member index name)
  let id ← Value.required Value.text? (record.member 0 "id")
  let name ← Value.defaulted "" Value.text? (record.member 1 "name")
  let description ← Value.defaulted "" Value.text? (record.member 2 "description")
  let effects ←
    Value.defaulted [] (Value.list? (Effect.ofValue? origin)) (record.member 3 "effects")
  let combine ← flag 4 "combine"
  let stack ← flag 5 "stack"
  let refresh ← flag 6 "refresh"
  let accumulate ← flag 7 "accumulate"
  let overwrite ← flag 8 "overwrite"
  return { id, name, description, effects, combine, stack, refresh, accumulate, overwrite }

end AuraDeclaration
end Combat
