import Combat.Effect.Basic

/-!
Auras: named bundles of effects that a character carries in stacks. The policies say what applying
an aura again does to the stacks and the stored amount it already has.
-/

namespace Combat

/-- What applying again does to the stacks. -/
inductive StackPolicy where
  /-- Adds the new stacks. -/
  | stack
  /-- Takes the new count. -/
  | refresh
  /-- Keeps the higher count. -/
  | keep
  deriving DecidableEq, Repr

namespace StackPolicy

def all : List StackPolicy := [.stack, .refresh, .keep]

def name : StackPolicy → String
  | .stack => "stack"
  | .refresh => "refresh"
  | .keep => "keep"

def merge (policy : StackPolicy) (held applied : Count) : Count :=
  match policy with
  | .stack => held.add applied
  | .refresh => applied
  | .keep => held.max applied

end StackPolicy

/-- What applying again does to the stored amount. -/
inductive AmountPolicy where
  /-- Adds the new amount. -/
  | accumulate
  /-- Takes the new amount. -/
  | overwrite
  /-- Keeps the first amount. -/
  | keep
  deriving DecidableEq, Repr

namespace AmountPolicy

def all : List AmountPolicy := [.accumulate, .overwrite, .keep]

def name : AmountPolicy → String
  | .accumulate => "accumulate"
  | .overwrite => "overwrite"
  | .keep => "keep"

def merge (policy : AmountPolicy) (held applied : Option Float) : Option Float :=
  match policy with
  | .accumulate =>
    match held, applied with
    | some a, some b => some (a + b)
    | held, applied => held <|> applied
  | .overwrite => applied <|> held
  | .keep => held <|> applied

end AmountPolicy

structure Aura where
  id : String
  name : String
  description : String := ""
  /-- In the order in which they fire. -/
  effects : List Effect := []
  /-- Merges with the same aura of any source. -/
  combine : Bool := false
  stackPolicy : StackPolicy := .keep
  amountPolicy : AmountPolicy := .keep
  deriving DecidableEq

namespace Aura

def withEffect (aura : Aura) (effect : Effect) : Aura :=
  { aura with effects := aura.effects ++ [effect] }

def withStackPolicy (aura : Aura) (policy : StackPolicy) : Aura :=
  { aura with stackPolicy := policy }

def withAmountPolicy (aura : Aura) (policy : AmountPolicy) : Aura :=
  { aura with amountPolicy := policy }

def combined (aura : Aura) : Aura := { aura with combine := true }

end Aura
end Combat
