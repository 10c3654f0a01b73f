import Combat.Arithmetic
import Combat.Effect.Basic

/-!
Drawing an effect's amount from a carried aura. An aura may store an amount; a split effect hands
it out in shares of one stack each, rounded up, and the pool that is left never lies below the
effect's own amount for every stack.
-/

namespace Combat.Aura

/-- The share handed out, and what the aura stores afterwards. -/
def drawShare {α : Type} [Arithmetic α] (stored : Option α) (stackCount : Count) (evaluated : Int) :
    Int × Option α :=
  if stackCount.val = 0 then (0, stored)
  else
    let count : α := Arithmetic.ofInt stackCount.toInt
    let floor : α := Arithmetic.mul (Arithmetic.ofInt evaluated) count
    let pool := stored.getD floor
    let share := Arithmetic.ceil (Arithmetic.div pool count)
    (Arithmetic.toInt share, some (Arithmetic.max (Arithmetic.sub pool share) floor))

/-- The stored amount, or else the effect's own, rounded down; once per stack if it counts so. -/
def drawWhole {α : Type} [Arithmetic α] (stored : Option α) (stackCount : Count) (perStack : Bool)
    (evaluated : Int) : Int :=
  let value := stored.getD (Arithmetic.ofInt evaluated)
  Arithmetic.toInt <| Arithmetic.floor <|
    if perStack then Arithmetic.mul value (Arithmetic.ofInt stackCount.toInt) else value

/-- What the effect delivers and what the aura stores afterwards. Splitting comes before counting
per stack. -/
def draw {α : Type} [Arithmetic α] (effect : Effect) (stored : Option α) (stackCount : Count)
    (evaluated : Int) : Int × Option α :=
  if effect.split then drawShare stored stackCount evaluated
  else (drawWhole stored stackCount effect.stack evaluated, stored)

end Combat.Aura
