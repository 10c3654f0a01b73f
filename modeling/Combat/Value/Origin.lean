import Combat.Value

/-!
Where a value was found. A TOML text may write a record or the name of a case more freely than a
JSON text, and members that were gathered under one table before their record was known follow
rules of their own.
-/

namespace Combat.Value

inductive Format where
  | json
  | toml
  deriving DecidableEq

structure Origin where
  format : Format
  /-- Whether it was gathered with other members of its table and read after them. -/
  gathered : Bool
  deriving DecidableEq

namespace Origin

def json : Origin := ⟨.json, false⟩

def toml : Origin := ⟨.toml, false⟩

/-- The origin of values inside members that are gathered. -/
def gather (origin : Origin) : Origin := { origin with gathered := true }

/-- Whether the items of a list after the last member of a record are passed over. -/
def allowsSurplus (origin : Origin) : Bool := origin = toml

/-- Says nothing, and so may stand under the name of a case. -/
def isHollow (origin : Origin) : Value → Bool
  | .null => true
  | .table [] => origin ≠ json
  | .list [] => origin = toml
  | _ => false

/-- A type that is gathered may be given by its position instead of its name. -/
def numbersCases (origin : Origin) : Bool := origin.format = .json

end Origin
end Combat.Value
