import Combat.Count
import Combat.Value.Origin

/-!
Reading typed data out of values. A record is a table with its members under their names, or a list
of its members in order. Members that no record asks for are passed over.
-/

namespace Combat.Value
variable {α : Type}

inductive Record where
  | named (entries : List (String × Value))
  | ordered (items : List Value)

/-- The value as a record of so many members. -/
def record? (origin : Origin) (size : Nat) : Value → Option Record
  | .table entries => some (.named entries)
  | .list items =>
    if items.length ≤ size || origin.allowsSurplus then some (.ordered items) else none
  | _ => none

/-- The value as a record that is always written with names. -/
def named? : Value → Option Record
  | .table entries => some (.named entries)
  | _ => none

def Record.member (record : Record) (index : Nat) (name : String) : Option Value :=
  match record with
  | .named entries => IdMap.find name entries
  | .ordered items => items[index]?

/-- A member that has to be there. -/
def required (read : Value → Option α) (value : Option Value) : Option α := value.bind read

/-- A member with a value of its own when it is missing. -/
def defaulted (fallback : α) (read : Value → Option α) : Option Value → Option α
  | none => some fallback
  | some value => read value

/-- A member that may be missing or null. -/
def optional (read : Value → Option α) : Option Value → Option (Option α)
  | none => some none
  | some .null => some none
  | some value => (read value).map some

def bool? : Value → Option Bool
  | .bool b => some b
  | _ => none

/-- An integer between the bounds; a number written with a fraction is none. -/
def intWithin? (low high : Int) : Value → Option Int
  | .int n => if low ≤ n ∧ n ≤ high then some n else none
  | _ => none

def int? : Value → Option Int := intWithin? Checked.least Checked.greatest

def count? (value : Value) : Option Count :=
  (intWithin? 0 Count.greatest value).map Count.ofInt

def byte? (value : Value) : Option Nat := (intWithin? 0 255 value).map Int.toNat

/-- Any number, integers included. -/
def float? : Value → Option Float
  | .float x => some x
  | .int n => some (Float.ofInt n)
  | _ => none

def text? : Value → Option String
  | .text s => some s
  | _ => none

def list? (read : Value → Option α) : Value → Option (List α)
  | .list items => items.mapM read
  | _ => none

def idMap? (read : Value → Option α) : Value → Option (IdMap α)
  | .table entries =>
    (entries.mapM fun entry => (read entry.2).map (entry.1, ·)).map IdMap.ofList
  | _ => none

/-- The name of a case: a text, or a table with the name alone over what says nothing. -/
def name? (origin : Origin) : Value → Option String
  | .text s => some s
  | .table [(s, value)] => if origin.isHollow value then some s else none
  | _ => none

/-- The one of the cases that the value names. -/
def case? (cases : List α) (name : α → String) (origin : Origin) (value : Value) : Option α :=
  (name? origin value).bind fun s => cases.find? (name · = s)

end Combat.Value
