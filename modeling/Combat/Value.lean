import Combat.Binary64.Reading
import Combat.IdMap

/-!
Structured values as JSON and TOML texts hold them.
-/

namespace Combat

inductive Value where
  | null
  | bool (b : Bool)
  | int (n : Int)
  | float (x : Float)
  | text (s : String)
  | list (items : List Value)
  | table (entries : List (String × Value))

namespace Value

instance : Inhabited Value := ⟨.null⟩

/-- A number that is not finite has no JSON form and stands as null. -/
def ofFloat (x : Float) : Value := if Binary64.isFinite x then .float x else .null

def ofOption {α : Type} (write : α → Value) : Option α → Value
  | none => .null
  | some a => write a

/-- A table member that is left out when there is nothing to write. -/
def member {α : Type} (key : String) (write : α → Value) : Option α → List (String × Value)
  | none => []
  | some a => [(key, write a)]

def ofIdMap {α : Type} (write : α → Value) (m : IdMap α) : Value :=
  .table (m.entries.map fun entry => (entry.1, write entry.2))

end Value
end Combat
