import Combat.Value.Toml.Scalar
import Combat.Value.Toml.Tree

/-!
Reading TOML texts.
-/

namespace Combat.Value.Toml

/-! The first argument of these three is the fuel, the second how many brackets may still open. -/

mutual

def value? : Nat → Nat → List Char → Option (Value × List Char)
  | 0, _, _ => none
  | fuel + 1, room, cs =>
    match cs, room with
    | '"' :: _, _ | '\'' :: _, _ => do
      let (s, rest) ← text? cs
      return (.text s, rest)
    | '[' :: _, 0 | '{' :: _, 0 => none
    | '[' :: rest, room + 1 =>
      match skipLines (rest.length + 1) rest with
      | ']' :: rest => some (.list [], rest)
      | rest => items? fuel room [] rest
    | '{' :: rest, room + 1 =>
      match skipBlanks rest with
      | '}' :: rest => some (.table [], rest)
      | rest => members? fuel room [] rest
    | _, _ => word? cs

/-- What follows the opening of an array that is not empty. -/
def items? : Nat → Nat → List Value → List Char → Option (Value × List Char)
  | 0, _, _, _ => none
  | fuel + 1, room, done, cs => do
    let (item, rest) ← value? fuel room cs
    match skipLines (rest.length + 1) rest with
    | ',' :: rest =>
      match skipLines (rest.length + 1) rest with
      | ']' :: rest => return (.list (item :: done).reverse, rest)
      | rest => items? fuel room (item :: done) rest
    | ']' :: rest => return (.list (item :: done).reverse, rest)
    | _ => none

/-- What follows the opening of a table on one line that is not empty. -/
def members? : Nat → Nat → Entries → List Char → Option (Value × List Char)
  | 0, _, _, _ => none
  | fuel + 1, room, done, cs => do
    let (path, rest) ← path? cs
    let '=' :: rest := rest | none
    let (value, rest) ← value? fuel room (skipBlanks rest)
    let done ← done.assign path value
    match skipBlanks rest with
    | ',' :: rest => members? fuel room done rest
    | '}' :: rest => return (.table (entriesValue done), rest)
    | _ => none

end

/-- A header with its brackets taken off: the path between them and the rest of the line. -/
def header? (element : Bool) (cs : List Char) : Option (List String × List Char) := do
  let (path, rest) ← path? cs
  let ']' :: rest := rest | none
  if element then
    let ']' :: rest := rest | none
    return (path, rest)
  else return (path, rest)

/-- The lines of a text, below the header that was read last. -/
def lines? : Nat → List String → Entries → List Char → Option Entries
  | 0, _, _, _ => none
  | fuel + 1, header, entries, cs =>
    match skipLines (cs.length + 1) cs with
    | [] => some entries
    | '[' :: '[' :: rest => do
      let (path, rest) ← header? true rest
      lines? fuel path (← entries.openElement path) (← lineEnd? rest)
    | '[' :: rest => do
      let (path, rest) ← header? false rest
      lines? fuel path (← entries.openTable path) (← lineEnd? rest)
    | cs => do
      let (path, rest) ← path? cs
      let '=' :: rest := rest | none
      let (value, rest) ← value? (2 * rest.length + 2) deepest (skipBlanks rest)
      lines? fuel header (← entries.assignUnder header path value) (← lineEnd? rest)

end Toml

/-- The table that a TOML text holds. A byte order mark at the start is passed over. -/
def ofToml? (s : String) : Option Value := do
  let cs := match s.toList with
    | '\uFEFF' :: rest => rest
    | cs => cs
  let entries ← Toml.lines? (cs.length + 1) [] [] cs
  return .table (Toml.entriesValue entries)

end Combat.Value
