import Combat.Value

/-!
The tables of a TOML text as they grow line by line. A table that a header names is closed to
dotted keys, a table that only stands on the way to another may still get a header, and a table
written as a value is closed to everything.
-/

namespace Combat.Value.Toml

inductive Node where
  | leaf (value : Value)
  /-- `implied`: no header has named it. `dotted`: dotted keys made it. -/
  | table (implied dotted : Bool) (entries : List (String × Node))
  /-- Tables under one repeated header. -/
  | tables (elements : List (List (String × Node)))

abbrev Entries := List (String × Node)

namespace Entries

def replace (key : String) (node : Node) : Entries → Entries
  | [] => [(key, node)]
  | entry :: rest => if entry.1 = key then (key, node) :: rest else entry :: replace key node rest

/-- Changes the entries at the end of a path, making the tables on the way. The change is told
whether dotted keys made the table it applies to. -/
def edit (byDots : Bool) (change : Bool → Entries → Option Entries) :
    List String → Bool → Entries → Option Entries
  | [], dotted, entries => change dotted entries
  | key :: rest, _, entries =>
    match IdMap.find key entries with
    | none => do
      let inner ← edit byDots change rest byDots []
      return replace key (.table true byDots inner) entries
    | some (.leaf _) => none
    | some (.tables elements) => do
      let last ← elements.getLast?
      let inner ← edit byDots change rest false last
      return replace key (.tables (elements.dropLast ++ [inner])) entries
    | some (.table implied dotted inner) =>
      if byDots && !implied then none
      else do
        let inner ← edit byDots change rest dotted inner
        return replace key (.table implied dotted inner) entries

/-- A line `path = value` within a table. -/
def assign (path : List String) (value : Value) (entries : Entries) : Option Entries := do
  let key ← path.getLast?
  let tables := path.dropLast
  edit true (fun dotted entries =>
    if dotted = tables.isEmpty || (IdMap.find key entries).isSome then none
    else some (entries ++ [(key, .leaf value)])) tables false entries

/-- A header `[path]`. -/
def openTable (path : List String) (entries : Entries) : Option Entries := do
  let key ← path.getLast?
  edit false (fun _ entries =>
    match IdMap.find key entries with
    | none => some (entries ++ [(key, .table false false [])])
    | some (.table true false inner) => some (replace key (.table false false inner) entries)
    | _ => none) path.dropLast false entries

/-- A header `[[path]]`. -/
def openElement (path : List String) (entries : Entries) : Option Entries := do
  let key ← path.getLast?
  edit false (fun _ entries =>
    match IdMap.find key entries with
    | none => some (entries ++ [(key, .tables [[]])])
    | some (.tables elements) => some (replace key (.tables (elements ++ [[]])) entries)
    | _ => none) path.dropLast false entries

/-- A line `path = value` below a header. -/
def assignUnder (header path : List String) (value : Value) (entries : Entries) : Option Entries :=
  edit false (fun _ entries => assign path value entries) header false entries

end Entries

mutual

def Node.value : Node → Value
  | .leaf value => value
  | .table _ _ entries => .table (entriesValue entries)
  | .tables elements => .list (elementsValue elements)

def entriesValue : List (String × Node) → List (String × Value)
  | [] => []
  | (key, node) :: rest => (key, node.value) :: entriesValue rest

def elementsValue : List (List (String × Node)) → List Value
  | [] => []
  | entries :: rest => .table (entriesValue entries) :: elementsValue rest

end

end Combat.Value.Toml
