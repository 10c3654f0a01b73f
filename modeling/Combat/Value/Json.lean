import Combat.Value

/-!
Reading JSON texts. A number without fraction or exponent is an integer as long as 64 bits hold it.
Any other number is read as its leading digits, as many as 64 bits hold, times or divided by one
power of ten, so the last bit may differ from the nearest float.
-/

namespace Combat.Value.Json

def isSpace (c : Char) : Bool := c = ' ' || c = '\n' || c = '\r' || c = '\t'

def skipSpace (cs : List Char) : List Char := cs.dropWhile isSpace

def digit (c : Char) : Nat := c.toNat - '0'.toNat

/-! ### Numbers -/

/-- A number in the making: leading digits and the power of ten they count. -/
structure Decimal where
  digits : Nat := 0
  scale : Int := 0
  /-- A digit did not fit, so neither will any after it. -/
  full : Bool := false

/-- The greatest number of 64 bits. -/
def greatestWord : Nat := 18446744073709551615

/-- Whether another digit fits into 64 bits. -/
def Decimal.fits (d : Decimal) (next : Nat) : Bool :=
  !d.full && d.digits * 10 + next ≤ greatestWord

/-- A digit before the point; one that does not fit still counts a place. -/
def Decimal.whole (d : Decimal) (c : Char) : Decimal :=
  if d.fits (digit c) then { d with digits := d.digits * 10 + digit c }
  else { d with scale := d.scale + 1, full := true }

/-- A digit after the point; one that does not fit is dropped. -/
def Decimal.fraction (d : Decimal) (c : Char) : Decimal :=
  if d.fits (digit c) then { d with digits := d.digits * 10 + digit c, scale := d.scale - 1 }
  else { d with full := true }

def powerOfTen (n : Nat) : Float := Float.ofScientific 1 false n

/-- Very small numbers are divided in steps; none for a number beyond the finite ones. -/
def scaled (x : Float) (scale : Int) : Nat → Option Float
  | 0 => some 0.0
  | steps + 1 =>
    if scale.natAbs ≤ 308 then
      let result :=
        if 0 ≤ scale then x * powerOfTen scale.toNat else x / powerOfTen (-scale).toNat
      if Binary64.isFinite result then some result else none
    else if x == 0.0 then some x
    else if 0 ≤ scale then none
    else scaled (x / powerOfTen 308) (scale + 308) steps

def Decimal.float? (d : Decimal) : Option Float :=
  scaled (Float.ofNat d.digits) d.scale 8

def spanDigits (cs : List Char) : List Char × List Char :=
  (cs.takeWhile Char.isDigit, cs.dropWhile Char.isDigit)

/-- The digits before the point: one zero, or digits that do not begin with it. -/
def wholePart? (cs : List Char) : Option (List Char × List Char) :=
  match spanDigits cs with
  | ([], _) => none
  | ('0' :: _ :: _, _) => none
  | found => some found

def exponent? (cs : List Char) : Option (Int × List Char) :=
  let (negative, cs) :=
    match cs with
    | '-' :: rest => (true, rest)
    | '+' :: rest => (false, rest)
    | _ => (false, cs)
  match spanDigits cs with
  | ([], _) => none
  | (ds, rest) =>
    let n : Int := ds.foldl (fun n c => n * 10 + digit c) 0
    some (if negative then -n else n, rest)

/-- Whether a fraction or an exponent makes it a float, and the rest. -/
def tail? (d : Decimal) (cs : List Char) : Option (Decimal × Bool × List Char) := do
  let (d, isFloat, cs) ←
    match cs with
    | '.' :: rest =>
      match spanDigits rest with
      | ([], _) => none
      | (ds, rest) => some (ds.foldl Decimal.fraction { d with full := false }, true, rest)
    | _ => some (d, d.full, cs)
  match cs with
  | 'e' :: rest | 'E' :: rest => do
    let (n, rest) ← exponent? rest
    return ({ d with scale := d.scale + n }, true, rest)
  | _ => return (d, isFloat, cs)

/-- An integer of 64 bits or a float; negative zero is a float. -/
def number? (negative : Bool) (d : Decimal) (isFloat : Bool) : Option Value :=
  if isFloat || (negative && (d.digits = 0 || -d.digits < Checked.least)) then do
    let x ← d.float?
    return .float (if negative then -x else x)
  else return .int (if negative then -d.digits else d.digits)

def readNumber (cs : List Char) : Option (Value × List Char) := do
  let (negative, cs) :=
    match cs with
    | '-' :: rest => (true, rest)
    | _ => (false, cs)
  let (ds, cs) ← wholePart? cs
  let (d, isFloat, cs) ← tail? (ds.foldl Decimal.whole {}) cs
  return (← number? negative d isFloat, cs)

/-! ### Texts -/

def hexDigit? (c : Char) : Option Nat :=
  if c.isDigit then some (digit c)
  else if 'a' ≤ c ∧ c ≤ 'f' then some (c.toNat - 'a'.toNat + 10)
  else if 'A' ≤ c ∧ c ≤ 'F' then some (c.toNat - 'A'.toNat + 10)
  else none

def hex4? : List Char → Option (Nat × List Char)
  | a :: b :: c :: d :: rest => do
    let high := (← hexDigit? a) * 16 + (← hexDigit? b)
    let low := (← hexDigit? c) * 16 + (← hexDigit? d)
    return (high * 256 + low, rest)
  | _ => none

/-- The character of a UTF-16 unit, or of two that belong together. -/
def unicode? (cs : List Char) : Option (Char × List Char) := do
  let (unit, cs) ← hex4? cs
  if 0xD800 ≤ unit ∧ unit ≤ 0xDBFF then
    match cs with
    | '\\' :: 'u' :: cs =>
      let (low, cs) ← hex4? cs
      if 0xDC00 ≤ low ∧ low ≤ 0xDFFF then
        return (Char.ofNat (0x10000 + (unit - 0xD800) * 1024 + (low - 0xDC00)), cs)
      else none
    | _ => none
  else if 0xDC00 ≤ unit ∧ unit ≤ 0xDFFF then none
  else return (Char.ofNat unit, cs)

def escape? : List Char → Option (Char × List Char)
  | '"' :: cs => some ('"', cs)
  | '\\' :: cs => some ('\\', cs)
  | '/' :: cs => some ('/', cs)
  | 'b' :: cs => some ('\x08', cs)
  | 'f' :: cs => some ('\x0c', cs)
  | 'n' :: cs => some ('\n', cs)
  | 'r' :: cs => some ('\r', cs)
  | 't' :: cs => some ('\t', cs)
  | 'u' :: cs => unicode? cs
  | _ => none

/-- What follows the opening quote. The fuel is the length of the text. -/
def readText : Nat → List Char → List Char → Option (String × List Char)
  | 0, _, _ => none
  | _ + 1, _, [] => none
  | _ + 1, done, '"' :: rest => some (String.ofList done.reverse, rest)
  | fuel + 1, done, '\\' :: rest => do
    let (c, rest) ← escape? rest
    readText fuel (c :: done) rest
  | fuel + 1, done, c :: rest => if c.toNat < 0x20 then none else readText fuel (c :: done) rest

/-! ### Values -/

/-- The entries with one more; a repeated key takes its last value. -/
def addEntry (entries : List (String × Value)) (key : String) (value : Value) :
    List (String × Value) :=
  entries.filter (fun entry => entry.1 ≠ key) ++ [(key, value)]

mutual

def readValue : Nat → List Char → Option (Value × List Char)
  | 0, _ => none
  | fuel + 1, cs =>
    match cs with
    | 'n' :: 'u' :: 'l' :: 'l' :: rest => some (.null, rest)
    | 't' :: 'r' :: 'u' :: 'e' :: rest => some (.bool true, rest)
    | 'f' :: 'a' :: 'l' :: 's' :: 'e' :: rest => some (.bool false, rest)
    | '"' :: rest => do
      let (s, rest) ← readText (rest.length + 1) [] rest
      return (.text s, rest)
    | '[' :: rest =>
      match skipSpace rest with
      | ']' :: rest => some (.list [], rest)
      | rest => readItems fuel [] rest
    | '{' :: rest =>
      match skipSpace rest with
      | '}' :: rest => some (.table [], rest)
      | rest => readEntries fuel [] rest
    | _ => readNumber cs

def readItems : Nat → List Value → List Char → Option (Value × List Char)
  | 0, _, _ => none
  | fuel + 1, done, cs => do
    let (item, rest) ← readValue fuel cs
    match skipSpace rest with
    | ',' :: rest => readItems fuel (item :: done) (skipSpace rest)
    | ']' :: rest => return (.list (item :: done).reverse, rest)
    | _ => none

def readEntries : Nat → List (String × Value) → List Char → Option (Value × List Char)
  | 0, _, _ => none
  | fuel + 1, done, cs => do
    let '"' :: rest := cs | none
    let (key, rest) ← readText (rest.length + 1) [] rest
    let ':' :: rest := skipSpace rest | none
    let (value, rest) ← readValue fuel (skipSpace rest)
    let done := addEntry done key value
    match skipSpace rest with
    | ',' :: rest => readEntries fuel done (skipSpace rest)
    | '}' :: rest => return (.table done, rest)
    | _ => none

end

end Json

/-- The value that a JSON text holds. -/
def ofJson? (s : String) : Option Value := do
  let cs := s.toList
  let (value, rest) ← Json.readValue (2 * cs.length + 2) (Json.skipSpace cs)
  if (Json.skipSpace rest).isEmpty then return value else none

end Combat.Value
