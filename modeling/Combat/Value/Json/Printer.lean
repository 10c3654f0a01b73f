import Combat.Binary64.Decimal
import Combat.Value

/-!
Writing JSON texts, without blanks. A float has the fewest digits that stand for it, and always a
point or an exponent, so that it does not read back as an integer.
-/

namespace Combat.Value.Json

/-! ### Numbers -/

/-- `digits · 10 ^ scale` with a point as long as it stands close to the digits, else with one digit
before the point and an exponent. -/
def decimalText (digits : Nat) (scale : Int) : String :=
  let ds := Nat.toDigits 10 digits
  let places : Int := ds.length + scale
  if 0 ≤ scale ∧ places ≤ 16 then Binary64.positional digits scale ++ ".0"
  else if -5 < places ∧ places ≤ 16 then Binary64.positional digits scale
  else
    let mantissa := match ds with
      | d :: e :: rest => d :: '.' :: e :: rest
      | ds => ds
    String.ofList mantissa ++ s!"e{places - 1}"

/-- Numbers that are not finite are written as null. -/
def floatText (x : Float) : String :=
  match Binary64.read x with
  | .finite negative mantissa exponent =>
    let magnitude :=
      if mantissa = 0 then "0.0"
      else
        let (digits, scale) := Binary64.shortest .even mantissa exponent
        decimalText digits scale
    if negative then "-" ++ magnitude else magnitude
  | _ => "null"

/-! ### Texts -/

/-- Quotes, backslashes and control characters are written as escapes. -/
def escaped (c : Char) : List Char :=
  if c = '"' then ['\\', '"']
  else if c = '\\' then ['\\', '\\']
  else if c = '\x08' then ['\\', 'b']
  else if c = '\x0c' then ['\\', 'f']
  else if c = '\n' then ['\\', 'n']
  else if c = '\r' then ['\\', 'r']
  else if c = '\t' then ['\\', 't']
  else if c.toNat < 0x20 then
    let ds := Nat.toDigits 16 c.toNat
    '\\' :: 'u' :: (List.replicate (4 - ds.length) '0' ++ ds)
  else [c]

def quoted (s : String) : String := String.ofList ('"' :: s.toList.flatMap escaped ++ ['"'])

/-! ### Values -/

mutual

def textOf : Value → String
  | .null => "null"
  | .bool b => if b then "true" else "false"
  | .int n => s!"{n}"
  | .float x => floatText x
  | .text s => quoted s
  | .list items => "[" ++ String.intercalate "," (textsOf items) ++ "]"
  | .table entries => "\x7b" ++ String.intercalate "," (memberTexts entries) ++ "\x7d"

def textsOf : List Value → List String
  | [] => []
  | item :: rest => textOf item :: textsOf rest

def memberTexts : List (String × Value) → List String
  | [] => []
  | (key, value) :: rest => (quoted key ++ ":" ++ textOf value) :: memberTexts rest

end

end Json

/-- The JSON text of a value. -/
def toJson (value : Value) : String := Json.textOf value

end Combat.Value
