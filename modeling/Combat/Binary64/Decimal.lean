import Combat.Binary64.Reading

/-!
The shortest decimals of binary64 numbers and their texts. Of all decimals that read back as the
number, the shortest has the fewest digits, and of those it is the nearest one.
-/

namespace Combat.Binary64

/-- Which of two equally near decimals is taken. -/
inductive Tie where
  | upper
  /-- The one with an even last digit. -/
  | even
  deriving DecidableEq

/-- A positive number `num / den` with the open or closed interval of reals that round to it. -/
structure Interval where
  num : Nat
  den : Nat
  lowNum : Nat
  highNum : Nat
  /-- Whether the ends round to the number too. -/
  closed : Bool

/-- Everything over one denominator: the ends lie half a unit off, and the lower one a quarter
where the unit changes. -/
def Interval.ofParts (mantissa : Nat) (exponent : Int) : Interval :=
  let up := exponent.toNat
  let down := (-exponent).toNat
  let narrow := mantissa = Nat.pow 2 52 ∧ exponent ≠ -1074
  { num := 4 * mantissa * Nat.pow 2 up
    den := 4 * Nat.pow 2 down
    lowNum := (4 * mantissa - if narrow then 1 else 2) * Nat.pow 2 up
    highNum := (4 * mantissa + 2) * Nat.pow 2 up
    closed := mantissa % 2 = 0 }

/-- Whether `digits · 10 ^ scale` rounds to the number. -/
def Interval.holds (i : Interval) (digits : Nat) (scale : Int) : Bool :=
  let value := digits * i.den * Nat.pow 10 scale.toNat
  let unit := Nat.pow 10 (-scale).toNat
  if i.closed then i.lowNum * unit ≤ value && value ≤ i.highNum * unit
  else i.lowNum * unit < value && value < i.highNum * unit

/-- The multiples of `10 ^ scale` on both sides of the number: of those that round to it, the
nearer. -/
def Interval.nearest? (i : Interval) (tie : Tie) (scale : Int) : Option Nat :=
  let num := i.num * Nat.pow 10 (-scale).toNat
  let den := i.den * Nat.pow 10 scale.toNat
  let below := num / den
  let above := below + 1
  match i.holds below scale && below ≠ 0, i.holds above scale with
  | true, true =>
    let twice := 2 * (num % den)
    some (if twice < den ∨ twice = den ∧ tie = .even ∧ below % 2 = 0 then below else above)
  | true, false => some below
  | false, true => some above
  | false, false => none

/-- The first grid, from the coarsest of the given ones on, that has a point in the interval. -/
def Interval.search (i : Interval) (tie : Tie) (scale : Int) : Nat → Nat × Int
  | 0 => (i.num / i.den, 0)
  | grids + 1 =>
    match i.nearest? tie scale with
    | some digits => (digits, scale)
    | none => i.search tie (scale - 1) grids

/-- The digits and the power of ten they count. Grids run from above the number down past the
seventeenth digit. -/
def shortest (tie : Tie) (mantissa : Nat) (exponent : Int) : Nat × Int :=
  let i := Interval.ofParts mantissa exponent
  let magnitude : Int :=
    if i.den ≤ i.num then (Nat.toDigits 10 (i.num / i.den)).length
    else 1 - (Nat.toDigits 10 (i.den / i.num)).length
  i.search tie (magnitude + 1) 22

/-- `digits · 10 ^ scale` written out. -/
def positional (digits : Nat) (scale : Int) : String :=
  let text := Nat.toDigits 10 digits
  if 0 ≤ scale then String.ofList (text ++ List.replicate scale.toNat '0')
  else
    let places := (-scale).toNat
    let padded := List.replicate (places + 1 - text.length) '0' ++ text
    let whole := padded.length - places
    String.ofList (padded.take whole ++ '.' :: padded.drop whole)

/-- The text of a number in a description: positional, without a point in a whole number. -/
def text (x : Float) : String :=
  match read x with
  | .nan => "NaN"
  | .infinite negative => if negative then "-inf" else "inf"
  | .finite negative mantissa exponent =>
    let magnitude :=
      if mantissa = 0 then "0"
      else
        let (digits, scale) := shortest .upper mantissa exponent
        positional digits scale
    if negative then "-" ++ magnitude else magnitude

end Combat.Binary64
