import Combat.Checked

/-!
What a binary64 number stands for, read off its 64 bits, and the whole numbers next to it. A finite
number is a whole number of units of a power of two, so rounding it to an integer is exact integer
division.
-/

namespace Combat.Binary64

/-- A finite number is `± mantissa · 2 ^ exponent`. -/
inductive Reading where
  | nan
  | infinite (negative : Bool)
  | finite (negative : Bool) (mantissa : Nat) (exponent : Int)
  deriving DecidableEq, Repr

/-- One sign bit, eleven of exponent and fifty-two of fraction, the lowest exponent without the
leading one. -/
def read (x : Float) : Reading :=
  let bits := x.toBits.toNat
  let negative : Bool := Nat.pow 2 63 ≤ bits
  let exponent : Nat := bits / Nat.pow 2 52 % Nat.pow 2 11
  let fraction := bits % Nat.pow 2 52
  if exponent = 2047 then
    if fraction = 0 then .infinite negative else .nan
  else if exponent = 0 then .finite negative fraction (-1074)
  else .finite negative (Nat.pow 2 52 + fraction) (exponent - 1075)

/-- Neither infinite nor NaN. -/
def isFinite (x : Float) : Bool :=
  match read x with
  | .finite .. => true
  | _ => false

def isNaN (x : Float) : Bool := read x = .nan

/-- The greatest integer not above `± mantissa · 2 ^ exponent`. -/
def floorOf (negative : Bool) (mantissa : Nat) (exponent : Int) : Int :=
  let signed : Int := if negative then -mantissa else mantissa
  if 0 ≤ exponent then signed * Nat.pow 2 exponent.toNat else signed / Nat.pow 2 (-exponent).toNat

/-- The least integer not below it. -/
def ceilOf (negative : Bool) (mantissa : Nat) (exponent : Int) : Int :=
  -floorOf (!negative) mantissa exponent

/-- The number for an integer, a zero keeping the given sign. -/
def ofIntSigned (negative : Bool) (n : Int) : Float :=
  if n = 0 ∧ negative then -0.0 else Float.ofInt n

def floor (x : Float) : Float :=
  match read x with
  | .finite negative mantissa exponent => ofIntSigned negative (floorOf negative mantissa exponent)
  | _ => x

def ceil (x : Float) : Float :=
  match read x with
  | .finite negative mantissa exponent => ofIntSigned negative (ceilOf negative mantissa exponent)
  | _ => x

/-- Rounds toward zero and saturates at 64 bits; NaN gives zero. -/
def toInt (x : Float) : Int :=
  match read x with
  | .nan => 0
  | .infinite negative => if negative then Checked.least else Checked.greatest
  | .finite negative mantissa exponent =>
    let magnitude := floorOf false mantissa exponent
    Checked.saturate (if negative then -magnitude else magnitude)

/-- The greater of two; a NaN gives way to the other. -/
def max (x y : Float) : Float :=
  if isNaN x then y
  else if isNaN y then x
  else if x < y then y
  else x

end Combat.Binary64
