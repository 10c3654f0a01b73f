import Combat.Binary64.Reading

/-!
The arithmetic in which shares of a pool and fractions of a total are worked out. The engine works
in binary64; stated over any arithmetic, the same rules can also be read in exact fractions.
-/

namespace Combat

class Arithmetic (α : Type) where
  ofInt : Int → α
  mul : α → α → α
  sub : α → α → α
  div : α → α → α
  max : α → α → α
  floor : α → α
  ceil : α → α
  less : α → α → Bool
  /-- Rounds toward zero into 64 bits. -/
  toInt : α → Int

instance : Arithmetic Float where
  ofInt := Float.ofInt
  mul := (· * ·)
  sub := (· - ·)
  div := (· / ·)
  max := Binary64.max
  floor := Binary64.floor
  ceil := Binary64.ceil
  less x y := x < y
  toInt := Binary64.toInt

end Combat
