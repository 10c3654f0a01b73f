/-!
Checked arithmetic on signed 64-bit integers. A result outside the range is a fault, not a number,
and a fault ends the calculation it occurs in.
-/

namespace Combat

/-- Why a calculation stopped without an answer. -/
inductive Fault where
  /-- A sum or product left its range. -/
  | overflow
  /-- A draw was asked of a table in which nothing has weight. -/
  | emptyDraw
  /-- A value was to be held between bounds of which the upper lies below the lower. -/
  | invertedBounds
  deriving DecidableEq, Repr

def Fault.message : Fault → String
  | .overflow => "a number left its range"
  | .emptyDraw => "nothing can be drawn from a table without weight"
  | .invertedBounds => "the upper bound lies below the lower"

/-- A calculation that may end in a fault. -/
abbrev Checked (α : Type) := Except Fault α

namespace Checked

/-- The least signed 64-bit integer. -/
def least : Int := -9223372036854775808

/-- The greatest signed 64-bit integer. -/
def greatest : Int := 9223372036854775807

/-- The integer itself, if 64 bits hold it. -/
def int (n : Int) : Checked Int :=
  if least ≤ n ∧ n ≤ greatest then .ok n else .error .overflow

def add (a b : Int) : Checked Int := int (a + b)

def sub (a b : Int) : Checked Int := int (a - b)

def mul (a b : Int) : Checked Int := int (a * b)

/-- Left to right, each partial sum checked. -/
def sum (xs : List Int) : Checked Int := xs.foldlM add 0

/-- The nearest integer that 64 bits hold. -/
def saturate (n : Int) : Int := max least (min greatest n)

/-- The value moved into `[low, high]`. -/
def clamp (n low high : Int) : Checked Int :=
  if high < low then .error .invertedBounds else .ok (max low (min high n))

/-! ### Results -/

theorem int_ok {n m : Int} (h : int n = .ok m) : m = n ∧ least ≤ n ∧ n ≤ greatest := by
  unfold int at h
  split at h
  · rename_i bounds
    cases h
    exact ⟨rfl, bounds⟩
  · cases h

theorem add_ok {a b c : Int} (h : add a b = .ok c) : c = a + b := (int_ok h).1

theorem sub_ok {a b c : Int} (h : sub a b = .ok c) : c = a - b := (int_ok h).1

theorem mul_ok {a b c : Int} (h : mul a b = .ok c) : c = a * b := (int_ok h).1

/-- A calculation that went through went through in both its halves. -/
theorem bind_ok {α β : Type} {x : Checked α} {f : α → Checked β} {b : β}
    (h : (x >>= f) = .ok b) : ∃ a, x = .ok a ∧ f a = .ok b := by
  cases x with
  | error e => cases h
  | ok a => exact ⟨a, rfl, h⟩

theorem pure_ok {α : Type} {a b : α} (h : (pure a : Checked α) = .ok b) : a = b := by
  cases h
  rfl

end Checked
end Combat
