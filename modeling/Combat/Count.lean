import Combat.Checked

/-!
Counts of stacks, uses, units and levels: whole numbers of at most 32 bits. Adding stops at the
greatest count and subtracting stops at zero.
-/

namespace Combat

structure Count where
  val : Nat
  le_greatest : val ≤ 4294967295 := by omega
  deriving DecidableEq

namespace Count

def greatest : Nat := 4294967295

/-- The nearest count from below. -/
def ofNat (n : Nat) : Count := ⟨min n greatest, Nat.min_le_right ..⟩

/-- The nearest count: zero for a negative number. -/
def ofInt (n : Int) : Count := ofNat n.toNat

instance (n : Nat) : OfNat Count n := ⟨ofNat n⟩

instance : Inhabited Count := ⟨0⟩

instance : Repr Count := ⟨fun c => reprPrec c.val⟩

def toInt (c : Count) : Int := c.val

/-- Adds, stopping at the greatest count. -/
def add (a b : Count) : Count := ofNat (a.val + b.val)

/-- Subtracts, stopping at zero. -/
def sub (a b : Count) : Count := ofNat (a.val - b.val)

def max (a b : Count) : Count := if a.val < b.val then b else a

def min (a b : Count) : Count := if a.val < b.val then a else b

/-- Adds, faulting where the sum is no count. -/
def addChecked (a b : Count) : Checked Count :=
  if h : a.val + b.val ≤ 4294967295 then .ok ⟨a.val + b.val, h⟩ else .error .overflow

/-- Left to right, each partial sum checked. -/
def sumChecked (xs : List Count) : Checked Count := xs.foldlM addChecked 0

/-! ### Values -/

theorem ext {a b : Count} (h : a.val = b.val) : a = b := by
  cases a
  cases b
  cases h
  rfl

theorem val_ofNat (n : Nat) : (ofNat n).val = Nat.min n greatest := rfl

theorem val_ofNat_of_le {n : Nat} (h : n ≤ greatest) : (ofNat n).val = n := Nat.min_eq_left h

@[simp] theorem val_zero : (0 : Count).val = 0 := rfl

theorem val_add (a b : Count) : (a.add b).val = Nat.min (a.val + b.val) greatest := rfl

theorem val_sub (a b : Count) : (a.sub b).val = a.val - b.val :=
  val_ofNat_of_le (Nat.le_trans (Nat.sub_le ..) a.le_greatest)

theorem val_max (a b : Count) : (a.max b).val = Nat.max a.val b.val := by
  unfold max
  split <;> simp [Nat.max_def] <;> omega

theorem val_min (a b : Count) : (a.min b).val = Nat.min a.val b.val := by
  unfold min
  split <;> simp [Nat.min_def] <;> omega

theorem addChecked_ok {a b c : Count} (h : a.addChecked b = .ok c) : c.val = a.val + b.val := by
  unfold addChecked at h
  split at h
  · cases h
    rfl
  · cases h

end Count
end Combat
