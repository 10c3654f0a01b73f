import Combat.Aura.Slot
import Mathlib.Algebra.BigOperators.Group.Finset.Basic
import Mathlib.Data.Rat.Floor
import Mathlib.Tactic.Linarith
import Mathlib.Tactic.Positivity

/-!
Shares of a pool, read in exact fractions. A share is rounded up, so it is never less than what the
pool loses for it; the pool falls until it is the effect's own amount for every stack, and from then
on each share is that amount.
-/

namespace Combat

/-- Exact fractions. -/
instance : Arithmetic ℚ where
  ofInt n := n
  mul := (· * ·)
  sub := (· - ·)
  div := (· / ·)
  max := max
  floor q := (⌊q⌋ : ℤ)
  ceil q := (⌈q⌉ : ℤ)
  less x y := decide (x < y)
  toInt q := Checked.saturate (q.num.tdiv q.den)

theorem toInt_intCast {n : Int} (low : Checked.least ≤ n) (high : n ≤ Checked.greatest) :
    Arithmetic.toInt (n : ℚ) = n := by
  change Checked.saturate ((n : ℚ).num.tdiv (n : ℚ).den) = n
  rw [Rat.num_intCast, Rat.den_intCast, Nat.cast_one, Int.tdiv_one, Checked.saturate,
    min_eq_right high, max_eq_right low]

namespace Aura

/-! ### Draws in turn -/

section
variable {α : Type} [Arithmetic α]

/-- What the aura stores after draws of the effect in turn. -/
def storedAfter (effect : Effect) (stored : Option α) (stackCount : Count) (evaluated : Int) :
    Nat → Option α
  | 0 => stored
  | n + 1 => (draw effect (storedAfter effect stored stackCount evaluated n) stackCount evaluated).2

/-- What the draw after `n` others hands out. -/
def shareAfter (effect : Effect) (stored : Option α) (stackCount : Count) (evaluated : Int)
    (n : Nat) : Int :=
  (draw effect (storedAfter effect stored stackCount evaluated n) stackCount evaluated).1

end

/-! ### One draw -/

/-- The effect's own amount for every stack. -/
def floorOf (stackCount : Count) (evaluated : Int) : ℚ := evaluated * stackCount.val

/-- What is left of a pool when a share of it, rounded up, is handed out. -/
def leftOf (stackCount : Count) (evaluated : Int) (pool : ℚ) : ℚ :=
  max (pool - ⌈pool / stackCount.val⌉) (floorOf stackCount evaluated)

/-- A pool that an effect hands out, no less than its floor, where 64 bits hold the share. -/
structure Splits (effect : Effect) (stackCount : Count) (evaluated : Int) (pool : ℚ) : Prop where
  split : effect.split = true
  stacked : 0 < stackCount.val
  nonneg : 0 ≤ evaluated
  covered : floorOf stackCount evaluated ≤ pool
  range : ⌈pool / stackCount.val⌉ ≤ Checked.greatest

/-- A share of a pool, and what is left then. -/
structure Paid (stackCount : Count) (evaluated : Int) (pool : ℚ) (share : Int) (left : ℚ) :
    Prop where
  covered : floorOf stackCount evaluated ≤ left
  falls : left ≤ pool
  least : evaluated ≤ share
  even : pool / stackCount.val ≤ share
  accounted : pool - left ≤ share
  lower : left ≤ pool - 1 ∨ left = floorOf stackCount evaluated
  settled : pool = floorOf stackCount evaluated →
    left = floorOf stackCount evaluated ∧ share = evaluated

variable {effect : Effect} {stackCount : Count} {evaluated : Int} {pool : ℚ}

theorem ceil_floorOf (stacked : 0 < stackCount.val) :
    ⌈floorOf stackCount evaluated / stackCount.val⌉ = evaluated := by
  have nonzero : (stackCount.val : ℚ) ≠ 0 := by exact_mod_cast stacked.ne'
  rw [floorOf, mul_div_cancel_right₀ _ nonzero, Int.ceil_intCast]

theorem ceil_div_mono (stackCount : Count) {low high : ℚ} (le : low ≤ high) :
    ⌈low / stackCount.val⌉ ≤ ⌈high / stackCount.val⌉ :=
  Int.ceil_le_ceil (div_le_div_of_nonneg_right le (Nat.cast_nonneg _))

theorem leftOf_floorOf (stacked : 0 < stackCount.val) (nonneg : 0 ≤ evaluated) :
    leftOf stackCount evaluated (floorOf stackCount evaluated) = floorOf stackCount evaluated := by
  have amount : (0 : ℚ) ≤ evaluated := by exact_mod_cast nonneg
  rw [leftOf, ceil_floorOf stacked]
  exact max_eq_right (sub_le_self _ amount)

namespace Splits

theorem least (splits : Splits effect stackCount evaluated pool) :
    evaluated ≤ ⌈pool / stackCount.val⌉ :=
  (ceil_floorOf splits.stacked).symm.le.trans (ceil_div_mono stackCount splits.covered)

theorem one_le (splits : Splits effect stackCount evaluated pool)
    (above : floorOf stackCount evaluated < pool) : 1 ≤ ⌈pool / stackCount.val⌉ := by
  have counted : (0 : ℚ) < stackCount.val := by exact_mod_cast splits.stacked
  have floor : 0 ≤ floorOf stackCount evaluated :=
    mul_nonneg (by exact_mod_cast splits.nonneg) counted.le
  exact Int.one_le_ceil_iff.mpr (div_pos (floor.trans_lt above) counted)

theorem paid (splits : Splits effect stackCount evaluated pool) :
    Paid stackCount evaluated pool ⌈pool / stackCount.val⌉ (leftOf stackCount evaluated pool) where
  covered := le_max_right ..
  falls := by
    have share : (0 : ℚ) ≤ ⌈pool / stackCount.val⌉ := by
      exact_mod_cast splits.nonneg.trans splits.least
    exact max_le (sub_le_self _ share) splits.covered
  least := splits.least
  even := Int.le_ceil _
  accounted := by
    have taken : pool - ⌈pool / stackCount.val⌉ ≤ leftOf stackCount evaluated pool :=
      le_max_left ..
    linarith
  lower := by
    obtain settled | above := splits.covered.eq_or_lt
    · rw [← settled]
      exact .inr (leftOf_floorOf splits.stacked splits.nonneg)
    · -- above its floor the pool is positive, so a share of it rounded up is one at least
      have share : (1 : ℚ) ≤ ⌈pool / stackCount.val⌉ := by exact_mod_cast splits.one_le above
      refine (max_choice _ _).imp_left fun taken => ?_
      rw [leftOf, taken]
      linarith
  settled settled := by
    rw [settled]
    exact ⟨leftOf_floorOf splits.stacked splits.nonneg, ceil_floorOf splits.stacked⟩

theorem draw_eq (splits : Splits effect stackCount evaluated pool) :
    draw effect (some pool) stackCount evaluated =
      (⌈pool / stackCount.val⌉, some (leftOf stackCount evaluated pool)) := by
  have low : Checked.least ≤ ⌈pool / stackCount.val⌉ :=
    Int.le_trans (by decide : Checked.least ≤ 0) (splits.nonneg.trans splits.least)
  rw [draw, if_pos splits.split, drawShare, if_neg splits.stacked.ne',
    ← toInt_intCast low splits.range]
  rfl

theorem left (splits : Splits effect stackCount evaluated pool) :
    Splits effect stackCount evaluated (leftOf stackCount evaluated pool) :=
  { splits with
    covered := splits.paid.covered
    range := (ceil_div_mono stackCount splits.paid.falls).trans splits.range }

end Splits

/-! ### All draws -/

/-- The pool after draws in turn. -/
def poolAfter (stackCount : Count) (evaluated : Int) (pool : ℚ) : ℕ → ℚ
  | 0 => pool
  | n + 1 => leftOf stackCount evaluated (poolAfter stackCount evaluated pool n)

theorem Splits.after (splits : Splits effect stackCount evaluated pool) (n : ℕ) :
    Splits effect stackCount evaluated (poolAfter stackCount evaluated pool n) := by
  induction n with
  | zero => exact splits
  | succ n ih => exact ih.left

theorem storedAfter_eq (splits : Splits effect stackCount evaluated pool) (n : ℕ) :
    storedAfter effect (some pool) stackCount evaluated n =
      some (poolAfter stackCount evaluated pool n) := by
  induction n with
  | zero => rfl
  | succ n ih =>
    rw [storedAfter, ih, (splits.after n).draw_eq]
    rfl

theorem paid_after (splits : Splits effect stackCount evaluated pool) (n : ℕ) :
    Paid stackCount evaluated (poolAfter stackCount evaluated pool n)
      (shareAfter effect (some pool) stackCount evaluated n)
      (poolAfter stackCount evaluated pool (n + 1)) := by
  rw [shareAfter, storedAfter_eq splits, (splits.after n).draw_eq]
  exact (splits.after n).paid

theorem accounted_after (splits : Splits effect stackCount evaluated pool) (n : ℕ) :
    pool - poolAfter stackCount evaluated pool n ≤
      ∑ i ∈ Finset.range n, (shareAfter effect (some pool) stackCount evaluated i : ℚ) := by
  induction n with
  | zero => simp [poolAfter]
  | succ n ih =>
    have last := (paid_after splits n).accounted
    rw [Finset.sum_range_succ]
    linarith

theorem lower_after (splits : Splits effect stackCount evaluated pool) (n : ℕ) :
    poolAfter stackCount evaluated pool n ≤ pool - n ∨
      poolAfter stackCount evaluated pool n = floorOf stackCount evaluated := by
  induction n with
  | zero => simp [poolAfter]
  | succ n ih =>
    have paid := paid_after splits n
    obtain lower | settled := ih
    · refine paid.lower.imp_left fun less => ?_
      push_cast
      linarith
    · exact .inr (paid.settled settled).1

theorem settled_after (splits : Splits effect stackCount evaluated pool) {n m : ℕ} (le : n ≤ m)
    (settled : poolAfter stackCount evaluated pool n = floorOf stackCount evaluated) :
    poolAfter stackCount evaluated pool m = floorOf stackCount evaluated := by
  induction m, le using Nat.le_induction with
  | base => exact settled
  | succ m _ ih => exact ((paid_after splits m).settled ih).1

/-- Draws in turn from a pool: each leaves it no less than its floor and no more than it was, and
hands out no less than the effect's own amount or an even share. All shares together pay for what
left the pool. It falls by one at least, or else to its floor, so it gets there, stays, and each
share is then the effect's own amount. -/
theorem split_draws_accounted (splits : Splits effect stackCount evaluated pool) :
    ∃ pools : ℕ → ℚ, pools 0 = pool ∧
      (∀ n, storedAfter effect (some pool) stackCount evaluated n = some (pools n)) ∧
      (∀ n, Paid stackCount evaluated (pools n)
        (shareAfter effect (some pool) stackCount evaluated n) (pools (n + 1))) ∧
      (∀ n, pool - pools n ≤
        ∑ i ∈ Finset.range n, (shareAfter effect (some pool) stackCount evaluated i : ℚ)) ∧
      (∀ n : ℕ, pool - floorOf stackCount evaluated ≤ n →
        pools n = floorOf stackCount evaluated) ∧
      ∀ n m, n ≤ m → pools n = floorOf stackCount evaluated →
        pools m = floorOf stackCount evaluated ∧
          shareAfter effect (some pool) stackCount evaluated m = evaluated := by
  refine ⟨poolAfter stackCount evaluated pool, rfl, storedAfter_eq splits, paid_after splits,
    accounted_after splits, fun n long => ?_, fun n m le settled => ?_⟩
  · obtain lower | settled := lower_after splits n
    · exact le_antisymm (by linarith) (splits.after n).covered
    · exact settled
  · have stays := settled_after splits le settled
    exact ⟨stays, ((paid_after splits m).settled stays).2⟩

def tithe : Effect := { kind := .heal .flat, target := .self, split := true }

/-- A pool of a hundred, of three stacks, never below thirty. -/
example : (List.range 4).map (shareAfter tithe (some (100 : ℚ)) 3 10) = [34, 22, 15, 10] := by
  decide +kernel

theorem split_draws_accounted_tithe :
    Splits tithe 3 10 100 ∧ ∃ pools : ℕ → ℚ,
      (∀ n, storedAfter tithe (some 100) 3 10 n = some (pools n)) ∧ pools 70 = 30 ∧
        100 - pools 3 ≤ ∑ i ∈ Finset.range 3, (shareAfter tithe (some (100 : ℚ)) 3 10 i : ℚ) := by
  have splits : Splits tithe 3 10 100 :=
    ⟨rfl, by decide, by decide, by decide +kernel, by decide +kernel⟩
  obtain ⟨pools, -, stored, -, accounted, reaches, -⟩ := split_draws_accounted splits
  refine ⟨splits, pools, stored, ?_, accounted 3⟩
  rw [reaches 70 (by decide +kernel)]
  decide +kernel

end Aura
end Combat
