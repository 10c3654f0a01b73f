import Combat.Proofs.Aura.Shares
import Mathlib.Data.List.Pairwise

/-!
When draws lower a pool, read in exact fractions. What a draw leaves is never below its floor, so a
pool that lies below it rises to it; a pool that owes more than one a stack rises as well, since its
share is then a debt that is taken off.
-/

namespace Combat.Aura

/-- A draw with the stacks and the amount of its moment. -/
structure Drawing where
  effect : Effect
  stackCount : Count
  evaluated : Int

namespace Drawing

def floor (drawing : Drawing) : ℚ := floorOf drawing.stackCount drawing.evaluated

structure Splits (drawing : Drawing) : Prop where
  split : drawing.effect.split = true
  stacked : 0 < drawing.stackCount.val

def left (drawing : Drawing) (pool : ℚ) : ℚ := leftOf drawing.stackCount drawing.evaluated pool

end Drawing

/-- What is stored after draws in turn. -/
def storedAfterAll {α : Type} [Arithmetic α] (stored : Option α) : List Drawing → Option α
  | [] => stored
  | drawing :: rest =>
    storedAfterAll (draw drawing.effect stored drawing.stackCount drawing.evaluated).2 rest

def poolAfterAll (pool : ℚ) (drawings : List Drawing) : ℚ :=
  drawings.foldl (fun pool drawing => drawing.left pool) pool

/-! ### One draw -/

section
variable {effect : Effect} {stackCount : Count} {evaluated : Int} {pool : ℚ}

theorem draw_stored (split : effect.split = true) (stacked : 0 < stackCount.val) :
    (draw effect (some pool) stackCount evaluated).2 =
      some (leftOf stackCount evaluated pool) := by
  rw [draw, if_pos split, drawShare, if_neg stacked.ne']
  rfl

theorem share_nonneg_iff (stacked : 0 < stackCount.val) :
    0 ≤ ⌈pool / stackCount.val⌉ ↔ -(stackCount.val : ℚ) < pool := by
  have counted : (0 : ℚ) < stackCount.val := by exact_mod_cast stacked
  constructor
  · intro share
    have above : -1 < pool / stackCount.val := by
      have below : ¬⌈pool / stackCount.val⌉ ≤ -1 := by omega
      rw [Int.ceil_le] at below
      push_cast at below
      exact not_le.mp below
    have scaled := (lt_div_iff₀ counted).mp above
    linarith
  · intro above
    have share : -1 < pool / stackCount.val := by
      rw [lt_div_iff₀ counted]
      linarith
    have beyond : -1 < ⌈pool / stackCount.val⌉ := by
      rw [Int.lt_ceil]
      exact_mod_cast share
    omega

theorem leftOf_le_iff (stacked : 0 < stackCount.val) :
    leftOf stackCount evaluated pool ≤ pool ↔
      floorOf stackCount evaluated ≤ pool ∧ -(stackCount.val : ℚ) < pool := by
  rw [leftOf, max_le_iff, sub_le_self_iff, Int.cast_nonneg_iff, share_nonneg_iff stacked, and_comm]

/-- A pool never rises above its floor, nor above zero where it stood below that. -/
theorem leftOf_le {cap : ℚ} (stacked : 0 < stackCount.val) (nonneg : 0 ≤ cap) (below : pool ≤ cap)
    (floored : floorOf stackCount evaluated ≤ cap) : leftOf stackCount evaluated pool ≤ cap := by
  refine max_le ?_ floored
  by_cases owing : pool < 0
  · -- a debt is shared out, and a share of it is no more than the debt
    have one : (1 : ℚ) ≤ stackCount.val := by exact_mod_cast stacked
    have part : pool ≤ pool / stackCount.val := by
      rw [le_div_iff₀ (by linarith)]
      nlinarith
    have share : pool / stackCount.val ≤ ⌈pool / stackCount.val⌉ := Int.le_ceil _
    linarith
  · have share : (0 : ℚ) ≤ ⌈pool / stackCount.val⌉ := by
      have counted : -(stackCount.val : ℚ) < 0 := by
        rw [neg_lt_zero]
        exact_mod_cast stacked
      exact_mod_cast (share_nonneg_iff stacked).mpr (by linarith)
    linarith

/-- A split draw lowers the pool, or leaves it, exactly where the pool is not below its floor and
owes less than one a stack. Elsewhere it raises the pool, to its floor or toward zero at most. -/
theorem split_draw_lowers (split : effect.split = true) (stacked : 0 < stackCount.val) :
    ∃ left, (draw effect (some pool) stackCount evaluated).2 = some left ∧
      (left ≤ pool ↔ floorOf stackCount evaluated ≤ pool ∧ -(stackCount.val : ℚ) < pool) ∧
      left ≤ max (max 0 pool) (floorOf stackCount evaluated) := by
  refine ⟨_, draw_stored split stacked, leftOf_le_iff stacked, leftOf_le stacked ?_ ?_ ?_⟩
  · exact le_max_of_le_left (le_max_left ..)
  · exact le_max_of_le_left (le_max_right ..)
  · exact le_max_right ..

/-- Ten a draw from forty, in four stacks: the pool lies on its floor. -/
theorem split_draw_lowers_tithe :
    tithe.split = true ∧ 0 < (4 : Count).val ∧ ∃ left : ℚ,
      (draw tithe (some 40) 4 10).2 = some left ∧ left ≤ 40 := by
  have drawing : ∃ left : ℚ, (draw tithe (some 40) 4 10).2 = some left ∧
      (left ≤ 40 ↔ floorOf 4 10 ≤ 40 ∧ -((4 : Count).val : ℚ) < 40) ∧
      left ≤ max (max 0 40) (floorOf 4 10) := split_draw_lowers rfl (by decide)
  obtain ⟨left, drawn, lowers, -⟩ := drawing
  refine ⟨rfl, by decide, left, drawn, lowers.mpr ?_⟩
  decide +kernel

/-- A pool of five in four stacks rises to the floor of two a stack. -/
theorem split_draw_raises :
    (¬∀ (effect : Effect) (stackCount : Count) (evaluated : Int) (pool left : ℚ),
      effect.split = true → 0 < stackCount.val →
      (draw effect (some pool) stackCount evaluated).2 = some left → left ≤ pool) ∧
    ((AuraSlot.setAura ⟨0, { id := "pool", name := "Pool", effects := [tithe] }⟩ 4 (some 5)
      none).draw tithe 2).2.amount = some 8 := by
  refine ⟨fun lowers => ?_, by decide +kernel⟩
  have drawn : (draw tithe (some (5 : ℚ)) 4 2).2 = some 8 := by decide +kernel
  have raised := lowers tithe 4 2 5 8 rfl (by decide) drawn
  norm_num at raised

end

/-! ### Draws in turn -/

theorem storedAfterAll_eq {drawings : List Drawing} (splits : ∀ d ∈ drawings, d.Splits)
    (pool : ℚ) : storedAfterAll (some pool) drawings = some (poolAfterAll pool drawings) := by
  induction drawings generalizing pool with
  | nil => rfl
  | cons drawing rest ih =>
    have first := splits drawing List.mem_cons_self
    rw [storedAfterAll, draw_stored first.split first.stacked,
      ih fun d member => splits d (List.mem_cons_of_mem _ member)]
    rfl

/-- Whatever the stacks and amounts of the moment, a pool stays below what is above zero, above
every floor and above what it was. -/
theorem poolAfterAll_le {drawings : List Drawing} {pool cap : ℚ}
    (splits : ∀ d ∈ drawings, d.Splits) (nonneg : 0 ≤ cap) (below : pool ≤ cap)
    (floored : ∀ d ∈ drawings, d.floor ≤ cap) : poolAfterAll pool drawings ≤ cap := by
  induction drawings generalizing pool with
  | nil => exact below
  | cons drawing rest ih =>
    have first := splits drawing List.mem_cons_self
    exact ih (fun d member => splits d (List.mem_cons_of_mem _ member))
      (leftOf_le first.stacked nonneg below (floored drawing List.mem_cons_self))
      fun d member => floored d (List.mem_cons_of_mem _ member)

/-- Draws of which none asks for more than the one before, from a pool that covers them all. -/
structure Falling (pool : ℚ) (drawings : List Drawing) : Prop where
  splits : ∀ d ∈ drawings, d.Splits
  nonneg : ∀ d ∈ drawings, 0 ≤ d.evaluated
  falling : drawings.Pairwise fun d later => later.floor ≤ d.floor
  covered : ∀ d ∈ drawings, d.floor ≤ pool

namespace Falling
variable {pool : ℚ} {drawing : Drawing} {rest : List Drawing}

theorem left_le (falling : Falling pool (drawing :: rest)) : drawing.left pool ≤ pool := by
  have stacked := (falling.splits drawing List.mem_cons_self).stacked
  have covered := falling.covered drawing List.mem_cons_self
  have floor : 0 ≤ drawing.floor := by
    have amount : (0 : ℚ) ≤ drawing.evaluated := by
      exact_mod_cast falling.nonneg drawing List.mem_cons_self
    exact mul_nonneg amount (Nat.cast_nonneg _)
  have counted : (0 : ℚ) < drawing.stackCount.val := by exact_mod_cast stacked
  exact (leftOf_le_iff stacked).mpr ⟨covered, by linarith⟩

theorem tail (falling : Falling pool (drawing :: rest)) : Falling (drawing.left pool) rest where
  splits d member := falling.splits d (List.mem_cons_of_mem _ member)
  nonneg d member := falling.nonneg d (List.mem_cons_of_mem _ member)
  falling := (List.pairwise_cons.mp falling.falling).2
  covered d member := by
    have below := (List.pairwise_cons.mp falling.falling).1 d member
    exact below.trans (le_max_right ..)

theorem after {early late : List Drawing} (falling : Falling pool (early ++ late)) :
    Falling (poolAfterAll pool early) late := by
  induction early generalizing pool with
  | nil => exact falling
  | cons drawing rest ih => exact ih falling.tail

theorem poolAfterAll_le_self {drawings : List Drawing} (falling : Falling pool drawings) :
    poolAfterAll pool drawings ≤ pool := by
  induction drawings generalizing pool with
  | nil => exact le_rfl
  | cons drawing rest ih => exact (ih falling.tail).trans falling.left_le

end Falling

/-- While the amounts and the stacks do not grow, a pool that covers its floor falls from each draw
to the next. -/
theorem falling_draws_lower {pool : ℚ} {early late : List Drawing}
    (falling : Falling pool (early ++ late)) :
    ∃ before after, storedAfterAll (some pool) early = some before ∧
      storedAfterAll (some pool) (early ++ late) = some after ∧ after ≤ before := by
  have splits := falling.splits
  refine ⟨_, _, storedAfterAll_eq (fun d member => splits d (List.mem_append_left _ member)) pool,
    storedAfterAll_eq splits pool, ?_⟩
  rw [poolAfterAll, List.foldl_append]
  exact falling.after.poolAfterAll_le_self

end Combat.Aura
