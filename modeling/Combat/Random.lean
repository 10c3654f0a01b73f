/-!
A source of random words: a script of 64-bit numbers, and zeros once it is used up. The source
counts its draws.
-/

namespace Combat

structure RandomSource where
  script : List UInt64
  draws : Nat := 0
  deriving DecidableEq, Repr

namespace RandomSource

/-- How many words there are. -/
def words : Nat := 18446744073709551616

/-- The greatest low half that a draw below `n` accepts: the products of the accepted words fall
evenly on the `n` results. -/
def acceptance (n : Nat) : Nat := n * Nat.pow 2 (63 - n.log2) - 1

/-- The high half of the first word's product with `n` whose low half is accepted. -/
def drawFrom (n : Nat) : List UInt64 → Nat → Nat × RandomSource
  | [], draws => (0, ⟨[], draws + 1⟩)
  | word :: rest, draws =>
    let product := word.toNat * n
    if product % words ≤ acceptance n then (product / words, ⟨rest, draws + 1⟩)
    else drawFrom n rest (draws + 1)

/-- An even draw from `0, …, n - 1`, for a positive `n` below the number of words. -/
def below (n : Nat) (source : RandomSource) : Nat × RandomSource :=
  drawFrom n source.script source.draws

theorem drawFrom_lt {n : Nat} (positive : 0 < n) (script : List UInt64) (draws : Nat) :
    (drawFrom n script draws).1 < n := by
  induction script generalizing draws with
  | nil => exact positive
  | cons word rest ih =>
    simp only [drawFrom]
    split
    · rw [Nat.div_lt_iff_lt_mul (by decide), Nat.mul_comm n]
      exact Nat.mul_lt_mul_of_pos_right word.toNat_lt positive
    · exact ih _

theorem below_lt {n : Nat} (positive : 0 < n) (source : RandomSource) :
    (source.below n).1 < n := drawFrom_lt positive ..

end RandomSource
end Combat
