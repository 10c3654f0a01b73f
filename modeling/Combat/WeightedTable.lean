import Combat.Count
import Combat.Random

/-!
Weighted tables. An entry is drawn with the share of the total that its weight has.
-/

namespace Combat

structure WeightedEntry (α : Type) where
  id : α
  weight : Count

namespace WeightedEntry
variable {α : Type}

/-- The weight of the entries together. -/
def total (entries : List (WeightedEntry α)) : Nat :=
  entries.foldr (fun entry total => entry.weight.val + total) 0

end WeightedEntry

/-- A table stores the weight of its entries beside them. -/
structure WeightedTable (α : Type) where
  entries : List (WeightedEntry α) := []
  totalWeight : Nat := 0
  summed : totalWeight = WeightedEntry.total entries := by rfl

namespace WeightedTable
variable {α : Type}

/-- Replaces all entries and sums their weights anew. -/
def load (_ : WeightedTable α) (entries : List (WeightedEntry α)) : WeightedTable α where
  entries
  totalWeight := WeightedEntry.total entries

def ofEntries (entries : List (WeightedEntry α)) : WeightedTable α := load {} entries

/-- Nothing can be drawn. -/
def isEmpty (table : WeightedTable α) : Bool := table.totalWeight = 0

/-- The first entry at which the summed weights pass the roll. -/
def entryAt (roll cumulative : Nat) : List (WeightedEntry α) → Option α
  | [] => none
  | entry :: rest =>
    let cumulative := cumulative + entry.weight.val
    if roll < cumulative then some entry.id else entryAt roll cumulative rest

/-- One even roll below the total weight picks the entry. -/
def draw (table : WeightedTable α) (random : RandomSource) : Checked (α × RandomSource) :=
  if table.isEmpty then .error .emptyDraw
  else
    let (roll, random) := random.below table.totalWeight
    match entryAt roll 0 table.entries with
    | some id => .ok (id, random)
    | none => .error .emptyDraw

end WeightedTable
end Combat
