import Combat.Skirmish.Roster
import Mathlib.Algebra.BigOperators.Group.List.Basic
import Mathlib.Algebra.Order.Ring.Nat

/-!
Fair draws. The rolls below the total weight are cut into consecutive ranges, one an entry and each
as long as the entry's weight, and an even roll lies in every place alike.
-/

namespace Combat

/-! ### Even rolls -/

namespace RandomSource

/-- How many words give each result of an even draw below `n`. -/
def share (n : Nat) : Nat := Nat.pow 2 (63 - n.log2)

theorem share_pos (n : Nat) : 0 < share n := Nat.two_pow_pos _

theorem mul_share_le {n : Nat} (positive : 0 < n) (small : n < words) : n * share n ≤ words := by
  have short : n.log2 < 64 := (Nat.log2_lt positive.ne').mpr small
  have exponent : n.log2 + 1 + (63 - n.log2) = 64 := by omega
  calc n * share n
      ≤ 2 ^ (n.log2 + 1) * 2 ^ (63 - n.log2) :=
        Nat.mul_le_mul_right _ Nat.lt_log2_self.le
    _ = words := by rw [← pow_add, exponent]; rfl

/-- A word is accepted with a result where its product with `n` is among the first of the
result's own products. -/
theorem accepted_iff {n product roll : Nat} (positive : 0 < n) (small : n < words) :
    (product % words ≤ acceptance n ∧ product / words = roll) ↔
      roll * words ≤ product ∧ product < roll * words + n * share n := by
  have fits := mul_share_le positive small
  have some_products : 0 < n * share n := Nat.mul_pos positive (share_pos n)
  have bound : product % words ≤ acceptance n ↔ product % words < n * share n := by
    change product % words ≤ n * share n - 1 ↔ _
    omega
  have parts := Nat.div_add_mod product words
  have rest := Nat.mod_lt product (show 0 < words by decide)
  rw [bound]
  constructor
  · rintro ⟨low, rfl⟩
    rw [Nat.mul_comm (product / words)]
    omega
  · rintro ⟨least, most⟩
    have high : product / words = roll :=
      (Nat.div_eq_iff (by decide)).mpr ⟨least, by unfold words at *; omega⟩
    rw [high, Nat.mul_comm] at parts
    exact ⟨by omega, high⟩

theorem ceil_le_iff {n : Nat} (positive : 0 < n) (product word : Nat) :
    (product + n - 1) / n ≤ word ↔ product ≤ word * n := by
  rw [← Nat.lt_succ_iff, Nat.div_lt_iff_lt_mul positive, Nat.succ_mul]
  omega

theorem drawFrom_draws (n : Nat) (script : List UInt64) (draws : Nat) :
    draws < (drawFrom n script draws).2.draws := by
  induction script generalizing draws with
  | nil => exact Nat.lt_succ_self draws
  | cons word rest ih =>
    simp only [drawFrom]
    split
    · exact Nat.lt_succ_self draws
    · exact (Nat.lt_succ_self draws).trans (ih _)

theorem below_once_iff {n roll : Nat} (word : UInt64) (rest : List UInt64) (draws : Nat) :
    below n ⟨word :: rest, draws⟩ = (roll, ⟨rest, draws + 1⟩) ↔
      word.toNat * n % words ≤ acceptance n ∧ word.toNat * n / words = roll := by
  simp only [below, drawFrom]
  split
  · simp [*]
  · have later := drawFrom_draws n rest (draws + 1)
    -- a word that is passed over counts, so the answer took more than one
    refine iff_of_false (fun same => ?_) fun accepted => ‹¬_› accepted.1
    rw [same] at later
    exact Nat.lt_irrefl _ later

/-- Each result is given by equally many words, which follow one another: those whose product with
`n` is the first to reach the result, and on from there. -/
theorem below_even {n roll : Nat} (positive : 0 < n) (small : n < words) (inside : roll < n) :
    ∃ first, first + share n ≤ words ∧ ∀ word rest draws,
      below n ⟨word :: rest, draws⟩ = (roll, ⟨rest, draws + 1⟩) ↔
        first ≤ word.toNat ∧ word.toNat < first + share n := by
  have past : (roll * words + n - 1) / n + share n = (roll * words + n * share n + n - 1) / n := by
    rw [← Nat.add_mul_div_left _ _ positive]
    congr 1
    omega
  refine ⟨(roll * words + n - 1) / n, ?_, fun word rest draws => ?_⟩
  · rw [past, ceil_le_iff positive]
    have fits := mul_share_le positive small
    calc roll * words + n * share n
        ≤ (roll + 1) * words := by rw [Nat.succ_mul]; exact Nat.add_le_add_left fits _
      _ ≤ words * n := by rw [Nat.mul_comm words]; exact Nat.mul_le_mul_right _ inside
  · rw [below_once_iff, accepted_iff positive small, ceil_le_iff positive, past, ← Nat.not_le,
      ← Nat.not_le, ceil_le_iff positive]

end RandomSource

namespace WeightedEntry
variable {α β : Type}

theorem total_eq_sum (entries : List (WeightedEntry α)) :
    total entries = (entries.map (·.weight.val)).sum := by
  induction entries with
  | nil => rfl
  | cons entry rest ih => rw [List.map_cons, List.sum_cons, ← ih]; rfl

/-! ### Ranges of rolls -/

/-- The weight of the entries before a place. -/
def before (entries : List (WeightedEntry α)) (i : Nat) : Nat :=
  ((entries.take i).map (·.weight.val)).sum

/-- The roll lies in the range of the entry at `i`: past the weight of the entries before it, and
below that weight and its own. -/
def Within (entries : List (WeightedEntry α)) (i roll : Nat) : Prop :=
  before entries i ≤ roll ∧ roll < before entries (i + 1)

instance (entries : List (WeightedEntry α)) (i roll : Nat) : Decidable (Within entries i roll) :=
  inferInstanceAs (Decidable (_ ∧ _))

theorem before_succ {entries : List (WeightedEntry α)} {i : Nat} {entry : WeightedEntry α}
    (found : entries[i]? = some entry) :
    before entries (i + 1) = before entries i + entry.weight.val := by
  simp [before, List.take_add_one, found]

theorem before_le_total (entries : List (WeightedEntry α)) (i : Nat) :
    before entries i ≤ total entries := by
  rw [total_eq_sum, before, List.map_take]
  exact Nat.le.intro (List.sum_take_add_sum_drop _ i)

theorem before_cons_succ (entry : WeightedEntry α) (rest : List (WeightedEntry α)) (i : Nat) :
    before (entry :: rest) (i + 1) = entry.weight.val + before rest i := by
  simp [before]

theorem range_filter_length (first past n : Nat) :
    ((List.range n).filter fun k => first ≤ k ∧ k < past).length = min past n - min first n := by
  induction n with
  | zero => simp
  | succ n ih =>
    rw [List.range_succ, List.filter_append, List.length_append, ih, List.filter_singleton]
    by_cases inside : first ≤ n ∧ n < past
    · simp only [inside, and_self, decide_true, cond_true, List.length_singleton]
      omega
    · simp only [inside, decide_false, cond_false, List.length_nil]
      omega

/-- As many rolls lie in the range of an entry as its weight says. -/
theorem rolls_within {entries : List (WeightedEntry α)} {i : Nat} {entry : WeightedEntry α}
    (found : entries[i]? = some entry) :
    ((List.range (total entries)).filter (Within entries i)).length = entry.weight.val := by
  have next := before_succ found
  have inside := before_le_total entries (i + 1)
  refine (range_filter_length (before entries i) (before entries (i + 1)) (total entries)).trans ?_
  omega

/-! ### Places -/

def relabel (f : α → β) (entry : WeightedEntry α) : WeightedEntry β := ⟨f entry.id, entry.weight⟩

/-- The entries, named by their places: ids may repeat. -/
def numbered (entries : List (WeightedEntry α)) : List (WeightedEntry Nat) :=
  entries.mapIdx fun i => relabel fun _ => i

theorem numbered_cons (entry : WeightedEntry α) (rest : List (WeightedEntry α)) :
    numbered (entry :: rest) = ⟨0, entry.weight⟩ :: (numbered rest).map (relabel Nat.succ) := by
  rw [numbered, List.mapIdx_cons]
  refine congrArg (List.cons _) (List.ext_getElem? fun i => ?_)
  simp only [List.getElem?_mapIdx, List.getElem?_map, numbered, Option.map_map]
  rfl

theorem total_relabel (f : α → β) (entries : List (WeightedEntry α)) :
    total (entries.map (relabel f)) = total entries := by
  simp [total_eq_sum, relabel, Function.comp_def]

theorem total_numbered (entries : List (WeightedEntry α)) :
    total (numbered entries) = total entries := by
  induction entries with
  | nil => rfl
  | cons entry rest ih =>
    rw [numbered_cons]
    change entry.weight.val + total _ = entry.weight.val + total rest
    rw [total_relabel, ih]

end WeightedEntry

namespace WeightedTable
open WeightedEntry
variable {α β : Type}

/-! ### The scan -/

theorem entryAt_relabel (f : α → β) (roll cumulative : Nat) (entries : List (WeightedEntry α)) :
    entryAt roll cumulative (entries.map (relabel f)) =
      (entryAt roll cumulative entries).map f := by
  induction entries generalizing cumulative with
  | nil => rfl
  | cons entry rest ih =>
    simp only [List.map_cons, entryAt, relabel]
    split
    · rfl
    · exact ih _

/-- A roll below the total stops the scan somewhere. -/
theorem entryAt_isSome {roll cumulative : Nat} {entries : List (WeightedEntry α)}
    (reached : cumulative ≤ roll) (inside : roll < cumulative + total entries) :
    ∃ id, entryAt roll cumulative entries = some id := by
  induction entries generalizing cumulative with
  | nil => exact absurd inside (Nat.not_lt.mpr reached)
  | cons entry rest ih =>
    simp only [entryAt]
    split
    · exact ⟨_, rfl⟩
    · rename_i passed
      refine ih (Nat.not_lt.mp passed) ?_
      rwa [Nat.add_assoc]

/-- The scan stops at the entry in whose range the roll lies. -/
theorem entryAt_numbered {roll cumulative : Nat} (reached : cumulative ≤ roll)
    (entries : List (WeightedEntry α)) (i : Nat) :
    entryAt roll cumulative (numbered entries) = some i ↔
      cumulative + before entries i ≤ roll ∧ roll < cumulative + before entries (i + 1) := by
  induction entries generalizing cumulative i with
  | nil => simp [numbered, entryAt, before, reached]
  | cons entry rest ih =>
    simp only [numbered_cons, entryAt, entryAt_relabel]
    cases i with
    | zero =>
      have range : before (entry :: rest) 0 = 0 ∧ before (entry :: rest) 1 = entry.weight.val := by
        simp [before]
      rw [range.1, range.2]
      split <;> simp [*]
    | succ i =>
      rw [before_cons_succ, before_cons_succ, ← Nat.add_assoc, ← Nat.add_assoc]
      split
      · exact iff_of_false (by simp) (by omega)
      · rename_i passed
        simp [ih (Nat.not_lt.mp passed)]

theorem entryAt_within (entries : List (WeightedEntry α)) (roll i : Nat) :
    entryAt roll 0 (WeightedEntry.numbered entries) = some i ↔ Within entries i roll := by
  simpa only [Within, Nat.zero_add] using entryAt_numbered (Nat.zero_le roll) entries i

/-- The scan gives the id of the entry at the place where it stops. -/
theorem entryAt_eq (roll cumulative : Nat) (entries : List (WeightedEntry α)) :
    entryAt roll cumulative entries =
      (entryAt roll cumulative (numbered entries)).bind fun i => entries[i]?.map (·.id) := by
  induction entries generalizing cumulative with
  | nil => rfl
  | cons entry rest ih =>
    simp only [numbered_cons, entryAt, entryAt_relabel]
    split
    · rfl
    · rw [ih, Option.bind_map]
      rfl

/-- The scan of a roll below the total stops at an entry, with its id. -/
theorem entryAt_found {roll : Nat} {entries : List (WeightedEntry α)}
    (inside : roll < total entries) : ∃ i entry, entries[i]? = some entry ∧
      entryAt roll 0 (numbered entries) = some i ∧ entryAt roll 0 entries = some entry.id := by
  obtain ⟨id, stopped⟩ := entryAt_isSome (Nat.zero_le roll) (inside.trans_eq (Nat.zero_add _).symm)
  have placed := stopped
  rw [entryAt_eq] at placed
  obtain ⟨i, place, named⟩ := Option.bind_eq_some_iff.mp placed
  obtain ⟨entry, found, rfl⟩ := Option.map_eq_some_iff.mp named
  exact ⟨i, entry, found, place, stopped⟩

/-! ### Draws -/

/-- The table with its entries named by their places. -/
def numbered (table : WeightedTable α) : WeightedTable Nat :=
  .ofEntries (WeightedEntry.numbered table.entries)

theorem numbered_totalWeight (table : WeightedTable α) :
    table.numbered.totalWeight = table.totalWeight :=
  (total_numbered table.entries).trans table.summed.symm

theorem draw_eq_ok_iff {table : WeightedTable α} (positive : 0 < table.totalWeight)
    (random : RandomSource) (id : α) (rest : RandomSource) :
    table.draw random = .ok (id, rest) ↔
      entryAt (random.below table.totalWeight).1 0 table.entries = some id ∧
        rest = (random.below table.totalWeight).2 := by
  have filled : table.isEmpty = false := decide_eq_false positive.ne'
  simp only [draw, filled, Bool.false_eq_true, if_false]
  split
  · rename_i found
    simp [found, eq_comm]
  · rename_i missing
    simp [missing]

theorem numbered_draw_eq_ok_iff {table : WeightedTable α} (positive : 0 < table.totalWeight)
    (random : RandomSource) (i : Nat) (rest : RandomSource) :
    table.numbered.draw random = .ok (i, rest) ↔
      entryAt (random.below table.totalWeight).1 0 (WeightedEntry.numbered table.entries) = some i ∧
        rest = (random.below table.totalWeight).2 := by
  rw [draw_eq_ok_iff (by rwa [numbered_totalWeight]), numbered_totalWeight]
  rfl

/-- The table was filled with the entries: over what it held before, or from the list that
writes it. -/
inductive Filled (entries : List (WeightedEntry α)) : WeightedTable α → Prop
  | load (former : WeightedTable α) : Filled entries (former.load entries)
  | read {id? : Value → Option α} {origin : Value.Origin} {value : Value}
      {table : WeightedTable α}
      (written : Value.list? (entryOfValue? id? origin) value = some entries)
      (read : readBy? id? origin value = some table) : Filled entries table

theorem Filled.eq {entries : List (WeightedEntry α)} {table : WeightedTable α}
    (filled : Filled entries table) : table = .ofEntries entries := by
  cases filled with
  | load former => rfl
  | read written read =>
    rw [readBy?, written] at read
    exact (Option.some.inj read).symm

/-- The table draws each of the entries with its weight as the share of the total. -/
structure Proportional (table : WeightedTable α) (entries : List (WeightedEntry α)) : Prop where
  /-- Nothing but the entries says what the table is. -/
  fresh : table = .ofEntries entries
  held : table.entries = entries
  total : table.totalWeight = (entries.map (·.weight.val)).sum
  /-- A draw never fails, and its entry has a weight. -/
  drawn : ∀ random, ∃ i entry rest, entries[i]? = some entry ∧ 0 < entry.weight.val ∧
    table.numbered.draw random = .ok (i, rest) ∧ table.draw random = .ok (entry.id, rest)
  /-- It is the entry at `i` for exactly the rolls in its range. -/
  exactly : ∀ random i, (∃ rest, table.numbered.draw random = .ok (i, rest)) ↔
    Within entries i (random.below table.totalWeight).1
  /-- Of all rolls, as many are in its range as its weight says. -/
  chances : ∀ i entry, entries[i]? = some entry →
    ((List.range table.totalWeight).filter (Within entries i)).length = entry.weight.val
  /-- Each roll is given by equally many of the random words. -/
  even : ∀ roll < table.totalWeight, ∃ first,
    first + RandomSource.share table.totalWeight ≤ RandomSource.words ∧ ∀ word rest draws,
      RandomSource.below table.totalWeight ⟨word :: rest, draws⟩ = (roll, ⟨rest, draws + 1⟩) ↔
        first ≤ word.toNat ∧ word.toNat < first + RandomSource.share table.totalWeight

/-- Whatever a table held before, it draws the entries it was filled with, each with its share. -/
theorem draw_proportional {table : WeightedTable α} {entries : List (WeightedEntry α)}
    (filled : Filled entries table) (positive : 0 < (entries.map (·.weight.val)).sum)
    (small : (entries.map (·.weight.val)).sum < RandomSource.words) :
    Proportional table entries := by
  obtain rfl := filled.eq
  rw [← total_eq_sum] at positive small
  refine ⟨rfl, rfl, total_eq_sum entries, fun random => ?_, fun random i => ?_,
    fun _ _ => rolls_within, fun _ inside => RandomSource.below_even positive small inside⟩
  · obtain ⟨i, entry, found, place, stopped⟩ :=
      entryAt_found (RandomSource.below_lt positive random)
    have weight : 0 < entry.weight.val := by
      have next := before_succ found
      have ⟨least, most⟩ := (entryAt_within ..).mp place
      omega
    exact ⟨i, entry, _, found, weight, (numbered_draw_eq_ok_iff positive ..).mpr ⟨place, rfl⟩,
      (draw_eq_ok_iff positive ..).mpr ⟨stopped, rfl⟩⟩
  · rw [← entryAt_within]
    exact ⟨fun ⟨_, drawn⟩ => ((numbered_draw_eq_ok_iff positive ..).mp drawn).1,
      fun place => ⟨_, (numbered_draw_eq_ok_iff positive ..).mpr ⟨place, rfl⟩⟩⟩

/-! Entries without weight at both ends and in between, and an id that stands twice. -/

def scarce : List (WeightedEntry String) :=
  [⟨"dust", 0⟩, ⟨"coin", 3⟩, ⟨"ash", 0⟩, ⟨"gem", 0⟩, ⟨"gem", 2⟩, ⟨"dust", 0⟩]

theorem draw_proportional_scarce :
    (scarce.map (·.weight.val)).sum = 5 ∧
      Proportional ((ofEntries [⟨"dust", 70⟩]).load scarce) scarce :=
  ⟨by decide, draw_proportional (.load _) (by decide) (by decide)⟩

end WeightedTable
end Combat
