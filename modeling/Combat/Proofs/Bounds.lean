import Combat.Proofs.Keeping
import Combat.Proofs.Vitals
import Mathlib.Algebra.Order.BigOperators.Group.List
import Mathlib.Algebra.Order.Ring.Nat
import Mathlib.Data.List.Forall2

/-!
Room for arithmetic. As long as the sources of a character's stats stay below a bound, and its
hitpoints and energy with them, the sums and products that its operations work out keep to their
range, and what the operations leave stays below the bound as well.
-/

namespace Combat
open Checked

/-! ### Sums of blocks -/

namespace StatBlock

/-- The sizes of the amounts, added up. -/
def bulk (pairs : List (String × Int)) : Nat := (pairs.map (·.2.natAbs)).sum

def Within (block : StatBlock) (most : Nat) : Prop :=
  ∀ stat, (block.value stat).natAbs ≤ most

theorem add_within {block : StatBlock} {most : Nat} (within : block.Within most) (stat : String)
    (amount : Int) (room : most + amount.natAbs ≤ 2 ^ 62) :
    ∃ after, block.add stat amount = .ok after ∧ after.Within (most + amount.natAbs) := by
  have bound := within stat
  obtain ⟨total, added⟩ : (Checked.add (block.value stat) amount).Finishes := by
    apply finishes_int.mpr
    unfold least greatest
    omega
  have sum : block.add stat amount = .ok (block.insert stat total) := by
    rw [add, added]
    rfl
  refine ⟨_, sum, fun other => ?_⟩
  have value := add_ok sum other
  have before := within other
  split at value
  · omega
  · omega

theorem addAll_within {pairs : List (String × Int)} {block : StatBlock} {most : Nat}
    (within : block.Within most) (room : most + bulk pairs ≤ 2 ^ 62) :
    ∃ after, block.addAll pairs = .ok after ∧ after.Within (most + bulk pairs) := by
  induction pairs generalizing block most with
  | nil => exact ⟨block, rfl, within⟩
  | cons pair rest ih =>
    have split : bulk (pair :: rest) = pair.2.natAbs + bulk rest := by
      simp [bulk]
    obtain ⟨middle, first, still⟩ := add_within within pair.1 pair.2 (by omega)
    obtain ⟨after, later, last⟩ := ih still (by omega)
    refine ⟨after, ?_, ?_⟩
    · unfold addAll
      rw [List.foldlM_cons, first]
      exact later
    · rwa [split, ← Nat.add_assoc]

end StatBlock

/-! ### Totals -/

namespace StatModifier

/-- The sizes of the flat or of the percent modifiers, added up. -/
def bulk (percent : Bool) (modifiers : List StatModifier) : Nat :=
  ((modifiers.filter (·.percent = percent)).map (·.value.natAbs)).sum

theorem bulk_append (percent : Bool) (first second : List StatModifier) :
    bulk percent (first ++ second) = bulk percent first + bulk percent second := by
  simp [bulk]

theorem natAbs_le_bulk {modifier : StatModifier} {modifiers : List StatModifier}
    (member : modifier ∈ modifiers) :
    modifier.value.natAbs ≤ bulk modifier.percent modifiers := by
  have kept : modifier ∈ modifiers.filter (·.percent = modifier.percent) :=
    List.mem_filter.mpr ⟨member, decide_eq_true rfl⟩
  exact List.le_sum_of_mem (List.mem_map.mpr ⟨modifier, kept, rfl⟩)

theorem bulk_filterMap_le {α : Type} {percent : Bool} {f g : α → Option StatModifier}
    (each : ∀ a, bulk percent (f a).toList ≤ bulk percent (g a).toList) (xs : List α) :
    bulk percent (xs.filterMap f) ≤ bulk percent (xs.filterMap g) := by
  have cons : ∀ (h : α → Option StatModifier) (a : α) (rest : List α),
      (a :: rest).filterMap h = (h a).toList ++ rest.filterMap h := by
    intro h a rest
    rw [List.filterMap_cons]
    cases h a <;> rfl
  induction xs with
  | nil => exact Nat.le_refl _
  | cons a rest ih =>
    rw [cons, cons, bulk_append, bulk_append]
    exact Nat.add_le_add (each a) ih

end StatModifier

namespace StatSource

/-- What a source may add to the flat or to the percent total of a stat. -/
def bulk (percent : Bool) : StatSource → Nat
  | .innate stats | .worn _ stats => if percent then 0 else StatBlock.bulk stats.entries
  | .auras modifiers => StatModifier.bulk percent modifiers

end StatSource

structure Totals.Within (totals : Totals) (flat percent : Nat) : Prop where
  flat : totals.flat.Within flat
  percent : totals.percent.Within percent

namespace Totals

theorem addBlock_within {totals : Totals} {flat percent : Nat} (within : totals.Within flat percent)
    {block : StatBlock} (room : flat + StatBlock.bulk block.entries ≤ 2 ^ 62) :
    ∃ after, totals.addBlock block = .ok after ∧
      after.Within (flat + StatBlock.bulk block.entries) percent := by
  obtain ⟨merged, sum, bounded⟩ := StatBlock.addAll_within within.flat room
  refine ⟨{ totals with flat := merged }, ?_, bounded, within.percent⟩
  unfold addBlock StatBlock.merge
  rw [sum]
  rfl

theorem addModifier_within {totals : Totals} {flat percent : Nat}
    (within : totals.Within flat percent) (modifier : StatModifier)
    (flats : flat + StatModifier.bulk false [modifier] ≤ 2 ^ 62)
    (percents : percent + StatModifier.bulk true [modifier] ≤ 2 ^ 62) :
    ∃ after, StatSource.addModifier totals modifier = .ok after ∧
      after.Within (flat + StatModifier.bulk false [modifier])
        (percent + StatModifier.bulk true [modifier]) := by
  unfold StatSource.addModifier
  cases percentual : modifier.percent with
  | false =>
    have size : StatModifier.bulk false [modifier] = modifier.value.natAbs := by
      simp [StatModifier.bulk, percentual]
    have none : StatModifier.bulk true [modifier] = 0 := by
      simp [StatModifier.bulk, percentual]
    rw [size] at flats ⊢
    rw [none]
    obtain ⟨sum, added, bounded⟩ :=
      StatBlock.add_within within.flat modifier.stat modifier.value flats
    refine ⟨{ totals with flat := sum }, ?_, bounded, within.percent⟩
    rw [addFlat, added]
    rfl
  | true =>
    have size : StatModifier.bulk true [modifier] = modifier.value.natAbs := by
      simp [StatModifier.bulk, percentual]
    have none : StatModifier.bulk false [modifier] = 0 := by
      simp [StatModifier.bulk, percentual]
    rw [size] at percents ⊢
    rw [none]
    obtain ⟨sum, added, bounded⟩ :=
      StatBlock.add_within within.percent modifier.stat modifier.value percents
    refine ⟨{ totals with percent := sum }, ?_, within.flat, bounded⟩
    rw [addPercent, added]
    rfl

theorem addModifiers_within {modifiers : List StatModifier} {totals : Totals} {flat percent : Nat}
    (within : totals.Within flat percent)
    (flats : flat + StatModifier.bulk false modifiers ≤ 2 ^ 62)
    (percents : percent + StatModifier.bulk true modifiers ≤ 2 ^ 62) :
    ∃ after, modifiers.foldlM StatSource.addModifier totals = .ok after ∧
      after.Within (flat + StatModifier.bulk false modifiers)
        (percent + StatModifier.bulk true modifiers) := by
  induction modifiers generalizing totals flat percent with
  | nil => exact ⟨totals, rfl, within⟩
  | cons modifier rest ih =>
    rw [← List.singleton_append, StatModifier.bulk_append] at flats percents
    rw [List.foldlM_cons, ← List.singleton_append, StatModifier.bulk_append,
      StatModifier.bulk_append]
    -- The bound grows by what is added, so it covers every partial sum and not the last alone.
    obtain ⟨middle, first, still⟩ := addModifier_within within modifier (by omega) (by omega)
    obtain ⟨after, later, last⟩ := ih still (by omega) (by omega)
    rw [first, ← Nat.add_assoc, ← Nat.add_assoc]
    exact ⟨after, later, last⟩

theorem addTo_within {totals : Totals} {flat percent : Nat} (within : totals.Within flat percent)
    (source : StatSource) (flats : flat + source.bulk false ≤ 2 ^ 62)
    (percents : percent + source.bulk true ≤ 2 ^ 62) :
    ∃ after, source.addTo totals = .ok after ∧
      after.Within (flat + source.bulk false) (percent + source.bulk true) := by
  cases source with
  | innate stats => exact addBlock_within within flats
  | worn slot stats => exact addBlock_within within flats
  | auras modifiers => exact addModifiers_within within flats percents

theorem addAll_within {totals : Totals} {flat percent : Nat} (within : totals.Within flat percent)
    (sources : List StatSource)
    (flats : flat + (sources.map (StatSource.bulk false)).sum ≤ 2 ^ 62)
    (percents : percent + (sources.map (StatSource.bulk true)).sum ≤ 2 ^ 62) :
    ∃ after, sources.foldlM StatSource.addTo totals = .ok after ∧
      after.Within (flat + (sources.map (StatSource.bulk false)).sum)
        (percent + (sources.map (StatSource.bulk true)).sum) := by
  induction sources generalizing totals flat percent with
  | nil => exact ⟨totals, rfl, within⟩
  | cons source rest ih =>
    rw [List.map_cons, List.sum_cons] at flats percents ⊢
    rw [List.map_cons, List.sum_cons, List.foldlM_cons]
    obtain ⟨middle, first, still⟩ := addTo_within within source (by omega) (by omega)
    obtain ⟨after, later, last⟩ := ih still (by omega) (by omega)
    rw [first, ← Nat.add_assoc, ← Nat.add_assoc]
    exact ⟨after, later, last⟩

/-- Neither the product nor the quotient is larger than those of the bounds. -/
theorem raised_within {flat percent : Int} {flats percents most : Nat} (low : flat.natAbs ≤ flats)
    (rise : percent.natAbs ≤ percents) (few : percents ≤ 2 ^ 30)
    (room : flats * (100 + percents) ≤ 100 * most) (ample : most ≤ 2 ^ 30) :
    ∃ value, raised flat percent = .ok value ∧ value.natAbs ≤ most := by
  have product : (flat * (100 + percent)).natAbs ≤ 100 * most := by
    rw [Int.natAbs_mul]
    refine Nat.le_trans (Nat.mul_le_mul low ?_) room
    omega
  obtain ⟨whole, added⟩ : (Checked.add 100 percent).Finishes := by
    apply finishes_int.mpr
    unfold least greatest
    omega
  have sum := Checked.add_ok added
  obtain ⟨result, multiplied⟩ : (Checked.mul flat whole).Finishes := by
    apply finishes_int.mpr
    rw [sum]
    unfold least greatest
    omega
  have value := mul_ok multiplied
  rw [sum] at value
  refine ⟨result / 100, ?_, ?_⟩
  · unfold raised
    rw [added]
    change (do return (← Checked.mul flat whole) / 100) = _
    rw [multiplied]
    rfl
  · rw [← value] at product
    omega

theorem finish_within {totals : Totals} {flat percent most : Nat}
    (within : totals.Within flat percent) (few : percent ≤ 2 ^ 30)
    (room : flat * (100 + percent) ≤ 100 * most) (ample : most ≤ 2 ^ 30) :
    ∃ stats, totals.finish = .ok stats ∧ stats.Within most := by
  have each : ∀ stat, ∃ value,
      raised (totals.flat.value stat) (totals.percent.value stat) = .ok value ∧
        value.natAbs ≤ most := fun stat =>
    raised_within (within.flat stat) (within.percent stat) few room ample
  obtain ⟨stats, finished⟩ : totals.finish.Finishes := by
    refine Finishes.foldlM fun entry member done => ?_
    obtain ⟨value, worked, -⟩ := each entry.1
    -- The fold is over entries, the bounds are on values: each entry is the value of its stat.
    have here : totals.flat.value entry.1 = entry.2 := by
      rw [StatBlock.value, IdMap.get?, IdMap.find_entry totals.flat.sorted member]
      rfl
    rw [here] at worked
    exact ⟨_, by rw [worked]; rfl⟩
  refine ⟨stats, finished, fun stat => ?_⟩
  obtain ⟨value, worked, bounded⟩ := each stat
  rw [StatBlock.value, finish_ok finished]
  rw [raised_ok worked, StatBlock.value] at bounded
  cases held : totals.flat.get? stat with
  | none => exact Nat.zero_le _
  | some amount =>
    rw [held] at bounded
    exact bounded

end Totals

/-! ### Modifiers of slots -/

namespace AuraSlot

/-- The stacks that count for an id. -/
def stacksFor (id : String) (slot : AuraSlot) : Nat :=
  if slot.carries id then slot.stackCount.val else 0

/-- It weighs no more: neither on a total of stats nor on one of stacks. -/
structure Lighter (slot other : AuraSlot) : Prop where
  modifiers : ∀ percent, StatModifier.bulk percent slot.contribution ≤
    StatModifier.bulk percent other.contribution
  counts : ∀ id, slot.stacksFor id ≤ other.stacksFor id

theorem Lighter.refl (slot : AuraSlot) : slot.Lighter slot :=
  ⟨fun _ => Nat.le_refl _, fun _ => Nat.le_refl _⟩

theorem empty_lighter (other : AuraSlot) : empty.Lighter other :=
  ⟨fun _ => Nat.zero_le _, fun _ => Nat.zero_le _⟩

theorem contributed?_removeStacks (slot : AuraSlot) (count : Count) (held : RegisteredAura)
    (percent : Bool) (effect : Effect) :
    StatModifier.bulk percent ((slot.removeStacks count).contributed? held effect).toList ≤
      StatModifier.bulk percent (slot.contributed? held effect).toList := by
  have fewer :
      (slot.removeStacks count).stackCount.toInt.natAbs ≤ slot.stackCount.toInt.natAbs := by
    have left : (slot.removeStacks count).stackCount.val = slot.stackCount.val - count.val :=
      Count.val_sub ..
    unfold Count.toInt
    omega
  have worth : (slot.removeStacks count).worth effect = slot.worth effect := rfl
  unfold contributed?
  rw [worth]
  cases effect.kind with
  | statModifier stat rate =>
    have size : ∀ times : Int, StatModifier.bulk percent
        [{ aura := held.id, stat, value := slot.worth effect * times, percent := rate }] =
          if rate = percent then (slot.worth effect).natAbs * times.natAbs else 0 := by
      intro times
      by_cases same : rate = percent
      · simp [StatModifier.bulk, same, Int.natAbs_mul]
      · simp [StatModifier.bulk, same]
    dsimp only [Option.toList]
    rw [size, size]
    split
    · apply Nat.mul_le_mul_left
      split
      · exact fewer
      · exact Nat.le_refl _
    · exact Nat.le_refl _
  | _ => exact Nat.le_refl _

theorem removeStacks_lighter (slot : AuraSlot) (count : Count) :
    (slot.removeStacks count).Lighter slot := by
  have left : (slot.removeStacks count).stackCount.val = slot.stackCount.val - count.val :=
    Count.val_sub ..
  have active : (slot.removeStacks count).isActive = true → slot.isActive = true := by
    have held : (slot.removeStacks count).held = slot.held := rfl
    simp only [isActive, held, Bool.and_eq_true, decide_eq_true_eq, left]
    intro still
    exact ⟨still.1, by omega⟩
  constructor
  case modifiers =>
    intro percent
    unfold contribution
    have held : (slot.removeStacks count).held = slot.held := rfl
    rw [held]
    cases slot.held with
    | none => exact Nat.le_refl _
    | some aura =>
      dsimp only
      by_cases still : (slot.removeStacks count).isActive = true
      · rw [if_pos still, if_pos (active still)]
        exact StatModifier.bulk_filterMap_le (contributed?_removeStacks slot count aura percent) _
      · rw [if_neg still]
        exact Nat.zero_le _
  case counts =>
    intro id
    have carries : (slot.removeStacks count).carries id = true → slot.carries id = true := by
      simp only [AuraSlot.carries, Bool.and_eq_true]
      exact fun still => ⟨active still.1, still.2⟩
    unfold stacksFor
    split
    · rename_i still
      rw [if_pos (carries still)]
      omega
    · exact Nat.zero_le _

end AuraSlot

namespace AuraSlots

/-- The stacks of an aura over all slots. -/
def stacksFor (id : String) (slots : List AuraSlot) : Nat :=
  (slots.map (AuraSlot.stacksFor id)).sum

/-- What the slots add to the flat or to the percent totals. -/
def bulk (percent : Bool) (slots : List AuraSlot) : Nat :=
  StatModifier.bulk percent (slots.flatMap AuraSlot.contribution)

theorem bulk_cons (percent : Bool) (slot : AuraSlot) (rest : List AuraSlot) :
    bulk percent (slot :: rest) =
      StatModifier.bulk percent slot.contribution + bulk percent rest := by
  rw [bulk, List.flatMap_cons, StatModifier.bulk_append]
  rfl

theorem bulk_member {slot : AuraSlot} {slots : List AuraSlot} (member : slot ∈ slots)
    (percent : Bool) : StatModifier.bulk percent slot.contribution ≤ bulk percent slots := by
  induction slots with
  | nil => exact absurd member List.not_mem_nil
  | cons head rest ih =>
    rw [bulk_cons]
    rcases List.mem_cons.mp member with rfl | later
    · omega
    · have := ih later
      omega

/-- Slot for slot it weighs no more. -/
def Lighter : List AuraSlot → List AuraSlot → Prop := List.Forall₂ AuraSlot.Lighter

theorem Lighter.bulk_le {slots others : List AuraSlot} (lighter : Lighter slots others)
    (percent : Bool) : bulk percent slots ≤ bulk percent others := by
  induction lighter with
  | nil => exact Nat.le_refl _
  | cons first _ ih =>
    rw [bulk_cons, bulk_cons]
    exact Nat.add_le_add (first.modifiers percent) ih

theorem Lighter.stacksFor_le {slots others : List AuraSlot} (lighter : Lighter slots others)
    (id : String) : stacksFor id slots ≤ stacksFor id others := by
  induction lighter with
  | nil => exact Nat.le_refl _
  | cons first _ ih => exact Nat.add_le_add (first.counts id) ih

theorem Lighter.refl (slots : List AuraSlot) : Lighter slots slots :=
  List.forall₂_same.mpr fun slot _ => .refl slot

theorem map_lighter {change : AuraSlot → AuraSlot} (each : ∀ slot, (change slot).Lighter slot)
    (slots : List AuraSlot) : Lighter (slots.map change) slots :=
  List.forall₂_map_left_iff.mpr (List.forall₂_same.mpr fun slot _ => each slot)

theorem modify_lighter {change : AuraSlot → AuraSlot} (each : ∀ slot, (change slot).Lighter slot)
    (slots : List AuraSlot) (index : Nat) : Lighter (slots.modify index change) slots := by
  induction slots generalizing index with
  | nil => cases index <;> exact .nil
  | cons slot rest ih =>
    cases index with
    | zero => exact .cons (each slot) (Lighter.refl rest)
    | succ index => exact .cons (.refl slot) (ih index)

theorem stacksFor_le (id : String) (slots : List AuraSlot) :
    stacksFor id slots ≤ (slots.map (·.stackCount.val)).sum := by
  refine List.sum_le_sum fun slot _ => ?_
  unfold AuraSlot.stacksFor
  split
  · exact Nat.le_refl _
  · exact Nat.zero_le _

theorem stacksFor_carrying (id : String) (slots : List AuraSlot) :
    ((slots.filter (·.carries id)).map (·.stackCount.val)).sum = stacksFor id slots := by
  induction slots with
  | nil => rfl
  | cons slot rest ih =>
    have first : stacksFor id (slot :: rest) = slot.stacksFor id + stacksFor id rest := rfl
    rw [first, List.filter_cons, AuraSlot.stacksFor]
    split
    · rw [List.map_cons, List.sum_cons, ih]
    · rw [ih, Nat.zero_add]

theorem stacksOf_finishes {auras : AuraSlots} {id : String}
    (room : stacksFor id auras.slots ≤ 4294967295) : (auras.stacksOf id).Finishes := by
  have sums : ∀ (counts : List Count) (start : Count),
      start.val + (counts.map (·.val)).sum ≤ 4294967295 →
        (counts.foldlM Count.addChecked start).Finishes := by
    intro counts
    induction counts with
    | nil => exact fun start _ => finishes_ok start
    | cons count rest ih =>
      intro start fits
      rw [List.map_cons, List.sum_cons] at fits
      have first : start.addChecked count = .ok ⟨start.val + count.val, by omega⟩ :=
        dif_pos (by omega)
      rw [List.foldlM_cons, first]
      exact ih _ (by change start.val + count.val + _ ≤ _; omega)
  apply sums
  rw [List.map_map]
  change 0 + ((auras.slots.filter (·.carries id)).map (·.stackCount.val)).sum ≤ _
  rwa [stacksFor_carrying, Nat.zero_add]

end AuraSlots

/-! ### Characters -/

namespace Character

/-- What its sources may add to the flat or to the percent total of a stat. -/
def bulk (percent : Bool) (c : Character) : Nat := (c.sources.map (StatSource.bulk percent)).sum

/-- Room for all that is worked out of its sources and of its stacks. -/
structure Bearable (c : Character) : Prop where
  percent : c.bulk true ≤ 2 ^ 30
  flat : c.bulk false * (100 + c.bulk true) ≤ 100 * 2 ^ 30
  counts : ∀ id, AuraSlots.stacksFor id c.auras.slots ≤ 4294967295

/-- With these slots and their modifiers in the place of its own. -/
def wearing (c : Character) (slots : List AuraSlot) : Character :=
  { c with auras := { slots, modifiers := slots.flatMap AuraSlot.contribution } }

theorem bulk_wearing (c : Character) (slots : List AuraSlot) (percent : Bool) :
    (c.wearing slots).bulk percent =
      (StatSource.bulk percent (.innate c.innate) +
        ((c.gear.map fun item => .worn item.1 item.2).map (StatSource.bulk percent)).sum) +
          AuraSlots.bulk percent slots := by
  unfold bulk sources wearing
  simp only [List.cons_append, List.map_cons, List.map_append, List.map_nil, List.sum_cons,
    List.sum_append, List.sum_nil, Nat.add_zero, Nat.add_assoc]
  rfl

theorem UpToDate.wearing_eq {c : Character} (fresh : c.UpToDate) : c.wearing c.auras.slots = c := by
  unfold wearing
  rw [← fresh.modifiers]

theorem Bearable.flat_le {c : Character} (bearable : c.Bearable) : c.bulk false ≤ 2 ^ 30 := by
  have product := bearable.flat
  have share : c.bulk false * 100 ≤ c.bulk false * (100 + c.bulk true) :=
    Nat.mul_le_mul_left _ (Nat.le_add_right ..)
  omega

theorem Bearable.ofSources {c : Character} (bearable : c.Bearable) :
    ∃ stats, StatBlock.ofSources c.sources = .ok stats ∧ stats.Within (2 ^ 30) := by
  have flats := bearable.flat_le
  have percents := bearable.percent
  have start : Totals.Within {} 0 0 := ⟨fun _ => Nat.le_refl _, fun _ => Nat.le_refl _⟩
  obtain ⟨totals, added, within⟩ := Totals.addAll_within start c.sources
    (by unfold bulk at flats; omega) (by unfold bulk at percents; omega)
  rw [Nat.zero_add, Nat.zero_add] at within
  obtain ⟨stats, finished, bounded⟩ :=
    Totals.finish_within within percents bearable.flat (Nat.le_refl _)
  refine ⟨stats, ?_, bounded⟩
  unfold StatBlock.ofSources
  rw [added]
  exact finished

theorem Bearable.lighter {c : Character} {slots others : List AuraSlot}
    (bearable : (c.wearing others).Bearable) (lighter : AuraSlots.Lighter slots others) :
    (c.wearing slots).Bearable := by
  have less : ∀ percent, (c.wearing slots).bulk percent ≤ (c.wearing others).bulk percent := by
    intro percent
    rw [bulk_wearing, bulk_wearing]
    exact Nat.add_le_add_left (lighter.bulk_le percent) _
  constructor
  case percent => exact Nat.le_trans (less true) bearable.percent
  case flat =>
    have raised := less true
    exact Nat.le_trans (Nat.mul_le_mul (less false) (by omega)) bearable.flat
  case counts => exact fun id => Nat.le_trans (lighter.stacksFor_le id) (bearable.counts id)

theorem Bearable.bulk_le {c : Character} (bearable : c.Bearable) (percent : Bool) :
    c.bulk percent ≤ 2 ^ 30 := by
  cases percent with
  | false => exact bearable.flat_le
  | true => exact bearable.percent

theorem Bearable.fits {c : Character} {slots : List AuraSlot}
    (bearable : (c.wearing slots).Bearable) : ∀ slot ∈ slots, slot.Fits := by
  intro slot member held holds active effect carried modifies perStack
  have modified : ∃ modifier, slot.contributed? held effect = some modifier ∧
      modifier.value = slot.worth effect * slot.stackCount.toInt := by
    unfold AuraSlot.contributed?
    cases kind : effect.kind with
    | statModifier stat percent => exact ⟨_, rfl, by simp [perStack]⟩
    | _ => rw [kind] at modifies; cases modifies
  obtain ⟨modifier, contributed, value⟩ := modified
  have listed : modifier ∈ slot.contribution := by
    unfold AuraSlot.contribution
    rw [holds]
    dsimp only
    rw [if_pos active]
    exact List.mem_filterMap.mpr ⟨effect, carried, contributed⟩
  have whole := bearable.bulk_le modifier.percent
  rw [bulk_wearing] at whole
  have size := StatModifier.natAbs_le_bulk listed
  have share := AuraSlots.bulk_member member modifier.percent
  unfold least greatest
  omega

theorem Bearable.ofSlots {c : Character} {slots : List AuraSlot}
    (bearable : (c.wearing slots).Bearable) :
    AuraSlots.ofSlots slots = .ok (c.wearing slots).auras := by
  obtain ⟨auras, worked⟩ := AuraSlots.finishes_ofSlots.mpr bearable.fits
  have same : auras.slots = slots := AuraSlots.ofSlots_slots worked
  have modifiers : auras.modifiers = auras.slots.flatMap AuraSlot.contribution :=
    AuraSlots.ofSlots_upToDate worked
  rw [worked]
  unfold wearing
  rw [← same, ← modifiers]

/-- What an effect or a pass needs of everyone, and leaves of everyone. -/
structure Modest (c : Character) : Prop where
  fresh : c.UpToDate
  bearable : c.Bearable
  hitpoints : c.hitpoints.natAbs ≤ 2 ^ 30
  energy : c.energy.natAbs ≤ 2 ^ 30
  maxEnergy_nonneg : 0 ≤ c.maxEnergy
  maxEnergy_le : c.maxEnergy ≤ 2 ^ 30

theorem Modest.stats {c : Character} (modest : c.Modest) : c.stats.Within (2 ^ 30) := by
  obtain ⟨stats, worked, within⟩ := modest.bearable.ofSources
  rw [modest.fresh.stats] at worked
  obtain rfl := Except.ok.inj worked
  exact within

theorem Modest.maxHitpoints {c : Character} (modest : c.Modest) :
    c.maxHitpoints.natAbs ≤ 2 ^ 30 :=
  modest.stats StatBlock.hitpoints

/-! ### What each operation needs -/

section
variable {c : Character} (modest : c.Modest)
include modest

theorem Modest.of_signs {after : Character}
    (rest : after = { c with
      hitpoints := after.hitpoints
      energy := after.energy
      dead := after.dead
      lastAttacker := after.lastAttacker })
    (hitpoints : after.hitpoints.natAbs ≤ 2 ^ 30) (energy : after.energy.natAbs ≤ 2 ^ 30) :
    after.Modest := by
  have sources : after.sources = c.sources := by rw [rest]; rfl
  have bulk : ∀ percent, after.bulk percent = c.bulk percent := by
    intro percent
    rw [Character.bulk, sources, Character.bulk]
  have auras : after.auras = c.auras := by rw [rest]
  have maxEnergy : after.maxEnergy = c.maxEnergy := by rw [rest]
  constructor
  case fresh => exact modest.fresh.of_same (by rw [rest]) (by rw [rest]) auras (by rw [rest])
  case bearable =>
    obtain ⟨percent, flat, counts⟩ := modest.bearable
    exact ⟨by rwa [bulk], by rwa [bulk, bulk], by rwa [auras]⟩
  case hitpoints => exact hitpoints
  case energy => exact energy
  case maxEnergy_nonneg => exact maxEnergy ▸ modest.maxEnergy_nonneg
  case maxEnergy_le => exact maxEnergy ▸ modest.maxEnergy_le

theorem Modest.takeDamage {amount : Int} (small : amount ≤ 2 ^ 62) (attacker : Option Seat) :
    ∃ blow after, c.takeDamage amount attacker = .ok (blow, after) ∧ after.Modest := by
  have bound := modest.hitpoints
  have finishes : (c.takeDamage amount attacker).Finishes := by
    unfold Character.takeDamage
    split
    · exact finishes_ok _
    · refine Finishes.bind (finishes_int.mpr ?_) fun left subtracted => ?_
      · unfold least greatest
        omega
      · have value := sub_ok subtracted
        refine Finishes.bind (finishes_int.mpr ?_) fun lost _ => finishes_ok _
        unfold least greatest
        omega
  obtain ⟨⟨blow, after⟩, h⟩ := finishes
  refine ⟨blow, after, h, ?_⟩
  obtain ⟨rest, -⟩ := takeDamage_ok h
  have energy : after.energy = c.energy := by rw [rest]
  refine modest.of_signs (by rw [rest]) ?_ (by rw [energy]; exact modest.energy)
  cases alive : c.dead with
  | true =>
    rw [takeDamage_dead alive h]
    exact bound
  | false =>
    have left := (takeDamage_hitpoints alive h).1
    omega

theorem Modest.heal {amount : Int} (small : amount ≤ 2 ^ 62) :
    ∃ healed after, c.heal amount = .ok (healed, after) ∧ after.Modest := by
  have bound := modest.hitpoints
  have maximum := modest.maxHitpoints
  have finishes : (c.heal amount).Finishes := by
    unfold Character.heal
    split
    · exact finishes_ok _
    · rename_i may
      have gain : 0 < amount := by
        simp only [Bool.or_eq_true, decide_eq_true_eq, not_or] at may
        omega
      refine Finishes.bind (finishes_int.mpr ?_) fun sum added => ?_
      · unfold least greatest
        omega
      · have value := Checked.add_ok added
        refine Finishes.bind (finishes_int.mpr ?_) fun gained _ => finishes_ok _
        unfold least greatest
        omega
  obtain ⟨⟨healed, after⟩, h⟩ := finishes
  refine ⟨healed, after, h, ?_⟩
  obtain rfl | ⟨-, gain, rfl⟩ := heal_hitpoints h
  · exact modest
  · refine modest.of_signs rfl ?_ modest.energy
    change (min (c.hitpoints + amount) c.maxHitpoints).natAbs ≤ 2 ^ 30
    omega

theorem Modest.restoreEnergy {amount : Int} (small : amount.natAbs ≤ 2 ^ 30) :
    ∃ restored after, c.restoreEnergy amount = .ok (restored, after) ∧ after.Modest := by
  have bound := modest.energy
  have nonneg := modest.maxEnergy_nonneg
  have most := modest.maxEnergy_le
  have ordered : ∀ sum, clamp sum 0 c.maxEnergy = .ok (max 0 (min c.maxEnergy sum)) := by
    intro sum
    exact if_neg (by omega)
  have finishes : (c.restoreEnergy amount).Finishes := by
    unfold Character.restoreEnergy
    refine Finishes.bind (finishes_int.mpr ?_) fun sum added => ?_
    · unfold least greatest
      omega
    · have value := Checked.add_ok added
      rw [ordered]
      refine Finishes.bind (finishes_ok _) fun energy clamped => ?_
      obtain rfl := Except.ok.inj clamped
      refine Finishes.bind (finishes_int.mpr ?_) fun gained _ => finishes_ok _
      unfold least greatest
      omega
  obtain ⟨⟨restored, after⟩, h⟩ := finishes
  refine ⟨restored, after, h, ?_⟩
  obtain ⟨-, rfl⟩ := restoreEnergy_energy h
  refine modest.of_signs rfl modest.hitpoints ?_
  change (max 0 (min c.maxEnergy (c.energy + amount))).natAbs ≤ 2 ^ 30
  omega

theorem Modest.revive {percent : Int} (small : percent.natAbs ≤ 2 ^ 30) :
    ∃ revived after, c.revive percent = .ok (revived, after) ∧ after.Modest := by
  have maximum := modest.maxHitpoints
  have finishes : (c.revive percent).Finishes := by
    unfold Character.revive
    split
    · exact finishes_ok _
    · have product : (c.maxHitpoints * percent).natAbs ≤ 2 ^ 60 := by
        rw [Int.natAbs_mul]
        exact Nat.le_trans (Nat.mul_le_mul maximum small) (by decide)
      refine Finishes.bind (finishes_int.mpr ?_) fun whole _ => ?_
      · unfold least greatest
        omega
      · refine Finishes.bind ⟨_, if_neg ?_⟩ fun hitpoints _ => finishes_ok _
        omega
  obtain ⟨⟨revived, after⟩, h⟩ := finishes
  refine ⟨revived, after, h, ?_⟩
  cases revived with
  | none =>
    obtain ⟨-, rfl⟩ | ⟨hitpoints, revived, -⟩ := revive_ok h
    · exact modest
    · cases revived
  | some hitpoints =>
    obtain ⟨-, rfl, low, high⟩ := revive_hitpoints h
    refine modest.of_signs rfl ?_ modest.energy
    change hitpoints.natAbs ≤ 2 ^ 30
    omega

theorem Modest.rebuild {slots : List AuraSlot} (bearable : (c.wearing slots).Bearable) :
    ∃ after, (c.wearing slots).rebuild = .ok after ∧ after.Modest := by
  obtain ⟨stats, worked, within⟩ := bearable.ofSources
  have rebuilt : (c.wearing slots).rebuild = .ok { c.wearing slots with
      stats, hitpoints := min c.hitpoints (stats.value StatBlock.hitpoints) } := by
    rw [Character.rebuild, worked]
    rfl
  refine ⟨_, rebuilt, ?_⟩
  have bound := modest.hitpoints
  have maximum := within StatBlock.hitpoints
  constructor
  case fresh => exact rebuild_upToDate (c := c.wearing slots) rfl rebuilt
  case bearable => exact ⟨bearable.percent, bearable.flat, bearable.counts⟩
  case hitpoints =>
    change (min c.hitpoints (stats.value StatBlock.hitpoints)).natAbs ≤ 2 ^ 30
    omega
  case energy => exact modest.energy
  case maxEnergy_nonneg => exact modest.maxEnergy_nonneg
  case maxEnergy_le => exact modest.maxEnergy_le

/-- Slots that can be borne in the place of its own. -/
theorem Modest.withAuras {α : Type} {f : AuraSlots → Checked (α × AuraSlots)} {result : α}
    {slots : List AuraSlot} (bearable : (c.wearing slots).Bearable)
    (changes : f c.auras = .ok (result, (c.wearing slots).auras)) :
    ∃ after, c.withAuras f = .ok (result, after) ∧ after.Modest := by
  obtain ⟨after, rebuilt, kept⟩ := modest.rebuild bearable
  refine ⟨after, ?_, kept⟩
  unfold Character.withAuras
  rw [changes]
  change ((c.wearing slots).rebuild >>= _) = _
  rw [rebuilt]
  rfl

theorem Modest.lighter {slots : List AuraSlot}
    (lighter : AuraSlots.Lighter slots c.auras.slots) : (c.wearing slots).Bearable := by
  refine Bearable.lighter ?_ lighter
  rw [modest.fresh.wearing_eq]
  exact modest.bearable

theorem Modest.unchanged {α : Type} {f : AuraSlots → Checked (α × AuraSlots)} {result : α}
    (same : f c.auras = .ok (result, c.auras)) :
    ∃ after, c.withAuras f = .ok (result, after) ∧ after.Modest := by
  have own : c.auras = (c.wearing c.auras.slots).auras := by rw [modest.fresh.wearing_eq]
  exact modest.withAuras (modest.lighter (.refl _)) (by rw [← own]; exact same)

theorem Modest.add {held : RegisteredAura} {application : AuraApplication}
    (bearable : (c.wearing (AuraSlots.apply held application c.auras.slots).2).Bearable) :
    ∃ added after, c.withAuras (·.add held application) = .ok (added, after) ∧ after.Modest := by
  by_cases nothing : application.stackCount.val = 0
  · obtain ⟨after, worked, kept⟩ :=
      modest.unchanged (f := (·.add held application)) (if_pos nothing)
    exact ⟨none, after, worked, kept⟩
  · have added : c.auras.add held application = .ok
        (some (AuraSlots.apply held application c.auras.slots).1,
          (c.wearing (AuraSlots.apply held application c.auras.slots).2).auras) := by
      rw [AuraSlots.add, if_neg nothing]
      dsimp only
      rw [bearable.ofSlots]
      rfl
    obtain ⟨after, worked, kept⟩ := modest.withAuras (f := (·.add held application)) bearable added
    exact ⟨_, after, worked, kept⟩

theorem Modest.remove (id : String) :
    ∃ removed after, c.withAuras (·.remove id) = .ok (removed, after) ∧ after.Modest := by
  by_cases carried : c.auras.slots.any (·.carries id) = true
  · have each : ∀ slot : AuraSlot,
        (if slot.carries id then AuraSlot.empty else slot).Lighter slot := by
      intro slot
      split
      · exact AuraSlot.empty_lighter slot
      · exact .refl slot
    have bearable := modest.lighter (AuraSlots.map_lighter each c.auras.slots)
    obtain ⟨after, worked, kept⟩ := modest.withAuras (f := (·.remove id)) bearable
      (by rw [AuraSlots.remove, if_pos carried, bearable.ofSlots]; rfl)
    exact ⟨true, after, worked, kept⟩
  · obtain ⟨after, worked, kept⟩ := modest.unchanged (f := (·.remove id)) (if_neg carried)
    exact ⟨false, after, worked, kept⟩

theorem Modest.removeStacksAt (index : Nat) (count : Count) :
    ∃ slots, c.auras.removeStacksAt index count = .ok (c.wearing slots).auras ∧
      (c.wearing slots).Bearable := by
  by_cases bound : index < c.auras.slots.length
  · have bearable := modest.lighter (AuraSlots.modify_lighter
      (fun slot => slot.removeStacks_lighter count) c.auras.slots index)
    refine ⟨_, ?_, bearable⟩
    rw [AuraSlots.removeStacksAt, AuraSlots.modifyAt, if_pos bound, bearable.ofSlots]
  · refine ⟨c.auras.slots, ?_, modest.lighter (.refl _)⟩
    rw [AuraSlots.removeStacksAt, AuraSlots.modifyAt, if_neg bound, modest.fresh.wearing_eq]
    rfl

theorem Modest.removeStacks (id : String) (count : Count) :
    ∃ removed after, c.withAuras (·.removeStacks id count) = .ok (removed, after) ∧
      after.Modest := by
  cases found : c.auras.slots.findIdx? (·.carries id) with
  | some index =>
    obtain ⟨slots, removed, bearable⟩ := modest.removeStacksAt index count
    obtain ⟨after, worked, kept⟩ := modest.withAuras (f := (·.removeStacks id count)) bearable
      (by rw [AuraSlots.removeStacks, found]; dsimp only; rw [removed]; rfl)
    exact ⟨true, after, worked, kept⟩
  | none =>
    obtain ⟨after, worked, kept⟩ := modest.unchanged (f := (·.removeStacks id count))
      (by rw [AuraSlots.removeStacks, found]; rfl)
    exact ⟨false, after, worked, kept⟩

theorem Modest.draw {index : Nat} {slot : AuraSlot} (here : c.auras.slots[index]? = some slot)
    (active : slot.isActive = true) {effect : Effect} {evaluated : Int}
    (bearable : (c.wearing (c.auras.slots.set index (slot.draw effect evaluated).2)).Bearable) :
    ∃ after, c.withAuras (·.draw index effect evaluated) =
      .ok ((slot.draw effect evaluated).1, after) ∧ after.Modest := by
  apply modest.withAuras bearable
  rw [AuraSlots.draw, here]
  dsimp only
  rw [if_pos active, bearable.ofSlots]
  rfl

theorem Modest.stacksOf (id : String) : (c.auras.stacksOf id).Finishes :=
  AuraSlots.stacksOf_finishes (modest.bearable.counts id)

end
end Character

end Combat
