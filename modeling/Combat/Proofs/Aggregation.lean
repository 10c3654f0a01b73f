import Combat.Proofs.Totals
import Mathlib.Data.List.Sort

/-!
What a character's stats come to. The flat contributions of a stat add up, whatever the order in
which items are looked at, and its percents multiply the sum once. Working the stats out goes
through just where every sum on the way and every product keeps to 64 bits.
-/

namespace Combat
open Checked

/-- 64 bits hold the number. -/
def Checked.InRange (n : Int) : Prop := least ≤ n ∧ n ≤ greatest

/-! ### Blocks -/

namespace IdMap
variable {α : Type} {m n : IdMap α}

theorem mem_entries {entry : String × α} : entry ∈ m.entries ↔ m.get? entry.1 = some entry.2 := by
  constructor
  · exact find_entry m.sorted
  · intro found
    obtain ⟨value, listed⟩ := find_isSome.mp (Option.isSome_of_eq_some found)
    have same := (find_entry m.sorted listed).symm.trans found
    obtain rfl := Option.some.inj same
    exact listed

theorem ext_get? (alike : ∀ id, m.get? id = n.get? id) : m = n := by
  have antisymm : Std.Antisymm (fun a b : String × α => a.1 < b.1) :=
    ⟨fun _ _ below above => absurd above (String.lt_asymm below)⟩
  have irrefl : Std.Irrefl (fun a b : String × α => a.1 < b.1) :=
    ⟨fun _ => String.lt_irrefl _⟩
  refine ext (List.Pairwise.eq_of_mem_iff m.sorted n.sorted fun entry => ?_)
  rw [mem_entries, mem_entries, alike]

theorem contains_insert (id other : String) (value : α) :
    (m.insert id value).contains other = true ↔ id = other ∨ m.contains other = true := by
  unfold contains
  rw [get?_insert]
  split <;> simp_all

end IdMap

namespace StatBlock

theorem get?_of_contains {block : StatBlock} {stat : String} (listed : block.contains stat = true) :
    block.get? stat = some (block.value stat) := by
  obtain ⟨amount, found⟩ := Option.isSome_iff_exists.mp listed
  rw [value, found]
  rfl

theorem contains_iff {block : StatBlock} {stat : String} :
    block.contains stat = true ↔ ∃ entry ∈ block.entries, entry.1 = stat := by
  unfold IdMap.contains IdMap.get?
  rw [IdMap.find_isSome]
  simp

/-- Every sum on the way keeps to 64 bits when the pairs are added to the start in their order. -/
def SumsFit (start : String → Int) (pairs : List (String × Int)) : Prop :=
  ∀ early pair late, pairs = early ++ pair :: late →
    InRange (start pair.1 + total pair.1 (early ++ [pair]))

theorem sumsFit_cons {start : String → Int} {pair : String × Int} {rest : List (String × Int)} :
    SumsFit start (pair :: rest) ↔
      InRange (start pair.1 + pair.2) ∧
        SumsFit (fun stat => start stat + if pair.1 = stat then pair.2 else 0) rest := by
  have single : total pair.1 [pair] = pair.2 := by simp [total]
  constructor
  · intro fits
    constructor
    · have first := fits [] pair rest rfl
      rwa [List.nil_append, single] at first
    · rintro early last late rfl
      have later := fits (pair :: early) last late rfl
      rwa [List.cons_append, total_cons, ← Int.add_assoc] at later
  · rintro ⟨first, later⟩ early last late split
    obtain ⟨rfl, same⟩ | ⟨middle, rfl, same⟩ := List.cons_eq_append_iff.mp split
    · obtain ⟨rfl, rfl⟩ := List.cons.inj same
      rwa [List.nil_append, single]
    · have fits := later middle last late same
      rwa [List.cons_append, total_cons, ← Int.add_assoc]

theorem finishes_add {block : StatBlock} {stat : String} {amount : Int} :
    (block.add stat amount).Finishes ↔ InRange (block.value stat + amount) :=
  finishes_return.trans finishes_int

theorem finishes_addAll {pairs : List (String × Int)} {block : StatBlock} :
    (block.addAll pairs).Finishes ↔ SumsFit block.value pairs := by
  -- the start of the rest is the block with the first pair added
  induction pairs generalizing block with
  | nil =>
    constructor
    · intro _ early pair late split
      simp at split
    · exact fun _ => finishes_ok block
  | cons pair rest ih =>
    rw [addAll_cons, sumsFit_cons, ← finishes_add]
    have next : ∀ {middle}, block.add pair.1 pair.2 = .ok middle →
        middle.value = fun stat => block.value stat + if pair.1 = stat then pair.2 else 0 :=
      fun added => funext fun stat => add_ok added stat
    constructor
    · intro finishes
      obtain ⟨middle, added⟩ := finishes.of_bind
      rw [added] at finishes
      refine ⟨⟨middle, added⟩, ?_⟩
      rw [← next added]
      exact ih.mp finishes
    · rintro ⟨first, later⟩
      refine first.bind fun middle added => ih.mpr ?_
      rw [next added]
      exact later

theorem add_contains {block after : StatBlock} {stat other : String} {amount : Int}
    (h : block.add stat amount = .ok after) :
    after.contains other = true ↔ stat = other ∨ block.contains other = true := by
  obtain ⟨sum, -, h⟩ := bind_ok h
  obtain rfl := pure_ok h
  exact IdMap.contains_insert ..

theorem addAll_contains {pairs : List (String × Int)} {block after : StatBlock}
    (h : block.addAll pairs = .ok after) (stat : String) :
    after.contains stat = true ↔ block.contains stat = true ∨ ∃ pair ∈ pairs, pair.1 = stat := by
  induction pairs generalizing block with
  | nil =>
    obtain rfl := pure_ok h
    simp
  | cons pair rest ih =>
    rw [addAll_cons] at h
    obtain ⟨middle, first, h⟩ := bind_ok h
    rw [ih h, add_contains first]
    simp only [List.mem_cons, exists_eq_or_imp]
    tauto

end StatBlock

/-! ### Sources -/

namespace Totals
open StatBlock

/-- The totals after so many flat and so many percent contributions. -/
structure Adds (totals : Totals) (flats percents : List (String × Int)) (after : Totals) :
    Prop where
  flat : totals.flat.addAll flats = .ok after.flat
  percent : totals.percent.addAll percents = .ok after.percent

/-- Steps that add contributions add those of all of a list when taken in turn. -/
theorem adds_foldlM {α : Type} {step : Totals → α → Checked Totals}
    {flats percents : α → List (String × Int)}
    (each : ∀ totals a after, step totals a = .ok after ↔
      totals.Adds (flats a) (percents a) after) (xs : List α) (totals after : Totals) :
    xs.foldlM step totals = .ok after ↔
      totals.Adds (xs.flatMap flats) (xs.flatMap percents) after := by
  induction xs generalizing totals with
  | nil =>
    constructor
    · intro h
      obtain rfl := pure_ok h
      exact ⟨rfl, rfl⟩
    · rintro ⟨flat, percent⟩
      have same : totals = after := by
        cases totals
        cases after
        exact congr (congrArg Totals.mk (pure_ok flat)) (pure_ok percent)
      rw [same]
      rfl
  | cons x rest ih =>
    rw [List.foldlM_cons, List.flatMap_cons, List.flatMap_cons]
    constructor
    · intro h
      obtain ⟨middle, first, h⟩ := bind_ok h
      obtain ⟨flat, percent⟩ := (each _ _ _).mp first
      obtain ⟨flats, percents⟩ := (ih middle).mp h
      constructor
      · rw [addAll_append, flat]
        exact flats
      · rw [addAll_append, percent]
        exact percents
    · rintro ⟨flat, percent⟩
      rw [addAll_append] at flat percent
      obtain ⟨flatMiddle, firstFlat, laterFlat⟩ := bind_ok flat
      obtain ⟨percentMiddle, firstPercent, laterPercent⟩ := bind_ok percent
      have first := (each totals x ⟨flatMiddle, percentMiddle⟩).mpr ⟨firstFlat, firstPercent⟩
      rw [first]
      exact (ih _).mpr ⟨laterFlat, laterPercent⟩

theorem exists_adds {flats percents : List (String × Int)} :
    (∃ after, Adds {} flats percents after) ↔
      SumsFit (fun _ => 0) flats ∧ SumsFit (fun _ => 0) percents := by
  have empty : ∀ pairs, (addAll {} pairs).Finishes ↔ SumsFit (fun _ => 0) pairs :=
    fun pairs => finishes_addAll
  rw [← empty, ← empty]
  constructor
  · rintro ⟨after, flat, percent⟩
    exact ⟨⟨_, flat⟩, ⟨_, percent⟩⟩
  · rintro ⟨⟨flat, h⟩, percent, h'⟩
    exact ⟨⟨flat, percent⟩, h, h'⟩

theorem finishes_raised {flat percent : Int} :
    (raised flat percent).Finishes ↔
      InRange (100 + percent) ∧ InRange (flat * (100 + percent)) := by
  unfold raised
  constructor
  · intro finishes
    obtain ⟨factor, added⟩ := finishes.of_bind
    rw [added] at finishes
    have multiplied : (Checked.mul flat factor).Finishes := finishes_return.mp finishes
    rw [Checked.add_ok added] at multiplied
    exact ⟨finishes_int.mp ⟨factor, added⟩, finishes_int.mp multiplied⟩
  · rintro ⟨first, second⟩
    refine (finishes_int.mpr first).bind fun factor added => ?_
    rw [Checked.add_ok added]
    exact finishes_return.mpr (finishes_int.mpr second)

theorem finishes_finish {totals : Totals} :
    totals.finish.Finishes ↔ ∀ stat, totals.flat.contains stat = true →
      InRange (100 + totals.percent.value stat) ∧
        InRange (totals.flat.value stat * (100 + totals.percent.value stat)) := by
  have all : ∀ (entries : List (String × Int)) (done : StatBlock),
      (entries.foldlM (fun done entry => do
        return done.insert entry.1 (← raised entry.2 (totals.percent.value entry.1)) :
          StatBlock → String × Int → Checked StatBlock) done).Finishes ↔
        ∀ entry ∈ entries, (raised entry.2 (totals.percent.value entry.1)).Finishes := by
    intro entries
    induction entries with
    | nil => simp [finishes_ok, pure, Except.pure]
    | cons entry rest ih =>
      intro done
      rw [List.foldlM_cons, List.forall_mem_cons]
      constructor
      · intro finishes
        obtain ⟨middle, first⟩ := finishes.of_bind
        rw [first] at finishes
        exact ⟨finishes_return.mp ⟨middle, first⟩, (ih middle).mp finishes⟩
      · rintro ⟨first, later⟩
        exact (finishes_return.mpr first).bind fun middle _ => (ih middle).mpr later
  unfold finish
  rw [all]
  constructor
  · intro each stat listed
    have entry : (stat, totals.flat.value stat) ∈ totals.flat.entries :=
      IdMap.mem_entries.mpr (get?_of_contains listed)
    exact finishes_raised.mp (each _ entry)
  · intro each entry member
    have found := IdMap.mem_entries.mp member
    have listed : totals.flat.contains entry.1 = true := Option.isSome_of_eq_some found
    have value : totals.flat.value entry.1 = entry.2 :=
      Option.some.inj ((get?_of_contains listed).symm.trans found)
    have fits := each entry.1 listed
    rw [value] at fits
    exact finishes_raised.mpr fits

end Totals

/-! ### Contributions -/

namespace StatModifier

/-- What the flat or the percent modifiers of a stat add up to. -/
def sum (percent : Bool) (stat : String) (modifiers : List StatModifier) : Int :=
  ((modifiers.filter fun modifier => modifier.percent = percent ∧ modifier.stat = stat).map
    (·.value)).sum

def pairs (percent : Bool) (modifiers : List StatModifier) : List (String × Int) :=
  (modifiers.filter (·.percent = percent)).map fun modifier => (modifier.stat, modifier.value)

theorem total_pairs (percent : Bool) (stat : String) (modifiers : List StatModifier) :
    StatBlock.total stat (pairs percent modifiers) = sum percent stat modifiers := by
  unfold StatBlock.total pairs sum
  rw [List.filter_map, List.filter_filter, List.map_map]
  congr 2
  refine List.filter_congr fun modifier _ => ?_
  rw [Bool.eq_iff_iff]
  simp [and_comm]

theorem exists_pairs_iff {percent : Bool} {stat : String} {modifiers : List StatModifier} :
    (∃ entry ∈ pairs percent modifiers, entry.1 = stat) ↔
      ∃ modifier ∈ modifiers, modifier.percent = percent ∧ modifier.stat = stat := by
  simp [pairs, and_assoc]

theorem pairs_flatMap (percent : Bool) (modifiers : List StatModifier) :
    modifiers.flatMap (fun modifier => pairs percent [modifier]) = pairs percent modifiers := by
  induction modifiers with
  | nil => rfl
  | cons modifier rest ih =>
    rw [List.flatMap_cons, ih]
    unfold pairs
    rw [← List.map_append, ← List.filter_append, List.singleton_append]

end StatModifier

namespace StatSource
open StatBlock Totals

def flats : StatSource → List (String × Int)
  | .innate stats | .worn _ stats => stats.entries
  | .auras modifiers => StatModifier.pairs false modifiers

def percents : StatSource → List (String × Int)
  | .innate _ | .worn .. => []
  | .auras modifiers => StatModifier.pairs true modifiers

theorem adds_flat {totals after : Totals} {pairs : List (String × Int)} :
    (do return { totals with flat := ← totals.flat.addAll pairs } : Checked Totals) = .ok after ↔
      totals.Adds pairs [] after := by
  constructor
  · intro h
    obtain ⟨flat, added, h⟩ := bind_ok h
    obtain rfl := pure_ok h
    exact ⟨added, rfl⟩
  · rintro ⟨flat, percent⟩
    have same : totals.percent = after.percent := pure_ok percent
    rw [flat, same]
    rfl

theorem adds_percent {totals after : Totals} {pairs : List (String × Int)} :
    (do return { totals with percent := ← totals.percent.addAll pairs } : Checked Totals) =
      .ok after ↔ totals.Adds [] pairs after := by
  constructor
  · intro h
    obtain ⟨percent, added, h⟩ := bind_ok h
    obtain rfl := pure_ok h
    exact ⟨rfl, added⟩
  · rintro ⟨flat, percent⟩
    have same : totals.flat = after.flat := pure_ok flat
    rw [percent, same]
    rfl

theorem addModifier_adds (totals : Totals) (modifier : StatModifier) (after : Totals) :
    addModifier totals modifier = .ok after ↔
      totals.Adds (StatModifier.pairs false [modifier]) (StatModifier.pairs true [modifier])
        after := by
  obtain ⟨aura, stat, value, percent⟩ := modifier
  have single : ∀ block : StatBlock, block.add stat value = block.addAll [(stat, value)] := by
    intro block
    rw [addAll_cons]
    exact (bind_pure _).symm
  cases percent with
  | false =>
    change totals.addFlat stat value = _ ↔ _
    rw [Totals.addFlat, single]
    exact adds_flat
  | true =>
    change totals.addPercent stat value = _ ↔ _
    rw [Totals.addPercent, single]
    exact adds_percent

theorem addTo_adds (totals : Totals) (source : StatSource) (after : Totals) :
    addTo totals source = .ok after ↔ totals.Adds source.flats source.percents after := by
  cases source with
  | innate stats => exact adds_flat
  | worn slot stats => exact adds_flat
  | auras modifiers =>
    change modifiers.foldlM addModifier totals = _ ↔ _
    rw [adds_foldlM addModifier_adds, StatModifier.pairs_flatMap, StatModifier.pairs_flatMap]
    rfl

end StatSource

/-! ### Characters -/

namespace Character

/-- The flat total of a stat: innate, worn and by active auras. -/
def flatTotal (c : Character) (stat : String) : Int :=
  c.innate.value stat + (c.gear.map (·.2.value stat)).sum +
    StatModifier.sum false stat c.auras.modifiers

def percentTotal (c : Character) (stat : String) : Int :=
  StatModifier.sum true stat c.auras.modifiers

/-- Something but a percent modifier names the stat. -/
def Provides (c : Character) (stat : String) : Prop :=
  c.innate.contains stat = true ∨ (∃ item ∈ c.gear, item.2.contains stat = true) ∨
    ∃ modifier ∈ c.auras.modifiers, modifier.percent = false ∧ modifier.stat = stat

def flats (c : Character) : List (String × Int) := c.sources.flatMap StatSource.flats

def percents (c : Character) : List (String × Int) := c.sources.flatMap StatSource.percents

/-- No sum on the way to the stats leaves 64 bits, and no product. -/
structure StatsFit (c : Character) : Prop where
  flats : StatBlock.SumsFit (fun _ => 0) c.flats
  percents : StatBlock.SumsFit (fun _ => 0) c.percents
  factors : ∀ stat, c.Provides stat → InRange (100 + c.percentTotal stat)
  products : ∀ stat, c.Provides stat → InRange (c.flatTotal stat * (100 + c.percentTotal stat))

theorem flats_eq (c : Character) :
    c.flats = c.innate.entries ++ c.gear.flatMap (·.2.entries) ++
      StatModifier.pairs false c.auras.modifiers := by
  simp [flats, sources, StatSource.flats, List.flatMap_map]

theorem percents_eq (c : Character) :
    c.percents = StatModifier.pairs true c.auras.modifiers := by
  simp [percents, sources, StatSource.percents, List.flatMap_map]

theorem total_flats (c : Character) (stat : String) :
    StatBlock.total stat c.flats = c.flatTotal stat := by
  have worn : ∀ gear : List (GearSlot × StatBlock),
      StatBlock.total stat (gear.flatMap (·.2.entries)) = (gear.map (·.2.value stat)).sum := by
    intro gear
    induction gear with
    | nil => rfl
    | cons item rest ih =>
      rw [List.flatMap_cons, StatBlock.total_append, StatBlock.total_entries, ih, List.map_cons,
        List.sum_cons]
  rw [flats_eq, StatBlock.total_append, StatBlock.total_append, StatBlock.total_entries, worn,
    StatModifier.total_pairs, flatTotal]

theorem total_percents (c : Character) (stat : String) :
    StatBlock.total stat c.percents = c.percentTotal stat := by
  rw [percents_eq, StatModifier.total_pairs, percentTotal]

theorem exists_flats_iff {c : Character} {stat : String} :
    (∃ pair ∈ c.flats, pair.1 = stat) ↔ c.Provides stat := by
  have worn : (∃ pair ∈ c.gear.flatMap (·.2.entries), pair.1 = stat) ↔
      ∃ item ∈ c.gear, item.2.contains stat = true := by
    simp only [List.mem_flatMap, StatBlock.contains_iff]
    exact ⟨fun ⟨pair, ⟨item, there, listed⟩, named⟩ => ⟨item, there, pair, listed, named⟩,
      fun ⟨item, there, pair, listed, named⟩ => ⟨pair, ⟨item, there, listed⟩, named⟩⟩
  rw [flats_eq, Provides, StatBlock.contains_iff, ← worn, ← StatModifier.exists_pairs_iff]
  simp only [List.mem_append, or_and_right, exists_or, or_assoc]

/-- What the totals of a character hold before they are raised. -/
structure Totalled (c : Character) (totals : Totals) : Prop where
  contains : ∀ stat, totals.flat.contains stat = true ↔ c.Provides stat
  flat : ∀ stat, totals.flat.value stat = c.flatTotal stat
  percent : ∀ stat, totals.percent.value stat = c.percentTotal stat

theorem totalled_of_adds {c : Character} {totals : Totals}
    (h : Totals.Adds {} c.flats c.percents totals) : c.Totalled totals where
  contains stat := by
    rw [StatBlock.addAll_contains h.flat, exists_flats_iff]
    have empty : ({} : Totals).flat.contains stat = false := rfl
    simp [empty]
  flat stat := by
    rw [StatBlock.addAll_ok h.flat, total_flats]
    exact Int.zero_add _
  percent stat := by
    rw [StatBlock.addAll_ok h.percent, total_percents]
    exact Int.zero_add _

theorem addSources_ok {c : Character} {totals : Totals} :
    c.sources.foldlM StatSource.addTo {} = .ok totals ↔
      Totals.Adds {} c.flats c.percents totals :=
  Totals.adds_foldlM StatSource.addTo_adds ..

theorem finishes_rebuild {c : Character} : c.rebuild.Finishes ↔ c.StatsFit := by
  have totalled : ∀ {totals}, Totals.Adds {} c.flats c.percents totals →
      (totals.finish.Finishes ↔ ∀ stat, c.Provides stat →
        InRange (100 + c.percentTotal stat) ∧
          InRange (c.flatTotal stat * (100 + c.percentTotal stat))) := by
    intro totals added
    have told := totalled_of_adds added
    simp only [Totals.finishes_finish, told.contains, told.flat, told.percent]
  unfold rebuild
  rw [finishes_return]
  unfold StatBlock.ofSources
  constructor
  · intro finishes
    obtain ⟨totals, summed⟩ := finishes.of_bind
    rw [summed] at finishes
    have added := addSources_ok.mp summed
    obtain ⟨flats, percents⟩ := Totals.exists_adds.mp ⟨totals, added⟩
    have raised := (totalled added).mp finishes
    exact ⟨flats, percents, fun stat named => (raised stat named).1,
      fun stat named => (raised stat named).2⟩
  · rintro ⟨flats, percents, factors, products⟩
    obtain ⟨totals, added⟩ := Totals.exists_adds.mpr ⟨flats, percents⟩
    rw [addSources_ok.mpr added]
    exact (totalled added).mpr fun stat named => ⟨factors stat named, products stat named⟩

theorem ofSources_get? {c : Character} {stats : StatBlock}
    (h : StatBlock.ofSources c.sources = .ok stats) (stat : String) :
    (stats.contains stat = true ↔ c.Provides stat) ∧
      (c.Provides stat → stats.get? stat =
        some ((c.flatTotal stat * (100 + c.percentTotal stat)).fdiv 100)) := by
  obtain ⟨totals, summed, finished⟩ := bind_ok h
  have told := totalled_of_adds (addSources_ok.mp summed)
  have got := Totals.finish_ok finished stat
  constructor
  · rw [IdMap.contains, got, Option.isSome_map]
    exact told.contains stat
  · intro named
    rw [got, StatBlock.get?_of_contains ((told.contains stat).mpr named), told.flat, told.percent,
      Option.map_some, Int.fdiv_eq_ediv_of_nonneg _ (by decide)]

/-! ### The order of the items -/

section
variable {c : Character} {gear : List (GearSlot × StatBlock)}

theorem provides_perm (reordered : gear.Perm c.gear) (stat : String) :
    Provides { c with gear } stat ↔ c.Provides stat := by
  unfold Provides
  simp only [reordered.mem_iff]

theorem flatTotal_perm (reordered : gear.Perm c.gear) (stat : String) :
    flatTotal { c with gear } stat = c.flatTotal stat := by
  unfold flatTotal
  rw [(reordered.map (·.2.value stat)).sum_eq]

end

theorem rebuild_perm {c after reordered : Character} {gear : List (GearSlot × StatBlock)}
    (permuted : gear.Perm c.gear) (h : c.rebuild = .ok after)
    (h' : rebuild { c with gear } = .ok reordered) : reordered = { after with gear } := by
  obtain ⟨worked, rest⟩ := rebuild_ok h
  obtain ⟨worked', rest'⟩ := rebuild_ok h'
  have alike : reordered.stats = after.stats := by
    -- neither a stat's total nor whether it is provided depends on the order
    refine IdMap.ext_get? fun stat => ?_
    obtain ⟨here, value⟩ := ofSources_get? worked stat
    obtain ⟨here', value'⟩ := ofSources_get? worked' stat
    rw [provides_perm permuted] at here' value'
    rw [flatTotal_perm permuted] at value'
    by_cases provided : c.Provides stat
    · exact (value' provided).trans (value provided).symm
    · have absent : after.stats.get? stat = none := by
        simpa [IdMap.contains] using mt here.mp provided
      have absent' : reordered.stats.get? stat = none := by
        simpa [IdMap.contains] using mt here'.mp provided
      rw [absent, absent']
  rw [rest', rest]
  simp only [maxHitpoints, alike]

end Character

/-- Working the stats out goes through just where no sum on the way and no product leaves 64 bits.
The stats are then those that something but a percent modifier names, each its flat total raised by
its percents and rounded down, and they are the same in whatever order the items are looked at. -/
theorem Character.rebuild_aggregates (c : Character) :
    (c.rebuild.Finishes ↔ c.StatsFit) ∧
    (∀ after, c.rebuild = .ok after → ∀ stat,
      (after.stats.contains stat = true ↔ c.Provides stat) ∧
      (c.Provides stat → after.stats.get? stat =
        some ((c.flatTotal stat * (100 + c.percentTotal stat)).fdiv 100))) ∧
    ∀ gear after reordered, gear.Perm c.gear → c.rebuild = .ok after →
      rebuild { c with gear } = .ok reordered → reordered = { after with gear } :=
  ⟨finishes_rebuild, fun _ h => ofSources_get? (rebuild_ok h).1,
    fun _ _ _ permuted => rebuild_perm permuted⟩

/-! A cursed blade takes more strength than there is, and rage makes that worse by half. -/

namespace Character

def rageful : Character where
  id := "b"
  name := "B"
  role := some "fighter"
  innate := (({} : StatBlock).insert "hitpoints" 20).insert "strength" 10
  gear := [(.weapon, ({} : StatBlock).insert "strength" (-17)),
    (.ring, ({} : StatBlock).insert "focus" 4)]
  auras := { modifiers := [⟨"rage", "strength", 50, true⟩, ⟨"rage", "luck", 30, true⟩] }

end Character

/-- Half of seven is lost to rounding down, and a percentage of no luck is no luck. -/
theorem Character.rebuild_aggregates_rageful :
    ∃ after reordered, rageful.gear.reverse.Perm rageful.gear ∧ rageful.rebuild = .ok after ∧
      rebuild { rageful with gear := rageful.gear.reverse } = .ok reordered ∧
      rageful.StatsFit ∧ after.stats.get? "strength" = some (-11) ∧
      after.stats.contains "luck" = false ∧
      reordered = { after with gear := rageful.gear.reverse } := by
  obtain ⟨after, h⟩ : ∃ after, rageful.rebuild = .ok after := ⟨_, rfl⟩
  obtain ⟨reordered, h'⟩ :
      ∃ reordered, rebuild { rageful with gear := rageful.gear.reverse } = .ok reordered := ⟨_, rfl⟩
  have permuted : rageful.gear.reverse.Perm rageful.gear := List.reverse_perm _
  obtain ⟨fits, formula, order⟩ := Character.rebuild_aggregates rageful
  refine ⟨after, reordered, permuted, h, h', fits.mp ⟨after, h⟩, ?_, ?_,
    order _ _ _ permuted h h'⟩
  · exact (formula after h "strength").2 (.inl rfl)
  · rw [Bool.eq_false_iff, Ne, (formula after h "luck").1]
    unfold Provides
    decide

end Combat
