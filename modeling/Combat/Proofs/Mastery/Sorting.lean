import Combat.Proofs.Mastery.Milestones
import Mathlib.Data.List.Induction

/-!
Categories as sorted lists. Whichever way a category is built, its milestones are the ones it was
given, stably sorted by level, and each level cuts them into those achieved and those to come.
-/

namespace Combat.MasteryCategory

/-! ### Ascending lists -/

/-- An ascending list is told by its milestones of each level. -/
theorem ascending_ext {milestones others : List Milestone} (ascending : Ascending milestones)
    (othersAscending : Ascending others)
    (levels : ∀ rung, onLevel milestones rung = onLevel others rung) : milestones = others := by
  obtain ⟨bound, below⟩ : ∃ bound, ∀ milestone : Milestone, milestone.level.val < bound :=
    ⟨4294967296, fun milestone => Nat.lt_succ_of_le milestone.level.le_greatest⟩
  have all (list : List Milestone) : list.filter (·.level.val < bound) = list :=
    List.filter_eq_self.mpr fun milestone _ => decide_eq_true (below milestone)
  rw [← all milestones, filter_ascending ascending, funext levels,
    ← filter_ascending othersAscending, all]

/-- Comes no later in the order of levels. -/
def notAfter (early late : Milestone) : Bool := early.level.val ≤ late.level.val

theorem notAfter_trans (a b c : Milestone) (first : notAfter a b) (second : notAfter b c) :
    notAfter a c :=
  decide_eq_true (Nat.le_trans (of_decide_eq_true first) (of_decide_eq_true second))

theorem notAfter_total (a b : Milestone) : notAfter a b || notAfter b a := by
  simpa [notAfter] using Nat.le_total a.level.val b.level.val

/-- Stably sorted by level. -/
def sorted (milestones : List Milestone) : List Milestone := milestones.mergeSort notAfter

theorem sorted_ascending (milestones : List Milestone) : Ascending (sorted milestones) :=
  (List.pairwise_mergeSort notAfter_trans notAfter_total milestones).imp of_decide_eq_true

theorem mem_onLevel {milestones : List Milestone} {rung : Nat} {milestone : Milestone} :
    milestone ∈ onLevel milestones rung ↔ milestone ∈ milestones ∧ milestone.level.val = rung := by
  simp [onLevel]

theorem onLevel_sorted (milestones : List Milestone) (rung : Nat) :
    onLevel (sorted milestones) rung = onLevel milestones rung := by
  have even : (onLevel milestones rung).Pairwise (notAfter · ·) := by
    refine List.pairwise_of_forall_mem_list fun a first b second => decide_eq_true (Nat.le_of_eq ?_)
    exact (mem_onLevel.mp first).2.trans (mem_onLevel.mp second).2.symm
  -- a stable sort keeps what is in order already, and no more than that is on the level
  have kept : (onLevel milestones rung).Sublist (sorted milestones) :=
    List.sublist_mergeSort notAfter_trans notAfter_total even List.filter_sublist
  have within : (onLevel milestones rung).Sublist (onLevel (sorted milestones) rung) := by
    simpa only [onLevel, List.filter_filter, Bool.and_self] using
      kept.filter (·.level.val = rung)
  have many := ((List.mergeSort_perm milestones notAfter).filter (·.level.val = rung)).length_eq
  exact (within.eq_of_length many.symm).symm

/-- Where levels are pairwise different, the order does not matter. -/
theorem onLevel_perm {milestones others : List Milestone} (same : milestones.Perm others)
    (distinct : milestones.Pairwise (·.level ≠ ·.level)) (rung : Nat) :
    onLevel milestones rung = onLevel others rung := by
  have perm : (onLevel milestones rung).Perm (onLevel others rung) := same.filter _
  have apart : (onLevel milestones rung).Pairwise (·.level ≠ ·.level) := distinct.filter _
  have level : ∀ milestone ∈ onLevel milestones rung, milestone.level.val = rung :=
    fun _ member => (mem_onLevel.mp member).2
  generalize onLevel milestones rung = rungs at *
  match rungs with
  | [] => exact perm.nil_eq
  | [_] => exact perm.singleton_eq
  | first :: second :: _ =>
    refine absurd (Count.ext ?_) (List.rel_of_pairwise_cons apart (List.mem_cons_self ..))
    rw [level first (by simp), level second (by simp)]

/-! ### Cuts -/

/-- The milestones up to the level stand before the place, those above it from there on. -/
def Cut (milestones : List Milestone) (level : Count) (place : Nat) : Prop :=
  (∀ milestone ∈ milestones.take place, milestone.level.val ≤ level.val) ∧
    ∀ milestone ∈ milestones.drop place, level.val < milestone.level.val

theorem parted_of_cut {milestones : List Milestone} {level : Count} {place : Nat}
    (cut : Cut milestones level place) :
    milestones.takeWhile (·.level.val ≤ level.val) = milestones.take place ∧
      milestones.dropWhile (·.level.val ≤ level.val) = milestones.drop place := by
  induction milestones generalizing place with
  | nil => simp
  | cons first rest ih =>
    cases place with
    | zero =>
      have above : ¬first.level.val ≤ level.val :=
        Nat.not_le.mpr (cut.2 first (List.mem_cons_self ..))
      simp [above]
    | succ place =>
      have reached : first.level.val ≤ level.val := cut.1 first (List.mem_cons_self ..)
      have later : Cut rest level place :=
        ⟨fun milestone member => cut.1 milestone (List.mem_cons_of_mem _ member), cut.2⟩
      simp [reached, ih later]

theorem exists_cut {milestones : List Milestone} (ascending : Ascending milestones)
    (level : Count) : ∃ place, Cut milestones level place := by
  refine ⟨milestones.findIdx fun milestone => !decide (milestone.level.val ≤ level.val), ?_, ?_⟩
  · rw [← List.takeWhile_eq_take_findIdx_not, takeWhile_ascending ascending]
    exact fun milestone member => of_decide_eq_true (List.mem_filter.mp member).2
  · rw [← List.dropWhile_eq_drop_findIdx_not, dropWhile_ascending ascending]
    exact fun milestone member => of_decide_eq_true (List.mem_filter.mp member).2

/-! ### Building a category -/

/-- The category was given the milestones in this order, after it was made or read. -/
inductive Built : List Milestone → MasteryCategory → Prop
  | bare (id name : String) (maxLevel : Count) : Built [] { id, name, maxLevel }
  | read {origin : Value.Origin} {value : Value} {record : Value.Record} {given : List Milestone}
      {category : MasteryCategory} (fields : value.record? origin 4 = some record)
      (written : Value.defaulted [] (Value.list? (Milestone.ofValue? origin))
        (record.member 3 "milestones") = some given)
      (read : ofValue? origin value = some category) : Built given category
  | add {given : List Milestone} {category : MasteryCategory} (built : Built given category)
      (milestone : Milestone) : Built (given ++ [milestone]) (category.addMilestone milestone)
  | amend {given : List Milestone} {category : MasteryCategory} (built : Built given category)
      (id name : String) (maxLevel : Count) :
      Built given { category with id, name, maxLevel }

theorem built_ofMilestones (id name : String) (maxLevel : Count) (milestones : List Milestone) :
    Built milestones (ofMilestones id name maxLevel milestones) := by
  induction milestones using List.reverseRecOn with
  | nil => exact .bare ..
  | append_singleton given milestone ih =>
    rw [ofMilestones, List.foldl_append]
    exact ih.add milestone

theorem Built.ascending {given : List Milestone} {category : MasteryCategory}
    (built : Built given category) : Ascending category.milestones ∧
      ∀ rung, onLevel category.milestones rung = onLevel given rung := by
  induction built with
  | bare id name maxLevel => exact ⟨.nil, fun _ => rfl⟩
  | read fields written read =>
    simp only [ofValue?, fields, Option.bind_eq_bind, Option.bind_some, Option.bind_eq_some_iff]
      at read
    obtain ⟨id, -, name, -, maxLevel, -, listed, rewritten, made⟩ := read
    obtain rfl := Option.some.inj (written.symm.trans rewritten)
    obtain rfl := Option.some.inj made
    exact ofMilestones_ascending id name maxLevel _
  | add built milestone ih =>
    refine ⟨insertMilestone_ascending ih.1 milestone, fun rung => ?_⟩
    rw [onLevel_append, ← ih.2, ← onLevel_insertMilestone ih.1]
    rfl
  | amend built id name maxLevel ih => exact ih

theorem Built.eq_sorted {given : List Milestone} {category : MasteryCategory}
    (built : Built given category) : category.milestones = sorted given := by
  refine ascending_ext built.ascending.1 (sorted_ascending given) fun rung => ?_
  rw [built.ascending.2, onLevel_sorted]

theorem foldl_addMilestone_eq (category : MasteryCategory) (more : List Milestone) :
    more.foldl addMilestone category =
      { category with milestones := (more.foldl addMilestone category).milestones } := by
  induction more generalizing category with
  | nil => rfl
  | cons milestone rest ih =>
    rw [List.foldl_cons, ih]
    rfl

theorem ofMilestones_eq (id name : String) (maxLevel : Count) (milestones : List Milestone) :
    ofMilestones id name maxLevel milestones =
      { id, name, maxLevel, milestones := sorted milestones } := by
  rw [← (built_ofMilestones id name maxLevel milestones).eq_sorted]
  exact foldl_addMilestone_eq { id, name, maxLevel } milestones

theorem sorted_of_ascending {milestones : List Milestone} (ascending : Ascending milestones) :
    sorted milestones = milestones :=
  List.mergeSort_of_pairwise (ascending.imp decide_eq_true)

/-! ### The order of the milestones -/

/-- The categories differ in their milestones at most. -/
def Alike (category twin : MasteryCategory) : Prop :=
  category.id = twin.id ∧ category.name = twin.name ∧ category.maxLevel = twin.maxLevel

theorem Alike.eq {category twin : MasteryCategory} (alike : Alike category twin)
    (same : category.milestones = twin.milestones) : category = twin := by
  obtain ⟨id, name, maxLevel⟩ := alike
  cases category
  cases twin
  simp_all

/-- The milestones of a category are the ones it was given, in the order of their levels. -/
structure Ordered (category : MasteryCategory) (given : List Milestone) : Prop where
  eq_sorted : category.milestones = sorted given
  perm : category.milestones.Perm given
  ascending : Ascending category.milestones
  /-- Those of one level stand as they were given. -/
  stable : ∀ rung, onLevel category.milestones rung = onLevel given rung
  /-- Of milestones of different levels, every order gives the same category. -/
  order_free : ∀ {others twin}, Built others twin → Alike twin category → given.Perm others →
    given.Pairwise (·.level ≠ ·.level) → twin = category
  /-- Given its own milestones, a category is the same again. -/
  again : ∀ {twin}, Built category.milestones twin → Alike twin category → twin = category
  reread : ofMilestones category.id category.name category.maxLevel category.milestones = category

theorem Built.ordered {given : List Milestone} {category : MasteryCategory}
    (built : Built given category) : Ordered category given where
  eq_sorted := built.eq_sorted
  perm := built.eq_sorted ▸ List.mergeSort_perm given notAfter
  ascending := built.ascending.1
  stable := built.ascending.2
  order_free := by
    intro others twin twinBuilt alike same distinct
    refine alike.eq (ascending_ext twinBuilt.ascending.1 built.ascending.1 fun rung => ?_)
    rw [twinBuilt.ascending.2, built.ascending.2, onLevel_perm same distinct]
  again twinBuilt alike :=
    alike.eq (twinBuilt.eq_sorted.trans (sorted_of_ascending built.ascending.1))
  reread := by rw [ofMilestones_eq, sorted_of_ascending built.ascending.1]

/-! ### The cut of a level -/

/-- A level cuts a category's milestones into those achieved and those to come. -/
structure Queried (category : MasteryCategory) : Prop where
  achieved_eq : ∀ level,
    category.achieved level = category.milestones.filter (·.level.val ≤ level.val)
  next_eq : ∀ level,
    category.next? level = (category.milestones.filter (level.val < ·.level.val)).head?
  /-- The next milestone is the lowest above the level. -/
  lowest : ∀ level milestone, category.next? level = some milestone →
    milestone ∈ category.milestones ∧ level.val < milestone.level.val ∧
      ∀ other ∈ category.milestones, level.val < other.level.val →
        milestone.level.val ≤ other.level.val
  none_iff : ∀ level, category.next? level = none ↔
    ∀ milestone ∈ category.milestones, milestone.level.val ≤ level.val
  /-- What is achieved stays achieved at higher levels, and in its place. -/
  grows : ∀ low high : Count, low.val ≤ high.val → category.achieved low <+: category.achieved high
  /-- There is a cut, and whichever search finds one answers and inserts alike. -/
  searched : ∀ level, (∃ place, Cut category.milestones level place) ∧
    ∀ place, Cut category.milestones level place →
      category.achieved level = category.milestones.take place ∧
      category.next? level = category.milestones[place]? ∧
      ∀ milestone, milestone.level = level → (category.addMilestone milestone).milestones =
        category.milestones.take place ++ milestone :: category.milestones.drop place

theorem queried_of_ascending {category : MasteryCategory}
    (ascending : Ascending category.milestones) : Queried category := by
  have achieved_eq (level : Count) :
      category.achieved level = category.milestones.filter (·.level.val ≤ level.val) :=
    takeWhile_ascending ascending level.val
  have next_eq (level : Count) :
      category.next? level = (category.milestones.filter (level.val < ·.level.val)).head? := by
    rw [next?, dropWhile_ascending ascending]
  refine ⟨achieved_eq, next_eq, fun level milestone next => ?_, fun level => ?_,
    fun low high below => ?_, fun level => ⟨exists_cut ascending level, fun place cut => ?_⟩⟩
  · obtain ⟨later, toCome⟩ := List.head?_eq_some_iff.mp ((next_eq level).symm.trans next)
    have first : milestone ∈ category.milestones.filter (level.val < ·.level.val) := by
      simp [toCome]
    obtain ⟨member, above⟩ := List.mem_filter.mp first
    refine ⟨member, of_decide_eq_true above, fun other otherMember otherAbove => ?_⟩
    have ordered := ascending.filter (level.val < ·.level.val)
    have listed : other ∈ category.milestones.filter (level.val < ·.level.val) :=
      List.mem_filter.mpr ⟨otherMember, decide_eq_true otherAbove⟩
    rw [toCome] at ordered listed
    obtain rfl | listed := List.mem_cons.mp listed
    · exact Nat.le_refl _
    · exact List.rel_of_pairwise_cons ordered listed
  · rw [next_eq, List.head?_eq_none_iff, List.filter_eq_nil_iff]
    simp only [decide_eq_true_eq, Nat.not_lt]
  · have risen : Ascending (category.achieved high) :=
      ascending.sublist (List.takeWhile_sublist _)
    have inner : category.achieved low =
        (category.achieved high).takeWhile (·.level.val ≤ low.val) := by
      rw [takeWhile_ascending risen, achieved_eq, achieved_eq, List.filter_filter]
      exact List.filter_congr fun milestone _ => by grind
    rw [inner]
    exact List.takeWhile_prefix _
  · obtain ⟨reached, toCome⟩ := parted_of_cut cut
    refine ⟨reached, ?_, fun milestone same => ?_⟩
    · rw [next?, toCome, List.head?_drop]
    · subst same
      rw [addMilestone, insertMilestone, reached, toCome]

/-- However a category is built, its milestones are in order and each level finds its cut. -/
theorem built_in_order {given : List Milestone} {category : MasteryCategory}
    (built : Built given category) : Ordered category given ∧ Queried category :=
  ⟨built.ordered, queried_of_ascending built.ascending.1⟩

/-! Two milestones of one level, given around a lower one. -/

def staggered : List Milestone := [{ level := 20 }, { level := 5 }, { level := 20, scaling := true }]

theorem built_in_order_staggered :
    (ofMilestones "mining" "" 99 staggered).milestones.map (fun milestone =>
        (milestone.level, milestone.scaling)) = [(5, false), (20, false), (20, true)] ∧
      Ordered (ofMilestones "mining" "" 99 staggered) staggered ∧
      Queried (ofMilestones "mining" "" 99 staggered) :=
  ⟨by decide, built_in_order (((Built.bare "mining" "" 99).add { level := 20 }).add { level := 5 }
    |>.add { level := 20, scaling := true })⟩

end Combat.MasteryCategory
