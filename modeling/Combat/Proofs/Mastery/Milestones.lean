import Combat.Mastery.Category

/-!
The order of milestones. Whatever order they are added in, a category keeps its milestones by level,
those of one level as they were added, so the ones achieved are those of each level in turn.
-/

namespace Combat.MasteryCategory

/-- No milestone stands after one of a higher level. -/
def Ascending (milestones : List Milestone) : Prop :=
  milestones.Pairwise (·.level.val ≤ ·.level.val)

/-- The milestones of one level, in their order. -/
def onLevel (milestones : List Milestone) (rung : Nat) : List Milestone :=
  milestones.filter (·.level.val = rung)

/-! ### Adding a milestone -/

theorem takeWhile_ascending {milestones : List Milestone} (ascending : Ascending milestones)
    (level : Nat) :
    milestones.takeWhile (·.level.val ≤ level) = milestones.filter (·.level.val ≤ level) := by
  induction milestones with
  | nil => rfl
  | cons first rest ih =>
    obtain ⟨above, ascending⟩ := List.pairwise_cons.mp ascending
    rw [List.takeWhile_cons, List.filter_cons, ih ascending]
    split
    · rfl
    · rename_i beyond
      -- what stands after a milestone that is too high is too high as well
      refine (List.filter_eq_nil_iff.mpr fun later member => ?_).symm
      have higher := above later member
      simp only [decide_eq_true_eq] at beyond ⊢
      omega

theorem dropWhile_ascending {milestones : List Milestone} (ascending : Ascending milestones)
    (level : Nat) :
    milestones.dropWhile (·.level.val ≤ level) = milestones.filter (level < ·.level.val) := by
  induction milestones with
  | nil => rfl
  | cons first rest ih =>
    obtain ⟨above, ascending⟩ := List.pairwise_cons.mp ascending
    rw [List.dropWhile_cons]
    split
    · rename_i reached
      rw [List.filter_cons_of_neg (by simpa using reached), ih ascending]
    · rename_i beyond
      simp only [decide_eq_true_eq] at beyond
      refine (List.filter_eq_self.mpr fun milestone member => ?_).symm
      rw [decide_eq_true_eq]
      obtain rfl | member := List.mem_cons.mp member
      · omega
      · have higher := above milestone member
        omega

theorem onLevel_takeWhile {milestones : List Milestone} (ascending : Ascending milestones)
    (level rung : Nat) :
    onLevel (milestones.takeWhile (·.level.val ≤ level)) rung =
      if rung ≤ level then onLevel milestones rung else [] := by
  rw [takeWhile_ascending ascending, onLevel, onLevel, List.filter_filter]
  split
  · exact List.filter_congr fun milestone _ => by grind
  · exact List.filter_eq_nil_iff.mpr fun milestone _ => by grind

theorem onLevel_dropWhile {milestones : List Milestone} (ascending : Ascending milestones)
    (level rung : Nat) :
    onLevel (milestones.dropWhile (·.level.val ≤ level)) rung =
      if rung ≤ level then [] else onLevel milestones rung := by
  rw [dropWhile_ascending ascending, onLevel, onLevel, List.filter_filter]
  split
  · exact List.filter_eq_nil_iff.mpr fun milestone _ => by grind
  · exact List.filter_congr fun milestone _ => by grind

theorem insertMilestone_ascending {milestones : List Milestone} (ascending : Ascending milestones)
    (milestone : Milestone) : Ascending (insertMilestone milestone milestones) := by
  have below : ∀ early ∈ milestones.takeWhile (·.level.val ≤ milestone.level.val),
      early.level.val ≤ milestone.level.val := by
    rw [takeWhile_ascending ascending]
    intro early member
    exact of_decide_eq_true (List.mem_filter.mp member).2
  have above : ∀ late ∈ milestones.dropWhile (·.level.val ≤ milestone.level.val),
      milestone.level.val < late.level.val := by
    rw [dropWhile_ascending ascending]
    intro late member
    exact of_decide_eq_true (List.mem_filter.mp member).2
  refine List.pairwise_append.mpr ⟨ascending.sublist (List.takeWhile_sublist _), ?_, ?_⟩
  · refine .cons (fun late member => ?_) (ascending.sublist (List.dropWhile_sublist _))
    exact Nat.le_of_lt (above late member)
  · intro early earlier late later
    have lower := below early earlier
    obtain rfl | later := List.mem_cons.mp later
    · exact lower
    · exact Nat.le_of_lt (Nat.lt_of_le_of_lt lower (above late later))

theorem onLevel_insertMilestone {milestones : List Milestone} (ascending : Ascending milestones)
    (milestone : Milestone) (rung : Nat) :
    onLevel (insertMilestone milestone milestones) rung =
      onLevel milestones rung ++ onLevel [milestone] rung := by
  have parts : onLevel (insertMilestone milestone milestones) rung =
      onLevel (milestones.takeWhile (·.level.val ≤ milestone.level.val)) rung ++
        (onLevel [milestone] rung ++
          onLevel (milestones.dropWhile (·.level.val ≤ milestone.level.val)) rung) := by
    rw [insertMilestone, onLevel, List.append_cons, List.filter_append, List.filter_append,
      List.append_assoc]
    rfl
  rw [parts, onLevel_takeWhile ascending, onLevel_dropWhile ascending]
  split
  · rw [List.append_nil]
  · rename_i beyond
    have apart : onLevel [milestone] rung = [] := by
      refine List.filter_eq_nil_iff.mpr fun other member => ?_
      obtain rfl := List.mem_singleton.mp member
      simp only [decide_eq_true_eq]
      omega
    rw [apart, List.append_nil, List.nil_append, List.nil_append]

theorem onLevel_append (early late : List Milestone) (rung : Nat) :
    onLevel (early ++ late) rung = onLevel early rung ++ onLevel late rung :=
  List.filter_append ..

/-! ### Adding milestones in turn -/

theorem foldl_addMilestone (category : MasteryCategory) (ascending : Ascending category.milestones)
    (more : List Milestone) :
    Ascending (more.foldl addMilestone category).milestones ∧
      ∀ rung, onLevel (more.foldl addMilestone category).milestones rung =
        onLevel (category.milestones ++ more) rung := by
  induction more generalizing category with
  | nil => exact ⟨ascending, fun rung => by rw [List.append_nil]; rfl⟩
  | cons milestone rest ih =>
    have sorted := insertMilestone_ascending ascending milestone
    obtain ⟨last, levels⟩ := ih (category.addMilestone milestone) sorted
    refine ⟨last, fun rung => ?_⟩
    have placed : onLevel (category.addMilestone milestone).milestones rung =
        onLevel category.milestones rung ++ onLevel [milestone] rung :=
      onLevel_insertMilestone ascending milestone rung
    rw [List.foldl_cons, levels rung, onLevel_append, placed, List.append_cons, onLevel_append,
      onLevel_append]

theorem foldl_addMilestone_maxLevel (category : MasteryCategory) (more : List Milestone) :
    (more.foldl addMilestone category).maxLevel = category.maxLevel := by
  induction more generalizing category with
  | nil => rfl
  | cons milestone rest ih => exact ih (category.addMilestone milestone)

/-- A category's milestones ascend, those of one level in the order in which they were added. -/
theorem ofMilestones_ascending (id name : String) (maxLevel : Count) (milestones : List Milestone) :
    Ascending (ofMilestones id name maxLevel milestones).milestones ∧
      ∀ rung, onLevel (ofMilestones id name maxLevel milestones).milestones rung =
        onLevel milestones rung :=
  foldl_addMilestone { id, name, maxLevel } .nil milestones

@[simp] theorem ofMilestones_maxLevel (id name : String) (maxLevel : Count)
    (milestones : List Milestone) :
    (ofMilestones id name maxLevel milestones).maxLevel = maxLevel :=
  foldl_addMilestone_maxLevel _ milestones

/-! ### Levels reached -/

theorem filter_succ {milestones : List Milestone} (ascending : Ascending milestones)
    (bound : Nat) :
    milestones.filter (·.level.val < bound + 1) =
      milestones.filter (·.level.val < bound) ++ onLevel milestones bound := by
  induction milestones with
  | nil => rfl
  | cons first rest ih =>
    obtain ⟨above, ascending⟩ := List.pairwise_cons.mp ascending
    have ih := ih ascending
    simp only [onLevel, List.filter_cons, decide_eq_true_eq] at ih ⊢
    rw [ih]
    by_cases below : first.level.val < bound
    · rw [if_pos (by omega), if_pos below, if_neg (by omega), List.cons_append]
    · -- from here on no milestone is below the bound
      have nothing : rest.filter (·.level.val < bound) = [] := by
        refine List.filter_eq_nil_iff.mpr fun later member => ?_
        have higher := above later member
        simp only [decide_eq_true_eq]
        omega
      rw [nothing, if_neg below]
      by_cases at_bound : first.level.val = bound
      · rw [if_pos (by omega), if_pos at_bound, List.nil_append, List.nil_append]
      · rw [if_neg (by omega), if_neg at_bound]

theorem filter_ascending {milestones : List Milestone} (ascending : Ascending milestones)
    (bound : Nat) :
    milestones.filter (·.level.val < bound) = (List.range bound).flatMap (onLevel milestones) := by
  induction bound with
  | zero => simp
  | succ bound ih =>
    rw [filter_succ ascending, ih, List.range_succ, List.flatMap_append, List.flatMap_singleton]

/-- The milestones achieved are those of each level in turn. -/
theorem achieved_ofMilestones (id name : String) (maxLevel : Count) (milestones : List Milestone)
    (level : Count) :
    (ofMilestones id name maxLevel milestones).achieved level =
      (List.range (level.val + 1)).flatMap (onLevel milestones) := by
  obtain ⟨ascending, levels⟩ := ofMilestones_ascending id name maxLevel milestones
  rw [achieved, takeWhile_ascending ascending]
  simp only [← Nat.lt_succ_iff]
  rw [filter_ascending ascending, funext levels]

end Combat.MasteryCategory
