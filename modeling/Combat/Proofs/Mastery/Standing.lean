import Combat.Proofs.Mastery.Milestones
import Mathlib.Data.List.Induction

/-!
What a level of mastery pays. Rewards of one type compete: the type is paid once, where it was first
earned on the way up and as it was earned last. Rewards that grow with the level and unlocked
difficulties compete with nothing, so they are all paid, each in its own place.
-/

namespace Combat

/-! ### Erasing repetitions -/

theorem eraseDupsBy_loop_concat {α : Type} (r : α → α → Bool) (xs : List α) (a : α)
    (kept : List α) :
    List.eraseDupsBy.loop r (xs ++ [a]) kept =
      if (List.eraseDupsBy.loop r xs kept).any (r a) then List.eraseDupsBy.loop r xs kept
      else List.eraseDupsBy.loop r xs kept ++ [a] := by
  induction xs generalizing kept with
  | nil =>
    rw [List.nil_append, List.eraseDupsBy.loop, List.eraseDupsBy.loop, List.any_reverse]
    cases kept.any (r a) <;> simp [List.eraseDupsBy.loop]
  | cons x xs ih =>
    rw [List.cons_append, List.eraseDupsBy.loop, List.eraseDupsBy.loop]
    cases kept.any (r x) with
    | true => exact ih kept
    | false => exact ih (x :: kept)

theorem eraseDupsBy_concat {α : Type} (r : α → α → Bool) (xs : List α) (a : α) :
    (xs ++ [a]).eraseDupsBy r =
      if (xs.eraseDupsBy r).any (r a) then xs.eraseDupsBy r else xs.eraseDupsBy r ++ [a] :=
  eraseDupsBy_loop_concat r xs a []

/-! ### Rewards that were earned -/

/-- A reward of a milestone that was reached. -/
structure EarnedReward where
  reward : Reward
  /-- Its milestone grows with the level. -/
  scaling : Bool

namespace EarnedReward

/-- Others of its type may take its place. -/
def competes (earned : EarnedReward) : Bool :=
  !earned.scaling && earned.reward.type ≠ MasteryCategory.unlockDifficulty

def rivals (a b : EarnedReward) : Bool :=
  a.competes && b.competes && a.reward.type = b.reward.type

/-- What it comes to at a level. -/
def paid (level : Count) (earned : EarnedReward) : Reward :=
  if earned.scaling then
    { earned.reward with value := earned.reward.value * Float.ofInt level.toInt }
  else earned.reward

/-- The last of its rivals, itself without any. -/
def latest (all : List EarnedReward) (earned : EarnedReward) : EarnedReward :=
  (all.reverse.find? earned.rivals).getD earned

/-- Each type that competes stands once, where it was first earned and as it was earned last. -/
def standing (all : List EarnedReward) : List EarnedReward :=
  (all.eraseDupsBy rivals).map (latest all)

/-! ### Rivals -/

theorem rivals_iff {a b : EarnedReward} :
    a.rivals b = true ↔
      a.competes = true ∧ b.competes = true ∧ a.reward.type = b.reward.type := by
  simp [rivals, and_assoc]

theorem rivals_comm (a b : EarnedReward) : a.rivals b = b.rivals a := by
  rw [Bool.eq_iff_iff, rivals_iff, rivals_iff]
  exact ⟨fun ⟨ha, hb, same⟩ => ⟨hb, ha, same.symm⟩, fun ⟨hb, ha, same⟩ => ⟨ha, hb, same.symm⟩⟩

theorem rivals_congr {a b : EarnedReward} (h : a.rivals b = true) (c : EarnedReward) :
    c.rivals a = c.rivals b := by
  obtain ⟨ha, hb, same⟩ := rivals_iff.mp h
  rw [rivals, rivals, ha, hb, same]

theorem latest_concat (all : List EarnedReward) (last earned : EarnedReward) :
    latest (all ++ [last]) earned = if earned.rivals last then last else latest all earned := by
  rw [latest, List.reverse_concat, List.find?_cons]
  cases earned.rivals last <;> rfl

theorem latest_eq (all : List EarnedReward) (earned : EarnedReward) :
    latest all earned = earned ∨ earned.rivals (latest all earned) = true := by
  unfold latest
  cases found : all.reverse.find? earned.rivals with
  | none => exact .inl rfl
  | some last => exact .inr (List.find?_some found)

theorem rivals_latest (all : List EarnedReward) (earned other : EarnedReward) :
    other.rivals (latest all earned) = other.rivals earned := by
  obtain same | rival := latest_eq all earned
  · rw [same]
  · rw [← rivals_congr rival]

/-! ### What stands -/

/-- One more reward takes the place of its rival, or else the last place. -/
def settled (earned : EarnedReward) (standing : List EarnedReward) : List EarnedReward :=
  if standing.any earned.rivals then
    standing.map fun other => if earned.rivals other then earned else other
  else standing ++ [earned]

theorem standing_concat (all : List EarnedReward) (earned : EarnedReward) :
    standing (all ++ [earned]) = settled earned (standing all) := by
  have asks : (standing all).any earned.rivals = (all.eraseDupsBy rivals).any earned.rivals := by
    rw [standing, List.any_map]
    exact congrArg _ (funext fun other => rivals_latest all other earned)
  rw [settled, asks, standing, eraseDupsBy_concat]
  split
  · rw [standing, List.map_map]
    refine List.map_congr_left fun other _ => ?_
    rw [Function.comp_apply, latest_concat, rivals_latest, rivals_comm]
  · rename_i alone
    rw [List.map_append, standing]
    congr 1
    · refine List.map_congr_left fun other member => ?_
      have apart : ¬ other.rivals earned = true := by
        rw [rivals_comm]
        exact fun rival => alone (List.any_eq_true.mpr ⟨other, member, rival⟩)
      rw [latest_concat, if_neg apart]
    · rw [List.map_singleton, latest_concat]
      split
      · rfl
      · rename_i idle
        -- without a place to take, only one that competes has a rival: itself
        obtain same | rival := latest_eq all earned
        · rw [same]
        · obtain ⟨competes, -, -⟩ := rivals_iff.mp rival
          exact absurd (rivals_iff.mpr ⟨competes, competes, rfl⟩) idle

/-- No two of them compete for one place. -/
def Apart (standing : List EarnedReward) : Prop :=
  standing.Pairwise fun a b => a.rivals b = false

theorem settled_apart {standing : List EarnedReward} (apart : Apart standing)
    (earned : EarnedReward) : Apart (settled earned standing) := by
  unfold settled
  split
  · refine List.pairwise_map.mpr (apart.imp fun {a b} unlike => ?_)
    split
    · rename_i first
      split
      · rename_i second
        rw [← rivals_congr second, rivals_comm, first] at unlike
        cases unlike
      · rename_i second
        exact Bool.eq_false_iff.mpr second
    · rename_i first
      split
      · rw [rivals_comm]
        exact Bool.eq_false_iff.mpr first
      · exact unlike
  · rename_i alone
    refine List.pairwise_append.mpr ⟨apart, List.pairwise_singleton .., fun a member b last => ?_⟩
    obtain rfl := List.mem_singleton.mp last
    rw [rivals_comm]
    exact Bool.eq_false_iff.mpr fun rival => alone (List.any_eq_true.mpr ⟨a, member, rival⟩)

theorem standing_apart (all : List EarnedReward) : Apart (standing all) := by
  induction all using List.reverseRecOn with
  | nil => exact .nil
  | append_singleton all earned ih =>
    rw [standing_concat]
    exact settled_apart ih earned

/-! ### Placing -/

/-- The place that a reward has at a level. -/
def place (level : Count) (earned : EarnedReward) : StandingReward :=
  ⟨earned.paid level, earned.competes⟩

theorem paid_of_competes {earned : EarnedReward} (competes : earned.competes = true)
    (level : Count) : earned.paid level = earned.reward := by
  have flat : earned.scaling = false := by
    unfold EarnedReward.competes at competes
    cases scaling : earned.scaling with
    | false => rfl
    | true => rw [scaling] at competes; cases competes
  rw [paid, if_neg (by rw [flat]; exact Bool.false_ne_true)]

theorem paid_type (level : Count) (earned : EarnedReward) :
    (earned.paid level).type = earned.reward.type := by
  unfold paid
  split <;> rfl

theorem settle_map {standing : List EarnedReward} (apart : Apart standing) {earned : EarnedReward}
    (competes : earned.competes = true) (level : Count) :
    StandingReward.settle earned.reward (standing.map (place level)) =
      (settled earned standing).map (place level) := by
  have here : place level earned = ⟨earned.reward, true⟩ := by
    rw [place, paid_of_competes competes, competes]
  induction standing with
  | nil => exact congrArg (fun last => [last]) here.symm
  | cons first rest ih =>
    obtain ⟨unlike, apart⟩ := List.pairwise_cons.mp apart
    have asks : ((place level first).competes &&
        (place level first).reward.type = earned.reward.type) = earned.rivals first := by
      rw [place, paid_type, rivals, competes, Bool.true_and]
      simp only [eq_comm]
    rw [List.map_cons, StandingReward.settle, asks, settled, List.any_cons]
    cases rival : earned.rivals first with
    | true =>
      -- the others are no rivals of the first, so they are none of its rival either
      have kept : (rest.map fun other => if earned.rivals other then earned else other) = rest := by
        refine (List.map_congr_left fun other member => ?_).trans (List.map_id rest)
        have none : earned.rivals other = false := by
          rw [rivals_comm, rivals_congr rival, rivals_comm, unlike other member]
        rw [none]
        rfl
      simp only [if_true, Bool.true_or, List.map_cons, rival, kept, here]
    | false =>
      have ih := ih apart
      rw [settled] at ih
      simp only [Bool.false_or, if_false, Bool.false_eq_true, ih]
      split
      · simp [rival]
      · rfl

theorem placeReward_map {standing : List EarnedReward} (apart : Apart standing) (level : Count)
    (earned : EarnedReward) :
    MasteryCategory.placeReward level earned.scaling (standing.map (place level)) earned.reward =
      (settled earned standing).map (place level) := by
  unfold MasteryCategory.placeReward
  cases competes : earned.competes with
  | true =>
    have parts := competes
    rw [EarnedReward.competes, Bool.and_eq_true, Bool.not_eq_true', decide_eq_true_eq] at parts
    rw [parts.1, if_neg Bool.false_ne_true, if_neg parts.2, settle_map apart competes]
  | false =>
    have alone : settled earned standing = standing ++ [earned] := by
      refine if_neg fun some => ?_
      obtain ⟨other, -, rival⟩ := List.any_eq_true.mp some
      rw [(rivals_iff.mp rival).1] at competes
      cases competes
    rw [alone, List.map_append, List.map_singleton, place, competes, paid]
    cases scaling : earned.scaling with
    | true => rfl
    | false =>
      have unlock : earned.reward.type = MasteryCategory.unlockDifficulty := by
        simpa [EarnedReward.competes, scaling] using competes
      simp only [Bool.false_eq_true, if_false, unlock, if_true]
      rfl

/-- The induction is on what was earned, the latest last: a level settles one reward at a time. -/
theorem foldl_placeReward (all : List EarnedReward) (level : Count) :
    all.foldl (fun standings earned =>
        MasteryCategory.placeReward level earned.scaling standings earned.reward) [] =
      (standing all).map (place level) := by
  induction all using List.reverseRecOn with
  | nil => rfl
  | append_singleton all earned ih =>
    rw [List.foldl_append, ih, standing_concat, ← placeReward_map (standing_apart all)]
    rfl

/-! ### What is never lost -/

theorem settled_idle (earned : EarnedReward) (standing : List EarnedReward) :
    (settled earned standing).filter (!·.competes) =
      (standing ++ [earned]).filter (!·.competes) := by
  unfold settled
  split
  · rename_i some
    obtain ⟨_, -, rival⟩ := List.any_eq_true.mp some
    have competes := (rivals_iff.mp rival).1
    rw [List.filter_append, List.filter_cons_of_neg (by simp [competes]), List.filter_nil,
      List.append_nil, List.filter_map]
    have asks : (fun other : EarnedReward =>
        !(if earned.rivals other then earned else other).competes) = (!·.competes) := by
      funext other
      split
      · rename_i rival
        rw [competes, (rivals_iff.mp rival).2.1]
      · rfl
    have same : (standing.filter (!·.competes)).map
        (fun other => if earned.rivals other then earned else other) =
          standing.filter (!·.competes) := by
      refine (List.map_congr_left fun other member => ?_).trans (List.map_id _)
      have idle := (List.mem_filter.mp member).2
      refine if_neg fun rival => ?_
      rw [(rivals_iff.mp rival).2.1] at idle
      cases idle
    exact (congrArg (fun p => (standing.filter p).map _) asks).trans same
  · rfl

theorem standing_idle (all : List EarnedReward) :
    (standing all).filter (!·.competes) = all.filter (!·.competes) := by
  induction all using List.reverseRecOn with
  | nil => rfl
  | append_singleton all earned ih =>
    rw [standing_concat, settled_idle, List.filter_append, ih, List.filter_append]

theorem settled_types (earned : EarnedReward) (standing : List EarnedReward) :
    (standing ++ [earned]).map (·.reward.type) ⊆ (settled earned standing).map (·.reward.type) := by
  unfold settled
  split
  · rename_i some
    obtain ⟨other, member, rival⟩ := List.any_eq_true.mp some
    have same : ∀ other : EarnedReward,
        (if earned.rivals other then earned else other).reward.type = other.reward.type := by
      intro other
      split
      · rename_i rival
        exact (rivals_iff.mp rival).2.2
      · rfl
    rw [List.map_map, List.map_append, List.append_subset]
    constructor
    · rw [List.map_congr_left fun other _ => (same other).symm]
      exact List.Subset.refl _
    · intro type here
      obtain rfl := List.mem_singleton.mp here
      exact List.mem_map.mpr ⟨other, member, (same other).trans (rivals_iff.mp rival).2.2.symm⟩
  · exact List.Subset.refl _

theorem standing_types (all : List EarnedReward) :
    all.map (·.reward.type) ⊆ (standing all).map (·.reward.type) := by
  induction all using List.reverseRecOn with
  | nil => exact List.Subset.refl _
  | append_singleton all earned ih =>
    rw [standing_concat]
    refine List.Subset.trans ?_ (settled_types earned (standing all))
    rw [List.map_append, List.map_append]
    exact List.append_subset.mpr ⟨List.Subset.trans ih (List.subset_append_left ..),
      List.subset_append_right ..⟩

theorem Apart.distinct {standing : List EarnedReward} (apart : Apart standing) :
    ((standing.filter (·.competes)).map (·.reward.type)).Nodup := by
  refine List.pairwise_map.mpr (List.pairwise_filter.mpr ?_)
  refine apart.imp fun {a b} unlike ha hb same => ?_
  rw [rivals_iff.mpr ⟨ha, hb, same⟩] at unlike
  cases unlike

end EarnedReward

/-! ### Rewards at a level -/

namespace MasteryCategory
open EarnedReward

/-- The rewards of the milestones up to a level, the lower levels first. -/
def climb (milestones : List Milestone) (level : Count) : List EarnedReward :=
  (List.range (level.val + 1)).flatMap fun rung =>
    (onLevel milestones rung).flatMap fun milestone =>
      milestone.rewards.map (EarnedReward.mk · milestone.scaling)

theorem foldl_placeMilestone (level : Count) (milestones : List Milestone)
    (standings : List StandingReward) :
    milestones.foldl (placeMilestone level) standings =
      (milestones.flatMap fun milestone =>
        milestone.rewards.map (EarnedReward.mk · milestone.scaling)).foldl
          (fun standings earned => placeReward level earned.scaling standings earned.reward)
          standings := by
  rw [List.foldl_flatMap]
  simp only [List.foldl_map]
  rfl

theorem rewardsAt_ofMilestones (id name : String) (maxLevel : Count) (milestones : List Milestone)
    (level : Count) :
    (ofMilestones id name maxLevel milestones).rewardsAt level =
      (standing (climb milestones (level.min maxLevel))).map (paid (level.min maxLevel)) := by
  rw [rewardsAt, ofMilestones_maxLevel, achieved_ofMilestones, foldl_placeMilestone,
    foldl_placeReward, List.map_map, List.flatMap_assoc]
  rfl

theorem rewardsAt_capped (category : MasteryCategory) {higher : Count}
    (above : category.maxLevel.val ≤ higher.val) :
    category.rewardsAt higher = category.rewardsAt category.maxLevel := by
  have cap : ∀ level : Count, category.maxLevel.val ≤ level.val →
      level.min category.maxLevel = category.maxLevel := by
    intro level above
    refine Count.ext ?_
    rw [Count.val_min]
    exact Nat.min_eq_right above
  rw [rewardsAt, rewardsAt, cap higher above, cap _ (Nat.le_refl _)]

/-- At a level, capped by the greatest, a reward whose milestone grows is paid the level's times its
value, unlocked difficulties are paid as they are, and any other type is paid once, where it was
first earned and as it was earned last. -/
theorem rewardsAt_standing (id name : String) (maxLevel : Count) (milestones : List Milestone)
    (level : Count) :
    let category := ofMilestones id name maxLevel milestones
    let capped := level.min maxLevel
    let earned := climb milestones capped
    category.rewardsAt level = (standing earned).map (paid capped) ∧
      (((standing earned).filter (·.competes)).map (·.reward.type)).Nodup ∧
      (standing earned).filter (!·.competes) = earned.filter (!·.competes) ∧
      earned.map (·.reward.type) ⊆ (category.rewardsAt level).map (·.type) ∧
      ∀ higher : Count, maxLevel.val ≤ higher.val →
        category.rewardsAt higher = category.rewardsAt maxLevel := by
  intro category capped earned
  have resolved : category.rewardsAt level = (standing earned).map (paid capped) :=
    rewardsAt_ofMilestones id name maxLevel milestones level
  refine ⟨resolved, (standing_apart earned).distinct, standing_idle earned, ?_, ?_⟩
  · have types : (category.rewardsAt level).map (·.type) =
        (standing earned).map (·.reward.type) := by
      rw [resolved, List.map_map]
      exact List.map_congr_left fun other _ => paid_type capped other
    rw [types]
    exact standing_types earned
  · intro higher above
    have cap : category.maxLevel = maxLevel := ofMilestones_maxLevel id name maxLevel milestones
    rw [← cap] at above ⊢
    exact rewardsAt_capped category above

/-! A category in which a type competes, grows and is unlocked at once. -/

def raid : List Milestone :=
  [{ level := 20, rewards := [{ type := "crit", value := 8 }, { type := "speed", value := 1 }] },
    { level := 5, rewards := [{ type := "crit", value := 3 }, { type := unlockDifficulty },
      { type := "crit", value := 5 }] },
    { level := 5, scaling := true, rewards := [{ type := "crit", value := 2 }] },
    { level := 10, rewards := [{ type := unlockDifficulty, value := 1 }] },
    { level := 60, rewards := [{ type := "speed", value := 9 }] }]

theorem rewardsAt_standing_raid :
    let category := ofMilestones "raid" "Raid" 30 raid
    category.rewardsAt 80 =
        [{ type := "crit", value := 8 }, { type := unlockDifficulty },
          { type := "crit", value := 2 * Float.ofInt 30 },
          { type := unlockDifficulty, value := 1 }, { type := "speed", value := 1 }] ∧
      (30 : Count).val ≤ (80 : Count).val ∧
      category.rewardsAt 80 = category.rewardsAt 30 := by
  intro category
  obtain ⟨resolved, -, -, -, constant⟩ := rewardsAt_standing "raid" "Raid" 30 raid 80
  have above : (30 : Count).val ≤ (80 : Count).val := by decide
  exact ⟨resolved.trans rfl, above, constant 80 above⟩

end MasteryCategory
end Combat
