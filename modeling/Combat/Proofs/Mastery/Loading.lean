import Combat.Mastery.Declaration
import Combat.Proofs.Acceptance
import Combat.Proofs.Mastery.Lookup
import Combat.Proofs.Mastery.Sorting
import Combat.Proofs.Mastery.Standing
import Mathlib.Data.List.Basic
import Mathlib.Data.List.TakeWhile

/-!
Loading mastery. A declaration is accepted where its ids are proper and no milestone stands above
the greatest level of its category. What is accepted is within reach: at the greatest level every
milestone is achieved, and every reward that competes with nothing is paid.
-/

namespace Combat
open Violation

/-! ### What stands in the end -/

namespace EarnedReward

/-- What competes with nothing keeps its place. -/
theorem filter_sublist_standing (all : List EarnedReward) :
    (all.filter (!·.competes)).Sublist (standing all) := by
  rw [← standing_idle]
  exact List.filter_sublist

theorem mem_settled (earned : EarnedReward) (standing : List EarnedReward) :
    earned ∈ settled earned standing := by
  unfold settled
  split
  · rename_i some
    obtain ⟨other, member, rival⟩ := List.any_eq_true.mp some
    exact List.mem_map.mpr ⟨other, member, if_pos rival⟩
  · exact List.mem_append_right _ (List.mem_singleton.mpr rfl)

theorem mem_settled_of_mem {earned other : EarnedReward} {standing : List EarnedReward}
    (member : other ∈ standing) (apart : earned.rivals other = false) :
    other ∈ settled earned standing := by
  unfold settled
  split
  · exact List.mem_map.mpr ⟨other, member, if_neg (by simp [apart])⟩
  · exact List.mem_append_left _ member

theorem latest_mem_standing {all : List EarnedReward} {earned : EarnedReward}
    (listed : earned ∈ all) (competes : earned.competes = true) :
    latest all earned ∈ standing all := by
  induction all using List.reverseRecOn with
  | nil => cases listed
  | append_singleton all last ih =>
    rw [standing_concat, latest_concat]
    split
    · exact mem_settled last _
    · rename_i apart
      have early : earned ∈ all := by
        rcases List.mem_append.mp listed with early | here
        · exact early
        · obtain rfl := List.mem_singleton.mp here
          exact absurd (rivals_iff.mpr ⟨competes, competes, rfl⟩) apart
      apply mem_settled_of_mem (ih early)
      rw [rivals_latest, rivals_comm]
      exact Bool.eq_false_iff.mpr apart

theorem latest_eq_of_getLast? {all : List EarnedReward} {earned : EarnedReward}
    (last : (all.filter earned.rivals).getLast? = some earned) : latest all earned = earned := by
  rw [latest, ← List.head?_filter, List.filter_reverse, List.head?_reverse, last, Option.getD_some]

end EarnedReward

/-! ### Rewards within reach -/

namespace MasteryCategory
open EarnedReward

/-- The rewards of the milestones, in their order. -/
def earnings (milestones : List Milestone) : List EarnedReward :=
  milestones.flatMap fun milestone => milestone.rewards.map (EarnedReward.mk · milestone.scaling)

/-- The rewards of one type that do not grow. -/
def tiers (type : String) (milestones : List Milestone) : List Reward :=
  milestones.flatMap fun milestone =>
    if milestone.scaling then [] else milestone.rewards.filter (·.type = type)

/-- The rewards that grow, as they are at the greatest level, and the unlocked difficulties. -/
def lasting (category : MasteryCategory) : List Reward :=
  category.milestones.flatMap fun milestone =>
    if milestone.scaling then milestone.rewards.map (·.scaledBy category.maxLevel)
    else milestone.rewards.filter (·.type = unlockDifficulty)

def Attainable (category : MasteryCategory) : Prop :=
  ∀ milestone ∈ category.milestones, milestone.level.val ≤ category.maxLevel.val

instance (category : MasteryCategory) : Decidable category.Attainable :=
  inferInstanceAs (Decidable (∀ milestone ∈ _, _))

variable {category : MasteryCategory}

theorem lasting_eq (category : MasteryCategory) :
    category.lasting =
      ((earnings category.milestones).filter (!·.competes)).map (paid category.maxLevel) := by
  rw [lasting, earnings, List.filter_flatMap, List.map_flatMap]
  apply List.flatMap_congr
  intro milestone _
  rw [List.filter_map, List.map_map]
  cases milestone.scaling with
  | true => simp [Function.comp_def, competes, paid, Reward.scaledBy]
  | false => simp [Function.comp_def, competes, paid]

theorem filter_rivals_earnings {reward : Reward} (ordinary : reward.type ≠ unlockDifficulty)
    (milestones : List Milestone) :
    (earnings milestones).filter (EarnedReward.mk reward false).rivals =
      (tiers reward.type milestones).map (EarnedReward.mk · false) := by
  rw [earnings, tiers, List.filter_flatMap, List.map_flatMap]
  apply List.flatMap_congr
  intro milestone _
  rw [List.filter_map]
  cases milestone.scaling with
  | true => simp [Function.comp_def, rivals, competes]
  | false =>
    rw [if_neg Bool.false_ne_true]
    congr 1
    apply List.filter_congr
    intro other _
    rw [Bool.eq_iff_iff, Function.comp_apply, rivals_iff]
    simp only [competes, Bool.not_false, Bool.true_and, decide_eq_true_eq]
    grind

theorem min_maxLevel (level : Count) :
    (level.min category.maxLevel).min category.maxLevel = level.min category.maxLevel := by
  apply Count.ext
  rw [Count.val_min, Count.val_min]
  exact Nat.min_eq_left (Nat.min_le_right ..)

theorem maxLevel_min : category.maxLevel.min category.maxLevel = category.maxLevel := by
  apply Count.ext
  rw [Count.val_min]
  exact Nat.min_self _

theorem rewardsAt_min (level : Count) :
    category.rewardsAt (level.min category.maxLevel) = category.rewardsAt level := by
  rw [rewardsAt, rewardsAt, min_maxLevel]

theorem rewardsAt_eq_standing (category : MasteryCategory) (level : Count) :
    category.rewardsAt level =
      (standing (earnings (category.achieved (level.min category.maxLevel)))).map
        (paid (level.min category.maxLevel)) := by
  rw [rewardsAt, foldl_placeMilestone, foldl_placeReward, List.map_map]
  rfl

theorem mem_rewardsAt_of_getLast? {level : Count} {reward : Reward}
    (ordinary : reward.type ≠ unlockDifficulty)
    (last : (tiers reward.type (category.achieved (level.min category.maxLevel))).getLast? =
      some reward) : reward ∈ category.rewardsAt level := by
  generalize reached : category.achieved (level.min category.maxLevel) = milestones at last
  have competes : (EarnedReward.mk reward false).competes = true := by
    simpa [EarnedReward.competes] using ordinary
  have found : ((earnings milestones).filter (EarnedReward.mk reward false).rivals).getLast? =
      some ⟨reward, false⟩ := by
    rw [filter_rivals_earnings ordinary, List.getLast?_map, last, Option.map_some]
  have earned : EarnedReward.mk reward false ∈ earnings milestones :=
    (List.mem_filter.mp (List.mem_of_getLast? found)).1
  -- rivals are told by their latest, and here that is the reward itself
  have stands := latest_mem_standing earned competes
  rw [latest_eq_of_getLast? found] at stands
  rw [rewardsAt_eq_standing, reached]
  exact List.mem_map.mpr ⟨_, stands, paid_of_competes competes _⟩

theorem Attainable.achieved (attainable : category.Attainable) :
    category.achieved category.maxLevel = category.milestones := by
  apply List.takeWhile_eq_self_iff.mpr
  intro milestone listed
  exact decide_eq_true (attainable milestone listed)

theorem Attainable.lasting_sublist (attainable : category.Attainable) :
    category.lasting.Sublist (category.rewardsAt category.maxLevel) := by
  rw [rewardsAt_eq_standing, maxLevel_min, attainable.achieved, lasting_eq]
  exact (filter_sublist_standing _).map _

end MasteryCategory

/-! ### Registering in turn -/

namespace MasteryRegistry
variable {registry : MasteryRegistry}

theorem Faithful.foldl_register (faithful : registry.Faithful)
    (categories : List MasteryCategory) : (categories.foldl register registry).Faithful := by
  induction categories generalizing registry with
  | nil => exact faithful
  | cons category rest ih => exact ih (register_faithful faithful category)

/-- The registry after some look-ups. -/
def consulted (registry : MasteryRegistry) (lookUps : List (String × Count)) : MasteryRegistry :=
  lookUps.foldl (fun registry lookUp => (registry.rewardsAt lookUp.1 lookUp.2).2) registry

theorem Faithful.consulted (faithful : registry.Faithful) (lookUps : List (String × Count)) :
    (registry.consulted lookUps).Faithful ∧
      ∀ id, (registry.consulted lookUps).get? id = registry.get? id := by
  induction lookUps generalizing registry with
  | nil => exact ⟨faithful, fun _ => rfl⟩
  | cons lookUp rest ih =>
    obtain ⟨kept, known⟩ := ih (rewardsAt_faithful faithful lookUp.1 lookUp.2)
    exact ⟨kept, fun id => (known id).trans (get?_rewardsAt registry lookUp.1 id lookUp.2)⟩

theorem Faithful.consulted_rewardsAt (faithful : registry.Faithful) {id : String}
    {category : MasteryCategory} (known : registry.get? id = some category)
    (lookUps : List (String × Count)) (level : Count) :
    ((registry.consulted lookUps).rewardsAt id level).1 = category.rewardsAt level := by
  obtain ⟨kept, same⟩ := faithful.consulted lookUps
  rw [rewardsAt_fst kept, same, known]
  rfl

end MasteryRegistry

/-! ### What is accepted, and as what -/

namespace MasteryDeclaration

/-- What is wrong with a category: the first of its milestones above its greatest level. -/
def heightFault (category : MasteryCategory) : Option Violation :=
  (category.milestones.find? (category.maxLevel.val < ·.level.val)).map fun milestone =>
    .milestoneAboveMax category.id milestone.level category.maxLevel

theorem heightFault_eq_none_iff {category : MasteryCategory} :
    heightFault category = none ↔ category.Attainable := by
  simp [heightFault, MasteryCategory.Attainable]

def violations (declaration : MasteryDeclaration) : List Violation :=
  idFaults "mastery category" (declaration.categories.map (·.id)) ++
    declaration.categories.filterMap heightFault

def filled (declaration : MasteryDeclaration) : MasteryRegistry :=
  declaration.categories.foldl MasteryRegistry.register {}

theorem registerAll_eq (registry : MasteryRegistry) (categories : List MasteryCategory) :
    registerAll registry categories =
      report (categories.foldl MasteryRegistry.register registry)
        (categories.filterMap heightFault) := by
  induction categories generalizing registry with
  | nil => rfl
  | cons category rest ih =>
    rw [registerAll, List.filterMap_cons, heightFault]
    cases category.milestones.find? (category.maxLevel.val < ·.level.val) with
    | none => exact ih (registry.register category)
    | some milestone => rfl

theorem registry_eq (declaration : MasteryDeclaration) :
    declaration.registry = report declaration.filled declaration.violations := by
  rw [registry, checkIds_eq]
  exact report_bind fun _ => registerAll_eq {} declaration.categories

structure Valid (declaration : MasteryDeclaration) : Prop where
  ids : ProperIds (declaration.categories.map (·.id))
  attainable : ∀ category ∈ declaration.categories, category.Attainable

theorem violations_eq_nil_iff {declaration : MasteryDeclaration} :
    declaration.violations = [] ↔ declaration.Valid := by
  rw [violations, List.append_eq_nil_iff, idFaults_eq_nil_iff, List.filterMap_eq_nil_iff]
  simp only [heightFault_eq_none_iff]
  exact ⟨fun ⟨ids, attainable⟩ => ⟨ids, attainable⟩, fun valid => ⟨valid.ids, valid.attainable⟩⟩

/-- The registry knows what is declared and nothing else, and whatever was looked up before, no
reward is out of reach. -/
structure Loaded (declaration : MasteryDeclaration) (registry : MasteryRegistry) : Prop where
  known : ∀ id category, registry.get? id = some category ↔
    category ∈ declaration.categories ∧ category.id = id
  achieved : ∀ category ∈ declaration.categories,
    category.achieved category.maxLevel = category.milestones
  /-- Of the milestones a category was given, in whichever order, none is left behind. -/
  given : ∀ category ∈ declaration.categories, ∀ given,
    MasteryCategory.Built given category → (category.achieved category.maxLevel).Perm given
  /-- Levels above the greatest one are worth as much as it. -/
  capped : ∀ category ∈ declaration.categories, ∀ early late level,
    ((registry.consulted early).rewardsAt category.id level).1 =
      ((registry.consulted late).rewardsAt category.id (level.min category.maxLevel)).1
  /-- Rewards that grow and unlocked difficulties are paid as often as they are declared. -/
  lasting : ∀ category ∈ declaration.categories, ∀ lookUps,
    category.lasting.Sublist
      ((registry.consulted lookUps).rewardsAt category.id category.maxLevel).1
  /-- Of each other type, the reward achieved last is paid. -/
  tiers : ∀ category ∈ declaration.categories, ∀ lookUps level reward,
    reward.type ≠ MasteryCategory.unlockDifficulty →
    (MasteryCategory.tiers reward.type
      (category.achieved (level.min category.maxLevel))).getLast? = some reward →
    reward ∈ ((registry.consulted lookUps).rewardsAt category.id level).1

theorem filled_get? {declaration : MasteryDeclaration}
    (distinct : (declaration.categories.map (·.id)).Nodup) (id : String)
    (category : MasteryCategory) : declaration.filled.get? id = some category ↔
      category ∈ declaration.categories ∧ category.id = id := by
  refine (look_foldl_of_none MasteryRegistry.get? MasteryRegistry.register (·.id)
    (fun category => category) (fun _ _ _ => MasteryRegistry.get?_register ..) distinct
    (fun _ => rfl) id category).trans ?_
  grind

theorem filled_loaded {declaration : MasteryDeclaration} (valid : declaration.Valid) :
    declaration.Loaded declaration.filled := by
  have known := filled_get? valid.ids.2
  have faithful : declaration.filled.Faithful :=
    MasteryRegistry.empty_faithful.foldl_register declaration.categories
  have paid {category : MasteryCategory} (declared : category ∈ declaration.categories)
      (lookUps : List (String × Count)) (level : Count) :
      ((declaration.filled.consulted lookUps).rewardsAt category.id level).1 =
        category.rewardsAt level :=
    faithful.consulted_rewardsAt ((known _ _).mpr ⟨declared, rfl⟩) lookUps level
  constructor
  case known => exact known
  case achieved =>
    intro category declared
    exact (valid.attainable category declared).achieved
  case given =>
    intro category declared given built
    rw [(valid.attainable category declared).achieved]
    exact built.ordered.perm
  case capped =>
    intro category declared early late level
    rw [paid declared, paid declared, MasteryCategory.rewardsAt_min]
  case lasting =>
    intro category declared lookUps
    rw [paid declared]
    exact (valid.attainable category declared).lasting_sublist
  case tiers =>
    intro category declared lookUps level reward ordinary last
    rw [paid declared]
    exact MasteryCategory.mem_rewardsAt_of_getLast? ordinary last

/-- A declaration is accepted exactly where it is valid, or else the first thing wrong is reported;
what is loaded is within reach. -/
theorem mastery_exact (declaration : MasteryDeclaration) :
    ((∃ registry, declaration.registry = .ok registry) ↔ declaration.Valid) ∧
      (∀ violation, declaration.registry = .error violation ↔
        declaration.violations.head? = some violation) ∧
      ∀ registry, declaration.registry = .ok registry → declaration.Loaded registry := by
  rw [registry_eq]
  refine ⟨?_, fun _ => report_eq_error_iff, fun registry accepted => ?_⟩
  · simp only [report_eq_ok_iff, exists_and_left, exists_eq', and_true, violations_eq_nil_iff]
  · obtain ⟨valid, rfl⟩ := report_eq_ok_iff.mp accepted
    exact filled_loaded (violations_eq_nil_iff.mp valid)

/-! Two categories, one with a milestone just at its greatest level. -/

def guilds : MasteryDeclaration where
  categories := [.ofMilestones "raid" "Raid" 60 MasteryCategory.raid, { id := "mining" }]

theorem mastery_exact_guilds :
    guilds.Valid ∧ ∃ registry, guilds.registry = .ok registry ∧ guilds.Loaded registry := by
  obtain ⟨accepted, -, loaded⟩ := mastery_exact guilds
  have valid : guilds.Valid := ⟨by decide, by decide⟩
  obtain ⟨registry, made⟩ := accepted.mpr valid
  exact ⟨valid, registry, made, loaded registry made⟩

end MasteryDeclaration
end Combat
