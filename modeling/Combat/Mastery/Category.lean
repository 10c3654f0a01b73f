import Combat.Mastery.Reward

/-!
Tracks of mastery: milestones in order of their level, and the rewards active at a level. Rewards
of one type compete and the highest milestone wins, except that rewards growing with the level and
unlocked difficulties all stay.
-/

namespace Combat

structure Milestone where
  level : Count
  /-- Its rewards grow with the level. -/
  scaling : Bool := false
  rewards : List Reward := []

structure MasteryCategory where
  id : String
  name : String := ""
  maxLevel : Count := 99
  milestones : List Milestone := []

/-- A reward of the list at a level, and whether others of its type take its place. -/
structure StandingReward where
  reward : Reward
  competes : Bool

namespace StandingReward

/-- Takes the place of the competing reward of the same type, or else the last place. -/
def settle (reward : Reward) : List StandingReward → List StandingReward
  | [] => [⟨reward, true⟩]
  | standing :: rest =>
    if standing.competes && standing.reward.type = reward.type then ⟨reward, true⟩ :: rest
    else standing :: settle reward rest

/-- Takes the last place for good. -/
def keep (reward : Reward) (standings : List StandingReward) : List StandingReward :=
  standings ++ [⟨reward, false⟩]

end StandingReward

namespace MasteryCategory

/-- The type whose rewards never compete. -/
def unlockDifficulty : String := "unlock_difficulty"

/-- After the milestones of its own level. -/
def insertMilestone (milestone : Milestone) (milestones : List Milestone) : List Milestone :=
  milestones.takeWhile (·.level.val ≤ milestone.level.val) ++
    milestone :: milestones.dropWhile (·.level.val ≤ milestone.level.val)

def addMilestone (category : MasteryCategory) (milestone : Milestone) : MasteryCategory :=
  { category with milestones := insertMilestone milestone category.milestones }

def ofMilestones (id name : String) (maxLevel : Count) (milestones : List Milestone) :
    MasteryCategory :=
  milestones.foldl addMilestone { id, name, maxLevel }

/-- The milestones up to a level. -/
def achieved (category : MasteryCategory) (level : Count) : List Milestone :=
  category.milestones.takeWhile (·.level.val ≤ level.val)

/-- The first milestone above a level. -/
def next? (category : MasteryCategory) (level : Count) : Option Milestone :=
  (category.milestones.dropWhile (·.level.val ≤ level.val)).head?

def placeReward (level : Count) (scaling : Bool) (standings : List StandingReward)
    (reward : Reward) : List StandingReward :=
  if scaling then StandingReward.keep (reward.scaledBy level) standings
  else if reward.type = unlockDifficulty then StandingReward.keep reward standings
  else StandingReward.settle reward standings

def placeMilestone (level : Count) (standings : List StandingReward) (milestone : Milestone) :
    List StandingReward :=
  milestone.rewards.foldl (placeReward level milestone.scaling) standings

/-- The rewards active at a level; levels above the greatest count as the greatest. -/
def rewardsAt (category : MasteryCategory) (level : Count) : List Reward :=
  let level := level.min category.maxLevel
  ((category.achieved level).foldl (placeMilestone level) []).map (·.reward)

end MasteryCategory

/-! ### Written form -/

namespace Milestone

def ofValue? (origin : Value.Origin) (value : Value) : Option Milestone := do
  let record ← value.record? origin 3
  let level ← Value.required Value.count? (record.member 0 "level")
  let scaling ← Value.defaulted false Value.bool? (record.member 1 "scaling")
  let rewards ← Value.defaulted [] (Value.list? Reward.ofValue?) (record.member 2 "effects")
  return { level, scaling, rewards }

end Milestone

namespace MasteryCategory

def ofValue? (origin : Value.Origin) (value : Value) : Option MasteryCategory := do
  let record ← value.record? origin 4
  let id ← Value.required Value.text? (record.member 0 "id")
  let name ← Value.defaulted "" Value.text? (record.member 1 "name")
  let maxLevel ← Value.defaulted 99 Value.count? (record.member 2 "max_level")
  let milestones ←
    Value.defaulted [] (Value.list? (Milestone.ofValue? origin)) (record.member 3 "milestones")
  return ofMilestones id name maxLevel milestones

end MasteryCategory
end Combat
