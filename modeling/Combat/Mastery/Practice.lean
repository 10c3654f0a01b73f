import Combat.Mastery.Registry

/-!
Practice: an action that a mastery category rewards. It keeps the rewards of the level it last
asked for and asks again when its level changes.
-/

namespace Combat

/-- The rewards built for one level. -/
structure LevelCache where
  builtAt : Option Count := none
  rewards : List Reward := []

namespace LevelCache

/-- The rewards for a level, built unless they are those of the last level. -/
def get (cache : LevelCache) (level : Count) (build : Unit → List Reward) : LevelCache :=
  if cache.builtAt = some level then cache else { builtAt := some level, rewards := build () }

end LevelCache

structure Practice where
  category : String := ""
  level : Count := 0
  cache : LevelCache := {}

namespace Practice

/-- The rewards active at its level. -/
def active (practice : Practice) (registry : MasteryRegistry) : List Reward × Practice :=
  let cache := practice.cache.get practice.level fun _ =>
    match registry.get? practice.category with
    | some category => category.rewardsAt practice.level
    | none => []
  (cache.rewards, { practice with cache })

/-- The values of the active rewards of one type, added up from negative zero. -/
def bonus (practice : Practice) (registry : MasteryRegistry) (type : String) : Float × Practice :=
  let (rewards, practice) := practice.active registry
  (((rewards.filter (·.type = type)).map (·.value)).foldl (· + ·) (-0.0), practice)

/-- Forgets the rewards built. -/
def invalidate (practice : Practice) : Practice := { practice with cache := {} }

end Practice
end Combat
