import Combat.Mastery.Category
import Combat.TagCache

/-!
The mastery categories in use. What a level of a category yields is kept in a cache under the
category's id as the tag, and replacing a category drops what was kept of it.
-/

namespace Combat

structure MasteryRegistry where
  categories : IdMap MasteryCategory := {}
  cache : TagCache (String × Count) (List Reward) := {}

namespace MasteryRegistry

def get? (registry : MasteryRegistry) (id : String) : Option MasteryCategory :=
  registry.categories.get? id

/-- Replaces a category of the same id. -/
def register (registry : MasteryRegistry) (category : MasteryCategory) : MasteryRegistry :=
  { categories := registry.categories.insert category.id category
    cache :=
      if registry.categories.contains category.id then
        (registry.cache.invalidate category.id).clearDirty
      else registry.cache }

/-- The rewards of a category at a level, none if the category is unknown. -/
def rewardsAt (registry : MasteryRegistry) (id : String) (level : Count) :
    List Reward × MasteryRegistry :=
  match registry.cache.get (id, level) with
  | (some rewards, cache) => (rewards, { registry with cache })
  | (none, cache) =>
    match registry.get? id with
    | none => ([], { registry with cache })
    | some category =>
      let rewards := category.rewardsAt level
      (rewards, { registry with cache := cache.set (id, level) rewards [id] })

def size (registry : MasteryRegistry) : Nat := registry.categories.size

def isEmpty (registry : MasteryRegistry) : Bool := registry.categories.isEmpty

/-- How many look-ups are kept. -/
def cachedEntries (registry : MasteryRegistry) : Nat := registry.cache.size

end MasteryRegistry
end Combat
