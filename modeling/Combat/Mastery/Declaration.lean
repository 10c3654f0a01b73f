import Combat.ConfigError
import Combat.Mastery.Registry

/-!
Mastery as it is declared. A milestone above the greatest level of its category could never be
achieved, and such a declaration is refused.
-/

namespace Combat

structure MasteryDeclaration where
  categories : List MasteryCategory := []

namespace MasteryDeclaration

def registerAll : MasteryRegistry → List MasteryCategory → Except Violation MasteryRegistry
  | registry, [] => .ok registry
  | registry, category :: rest =>
    match category.milestones.find? (category.maxLevel.val < ·.level.val) with
    | some milestone =>
      .error (.milestoneAboveMax category.id milestone.level category.maxLevel)
    | none => registerAll (registry.register category) rest

def registry (declaration : MasteryDeclaration) : Except Violation MasteryRegistry := do
  checkIds "mastery category" [] (declaration.categories.map (·.id))
  registerAll {} declaration.categories

def ofValue? (origin : Value.Origin) (value : Value) : Option MasteryDeclaration := do
  let record ← value.record? origin 1
  let categories ← Value.defaulted [] (Value.list? (MasteryCategory.ofValue? origin))
    (record.member 0 "categories")
  return { categories }

end MasteryDeclaration
end Combat
