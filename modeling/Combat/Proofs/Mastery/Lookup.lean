import Combat.Mastery.Registry
import Combat.Proofs.Eviction

/-!
Kept look-ups are transparent. A registry answers as if it kept nothing: with the rewards of the
category registered last under the id, whatever was looked up or replaced before.
-/

namespace Combat.MasteryRegistry
open TagCache

/-- The rewards at a level worked out anew, none without a category. -/
def rewardsOf (category : Option MasteryCategory) (level : Count) : List Reward :=
  (category.map (·.rewardsAt level)).getD []

/-- What is kept is tagged with its id and is what its category yields now, and nothing is left to
be swept. -/
structure Faithful (registry : MasteryRegistry) : Prop where
  distinct : registry.cache.Distinct
  clean : ∀ tag, registry.cache.isDirty tag = false
  kept : ∀ {id level entry}, registry.cache.visible (id, level) = some entry →
    entry.tags = [id] ∧
      ∃ category, registry.get? id = some category ∧ entry.value = category.rewardsAt level

theorem empty_faithful : Faithful {} where
  distinct := List.nodup_nil
  clean _ := rfl
  kept seen := nomatch seen

theorem get?_register (registry : MasteryRegistry) (category : MasteryCategory) (id : String) :
    (registry.register category).get? id =
      if category.id = id then some category else registry.get? id :=
  IdMap.get?_insert ..

theorem register_faithful {registry : MasteryRegistry} (faithful : registry.Faithful)
    (category : MasteryCategory) : (registry.register category).Faithful := by
  by_cases known : registry.categories.contains category.id = true
  · -- the sweep leaves no entry that is tagged with the replaced id
    have swept : (registry.register category).cache =
        (registry.cache.invalidate category.id).clearDirty := if_pos known
    have distinct : (registry.cache.invalidate category.id).Distinct := faithful.distinct
    constructor
    case distinct =>
      rw [swept]
      exact distinct.filter _ _
    case clean =>
      intro tag
      rw [swept]
      rfl
    case kept =>
      intro id level entry seen
      rw [swept, visible_clearDirty distinct, visible_invalidate,
        Option.filter_eq_some_iff] at seen
      obtain ⟨seen, untagged⟩ := seen
      obtain ⟨tags, present⟩ := faithful.kept seen
      have other : category.id ≠ id := by
        rintro rfl
        simp [tags] at untagged
      rw [get?_register, if_neg other]
      exact ⟨tags, present⟩
  · have same : (registry.register category).cache = registry.cache := if_neg known
    constructor
    case distinct =>
      rw [same]
      exact faithful.distinct
    case clean =>
      rw [same]
      exact faithful.clean
    case kept =>
      intro id level entry seen
      rw [same] at seen
      obtain ⟨tags, held, present, value⟩ := faithful.kept seen
      have other : category.id ≠ id := by
        rintro rfl
        have found : registry.categories.get? category.id = some held := present
        exact known (by rw [IdMap.contains, found]; rfl)
      rw [get?_register, if_neg other]
      exact ⟨tags, held, present, value⟩

/-! ### Looking up -/

/-- The registry once the kept entry of a look-up was read. -/
def afterRead (registry : MasteryRegistry) (id : String) (level : Count) : MasteryRegistry :=
  { registry with cache := (registry.cache.get (id, level)).2 }

def keeping (registry : MasteryRegistry) (id : String) (level : Count) (rewards : List Reward) :
    MasteryRegistry :=
  { registry with cache := registry.cache.set (id, level) rewards [id] }

/-- A look-up is answered from what is kept, or else worked out, and kept if the id is known. -/
theorem rewardsAt_cases (registry : MasteryRegistry) (id : String) (level : Count) :
    (∃ entry, registry.cache.visible (id, level) = some entry ∧
        registry.rewardsAt id level = (entry.value, registry.afterRead id level)) ∨
      (registry.get? id = none ∧
        registry.rewardsAt id level = ([], registry.afterRead id level)) ∨
      ∃ category, registry.get? id = some category ∧
        registry.rewardsAt id level = (category.rewardsAt level,
          (registry.afterRead id level).keeping id level (category.rewardsAt level)) := by
  have seen := get_fst registry.cache (id, level)
  unfold rewardsAt keeping afterRead
  split
  · rename_i kept cache answer
    rw [answer] at seen ⊢
    obtain ⟨entry, visible, rfl⟩ := Option.map_eq_some_iff.mp seen.symm
    exact .inl ⟨entry, visible, rfl⟩
  · rename_i cache answer
    rw [answer]
    split
    · rename_i unknown
      exact .inr (.inl ⟨unknown, rfl⟩)
    · rename_i category known
      exact .inr (.inr ⟨category, known, rfl⟩)

theorem rewardsAt_fst {registry : MasteryRegistry} (faithful : registry.Faithful) (id : String)
    (level : Count) : (registry.rewardsAt id level).1 = rewardsOf (registry.get? id) level := by
  obtain ⟨entry, seen, done⟩ | ⟨unknown, done⟩ | ⟨category, known, done⟩ :=
    rewardsAt_cases registry id level
  · obtain ⟨-, category, known, value⟩ := faithful.kept seen
    rw [done, value, known]
    rfl
  · rw [done, unknown]
    rfl
  · rw [done, known]
    rfl

theorem get?_rewardsAt (registry : MasteryRegistry) (id other : String) (level : Count) :
    (registry.rewardsAt id level).2.get? other = registry.get? other := by
  obtain ⟨_, -, done⟩ | ⟨-, done⟩ | ⟨_, -, done⟩ := rewardsAt_cases registry id level
  all_goals
    rw [done]
    rfl

theorem afterRead_faithful {registry : MasteryRegistry} (faithful : registry.Faithful)
    (id : String) (level : Count) : (registry.afterRead id level).Faithful where
  distinct := faithful.distinct.get _
  clean tag := (isDirty_get registry.cache (id, level) tag).trans (faithful.clean tag)
  kept seen := faithful.kept ((visible_get registry.cache (id, level) _).symm.trans seen)

theorem keeping_faithful {registry : MasteryRegistry} (faithful : registry.Faithful)
    {id : String} {category : MasteryCategory} (known : registry.get? id = some category)
    (level : Count) : (registry.keeping id level (category.rewardsAt level)).Faithful where
  distinct := faithful.distinct.set ..
  clean := faithful.clean
  kept {other otherLevel entry} seen := by
    rw [keeping, visible_set] at seen
    split at seen
    · rename_i here
      cases here
      cases (Option.filter_eq_some_iff.mp seen).1
      exact ⟨rfl, category, known, rfl⟩
    · exact faithful.kept seen

theorem rewardsAt_faithful {registry : MasteryRegistry} (faithful : registry.Faithful)
    (id : String) (level : Count) : (registry.rewardsAt id level).2.Faithful := by
  have read := afterRead_faithful faithful id level
  obtain ⟨_, -, done⟩ | ⟨-, done⟩ | ⟨category, known, done⟩ := rewardsAt_cases registry id level
  · rw [done]
    exact read
  · rw [done]
    exact read
  · rw [done]
    exact keeping_faithful read known level

/-! ### Histories -/

inductive Action where
  | register (category : MasteryCategory)
  | lookUp (id : String) (level : Count)

/-- The category that an action puts under an id. -/
def Action.registered? (id : String) : Action → Option MasteryCategory
  | .register category => if category.id = id then some category else none
  | .lookUp .. => none

def act (registry : MasteryRegistry) : Action → MasteryRegistry
  | .register category => registry.register category
  | .lookUp id level => (registry.rewardsAt id level).2

/-- The registry that a history leaves, the latest action last. -/
def run (history : List Action) : MasteryRegistry := history.foldl act {}

/-- The category registered last under an id. -/
def latest? (history : List Action) (id : String) : Option MasteryCategory :=
  history.reverse.findSome? (·.registered? id)

theorem run_concat (history : List Action) (action : Action) :
    run (history ++ [action]) = act (run history) action := by
  simp [run]

theorem run_faithful (history : List Action) : (run history).Faithful := by
  induction history using List.reverseRecOn with
  | nil => exact empty_faithful
  | append_singleton history action ih =>
    rw [run_concat]
    cases action with
    | register category => exact register_faithful ih category
    | lookUp id level => exact rewardsAt_faithful ih id level

theorem latest?_concat (history : List Action) (action : Action) (id : String) :
    latest? (history ++ [action]) id = (action.registered? id <|> latest? history id) := by
  rw [latest?, List.reverse_concat, List.findSome?_cons]
  cases action.registered? id <;> rfl

theorem get?_run (history : List Action) (id : String) :
    (run history).get? id = latest? history id := by
  induction history using List.reverseRecOn with
  | nil => rfl
  | append_singleton history action ih =>
    rw [run_concat, latest?_concat]
    cases action with
    | register category =>
      rw [act, get?_register, ih, Action.registered?]
      split <;> rfl
    | lookUp other level =>
      rw [act, get?_rewardsAt, ih]
      rfl

/-- A look-up answers with the rewards of the category registered last under the id, and with none
if there is no such category; replacing a category changes no answer for another id. -/
theorem rewardsAt_run (history : List Action) (id : String) (level : Count) :
    ((run history).rewardsAt id level).1 =
        ((latest? history id).map (·.rewardsAt level)).getD [] ∧
      ∀ category : MasteryCategory, category.id ≠ id →
        ((run (history ++ [.register category])).rewardsAt id level).1 =
          ((run history).rewardsAt id level).1 := by
  constructor
  · rw [rewardsAt_fst (run_faithful history), get?_run, rewardsOf]
  · intro category other
    rw [rewardsAt_fst (run_faithful _), rewardsAt_fst (run_faithful _), get?_run, get?_run,
      latest?_concat, Action.registered?, if_neg other]
    rfl

/-! A category looked up, replaced and looked up again. -/

def craft (id : String) (bonus : Float) : MasteryCategory :=
  { id, milestones := [{ level := 1, rewards := [{ type := "crit", value := bonus }] }] }

def replacedHistory : List Action :=
  [.register (craft "mining" 5), .lookUp "mining" 10, .register (craft "fishing" 2),
    .register (craft "mining" 7), .lookUp "mining" 10]

theorem rewardsAt_run_replaced :
    ((run replacedHistory).rewardsAt "mining" 10).1 = (craft "mining" 7).rewardsAt 10 ∧
      (craft "fishing" 3).id ≠ "mining" ∧
      ((run (replacedHistory ++ [.register (craft "fishing" 3)])).rewardsAt "mining" 10).1 =
        ((run replacedHistory).rewardsAt "mining" 10).1 := by
  have other : (craft "fishing" 3).id ≠ "mining" := by decide
  have law := rewardsAt_run replacedHistory "mining" 10
  exact ⟨law.1, other, law.2 (craft "fishing" 3) other⟩

end Combat.MasteryRegistry
