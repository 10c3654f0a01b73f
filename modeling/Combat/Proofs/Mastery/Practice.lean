import Combat.Mastery.Practice
import Combat.Proofs.Mastery.Lookup

/-!
Practice keeps no stale rewards. What it holds for its level is what the registry would look up,
however often the level moves or what it keeps is forgotten, as long as its category stays.
-/

namespace Combat.Practice
open MasteryRegistry

inductive Event where
  | reach (level : Count)
  | forget
  | active
  | bonus (type : String)
  /-- The registry is used by others. -/
  | elsewhere (action : Action)

structure State where
  practice : Practice
  registry : MasteryRegistry

def step (s : State) : Event → State
  | .reach level => { s with practice := { s.practice with level } }
  | .forget => { s with practice := s.practice.invalidate }
  | .active => { s with practice := (s.practice.active s.registry).2 }
  | .bonus type => { s with practice := (s.practice.bonus s.registry type).2 }
  | .elsewhere action => { s with registry := act s.registry action }

def run : State → List Event → State
  | s, [] => s
  | s, event :: rest => run (step s event) rest

/-- Neither puts a category under the id nor replaces it. -/
def Event.Spares (id : String) : Event → Prop
  | .elsewhere action => action.registered? id = none
  | _ => True

def Event.reached? : Event → Option Count
  | .reach level => some level
  | _ => none

/-- The level reached last. -/
def levelAfter (level : Count) (events : List Event) : Count :=
  (events.reverse.findSome? Event.reached?).getD level

def totalOf (type : String) (rewards : List Reward) : Float :=
  ((rewards.filter (·.type = type)).map (·.value)).foldl (· + ·) (-0.0)

/-! ### One event -/

/-- The rewards held are those of the category at the level that they were built for. -/
structure Fresh (id : String) (category : Option MasteryCategory) (s : State) : Prop where
  practised : s.practice.category = id
  registered : s.registry.get? id = category
  faithful : s.registry.Faithful
  held : ∀ level, s.practice.cache.builtAt = some level →
    s.practice.cache.rewards = rewardsOf category level

variable {id : String} {category : Option MasteryCategory} {s : State}

theorem active_cache (practice : Practice) (registry : MasteryRegistry) :
    (practice.active registry).2.cache = practice.cache.get practice.level fun _ =>
      rewardsOf (registry.get? practice.category) practice.level := by
  unfold active rewardsOf
  cases registry.get? practice.category <;> rfl

theorem Fresh.active_cache (fresh : Fresh id category s) :
    (s.practice.active s.registry).2.cache.builtAt = some s.practice.level ∧
      (s.practice.active s.registry).2.cache.rewards = rewardsOf category s.practice.level := by
  rw [Practice.active_cache, fresh.practised, fresh.registered, LevelCache.get]
  split
  · rename_i built
    exact ⟨built, fresh.held _ built⟩
  · exact ⟨rfl, rfl⟩

theorem Fresh.active (fresh : Fresh id category s) :
    (s.practice.active s.registry).1 = rewardsOf category s.practice.level :=
  fresh.active_cache.2

theorem Fresh.bonus (fresh : Fresh id category s) (type : String) :
    (s.practice.bonus s.registry type).1 =
      totalOf type (rewardsOf category s.practice.level) := by
  rw [← fresh.active]
  rfl

theorem Fresh.rewardsAt (fresh : Fresh id category s) (level : Count) :
    (s.registry.rewardsAt id level).1 = rewardsOf category level := by
  rw [rewardsAt_fst fresh.faithful, fresh.registered]

theorem act_faithful {registry : MasteryRegistry} (faithful : registry.Faithful)
    (action : Action) : (act registry action).Faithful := by
  cases action with
  | register category => exact register_faithful faithful category
  | lookUp id level => exact rewardsAt_faithful faithful id level

theorem get?_act {registry : MasteryRegistry} {action : Action}
    (spared : action.registered? id = none) : (act registry action).get? id = registry.get? id := by
  cases action with
  | register category =>
    have other : category.id ≠ id := by simpa [Action.registered?] using spared
    rw [act, get?_register, if_neg other]
  | lookUp other level => exact get?_rewardsAt registry other id level

theorem step_fresh (fresh : Fresh id category s) {event : Event} (spares : event.Spares id) :
    Fresh id category (step s event) := by
  -- asking for the rewards or their total leaves them built for the level
  have asked : Fresh id category ⟨(s.practice.active s.registry).2, s.registry⟩ := by
    refine ⟨fresh.practised, fresh.registered, fresh.faithful, ?_⟩
    intro level built
    obtain ⟨now, rewards⟩ := fresh.active_cache
    obtain rfl := Option.some.inj (now.symm.trans built)
    exact rewards
  cases event with
  | reach level => exact ⟨fresh.practised, fresh.registered, fresh.faithful, fresh.held⟩
  | forget => exact ⟨fresh.practised, fresh.registered, fresh.faithful, nofun⟩
  | active => exact asked
  | bonus type => exact asked
  | elsewhere action =>
    exact ⟨fresh.practised, (get?_act spares).trans fresh.registered,
      act_faithful fresh.faithful action, fresh.held⟩

theorem step_level (s : State) (event : Event) :
    (step s event).practice.level = event.reached?.getD s.practice.level := by
  cases event <;> rfl

/-! ### Histories -/

theorem run_fresh {events : List Event} (fresh : Fresh id category s)
    (spared : ∀ event ∈ events, event.Spares id) : Fresh id category (run s events) := by
  induction events generalizing s with
  | nil => exact fresh
  | cons event rest ih =>
    obtain ⟨first, later⟩ := List.forall_mem_cons.mp spared
    exact ih (step_fresh fresh first) later

theorem levelAfter_cons (level : Count) (event : Event) (rest : List Event) :
    levelAfter level (event :: rest) = levelAfter (event.reached?.getD level) rest := by
  unfold levelAfter
  rw [List.reverse_cons, List.findSome?_append]
  cases rest.reverse.findSome? Event.reached? <;> cases event <;> rfl

theorem run_level (s : State) (events : List Event) :
    (run s events).practice.level = levelAfter s.practice.level events := by
  induction events generalizing s with
  | nil => rfl
  | cons event rest ih => rw [run, ih, step_level, levelAfter_cons]

/-- A practice of the category, new beside a registry in use. -/
def begin (earlier : List Action) (id : String) (level : Count) : State :=
  ⟨{ category := id, level }, MasteryRegistry.run earlier⟩

theorem begin_fresh (earlier : List Action) (id : String) (level : Count) :
    Fresh id (latest? earlier id) (begin earlier id level) where
  practised := rfl
  registered := get?_run earlier id
  faithful := run_faithful earlier
  held := nofun

/-- At every point of a history that spares the category, the active rewards are those of the
category at the level reached last, none if there is no category, and are what the registry looks
up; totals are totals of them. -/
theorem active_agrees (earlier : List Action) (id : String) (level : Count) (events : List Event)
    (spared : ∀ event ∈ events, event.Spares id) :
    let s := run (begin earlier id level) events
    let current := levelAfter level events
    (s.practice.active s.registry).1 =
        ((latest? earlier id).map (·.rewardsAt current)).getD [] ∧
      (s.practice.active s.registry).1 = (s.registry.rewardsAt id current).1 ∧
      ∀ type, (s.practice.bonus s.registry type).1 =
        totalOf type (s.registry.rewardsAt id current).1 := by
  intro s current
  have fresh : Fresh id (latest? earlier id) s := run_fresh (begin_fresh earlier id level) spared
  have reached : s.practice.level = current := run_level (begin earlier id level) events
  have active := fresh.active
  have found := fresh.rewardsAt current
  rw [reached] at active
  refine ⟨active, active.trans found.symm, ?_⟩
  intro type
  rw [found, fresh.bonus type, reached]

/-! Up and back down again, while another category is replaced. -/

def wavering : List Event :=
  [.active, .reach 12, .bonus "crit", .elsewhere (.lookUp "mining" 12),
    .elsewhere (.register (craft "fishing" 7)), .reach 0, .forget, .active, .reach 12]

theorem active_agrees_wavering :
    (∀ event ∈ wavering, event.Spares "mining") ∧
      let s := run (begin [.register (craft "mining" 5)] "mining" 0) wavering
      (s.practice.active s.registry).1 = (craft "mining" 5).rewardsAt 12 ∧
        (s.practice.active s.registry).1 = (s.registry.rewardsAt "mining" 12).1 := by
  have spared : ∀ event ∈ wavering, event.Spares "mining" := by
    simp [wavering, Event.Spares, Action.registered?, craft]
  have agrees := active_agrees [.register (craft "mining" 5)] "mining" 0 wavering spared
  exact ⟨spared, agrees.1, agrees.2.1⟩

end Combat.Practice
