import Combat.Proofs.Limits.Tracker
import Combat.Proofs.Resolution.Unhandled
import Combat.Proofs.Targeting

/-!
What resolving an effect draws. Finding the targets is the only part that looks at the random
numbers, and of the selectors only the random one does; an effect that comes to nothing or that its
limit stops has found no targets yet.
-/

namespace Combat
open Checked

def Context.withRandom (random : RandomSource) (ctx : Context) : Context := { ctx with random }

/-- A step that goes the same way whatever the random numbers are, and leaves them alone. -/
def Steady {α : Type} (step : Context → Checked (α × Context)) : Prop :=
  ∀ random ctx, step (ctx.withRandom random) =
    (fun done => (done.1, done.2.withRandom random)) <$> step ctx

/-! ### Finding the targets -/

namespace Context
variable (ctx : Context) (type : EffectType) (effect : Effect)

/-- The random numbers left once the targets are found: after one draw among those eligible, or
all. -/
def randomLeft : RandomSource :=
  if type.targetsCharacters = true ∧ effect.target = .random ∧ (ctx.aim effect).eligible ≠ [] then
    (ctx.random.below (ctx.aim effect).eligible.length).2
  else ctx.random

theorem seek_random : (ctx.seek type effect).2.random = ctx.randomLeft type effect := by
  have laws := Aim.lawful Float (ctx.aim effect) ctx.random
  unfold seek randomLeft
  by_cases lands : type.targetsCharacters = true
  · rw [if_pos lands]
    show ((ctx.aim effect).resolveIn Float effect.target ctx.random).2 = _
    rw [Aim.eligible_eq]
    by_cases draws : effect.target = .random ∧ (ctx.aim effect).standing ≠ []
    · rw [if_pos ⟨lands, draws⟩, draws.1]
      exact (laws.drawn draws.2).2
    · rw [if_neg fun drawn => draws drawn.2]
      exact laws.undrawn effect.target ((not_and_or.mp draws).imp_right not_not.mp)
  · rw [if_neg lands, if_neg fun drawn => lands drawn.1]

variable {effect}

theorem seek_withRandom (settled : effect.target ≠ .random) (random : RandomSource) :
    (ctx.withRandom random).seek type effect =
      ((ctx.seek type effect).1, (ctx.seek type effect).2.withRandom random) := by
  unfold seek
  split
  · unfold resolveTargets
    cases selected : effect.target with
    | random => exact absurd selected settled
    | _ => rfl
  · rfl

end Context

theorem Context.recordUse_withRandom (random : RandomSource) (ctx : Context) (effect : Effect)
    (source : String) : (ctx.withRandom random).recordUse effect source =
      Context.withRandom random <$> ctx.recordUse effect source := by
  cases attached : ctx.limits with
  | none =>
    have attached' : (ctx.withRandom random).limits = none := attached
    rw [recordUse_unlimited attached, recordUse_unlimited attached']
    rfl
  | some limits =>
    have attached' : (ctx.withRandom random).limits = some limits := attached
    unfold recordUse
    rw [attached, attached']
    dsimp only
    rw [map_bind]
    rfl

/-! ### Effects -/

theorem Handler.builtin_steady (type : EffectType) (effect : Effect) (targets : List Seat) :
    Steady (Handler.builtin type effect targets) := by
  intro random ctx
  have aside := builtin_blind type effect targets ctx.limits random ctx
  show Handler.builtin type effect targets (ctx.aside ctx.limits random) = _
  rw [aside]
  cases handled : Handler.builtin type effect targets ctx with
  | error fault => rfl
  | ok done =>
    obtain ⟨changes, after⟩ := done
    show Except.ok (changes, after.aside ctx.limits random) = _
    rw [← (builtin_keeps handled).1]
    rfl

section
variable {handlers : Handlers} {effect : Effect}

theorem process_steady (builtin : handlers.AllBuiltin) (settled : effect.target ≠ .random) :
    Steady (process handlers effect) := by
  intro random ctx
  by_cases ignored : handlers.Ignores effect
  · rw [process_ignored _ ignored, process_ignored _ ignored]
    rfl
  · obtain ⟨type, typed, known⟩ := builtin.heeds ignored
    rw [process_handled typed known, process_handled typed known]
    show (if ctx.isBlocked effect ctx.sourceKey = true then _ else _) = _
    split
    · rfl
    · rw [ctx.seek_withRandom type settled, Handler.builtin_steady, bind_map_left, map_bind]
      apply bind_congr
      rintro ⟨changes, handled⟩
      dsimp only
      rw [Context.recordUse_withRandom, bind_map_left, map_bind]
      rfl

theorem processEach_steady (builtin : handlers.AllBuiltin) {effects : List Effect}
    (settled : ∀ effect ∈ effects, effect.target ≠ .random) :
    Steady (processEach handlers effects) := by
  induction effects with
  | nil => exact fun _ _ => rfl
  | cons effect rest ih =>
    obtain ⟨first, later⟩ := List.forall_mem_cons.mp settled
    intro random ctx
    unfold processEach
    rw [process_steady builtin first, bind_map_left, map_bind]
    apply bind_congr
    rintro ⟨outcome, middle⟩
    dsimp only
    rw [ih later, bind_map_left, map_bind]
    rfl

theorem processAll_steady (builtin : handlers.AllBuiltin) {effects : List Effect}
    (settled : ∀ effect ∈ effects, effect.target ≠ .random) :
    Steady (processAll handlers effects) := by
  intro random ctx
  unfold processAll
  rw [processEach_steady builtin settled, bind_map_left, map_bind]
  rfl

theorem process_random (builtin : handlers.AllBuiltin) {ctx after : Context} {outcome : Outcome}
    (fired : outcome.blocked = false)
    (h : process handlers effect ctx = .ok (some outcome, after)) :
    after.random = ctx.randomLeft outcome.type effect := by
  cases process_resolution h with
  | blocked => cases fired
  | resolved typed known free handling counted =>
    obtain rfl := builtin _ _ known
    rw [Context.recordUse_rest counted]
    exact (Handler.builtin_keeps handling).2.trans (Context.seek_random ..)

/-- An effect draws once if it finds a target at random, and it depends on the random numbers in no
other way; one that comes to nothing or that is blocked changes nothing. -/
theorem random_only_for_targets (builtin : handlers.AllBuiltin) :
    (∀ effect ctx, effect.type?.bind handlers = none →
      process handlers effect ctx = .ok (none, ctx)) ∧
    (∀ effect type ctx, effect.type? = some type → (handlers type).isSome = true →
      ctx.isBlocked effect ctx.sourceKey = true →
      process handlers effect ctx =
        .ok (some { type, targets := [], changes := [], blocked := true }, ctx)) ∧
    (∀ effect type ctx outcome after, effect.type? = some type → (handlers type).isSome = true →
      ctx.isBlocked effect ctx.sourceKey = false →
      process handlers effect ctx = .ok (outcome, after) →
      after.random =
        if type.targetsCharacters = true ∧ effect.target = .random ∧
            (ctx.aim effect).eligible ≠ [] then
          (ctx.random.below (ctx.aim effect).eligible.length).2
        else ctx.random) ∧
    (∀ effect, effect.target ≠ .random → ∀ ctx random,
      process handlers effect { ctx with random } =
        (fun done => (done.1, { done.2 with random })) <$> process handlers effect ctx) ∧
    ∀ effects, (∀ effect ∈ effects, effect.target ≠ .random) → ∀ ctx random,
      processAll handlers effects { ctx with random } =
        (fun done => (done.1, { done.2 with random })) <$> processAll handlers effects ctx := by
  refine ⟨fun effect ctx ignored => process_ignored ctx ignored,
    fun effect type ctx typed handled spent => ?_,
    fun effect type ctx outcome after typed handled free h => ?_,
    fun effect settled ctx random => process_steady builtin settled random ctx,
    fun effects settled ctx random => processAll_steady builtin settled random ctx⟩
  · obtain ⟨handler, known⟩ := Option.isSome_iff_exists.mp handled
    rw [process_handled typed known, if_pos spent]
    rfl
  · obtain ⟨handler, known⟩ := Option.isSome_iff_exists.mp handled
    cases process_resolution h with
    | unhandled unknown =>
      rw [typed, Option.bind_some, known] at unknown
      cases unknown
    | blocked _ _ spent =>
      rw [free] at spent
      cases spent
    | resolved again =>
      obtain rfl := Option.some.inj (typed.symm.trans again)
      exact process_random builtin rfl h

end

/-! A skirmish in which an arrow finds one of two goblins and a blade the one in front. -/

namespace Context

def goblin : Character :=
  { id := "goblin", name := "Goblin", role := some "skirmisher", hitpoints := 8
    stats := ({} : StatBlock).insert "hitpoints" 8 }

def thicket : Context where
  encounter :=
    ⟨⟨{ goblin with id := "hunter", name := "Hunter" }, .empty, .empty⟩,
      ⟨goblin, .empty, goblin⟩⟩
  content := {}
  source := some ⟨.heroes, .front⟩
  random := { script := [0x9000000000000000, 7] }

def arrow : Effect := { kind := .damage none, target := .random, amount := some (.flat 3) }

def blade : Effect := { kind := .damage none, target := .front, amount := some (.flat 3) }

end Context

theorem random_only_for_targets_thicket :
    Handlers.builtin.AllBuiltin ∧
      (∃ outcome after, process Handlers.builtin Context.arrow Context.thicket =
          .ok (some outcome, after) ∧
        outcome.targets = [⟨.enemies, .back⟩] ∧ after.random = ⟨[7], 1⟩) ∧
      ∀ random, processAll Handlers.builtin [Context.blade, Context.blade]
          { Context.thicket with random } =
        (fun done => (done.1, { done.2 with random })) <$>
          processAll Handlers.builtin [Context.blade, Context.blade] Context.thicket := by
  obtain ⟨-, -, drawn, -, lists⟩ := random_only_for_targets Handlers.builtin_allBuiltin
  obtain ⟨⟨outcome, after⟩, shot, hit⟩ : ∃ done,
      process Handlers.builtin Context.arrow Context.thicket = .ok done ∧
        done.1.map (·.targets) = some [⟨.enemies, .back⟩] :=
    holds_ok (by decide +kernel)
  obtain ⟨outcome, rfl, targets⟩ := Option.map_eq_some_iff.mp hit
  refine ⟨Handlers.builtin_allBuiltin, ⟨outcome, after, shot, targets, ?_⟩,
    lists [Context.blade, Context.blade] ?_ Context.thicket⟩
  · rw [drawn Context.arrow .damage Context.thicket _ _ rfl rfl rfl shot]
    decide +kernel
  · simp [Context.blade]

end Combat
