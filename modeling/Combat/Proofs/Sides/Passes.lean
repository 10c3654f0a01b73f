import Combat.Proofs.Sides.Handlers

/-!
Neither side is favoured. With the sides of all seats exchanged, effects and passes go as they did
before, and what they answer and leave behind is the same with the sides exchanged.
-/

namespace Combat
open Checked

/-! ### Passes -/

namespace AuraPass

def swapped (done : List Outcome × Context) : List Outcome × Context :=
  (done.1.map Outcome.swapSides, done.2.swapSides)

theorem spend_swapSides (queued : QueuedEffect) (count : Count) (auras : AuraSlots) :
    spend queued count auras.swapSides = AuraSlots.answered <$> spend queued count auras := by
  have slots : auras.swapSides.slots = auras.slots.map AuraSlot.swapSides := rfl
  unfold spend
  rw [slots, List.getElem?_map]
  cases auras.slots[queued.slot]? with
  | none => rfl
  | some slot =>
    change (if queued.isFrom slot then _ else _) = _ <$> (if queued.isFrom slot then _ else _)
    split
    · rw [AuraSlots.removeStacksAt_swapSides, bind_map_left, map_bind]
      rfl
    · rfl

theorem consume_swapSides (owner : Seat) (queued : QueuedEffect) (count : Count) (ctx : Context) :
    consume owner.swapSides queued count ctx.swapSides =
      Context.swapSides <$> consume owner queued count ctx := by
  rw [consume_eq, consume_eq, Context.get_swapSides,
    Character.withAuras_swapSides _ (spend_swapSides queued count _), bind_map_left, map_bind]
  refine bind_congr fun spent => ?_
  have placed := Context.setCharacter_swapSides ctx owner spent.2
  change pure _ = Context.swapSides <$> pure _
  simp only [Character.answered, placed]
  rfl

theorem scalingStats_swapSides (owner : Seat) (slot : AuraSlot) (ctx : Context) :
    scalingStats owner.swapSides slot.swapSides ctx.swapSides = scalingStats owner slot ctx := by
  change ((ctx.encounter.swapSides.occupant (slot.source.map Seat.swapSides)).getD
    (ctx.swapSides.get owner.swapSides)).stats = _
  rw [Encounter.occupant_swapSides, Context.get_swapSides]
  unfold scalingStats
  cases ctx.encounter.occupant slot.source <;> rfl

theorem creditedFor_swapSides (slot : AuraSlot) (ctx : Context) :
    creditedFor slot.swapSides ctx.swapSides = (creditedFor slot ctx).map Seat.swapSides := by
  change (if (ctx.encounter.swapSides.occupant (slot.source.map Seat.swapSides)).isSome then
    slot.source.map Seat.swapSides else none) = _
  rw [Encounter.occupant_swapSides, Option.isSome_map]
  unfold creditedFor
  split <;> rfl

theorem opened_swapSides (owner : Seat) (slot : AuraSlot) (drained : Character) (ctx : Context) :
    opened owner.swapSides slot.swapSides drained.swapSides ctx.swapSides =
      (opened owner slot drained ctx).swapSides := by
  unfold opened
  rw [creditedFor_swapSides, Context.setCharacter_swapSides]
  rfl

theorem fire_unlimited (handlers : Handlers) (owner : Seat) (source : String)
    (queued : QueuedEffect) (slot : AuraSlot) {ctx : Context} (unlimited : ctx.limits = none) :
    fire handlers owner source queued slot ctx = (do
      let stats := scalingStats owner slot ctx
      let (drawn, drained) ← (ctx.get owner).withAuras
        (·.draw queued.slot queued.effect (queued.effect.amountValue (some stats)))
      let (outcome, resolved) ← process handlers (fired queued.effect slot.amount.isSome drawn)
        (opened owner slot drained ctx)
      settle owner source queued (Count.ofInt (queued.effect.stacksValue (some stats))) none
        outcome resolved) := by
  have detached : { ctx with limits := none } = ctx := by rw [← unlimited]
  have turn := fire_eq handlers owner source queued slot ctx none
  rw [detached] at turn
  exact turn

/-- Without limits nothing is counted. -/
theorem settle_unlimited (owner : Seat) (source : String) (queued : QueuedEffect) (count : Count)
    (outcome : Option Outcome) (resolved : Context) :
    settle owner source queued count none outcome resolved = (do
      let ctx := { resolved with limits := none, credited := none }
      let ctx ← if queued.effect.consume then consume owner queued count ctx else pure ctx
      return (outcome.toList, ctx)) := by
  cases outcome <;> rfl

theorem settle_swapSides (owner : Seat) (source source' : String) (queued : QueuedEffect)
    (count : Count) (outcome : Option Outcome) (resolved : Context) :
    settle owner.swapSides source' queued count none (outcome.map Outcome.swapSides)
        resolved.swapSides =
      swapped <$> settle owner source queued count none outcome resolved := by
  have inside : ({ resolved.swapSides with limits := none, credited := none } : Context) =
      Context.swapSides { resolved with limits := none, credited := none } := rfl
  rw [settle_unlimited, settle_unlimited, Option.toList_map]
  dsimp only
  rw [inside]
  split
  · rw [consume_swapSides, bind_map_left, map_bind]
    rfl
  · rfl

section
variable {handlers : Handlers} (builtin : handlers.AllBuiltin)
include builtin

theorem fire_swapSides (owner : Seat) (source source' : String) (queued : QueuedEffect)
    (slot : AuraSlot) {ctx : Context} (sourced : ctx.source.isSome = true)
    (unlimited : ctx.limits = none) :
    fire handlers owner.swapSides source' queued slot.swapSides ctx.swapSides =
      swapped <$> fire handlers owner source queued slot ctx := by
  have unlimited' : ctx.swapSides.limits = none := unlimited
  rw [fire_unlimited handlers _ _ _ _ unlimited', fire_unlimited handlers _ _ _ _ unlimited]
  dsimp only
  rw [scalingStats_swapSides, Context.get_swapSides,
    Character.withAuras_swapSides (ctx.get owner) (f := fun auras => auras.draw queued.slot
      queued.effect _) (AuraSlots.draw_swapSides _ queued.slot queued.effect _),
    bind_map_left, map_bind]
  refine bind_congr ?_
  rintro ⟨drawn, drained⟩
  have source : (opened owner slot drained ctx).source.isSome = true := sourced
  change (process handlers (fired queued.effect slot.amount.isSome drawn)
    (opened owner.swapSides slot.swapSides drained.swapSides ctx.swapSides) >>= _) = _
  rw [opened_swapSides, process_swapSides builtin _ source rfl, bind_map_left, map_bind]
  refine bind_congr ?_
  rintro ⟨outcome, resolved⟩
  exact settle_swapSides ..

theorem step_swapSides (owner : Seat) (source source' : String) (queued : QueuedEffect)
    {ctx : Context} (sourced : ctx.source.isSome = true) (unlimited : ctx.limits = none) :
    step handlers owner.swapSides source' queued ctx.swapSides =
      swapped <$> step handlers owner source queued ctx := by
  have unlimited' : ctx.swapSides.limits = none := unlimited
  have here : (ctx.swapSides.get owner.swapSides).auras.slots[queued.slot]?.filter queued.isFrom =
      ((ctx.get owner).auras.slots[queued.slot]?.filter queued.isFrom).map AuraSlot.swapSides := by
    have same : queued.isFrom ∘ AuraSlot.swapSides = queued.isFrom := rfl
    rw [Context.get_swapSides]
    change ((ctx.get owner).auras.slots.map AuraSlot.swapSides)[queued.slot]?.filter _ = _
    rw [List.getElem?_map, Option.filter_map, same]
  unfold step
  rw [here]
  cases ((ctx.get owner).auras.slots[queued.slot]?).filter queued.isFrom with
  | none => rfl
  | some slot =>
    dsimp only [Option.map]
    rw [Context.isBlocked_unlimited unlimited, Context.isBlocked_unlimited unlimited']
    exact fire_swapSides builtin owner source source' queued slot sourced unlimited

/-- The invariant of a pass: its owner is the source, and no limit was attached. -/
theorem run_swapSides (owner : Seat) (source source' : String) (queue : List QueuedEffect)
    {ctx : Context} (sourced : ctx.source.isSome = true) (uncredited : ctx.credited = none)
    (unlimited : ctx.limits = none) :
    run handlers owner.swapSides source' queue ctx.swapSides =
      swapped <$> run handlers owner source queue ctx := by
  induction queue generalizing ctx with
  | nil => rfl
  | cons queued rest ih =>
    unfold run
    rw [step_swapSides builtin owner source source' queued sourced unlimited, bind_map_left]
    cases stepped : step handlers owner source queued ctx with
    | error fault => rfl
    | ok result =>
      obtain ⟨outcomes, after⟩ := result
      have turn := (step_turnCase stepped).2
      have evolved := turn.evolves builtin uncredited
      have sourced' : after.source.isSome = true := by
        rw [evolved.rest]
        exact sourced
      have uncredited' : after.credited = none := by
        rw [evolved.rest]
        exact uncredited
      have later := ih sourced' uncredited' (turn.unlimited unlimited)
      change (run handlers owner.swapSides source' rest after.swapSides >>= _) =
        _ <$> (run handlers owner source rest after >>= _)
      rw [later, bind_map_left, map_bind]
      refine bind_congr ?_
      rintro ⟨more, last⟩
      change pure _ = pure _
      simp only [swapped, List.map_append]

end

end AuraPass

theorem triggerAuras_swapSides {handlers : Handlers} (builtin : handlers.AllBuiltin) (owner : Seat)
    (trigger : Trigger) {ctx : Context} (unlimited : ctx.limits = none) :
    triggerAuras handlers owner.swapSides trigger ctx.swapSides =
      AuraPass.swapped <$> triggerAuras handlers owner trigger ctx := by
  have fights : (ctx.swapSides.get owner.swapSides).inCombat = (ctx.get owner).inCombat := by
    rw [Context.get_swapSides]
    rfl
  have queue : (ctx.swapSides.get owner.swapSides).auras.effectsFor trigger =
      (ctx.get owner).auras.effectsFor trigger := by
    rw [Context.get_swapSides]
    exact AuraSlots.effectsFor_swapSides ..
  unfold triggerAuras
  rw [fights, queue]
  split
  · rfl
  · cases (ctx.get owner).auras.effectsFor trigger with
    | nil => rfl
    | cons queued rest =>
      have inside : AuraPass.enter owner.swapSides ctx.swapSides =
          (AuraPass.enter owner ctx).swapSides := rfl
      have entered : (AuraPass.enter owner ctx).limits = none := unlimited
      change (AuraPass.run handlers owner.swapSides _ _
        (AuraPass.enter owner.swapSides ctx.swapSides) >>= _) = _
      rw [inside, AuraPass.run_swapSides builtin owner (AuraPass.enter owner ctx).sourceKey _ _
        rfl rfl entered, bind_map_left]
      change _ = AuraPass.swapped <$> (AuraPass.run handlers owner
        (AuraPass.enter owner ctx).sourceKey _ (AuraPass.enter owner ctx) >>= _)
      rw [map_bind]
      rfl

/-- On exchanged sides an effect comes to what it came to before, and so does a pass, with the sides
exchanged in what they answer and leave; a fault is the same fault. -/
theorem sides_alike {handlers : Handlers} (builtin : handlers.AllBuiltin) {ctx : Context}
    (unlimited : ctx.limits = none) :
    (∀ effect, ctx.source.isSome = true → process handlers effect ctx.swapSides =
      Context.outcomeSwapped <$> process handlers effect ctx) ∧
    ∀ owner trigger, triggerAuras handlers owner.swapSides trigger ctx.swapSides =
      AuraPass.swapped <$> triggerAuras handlers owner trigger ctx :=
  ⟨fun effect sourced => process_swapSides builtin effect sourced unlimited,
    fun owner trigger => triggerAuras_swapSides builtin owner trigger unlimited⟩

/-! A knight and a wolf: the knight burns by the wolf's doing and strikes back. -/

namespace Context

def duelStats : StatBlock := ({} : StatBlock).insert "hitpoints" 20

def burn : Aura :=
  { id := "burn", name := "Burn"
    effects := [{
      kind := .damage none
      target := .self
      trigger := .turnStart
      amount := some (.flat 3) }] }

def duellist (id : String) (auras : AuraSlots) : Character :=
  { id, name := id, role := some "fighter", hitpoints := 20, innate := duelStats,
    stats := duelStats, auras }

def duel : Context where
  encounter := {
    heroes := {
      front := duellist "knight"
        { slots := [.setAura ⟨0, burn⟩ 1 none (some ⟨.enemies, .front⟩)] }
      center := .empty
      back := .empty }
    enemies := { front := duellist "wolf" {}, center := .empty, back := .empty } }
  content := {}
  source := some ⟨.heroes, .front⟩

def strike : Effect := { kind := .damage none, target := .front, amount := some (.flat 4) }

end Context

theorem sides_alike_duel :
    Handlers.builtin.AllBuiltin ∧ Context.duel.limits = none ∧
      Context.duel.source.isSome = true ∧
      (∃ outcome after,
        process Handlers.builtin Context.strike Context.duel = .ok (some outcome, after) ∧
        outcome.changes = [.damage ⟨.enemies, .front⟩ 4 false] ∧
        process Handlers.builtin Context.strike Context.duel.swapSides =
          .ok (some outcome.swapSides, after.swapSides)) ∧
      ∃ outcomes after,
        triggerAuras Handlers.builtin ⟨.heroes, .front⟩ .turnStart Context.duel =
          .ok (outcomes, after) ∧
        (after.get ⟨.heroes, .front⟩).lastAttacker = some ⟨.enemies, .front⟩ ∧
        triggerAuras Handlers.builtin ⟨.enemies, .front⟩ .turnStart Context.duel.swapSides =
          .ok (outcomes.map Outcome.swapSides, after.swapSides) := by
  obtain ⟨effects, passes⟩ := sides_alike Handlers.builtin_allBuiltin
    (show Context.duel.limits = none from rfl)
  obtain ⟨⟨outcome, struck⟩, hit, blow⟩ : ∃ result,
      process Handlers.builtin Context.strike Context.duel = .ok result ∧
        result.1.map (·.changes) = some [.damage ⟨.enemies, .front⟩ 4 false] :=
    holds_ok (by decide +kernel)
  obtain ⟨⟨outcomes, after⟩, burned, attacker⟩ : ∃ result,
      triggerAuras Handlers.builtin ⟨.heroes, .front⟩ .turnStart Context.duel = .ok result ∧
        (result.2.get ⟨.heroes, .front⟩).lastAttacker = some ⟨.enemies, .front⟩ :=
    holds_ok (by decide +kernel)
  obtain ⟨outcome, rfl, changes⟩ := Option.map_eq_some_iff.mp blow
  have across := effects Context.strike rfl
  have passed := passes ⟨.heroes, .front⟩ .turnStart
  rw [hit] at across
  rw [burned] at passed
  exact ⟨Handlers.builtin_allBuiltin, rfl, rfl, ⟨outcome, struck, hit, changes, across⟩,
    outcomes, after, burned, attacker, passed⟩

end Combat
