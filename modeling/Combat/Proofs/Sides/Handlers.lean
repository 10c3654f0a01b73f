import Combat.Proofs.Limits.Tracker
import Combat.Proofs.Sides.Targets

/-!
Effects with the sides exchanged. Every handler does to the exchanged seats what it did to the seats
before, and tells the same of them.
-/

namespace Combat
open Checked

/-! ### Handlers -/

namespace Handler
open Context

/-- What a step answers and the context it leaves, with the sides exchanged. -/
def swapped (done : List Change × Context) : List Change × Context :=
  (done.1.map Change.swapSides, done.2.swapSides)

/-- One step does across what another does here. -/
def Across (here there : Seat → Context → Checked (List Change × Context)) : Prop :=
  ∀ target ctx, there target.swapSides ctx.swapSides = swapped <$> here target ctx

theorem forEach_across {here there : Seat → Context → Checked (List Change × Context)}
    (each : Across here there) (targets : List Seat) (ctx : Context) :
    forEach there (targets.map Seat.swapSides) ctx.swapSides =
      swapped <$> forEach here targets ctx := by
  induction targets generalizing ctx with
  | nil => rfl
  | cons target rest ih =>
    unfold forEach
    rw [List.map_cons]
    dsimp only
    rw [each target ctx, bind_map_left, map_bind]
    refine bind_congr ?_
    rintro ⟨changes, middle⟩
    change (forEach there (rest.map Seat.swapSides) middle.swapSides >>= _) = _
    rw [ih middle, bind_map_left, map_bind]
    refine bind_congr ?_
    rintro ⟨more, last⟩
    change pure _ = pure _
    simp only [swapped, List.map_append]

theorem damageOne_across (amount : Int) : Across (damageOne amount) (damageOne amount) := by
  intro target ctx
  unfold damageOne
  rw [get_swapSides, damageSource_swapSides]
  dsimp only
  rw [Character.takeDamage_swapSides, bind_map_left, map_bind]
  refine bind_congr ?_
  rintro ⟨blow, c⟩
  have placed := setCharacter_swapSides ctx target c
  change pure _ = swapped <$> pure _
  simp only [Character.answered, placed]
  cases blow.killing <;> rfl

theorem healOne_across (mode : HealMode) (amount : Int) :
    Across (healOne mode amount) (healOne mode amount) := by
  intro target ctx
  unfold healOne
  rw [get_swapSides]
  change (healAmount mode amount (ctx.get target) >>= _) = _
  dsimp only
  rw [map_bind]
  refine bind_congr fun value => ?_
  rw [Character.heal_swapSides, bind_map_left, map_bind]
  refine bind_congr ?_
  rintro ⟨healed, c⟩
  have placed := setCharacter_swapSides ctx target c
  change pure _ = swapped <$> pure _
  simp only [Character.answered, placed]
  split <;> rfl

theorem restoreEnergyOne_across (amount : Int) :
    Across (restoreEnergyOne amount) (restoreEnergyOne amount) := by
  intro target ctx
  unfold restoreEnergyOne
  rw [get_swapSides, Character.restoreEnergy_swapSides, bind_map_left, map_bind]
  refine bind_congr ?_
  rintro ⟨restored, c⟩
  have placed := setCharacter_swapSides ctx target c
  change pure _ = swapped <$> pure _
  simp only [placed]
  rfl

theorem reviveOne_across (percent : Int) : Across (reviveOne percent) (reviveOne percent) := by
  intro target ctx
  unfold reviveOne
  rw [get_swapSides, Character.revive_swapSides, bind_map_left, map_bind]
  refine bind_congr ?_
  rintro ⟨revived, c⟩
  have placed := setCharacter_swapSides ctx target c
  cases revived with
  | none => rfl
  | some hitpoints =>
    change pure _ = swapped <$> pure _
    simp only [placed]
    rfl

theorem applyOne_across (held : RegisteredAura) (application : AuraApplication) :
    Across (applyOne held application) (applyOne held application.swapSides) := by
  intro target ctx
  have applied : (ctx.get target).swapSides.withAuras (·.add held application.swapSides) =
      Character.answered <$> (ctx.get target).withAuras (·.add held application) :=
    Character.withAuras_swapSides _ (AuraSlots.add_swapSides _ held application)
  unfold applyOne
  rw [get_swapSides, applied, bind_map_left, map_bind]
  refine bind_congr ?_
  rintro ⟨added, c⟩
  have placed := setCharacter_swapSides ctx target c
  simp only [Character.answered, placed]
  cases added with
  | none => rfl
  | some slot =>
    change (c.auras.swapSides.stacksOf held.id >>= _) = swapped <$> (c.auras.stacksOf held.id >>= _)
    rw [AuraSlots.stacksOf_swapSides, map_bind]
    rfl

/-- What a removal does to the auras of one target. -/
def removal (id : String) (count : Option Count) (auras : AuraSlots) :
    Checked (Bool × AuraSlots) :=
  match count with
  | some count => auras.removeStacks id count
  | none => auras.remove id

theorem removal_swapSides (id : String) (count : Option Count) (auras : AuraSlots) :
    removal id count auras.swapSides = AuraSlots.answered <$> removal id count auras := by
  cases count with
  | none => exact AuraSlots.remove_swapSides ..
  | some count => exact AuraSlots.removeStacks_swapSides ..

theorem removeOne_across (id : String) (count : Option Count) :
    Across (removeOne id count) (removeOne id count) := by
  intro target ctx
  unfold removeOne
  rw [get_swapSides]
  change ((ctx.get target).swapSides.withAuras (removal id count) >>= _) =
    swapped <$> ((ctx.get target).withAuras (removal id count) >>= _)
  rw [Character.withAuras_swapSides _ (removal_swapSides id count _), bind_map_left, map_bind]
  refine bind_congr ?_
  rintro ⟨removed, c⟩
  have placed := setCharacter_swapSides ctx target c
  simp only [Character.answered, placed]
  cases removed <;> rfl

section
variable (effect : Effect) (targets : List Seat) (ctx : Context)

theorem nothing_across : (pure ([], ctx.swapSides) : Checked (List Change × Context)) =
    swapped <$> pure ([], ctx) := rfl

theorem damage_across :
    damage effect (targets.map Seat.swapSides) ctx.swapSides =
      swapped <$> damage effect targets ctx := by
  have amount : damageAmount effect ctx.swapSides = damageAmount effect ctx := by
    unfold damageAmount
    rw [sourceStats_swapSides, amount_swapSides]
  unfold damage
  rw [amount, map_bind]
  exact bind_congr fun amount => forEach_across (damageOne_across amount) targets ctx

theorem applyAura_across :
    applyAura effect (targets.map Seat.swapSides) ctx.swapSides =
      swapped <$> applyAura effect targets ctx := by
  have handed : application effect ctx.swapSides = (application effect ctx).swapSides := by
    unfold application
    rw [stackCount_swapSides, amount_swapSides]
    rfl
  have content : ctx.swapSides.content = ctx.content := rfl
  unfold applyAura
  rw [handed, content]
  split
  · rename_i kind id _
    cases ctx.content.auras.lookup kind id with
    | none => exact nothing_across ctx
    | some held => exact forEach_across (applyOne_across held _) targets ctx
  · exact nothing_across ctx

theorem removeAura_across :
    removeAura effect (targets.map Seat.swapSides) ctx.swapSides =
      swapped <$> removeAura effect targets ctx := by
  have content : ctx.swapSides.content = ctx.content := rfl
  unfold removeAura
  rw [stackCount_swapSides, content]
  split
  · rename_i kind id _
    cases ctx.content.auras.lookup kind id with
    | none => exact nothing_across ctx
    | some held => exact forEach_across (removeOne_across id _) targets ctx
  · exact nothing_across ctx

theorem statModifier_across :
    statModifier effect (targets.map Seat.swapSides) ctx.swapSides =
      swapped <$> statModifier effect targets ctx := by
  have content : ctx.swapSides.content = ctx.content := rfl
  unfold statModifier
  rw [amount_swapSides, content]
  split
  · split <;> rfl
  · exact nothing_across ctx

theorem quantity_swapSides : quantity effect ctx.swapSides = quantity effect ctx := by
  unfold quantity
  rw [amount_swapSides]

theorem grantMaterial_across :
    grantMaterial effect (targets.map Seat.swapSides) ctx.swapSides =
      swapped <$> grantMaterial effect targets ctx := by
  have content : ctx.swapSides.content = ctx.content := rfl
  have stash : ctx.swapSides.stash = ctx.stash := rfl
  unfold grantMaterial
  rw [quantity_swapSides, content, stash]
  split
  · split
    · dsimp only
      split <;> rfl
    · exact nothing_across ctx
  · exact nothing_across ctx

theorem consumeMaterial_across :
    consumeMaterial effect (targets.map Seat.swapSides) ctx.swapSides =
      swapped <$> consumeMaterial effect targets ctx := by
  have content : ctx.swapSides.content = ctx.content := rfl
  have stash : ctx.swapSides.stash = ctx.stash := rfl
  unfold consumeMaterial
  rw [quantity_swapSides, content, stash]
  split
  · split
    · dsimp only
      split <;> rfl
    · exact nothing_across ctx
  · exact nothing_across ctx

theorem builtin_across (type : EffectType) :
    Handler.builtin type effect (targets.map Seat.swapSides) ctx.swapSides =
      swapped <$> Handler.builtin type effect targets ctx := by
  have amount := amount_swapSides ctx effect
  cases type with
  | damage => exact damage_across effect targets ctx
  | heal =>
    change forEach _ _ _ = swapped <$> forEach _ _ _
    rw [amount]
    exact forEach_across (healOne_across _ _) targets ctx
  | restoreEnergy =>
    change forEach _ _ _ = swapped <$> forEach _ _ _
    rw [amount]
    exact forEach_across (restoreEnergyOne_across _) targets ctx
  | revive =>
    change forEach _ _ _ = swapped <$> forEach _ _ _
    rw [amount]
    exact forEach_across (reviveOne_across _) targets ctx
  | applyAura kind => exact applyAura_across effect targets ctx
  | removeAura kind => exact removeAura_across effect targets ctx
  | statModifier => exact statModifier_across effect targets ctx
  | grantMaterial => exact grantMaterial_across effect targets ctx
  | consumeMaterial => exact consumeMaterial_across effect targets ctx

end
end Handler

/-! ### Effects -/

/-- What an effect came to and the context it left, with the sides exchanged. -/
def Context.outcomeSwapped (done : Option Outcome × Context) : Option Outcome × Context :=
  (done.1.map Outcome.swapSides, done.2.swapSides)

theorem process_swapSides {handlers : Handlers} (builtin : handlers.AllBuiltin) (effect : Effect)
    {ctx : Context} (sourced : ctx.source.isSome = true) (unlimited : ctx.limits = none) :
    process handlers effect ctx.swapSides =
      Context.outcomeSwapped <$> process handlers effect ctx := by
  have unlimited' : ctx.swapSides.limits = none := unlimited
  cases typed : effect.type? with
  | none =>
    unfold process
    rw [typed]
    rfl
  | some type =>
    cases known : handlers type with
    | none =>
      unfold process
      rw [typed]
      dsimp only
      rw [known]
      rfl
    | some handler =>
      obtain rfl := builtin type handler known
      have quiet : (ctx.seek type effect).2.limits = none := by
        rw [Context.seek_rest]
        exact unlimited
      rw [process_handled typed known, process_handled typed known,
        Context.isBlocked_unlimited unlimited, Context.isBlocked_unlimited unlimited',
        Context.seek_swapSides ctx type effect sourced]
      dsimp only
      rw [Handler.builtin_across]
      cases handling : Handler.builtin type effect (ctx.seek type effect).1
          (ctx.seek type effect).2 with
      | error fault => rfl
      | ok done =>
        obtain ⟨changes, after⟩ := done
        have detached : after.limits = none := (Handler.builtin_keeps handling).1.trans quiet
        have detached' : after.swapSides.limits = none := detached
        change (after.swapSides.recordUse effect _ >>= _) = _ <$> (after.recordUse effect _ >>= _)
        rw [Context.recordUse_unlimited detached, Context.recordUse_unlimited detached']
        rfl

end Combat
