import Combat.Proofs.Resolution.Frame

/-!
What handlers do not look at: no handler reads or writes the limits or the random numbers.
-/

namespace Combat
open Checked

def Context.aside (limits : Option LimitTracker) (random : RandomSource) (ctx : Context) :
    Context :=
  { ctx with limits, random }

section
variable (limits : Option LimitTracker) (random : RandomSource) (ctx : Context)

@[simp] theorem Context.aside_content : (ctx.aside limits random).content = ctx.content := rfl

@[simp] theorem Context.aside_stash : (ctx.aside limits random).stash = ctx.stash := rfl

end

/-- A step that neither looks at the limits and the random numbers nor changes them. -/
def Blind (step : Context → Checked (List Change × Context)) : Prop :=
  ∀ limits random ctx, step (ctx.aside limits random) =
    (fun done => (done.1, done.2.aside limits random)) <$> step ctx

namespace Handler

theorem forEach_blind {step : Seat → Context → Checked (List Change × Context)}
    (each : ∀ target, Blind (step target)) (targets : List Seat) :
    Blind (forEach step targets) := by
  intro limits random ctx
  induction targets generalizing ctx with
  | nil => rfl
  | cons target rest ih =>
    unfold forEach
    rw [each target limits random ctx]
    cases step target ctx with
    | error fault => rfl
    | ok done =>
      simp only [Functor.map, Except.map, bind, Except.bind, ih]
      cases forEach step rest done.2 <;> rfl

theorem damageOne_blind (amount : Int) (target : Seat) : Blind (damageOne amount target) := by
  intro limits random ctx
  unfold damageOne
  change ((ctx.get target).takeDamage amount ctx.damageSource >>= _) =
    _ <$> ((ctx.get target).takeDamage amount ctx.damageSource >>= _)
  rw [map_bind]
  refine bind_congr fun (blow, c) => ?_
  dsimp only
  split <;> rfl

theorem healOne_blind (mode : HealMode) (amount : Int) (target : Seat) :
    Blind (healOne mode amount target) := by
  intro limits random ctx
  unfold healOne
  change (healAmount mode amount (ctx.get target) >>= _) =
    _ <$> (healAmount mode amount (ctx.get target) >>= _)
  rw [map_bind]
  refine bind_congr fun value => ?_
  rw [map_bind]
  refine bind_congr fun (healed, c) => ?_
  dsimp only
  split <;> rfl

theorem restoreEnergyOne_blind (amount : Int) (target : Seat) :
    Blind (restoreEnergyOne amount target) := by
  intro limits random ctx
  unfold restoreEnergyOne
  rw [map_bind]
  rfl

theorem reviveOne_blind (percent : Int) (target : Seat) : Blind (reviveOne percent target) := by
  intro limits random ctx
  unfold reviveOne
  rw [map_bind]
  refine bind_congr fun (revived, c) => ?_
  cases revived <;> rfl

theorem applyOne_blind (held : RegisteredAura) (application : AuraApplication) (target : Seat) :
    Blind (applyOne held application target) := by
  intro limits random ctx
  unfold applyOne
  rw [map_bind]
  refine bind_congr fun (added, c) => ?_
  cases added with
  | none => rfl
  | some slot =>
    dsimp only
    rw [map_bind]
    rfl

theorem removeOne_blind (id : String) (count : Option Count) (target : Seat) :
    Blind (removeOne id count target) := by
  intro limits random ctx
  unfold removeOne
  rw [map_bind]
  refine bind_congr fun (removed, c) => ?_
  cases removed <;> rfl

theorem applyAura_blind (effect : Effect) (targets : List Seat) :
    Blind (applyAura effect targets) := by
  intro limits random ctx
  unfold applyAura
  split
  · rename_i kind id _
    rw [Context.aside_content]
    cases ctx.content.auras.lookup kind id with
    | none => rfl
    | some held => exact forEach_blind (applyOne_blind held _) targets limits random ctx
  · rfl

theorem removeAura_blind (effect : Effect) (targets : List Seat) :
    Blind (removeAura effect targets) := by
  intro limits random ctx
  unfold removeAura
  split
  · rename_i kind id _
    rw [Context.aside_content]
    cases ctx.content.auras.lookup kind id with
    | none => rfl
    | some held => exact forEach_blind (removeOne_blind id _) targets limits random ctx
  · rfl

theorem statModifier_blind (effect : Effect) (targets : List Seat) :
    Blind (statModifier effect targets) := by
  intro limits random ctx
  unfold statModifier
  split
  · rename_i stat _ _
    rw [Context.aside_content]
    cases ctx.content.hasStat stat <;> rfl
  · rfl

theorem grantMaterial_blind (effect : Effect) (targets : List Seat) :
    Blind (grantMaterial effect targets) := by
  intro limits random ctx
  unfold grantMaterial
  split
  · rename_i id _
    rw [Context.aside_content, Context.aside_stash]
    cases ctx.content.material? id with
    | none => rfl
    | some material =>
      cases ctx.stash with
      | none => rfl
      | some stash =>
        change (if (quantity effect ctx).val = 0 then _ else _) = _
        dsimp only
        split <;> rfl
  · rfl

theorem consumeMaterial_blind (effect : Effect) (targets : List Seat) :
    Blind (consumeMaterial effect targets) := by
  intro limits random ctx
  unfold consumeMaterial
  split
  · rename_i id _
    rw [Context.aside_content, Context.aside_stash]
    cases ctx.content.material? id with
    | none => rfl
    | some material =>
      cases ctx.stash with
      | none => rfl
      | some stash =>
        have same : quantity effect (ctx.aside limits random) = quantity effect ctx := rfl
        dsimp only
        rw [same]
        cases stash.remove id (quantity effect ctx) <;> rfl
  · rfl

theorem builtin_blind (type : EffectType) (effect : Effect) (targets : List Seat) :
    Blind (Handler.builtin type effect targets) := by
  cases type with
  | damage =>
    intro limits random ctx
    change (damageAmount effect ctx >>= _) = _ <$> (damageAmount effect ctx >>= _)
    rw [map_bind]
    exact bind_congr fun amount => forEach_blind (damageOne_blind amount) targets limits random ctx
  | heal =>
    intro limits random ctx
    exact forEach_blind (healOne_blind _ _) targets limits random ctx
  | restoreEnergy =>
    intro limits random ctx
    exact forEach_blind (restoreEnergyOne_blind _) targets limits random ctx
  | revive =>
    intro limits random ctx
    exact forEach_blind (reviveOne_blind _) targets limits random ctx
  | applyAura kind => exact applyAura_blind effect targets
  | removeAura kind => exact removeAura_blind effect targets
  | statModifier => exact statModifier_blind effect targets
  | grantMaterial => exact grantMaterial_blind effect targets
  | consumeMaterial => exact consumeMaterial_blind effect targets

theorem builtin_keeps {type : EffectType} {effect : Effect} {targets : List Seat}
    {ctx after : Context} {changes : List Change}
    (h : Handler.builtin type effect targets ctx = .ok (changes, after)) :
    after.limits = ctx.limits ∧ after.random = ctx.random := by
  have same := builtin_blind type effect targets ctx.limits ctx.random ctx
  have unmoved : ctx.aside ctx.limits ctx.random = ctx := rfl
  rw [unmoved, h] at same
  have last : after = after.aside ctx.limits ctx.random :=
    (Prod.mk.inj (Except.ok.inj same)).2
  rw [last]
  exact ⟨rfl, rfl⟩

end Handler

end Combat
