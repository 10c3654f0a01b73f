import Combat.Proofs.Action
import Combat.Resolution.Process

/-!
What resolving an effect leaves alone. Handlers change the encounter, the stash and the log, and of
the encounter only the characters on whose seats they land; such a character changes by actions of
its own.
-/

namespace Combat
open Checked

/-- Every handler in use is the one that belongs to its type. -/
def Handlers.AllBuiltin (handlers : Handlers) : Prop :=
  ∀ type handler, handlers type = some handler → handler = Handler.builtin type

theorem Handlers.builtin_allBuiltin : Handlers.builtin.AllBuiltin := by
  intro type handler h
  exact (Option.some.inj h).symm

namespace Context

/-- Between two contexts only what resolving may change is different, and of the characters only
those of the listed seats. -/
structure Evolves (targets : List Seat) (before after : Context) : Prop where
  rest : after = { before with
    encounter := after.encounter, stash := after.stash, limits := after.limits, log := after.log,
    random := after.random }
  acted : ∀ seat, (before.get seat).Becomes (after.get seat)
  others : ∀ seat, seat ∉ targets → after.get seat = before.get seat

theorem Evolves.of_encounter {targets : List Seat} {before after : Context}
    (rest : after = { before with
      encounter := after.encounter, stash := after.stash, limits := after.limits, log := after.log,
      random := after.random })
    (same : after.encounter = before.encounter) : Evolves targets before after where
  rest := rest
  acted seat := by
    rw [get, get, same]
    exact .refl _
  others seat _ := by rw [get, get, same]

theorem Evolves.refl (targets : List Seat) (ctx : Context) : Evolves targets ctx ctx :=
  .of_encounter rfl rfl

theorem Evolves.mono {small large : List Seat} {before after : Context}
    (subset : ∀ seat, seat ∈ small → seat ∈ large) (h : Evolves small before after) :
    Evolves large before after :=
  { h with others := fun seat other => h.others seat fun listed => other (subset seat listed) }

theorem Evolves.trans {early late : List Seat} {first second third : Context}
    (h₁ : Evolves early first second) (h₂ : Evolves late second third) :
    Evolves (early ++ late) first third where
  rest := by
    rw [h₂.rest, h₁.rest]
  acted seat := (h₁.acted seat).trans (h₂.acted seat)
  others seat other := by
    rw [List.mem_append, not_or] at other
    exact (h₂.others seat other.2).trans (h₁.others seat other.1)

theorem Evolves.say {targets : List Seat} {before after : Context} (message : String)
    (h : Evolves targets before after) : Evolves targets before (after.say message) where
  rest := by
    rw [h.rest]
    rfl
  acted := h.acted
  others := h.others

theorem get_setCharacter (ctx : Context) (seat other : Seat) (c : Character) :
    (ctx.setCharacter seat c).get other = if seat = other then c else ctx.get other :=
  Encounter.get_set ..

theorem get_setCharacter_self (ctx : Context) (seat : Seat) (c : Character) :
    (ctx.setCharacter seat c).get seat = c := Encounter.get_set_self ..

theorem setCharacter_get (ctx : Context) (seat : Seat) :
    ctx.setCharacter seat (ctx.get seat) = ctx := by
  have same : ctx.encounter.set seat (ctx.encounter.get seat) = ctx.encounter := by
    refine Encounter.ext_get fun other => ?_
    rw [Encounter.get_set]
    split
    · rename_i same
      rw [same]
    · rfl
  rw [setCharacter, get, same]

/-- Of two characters put into one seat the second stays. -/
theorem setCharacter_setCharacter (ctx : Context) (seat : Seat) (first second : Character) :
    (ctx.setCharacter seat first).setCharacter seat second = ctx.setCharacter seat second := by
  have same : (ctx.encounter.set seat first).set seat second = ctx.encounter.set seat second := by
    refine Encounter.ext_get fun other => ?_
    simp only [Encounter.get_set]
    split <;> rfl
  simp only [setCharacter, same]

/-- What relates a character to the one put into its seat relates the characters of every seat. -/
theorem setCharacter_relates {R : Character → Character → Prop} (refl : ∀ c, R c c) {ctx : Context}
    {target : Seat} {c : Character} (h : R (ctx.get target) c) (seat : Seat) :
    R (ctx.get seat) ((ctx.setCharacter target c).get seat) := by
  rw [get_setCharacter]
  split
  · rename_i same
    subst same
    exact h
  · exact refl _

theorem evolves_setCharacter {ctx : Context} {target : Seat} {c : Character}
    (h : (ctx.get target).Becomes c) : Evolves [target] ctx (ctx.setCharacter target c) where
  rest := rfl
  acted := setCharacter_relates .refl h
  others seat other := by
    rw [List.mem_singleton] at other
    rw [get_setCharacter, if_neg (Ne.symm other)]

end Context

/-! ### Handlers -/

namespace Handler
open Context

/-- What relates the contexts around each step relates those around all of them. -/
theorem forEach_relates {R : Context → Context → Prop} (refl : ∀ ctx, R ctx ctx)
    (trans : ∀ {first second third}, R first second → R second third → R first third)
    {step : Seat → Context → Checked (List Change × Context)}
    (each : ∀ {target ctx changes after}, step target ctx = .ok (changes, after) → R ctx after)
    {targets : List Seat} {ctx after : Context} {changes : List Change}
    (h : forEach step targets ctx = .ok (changes, after)) : R ctx after := by
  induction targets generalizing ctx changes with
  | nil =>
    obtain ⟨-, rfl⟩ := pair_ok h
    exact refl ctx
  | cons target rest ih =>
    obtain ⟨⟨_, middle⟩, first, h⟩ := bind_ok h
    obtain ⟨⟨_, last⟩, later, h⟩ := bind_ok h
    obtain ⟨-, rfl⟩ := pair_ok h
    exact trans (each first) (ih later)

theorem forEach_evolves {step : Seat → Context → Checked (List Change × Context)}
    (each : ∀ {target ctx changes after}, step target ctx = .ok (changes, after) →
      Evolves [target] ctx after)
    {targets : List Seat} {ctx after : Context} {changes : List Change}
    (h : forEach step targets ctx = .ok (changes, after)) : Evolves targets ctx after := by
  induction targets generalizing ctx changes with
  | nil =>
    obtain ⟨-, rfl⟩ := pair_ok h
    exact .refl ..
  | cons target rest ih =>
    obtain ⟨⟨_, middle⟩, first, h⟩ := bind_ok h
    obtain ⟨⟨_, last⟩, later, h⟩ := bind_ok h
    obtain ⟨-, rfl⟩ := pair_ok h
    exact (each first).trans (ih later)

theorem damageOne_evolves {amount : Int} {target : Seat} {ctx after : Context}
    {changes : List Change} (h : damageOne amount target ctx = .ok (changes, after)) :
    Evolves [target] ctx after := by
  unfold damageOne at h
  obtain ⟨⟨blow, c⟩, taken, h⟩ := bind_ok h
  have becomes : (ctx.get target).Becomes c :=
    .single (Character.Action.takeDamage amount ctx.damageSource) (snd_ok taken)
  obtain ⟨-, rfl⟩ := pair_ok h
  split
  · exact ((evolves_setCharacter becomes).say _).say _
  · exact (evolves_setCharacter becomes).say _

theorem healOne_evolves {mode : HealMode} {amount : Int} {target : Seat} {ctx after : Context}
    {changes : List Change} (h : healOne mode amount target ctx = .ok (changes, after)) :
    Evolves [target] ctx after := by
  unfold healOne at h
  obtain ⟨value, _, h⟩ := bind_ok h
  obtain ⟨⟨healed, c⟩, restored, h⟩ := bind_ok h
  have becomes : (ctx.get target).Becomes c :=
    .single (Character.Action.heal value) (snd_ok restored)
  obtain ⟨-, rfl⟩ := pair_ok h
  split
  · exact (evolves_setCharacter becomes).say _
  · exact evolves_setCharacter becomes

theorem restoreEnergyOne_evolves {amount : Int} {target : Seat} {ctx after : Context}
    {changes : List Change} (h : restoreEnergyOne amount target ctx = .ok (changes, after)) :
    Evolves [target] ctx after := by
  unfold restoreEnergyOne at h
  obtain ⟨⟨restored, c⟩, done, h⟩ := bind_ok h
  obtain ⟨-, rfl⟩ := pair_ok h
  exact evolves_setCharacter (.single (Character.Action.restoreEnergy amount) (snd_ok done))

theorem reviveOne_evolves {percent : Int} {target : Seat} {ctx after : Context}
    {changes : List Change} (h : reviveOne percent target ctx = .ok (changes, after)) :
    Evolves [target] ctx after := by
  unfold reviveOne at h
  obtain ⟨⟨revived, c⟩, done, h⟩ := bind_ok h
  have becomes : (ctx.get target).Becomes c :=
    .single (Character.Action.revive percent) (snd_ok done)
  cases revived with
  | none =>
    obtain ⟨-, rfl⟩ := pair_ok h
    exact .refl ..
  | some hitpoints =>
    obtain ⟨-, rfl⟩ := pair_ok h
    exact (evolves_setCharacter becomes).say _

theorem applyOne_evolves {held : RegisteredAura} {application : AuraApplication} {target : Seat}
    {ctx after : Context} {changes : List Change}
    (h : applyOne held application target ctx = .ok (changes, after)) :
    Evolves [target] ctx after := by
  unfold applyOne at h
  obtain ⟨⟨added, c⟩, done, h⟩ := bind_ok h
  have becomes : (ctx.get target).Becomes c :=
    Character.withAuras_becomes
      (fun changed => .single (AuraSlots.Action.add held application) (snd_ok changed)) done
  cases added with
  | none =>
    obtain ⟨-, rfl⟩ := pair_ok h
    exact evolves_setCharacter becomes
  | some slot =>
    obtain ⟨stackCount, _, h⟩ := bind_ok h
    obtain ⟨-, rfl⟩ := pair_ok h
    exact (evolves_setCharacter becomes).say _

theorem removeOne_evolves {id : String} {count : Option Count} {target : Seat}
    {ctx after : Context} {changes : List Change}
    (h : removeOne id count target ctx = .ok (changes, after)) : Evolves [target] ctx after := by
  unfold removeOne at h
  obtain ⟨⟨removed, c⟩, done, h⟩ := bind_ok h
  have becomes : (ctx.get target).Becomes c := by
    refine Character.withAuras_becomes (fun changed => ?_) done
    cases count with
    | none => exact .single (AuraSlots.Action.remove id) (snd_ok changed)
    | some count => exact .single (AuraSlots.Action.removeStacks id count) (snd_ok changed)
  cases removed with
  | true =>
    obtain ⟨-, rfl⟩ := pair_ok h
    exact (evolves_setCharacter becomes).say _
  | false =>
    obtain ⟨-, rfl⟩ := pair_ok h
    exact evolves_setCharacter becomes

theorem grantMaterial_ok {effect : Effect} {targets : List Seat} {ctx after : Context}
    {changes : List Change} (h : grantMaterial effect targets ctx = .ok (changes, after)) :
    (changes = [] ∧ after = ctx) ∨
      ∃ id material stash, ctx.content.material? id = some material ∧ ctx.stash = some stash ∧
        (quantity effect ctx).val ≠ 0 ∧ changes = [.materialGranted id (quantity effect ctx)] ∧
        after = { ctx with stash := some (stash.add id (quantity effect ctx)) }.say
          s!"Gained {(quantity effect ctx).val} {material.name}" := by
  unfold grantMaterial at h
  split at h
  · rename_i id _
    split at h
    · rename_i material stash known held
      dsimp only at h
      split at h
      · obtain ⟨rfl, rfl⟩ := pair_ok h
        exact .inl ⟨rfl, rfl⟩
      · rename_i positive
        obtain ⟨rfl, rfl⟩ := pair_ok h
        exact .inr ⟨id, material, stash, known, held, positive, rfl, rfl⟩
    · obtain ⟨rfl, rfl⟩ := pair_ok h
      exact .inl ⟨rfl, rfl⟩
  · obtain ⟨rfl, rfl⟩ := pair_ok h
    exact .inl ⟨rfl, rfl⟩

theorem consumeMaterial_ok {effect : Effect} {targets : List Seat} {ctx after : Context}
    {changes : List Change} (h : consumeMaterial effect targets ctx = .ok (changes, after)) :
    (changes = [] ∧ after = ctx) ∨
      ∃ id material stash left, ctx.content.material? id = some material ∧
        ctx.stash = some stash ∧ stash.remove id (quantity effect ctx) = .ok left ∧
        changes = [.materialConsumed id (quantity effect ctx)] ∧
        after = { ctx with stash := some left }.say
          s!"Used {(quantity effect ctx).val} {material.name}" := by
  unfold consumeMaterial at h
  split at h
  · rename_i id _
    split at h
    · rename_i material stash known held
      dsimp only at h
      split at h
      · rename_i left removed
        obtain ⟨rfl, rfl⟩ := pair_ok h
        exact .inr ⟨id, material, stash, left, known, held, removed, rfl, rfl⟩
      · obtain ⟨rfl, rfl⟩ := pair_ok h
        exact .inl ⟨rfl, rfl⟩
    · obtain ⟨rfl, rfl⟩ := pair_ok h
      exact .inl ⟨rfl, rfl⟩
  · obtain ⟨rfl, rfl⟩ := pair_ok h
    exact .inl ⟨rfl, rfl⟩

/-- What a modifier would be is only said. -/
theorem statModifier_ok {effect : Effect} {targets : List Seat} {ctx after : Context}
    {changes : List Change} (h : statModifier effect targets ctx = .ok (changes, after)) :
    (changes = [] ∨ ∃ stat percent, changes = [.statModifier stat (ctx.amount effect) percent]) ∧
      after = ctx := by
  unfold statModifier at h
  split at h
  · rename_i stat percent _
    split at h
    · obtain ⟨rfl, rfl⟩ := pair_ok h
      exact ⟨.inr ⟨stat, percent, rfl⟩, rfl⟩
    · obtain ⟨rfl, rfl⟩ := pair_ok h
      exact ⟨.inl rfl, rfl⟩
  · obtain ⟨rfl, rfl⟩ := pair_ok h
    exact ⟨.inl rfl, rfl⟩

theorem applyAura_evolves {effect : Effect} {targets : List Seat} {ctx after : Context}
    {changes : List Change} (h : applyAura effect targets ctx = .ok (changes, after)) :
    Evolves targets ctx after := by
  unfold applyAura at h
  split at h
  · split at h
    · exact forEach_evolves applyOne_evolves h
    · obtain ⟨-, rfl⟩ := pair_ok h
      exact .refl ..
  · obtain ⟨-, rfl⟩ := pair_ok h
    exact .refl ..

theorem removeAura_evolves {effect : Effect} {targets : List Seat} {ctx after : Context}
    {changes : List Change} (h : removeAura effect targets ctx = .ok (changes, after)) :
    Evolves targets ctx after := by
  unfold removeAura at h
  split at h
  · split at h
    · exact forEach_evolves removeOne_evolves h
    · obtain ⟨-, rfl⟩ := pair_ok h
      exact .refl ..
  · obtain ⟨-, rfl⟩ := pair_ok h
    exact .refl ..

theorem builtin_evolves {type : EffectType} {effect : Effect} {targets : List Seat}
    {ctx after : Context} {changes : List Change}
    (h : Handler.builtin type effect targets ctx = .ok (changes, after)) :
    Evolves targets ctx after := by
  cases type with
  | damage =>
    obtain ⟨amount, _, h⟩ := bind_ok h
    exact forEach_evolves damageOne_evolves h
  | heal => exact forEach_evolves healOne_evolves h
  | restoreEnergy => exact forEach_evolves restoreEnergyOne_evolves h
  | revive => exact forEach_evolves reviveOne_evolves h
  | applyAura kind => exact applyAura_evolves h
  | removeAura kind => exact removeAura_evolves h
  | statModifier =>
    change Handler.statModifier effect targets ctx = _ at h
    obtain ⟨-, rfl⟩ := statModifier_ok h
    exact .refl ..
  | grantMaterial =>
    change Handler.grantMaterial effect targets ctx = _ at h
    obtain ⟨-, rfl⟩ | ⟨_, _, _, _, _, _, _, rfl⟩ := grantMaterial_ok h
    · exact .refl ..
    · exact .of_encounter rfl rfl
  | consumeMaterial =>
    change Handler.consumeMaterial effect targets ctx = _ at h
    obtain ⟨-, rfl⟩ | ⟨_, _, _, _, _, _, _, _, rfl⟩ := consumeMaterial_ok h
    · exact .refl ..
    · exact .of_encounter rfl rfl

end Handler

/-! ### Resolving one effect -/

namespace Context

/-- Whom an effect of the type lands on, and the context once they are found. -/
def seek (ctx : Context) (type : EffectType) (effect : Effect) : List Seat × Context :=
  if type.targetsCharacters then ctx.resolveTargets effect else ([], ctx)

theorem seek_rest (ctx : Context) (type : EffectType) (effect : Effect) :
    (ctx.seek type effect).2 = { ctx with random := (ctx.seek type effect).2.random } := by
  unfold seek
  split <;> rfl

theorem seek_get (ctx : Context) (type : EffectType) (effect : Effect) (seat : Seat) :
    (ctx.seek type effect).2.get seat = ctx.get seat := by
  rw [seek_rest]
  rfl

theorem recordUse_rest {ctx after : Context} {effect : Effect} {source : String}
    (h : ctx.recordUse effect source = .ok after) :
    after = { ctx with limits := after.limits } := by
  unfold recordUse at h
  split at h
  · obtain ⟨_, _, h⟩ := bind_ok h
    obtain rfl := pure_ok h
    rfl
  · obtain rfl := pure_ok h
    rfl

theorem recordUse_unlimited {ctx : Context} (unlimited : ctx.limits = none)
    (effect : Effect) (source : String) : ctx.recordUse effect source = .ok ctx := by
  rw [recordUse, unlimited]
  rfl

theorem isBlocked_unlimited {ctx : Context} (unlimited : ctx.limits = none)
    (effect : Effect) (source : String) : ctx.isBlocked effect source = false := by
  rw [isBlocked, unlimited]

theorem recordUse_get {ctx after : Context} {effect : Effect} {source : String}
    (h : ctx.recordUse effect source = .ok after) (seat : Seat) :
    after.get seat = ctx.get seat := by
  rw [recordUse_rest h]
  rfl

end Context

inductive Resolution (handlers : Handlers) (effect : Effect) (ctx : Context) :
    Option Outcome → Context → Prop where
  /-- Its type is unknown or has no handler. -/
  | unhandled (unknown : effect.type?.bind handlers = none) :
    Resolution handlers effect ctx none ctx
  | blocked {type : EffectType} {handler : Handler} (typed : effect.type? = some type)
    (handled : handlers type = some handler)
    (spent : ctx.isBlocked effect ctx.sourceKey = true) :
    Resolution handlers effect ctx (some (.blockedBy type)) ctx
  | resolved {type : EffectType} {handler : Handler} {changes : List Change}
    {handled after : Context} (typed : effect.type? = some type)
    (known : handlers type = some handler)
    (free : ctx.isBlocked effect ctx.sourceKey = false)
    (handling : handler effect (ctx.seek type effect).1 (ctx.seek type effect).2 =
      .ok (changes, handled))
    (counted : handled.recordUse effect ctx.sourceKey = .ok after) :
    Resolution handlers effect ctx
      (some { type, targets := (ctx.seek type effect).1, changes }) after

theorem process_resolution {handlers : Handlers} {effect : Effect} {ctx after : Context}
    {outcome : Option Outcome} (h : process handlers effect ctx = .ok (outcome, after)) :
    Resolution handlers effect ctx outcome after := by
  unfold process at h
  split at h
  · rename_i untyped
    obtain ⟨rfl, rfl⟩ := pair_ok h
    exact .unhandled (by rw [untyped]; rfl)
  · rename_i type typed
    split at h
    · rename_i unknown
      obtain ⟨rfl, rfl⟩ := pair_ok h
      exact .unhandled (by rw [typed]; exact unknown)
    · rename_i handler known
      dsimp only at h
      split at h
      · rename_i spent
        obtain ⟨rfl, rfl⟩ := pair_ok h
        exact .blocked typed known spent
      · rename_i free
        obtain ⟨⟨changes, handled⟩, handling, h⟩ := bind_ok h
        obtain ⟨last, counted, h⟩ := bind_ok h
        obtain ⟨rfl, rfl⟩ := pair_ok h
        exact .resolved typed known (Bool.eq_false_iff.mpr free) handling counted

/-- Whom an effect did not list it left alone, and the rest is as it was up to what resolving may
change. -/
theorem process_evolves {handlers : Handlers} {effect : Effect} {ctx after : Context}
    {outcome : Option Outcome} (builtin : handlers.AllBuiltin)
    (h : process handlers effect ctx = .ok (outcome, after)) :
    Context.Evolves (outcome.toList.flatMap (·.targets)) ctx after := by
  cases process_resolution h with
  | unhandled => exact .refl ..
  | blocked => exact .refl ..
  | @resolved type _ _ handled _ typed known free handling counted =>
    obtain rfl := builtin _ _ known
    have sought : Context.Evolves [] ctx (ctx.seek type effect).2 :=
      .of_encounter (by rw [Context.seek_rest]) (by rw [Context.seek_rest])
    have recorded : Context.Evolves [] handled after :=
      .of_encounter (by rw [Context.recordUse_rest counted])
        (by rw [Context.recordUse_rest counted])
    have evolved := (sought.trans (Handler.builtin_evolves handling)).trans recorded
    simpa using evolved

theorem process_unlimited {handlers : Handlers} {effect : Effect} {ctx after : Context}
    {outcome : Outcome} (unlimited : ctx.limits = none)
    (h : process handlers effect ctx = .ok (some outcome, after)) : outcome.blocked = false := by
  cases process_resolution h with
  | blocked _ _ spent =>
    unfold Context.isBlocked at spent
    rw [unlimited] at spent
    exact absurd spent Bool.false_ne_true
  | resolved => rfl

theorem process_type {handlers : Handlers} {effect : Effect} {ctx after : Context}
    {outcome : Outcome} (h : process handlers effect ctx = .ok (some outcome, after)) :
    effect.type? = some outcome.type := by
  cases process_resolution h with
  | blocked typed => exact typed
  | resolved typed => exact typed

end Combat
