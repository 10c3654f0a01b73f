import Combat.Proofs.Bounds
import Combat.Proofs.Limits.Tracker
import Combat.Proofs.Resolution.Account

/-!
Room for effects and passes. Among characters that leave room for arithmetic, an effect whose amount
is small and whose aura can be borne is resolved without a fault, a pass of such effects goes
through, and both leave as much room as they found.
-/

namespace Combat
open Checked

/-! ### Contexts -/

def Context.Modest (ctx : Context) : Prop := ∀ seat, (ctx.get seat).Modest

namespace Context

theorem Modest.of_encounter {ctx other : Context} (modest : ctx.Modest)
    (same : other.encounter = ctx.encounter) : other.Modest := by
  intro seat
  rw [get, same]
  exact modest seat

theorem Modest.set {ctx : Context} (modest : ctx.Modest) (seat : Seat) {c : Character}
    (fits : c.Modest) : (ctx.setCharacter seat c).Modest := by
  intro other
  rw [get_setCharacter]
  split
  · exact fits
  · exact modest other

theorem Modest.source {ctx : Context} (modest : ctx.Modest) (stat : String) :
    ((ctx.sourceStats.map fun stats => StatBlock.value stats stat).getD 0).natAbs ≤ 2 ^ 30 := by
  unfold sourceStats sourceCharacter Encounter.occupant
  cases ctx.source with
  | none => exact Nat.zero_le _
  | some seat =>
    rw [Option.map_some, Option.filter_some]
    split
    · exact (modest seat).stats stat
    · exact Nat.zero_le _

end Context

/-- Whether it acts on hitpoints or energy. -/
def Effect.isVital (effect : Effect) : Bool :=
  match effect.kind with
  | .damage _ | .heal _ | .restoreEnergy | .revive => true
  | _ => false

/-- Each of the targets can bear the aura that the effect applies, if it applies one. -/
def Context.BearsAura (ctx : Context) (effect : Effect) (targets : List Seat) : Prop :=
  ∀ kind id held, effect.kind = .applyAura kind id →
    ctx.content.auras.lookup kind id = some held →
    ∀ target ∈ targets, ((ctx.get target).wearing (AuraSlots.apply held
      (Handler.application effect ctx) (ctx.get target).auras.slots).2).Bearable

/-- What resolving the effect needs of the context: a small amount of hitpoints or energy, and
targets that can bear its aura. -/
structure Context.Bears (ctx : Context) (effect : Effect) : Prop where
  amount : effect.isVital = true → (ctx.amount effect).natAbs ≤ 2 ^ 30
  aura : ∀ type, effect.type? = some type → ctx.BearsAura effect (ctx.seek type effect).1

/-! ### Handlers -/

namespace Handler

theorem forEach_finishes (step : Seat → Context → Checked (List Change × Context))
    {P : List Seat → Context → Prop}
    (each : ∀ target rest ctx, P (target :: rest) ctx →
      ∃ changes after, step target ctx = .ok (changes, after) ∧ P rest after)
    {targets : List Seat} {ctx : Context} (start : P targets ctx) :
    ∃ changes after, forEach step targets ctx = .ok (changes, after) ∧ P [] after := by
  induction targets generalizing ctx with
  | nil => exact ⟨[], ctx, rfl, start⟩
  | cons target rest ih =>
    obtain ⟨changes, middle, first, still⟩ := each target rest ctx start
    obtain ⟨more, after, later, last⟩ := ih still
    refine ⟨changes ++ more, after, ?_, last⟩
    unfold forEach
    rw [first]
    change (forEach step rest middle >>= _) = _
    rw [later]
    rfl

theorem forEach_modest {step : Seat → Context → Checked (List Change × Context)}
    (each : ∀ target ctx, ctx.Modest →
      ∃ changes after, step target ctx = .ok (changes, after) ∧ after.Modest)
    {targets : List Seat} {ctx : Context} (modest : ctx.Modest) :
    ∃ changes after, forEach step targets ctx = .ok (changes, after) ∧ after.Modest := by
  exact forEach_finishes step (P := fun _ ctx => ctx.Modest) (fun target _ => each target) modest

theorem percentOf_within {value percent : Int} (low : value.natAbs ≤ 2 ^ 31)
    (small : percent.natAbs ≤ 2 ^ 30) :
    ∃ share, percentOf value percent = .ok share ∧ share ≤ 2 ^ 62 := by
  have product : (value * percent).natAbs ≤ 2 ^ 61 := by
    rw [Int.natAbs_mul]
    exact Nat.le_trans (Nat.mul_le_mul low small) (by decide)
  obtain ⟨whole, multiplied⟩ : (Checked.mul value percent).Finishes := by
    apply finishes_int.mpr
    unfold least greatest
    omega
  have exact := mul_ok multiplied
  refine ⟨whole / 100, ?_, ?_⟩
  · unfold percentOf
    rw [multiplied]
    rfl
  · rw [← exact] at product
    omega

section
variable {ctx : Context} (modest : ctx.Modest)
include modest

theorem damageOne_modest {amount : Int} (small : amount ≤ 2 ^ 62) (target : Seat) :
    ∃ changes after, damageOne amount target ctx = .ok (changes, after) ∧ after.Modest := by
  obtain ⟨blow, c, taken, kept⟩ := (modest target).takeDamage small ctx.damageSource
  unfold damageOne
  dsimp only
  rw [taken]
  refine ⟨_, _, rfl, (modest.set target kept).of_encounter ?_⟩
  dsimp only
  split <;> rfl

theorem healAmount_within (mode : HealMode) {amount : Int} (small : amount.natAbs ≤ 2 ^ 30)
    (target : Seat) :
    ∃ value, healAmount mode amount (ctx.get target) = .ok value ∧ value ≤ 2 ^ 62 := by
  have hitpoints := (modest target).hitpoints
  have maximum := (modest target).maxHitpoints
  cases mode with
  | flat => exact ⟨amount, rfl, by omega⟩
  | missingHitpoints =>
    obtain ⟨missing, subtracted⟩ : (Checked.sub (ctx.get target).maxHitpoints
        (ctx.get target).hitpoints).Finishes := by
      apply finishes_int.mpr
      unfold least greatest
      omega
    have exact := sub_ok subtracted
    unfold healAmount
    rw [subtracted]
    exact percentOf_within (by omega) small
  | greatestHitpoints => exact percentOf_within (by omega) small

theorem healOne_modest (mode : HealMode) {amount : Int} (small : amount.natAbs ≤ 2 ^ 30)
    (target : Seat) :
    ∃ changes after, healOne mode amount target ctx = .ok (changes, after) ∧ after.Modest := by
  obtain ⟨value, worked, bounded⟩ := healAmount_within modest mode small target
  obtain ⟨healed, c, restored, kept⟩ := (modest target).heal bounded
  unfold healOne
  dsimp only
  rw [worked]
  change ∃ changes after, ((ctx.get target).heal value >>= _) = _ ∧ _
  rw [restored]
  refine ⟨_, _, rfl, (modest.set target kept).of_encounter ?_⟩
  dsimp only
  split <;> rfl

theorem restoreEnergyOne_modest {amount : Int} (small : amount.natAbs ≤ 2 ^ 30) (target : Seat) :
    ∃ changes after, restoreEnergyOne amount target ctx = .ok (changes, after) ∧
      after.Modest := by
  obtain ⟨restored, c, done, kept⟩ := (modest target).restoreEnergy small
  unfold restoreEnergyOne
  rw [done]
  exact ⟨_, _, rfl, modest.set target kept⟩

theorem reviveOne_modest {percent : Int} (small : percent.natAbs ≤ 2 ^ 30) (target : Seat) :
    ∃ changes after, reviveOne percent target ctx = .ok (changes, after) ∧ after.Modest := by
  obtain ⟨revived, c, done, kept⟩ := (modest target).revive small
  unfold reviveOne
  rw [done]
  cases revived with
  | none => exact ⟨_, _, rfl, modest⟩
  | some hitpoints => exact ⟨_, _, rfl, (modest.set target kept).of_encounter rfl⟩

theorem applyOne_modest {held : RegisteredAura} {application : AuraApplication} {target : Seat}
    (bearable : ((ctx.get target).wearing
      (AuraSlots.apply held application (ctx.get target).auras.slots).2).Bearable) :
    ∃ changes after, applyOne held application target ctx = .ok (changes, after) ∧
      after.Modest ∧ ∀ other, other ≠ target → after.get other = ctx.get other := by
  obtain ⟨added, c, worked, kept⟩ := (modest target).add bearable
  have apart : ∀ other, other ≠ target → (ctx.setCharacter target c).get other = ctx.get other := by
    intro other ne
    rw [Context.get_setCharacter, if_neg (Ne.symm ne)]
  unfold applyOne
  rw [worked]
  cases added with
  | none => exact ⟨_, _, rfl, modest.set target kept, apart⟩
  | some slot =>
    obtain ⟨stackCount, summed⟩ := kept.stacksOf held.id
    change ∃ changes after, (c.auras.stacksOf held.id >>= _) = _ ∧ _
    rw [summed]
    exact ⟨_, _, rfl, (modest.set target kept).of_encounter rfl, apart⟩

theorem removeOne_modest (id : String) (count : Option Count) (target : Seat) :
    ∃ changes after, removeOne id count target ctx = .ok (changes, after) ∧ after.Modest := by
  unfold removeOne
  cases count with
  | none =>
    obtain ⟨removed, c, worked, kept⟩ := (modest target).remove id
    dsimp only
    rw [worked]
    cases removed <;> exact ⟨_, _, rfl, (modest.set target kept).of_encounter rfl⟩
  | some count =>
    obtain ⟨removed, c, worked, kept⟩ := (modest target).removeStacks id count
    dsimp only
    rw [worked]
    cases removed <;> exact ⟨_, _, rfl, (modest.set target kept).of_encounter rfl⟩

end

/-- The invariant: those who are still to be served are as they were, and each bears the aura. -/
theorem applyAll_modest {held : RegisteredAura} {application : AuraApplication}
    {targets : List Seat} {ctx : Context} (modest : ctx.Modest) (distinct : targets.Nodup)
    (bearable : ∀ target ∈ targets, ((ctx.get target).wearing
      (AuraSlots.apply held application (ctx.get target).auras.slots).2).Bearable) :
    ∃ changes after, forEach (applyOne held application) targets ctx = .ok (changes, after) ∧
      after.Modest := by
  have each : ∀ target rest ctx, (ctx.Modest ∧ (target :: rest).Nodup ∧
      ∀ other ∈ target :: rest, ((ctx.get other).wearing
        (AuraSlots.apply held application (ctx.get other).auras.slots).2).Bearable) →
      ∃ changes after, applyOne held application target ctx = .ok (changes, after) ∧
        after.Modest ∧ rest.Nodup ∧ ∀ other ∈ rest, ((after.get other).wearing
          (AuraSlots.apply held application (after.get other).auras.slots).2).Bearable := by
    rintro target rest ctx ⟨modest, distinct, bearable⟩
    obtain ⟨apart, distinct⟩ := List.nodup_cons.mp distinct
    obtain ⟨changes, after, worked, kept, same⟩ :=
      applyOne_modest modest (bearable target List.mem_cons_self)
    -- The one served is not served again, so the rest still are as they were at the start.
    refine ⟨changes, after, worked, kept, distinct, fun other member => ?_⟩
    rw [same other fun equal => apart (equal ▸ member)]
    exact bearable other (List.mem_cons_of_mem _ member)
  obtain ⟨changes, after, served, kept, -⟩ := forEach_finishes (applyOne held application)
    (P := fun rest ctx => ctx.Modest ∧ rest.Nodup ∧ ∀ other ∈ rest, ((ctx.get other).wearing
      (AuraSlots.apply held application (ctx.get other).auras.slots).2).Bearable)
    each ⟨modest, distinct, bearable⟩
  exact ⟨changes, after, served, kept⟩

section
variable {effect : Effect} {targets : List Seat} {ctx : Context} (modest : ctx.Modest)
include modest

theorem damage_modest (small : (ctx.amount effect).natAbs ≤ 2 ^ 30) :
    ∃ changes after, damage effect targets ctx = .ok (changes, after) ∧ after.Modest := by
  have amount : ∃ value, damageAmount effect ctx = .ok value ∧ value ≤ 2 ^ 62 := by
    unfold damageAmount
    split
    · rename_i stat _
      have low := modest.source stat
      exact percentOf_within (by omega) small
    · exact ⟨_, rfl, by omega⟩
  obtain ⟨value, worked, bounded⟩ := amount
  unfold damage
  rw [worked]
  exact forEach_modest (fun target ctx modest => damageOne_modest modest bounded target) modest

theorem applyAura_modest (distinct : targets.Nodup) (bearable : ctx.BearsAura effect targets) :
    ∃ changes after, applyAura effect targets ctx = .ok (changes, after) ∧ after.Modest := by
  unfold applyAura
  split
  · rename_i kind id applies
    cases known : ctx.content.auras.lookup kind id with
    | none => exact ⟨_, _, rfl, modest⟩
    | some held => exact applyAll_modest modest distinct (bearable kind id held applies known)
  · exact ⟨_, _, rfl, modest⟩

theorem removeAura_modest :
    ∃ changes after, removeAura effect targets ctx = .ok (changes, after) ∧ after.Modest := by
  unfold removeAura
  split
  · rename_i kind id _
    cases ctx.content.auras.lookup kind id with
    | none => exact ⟨_, _, rfl, modest⟩
    | some held =>
      exact forEach_modest (fun target ctx modest => removeOne_modest modest id _ target) modest
  · exact ⟨_, _, rfl, modest⟩

theorem statModifier_modest (targets : List Seat) :
    ∃ changes after, statModifier effect targets ctx = .ok (changes, after) ∧ after.Modest := by
  unfold statModifier
  split
  · split <;> exact ⟨_, _, rfl, modest⟩
  · exact ⟨_, _, rfl, modest⟩

theorem grantMaterial_modest (targets : List Seat) :
    ∃ changes after, grantMaterial effect targets ctx = .ok (changes, after) ∧ after.Modest := by
  unfold grantMaterial
  split
  · split
    · dsimp only
      split
      · exact ⟨_, _, rfl, modest⟩
      · exact ⟨_, _, rfl, modest.of_encounter rfl⟩
    · exact ⟨_, _, rfl, modest⟩
  · exact ⟨_, _, rfl, modest⟩

theorem consumeMaterial_modest (targets : List Seat) :
    ∃ changes after, consumeMaterial effect targets ctx = .ok (changes, after) ∧ after.Modest := by
  unfold consumeMaterial
  split
  · split
    · dsimp only
      split
      · exact ⟨_, _, rfl, modest.of_encounter rfl⟩
      · exact ⟨_, _, rfl, modest⟩
    · exact ⟨_, _, rfl, modest⟩
  · exact ⟨_, _, rfl, modest⟩

theorem builtin_modest {type : EffectType} (typed : effect.type? = some type)
    (distinct : targets.Nodup)
    (small : effect.isVital = true → (ctx.amount effect).natAbs ≤ 2 ^ 30)
    (bearable : ctx.BearsAura effect targets) :
    ∃ changes after, Handler.builtin type effect targets ctx = .ok (changes, after) ∧
      after.Modest := by
  have vital : (type = .damage ∨ type = .heal ∨ type = .restoreEnergy ∨ type = .revive) →
      (ctx.amount effect).natAbs ≤ 2 ^ 30 := by
    intro acts
    apply small
    revert typed
    unfold Effect.type? Effect.isVital
    cases effect.kind <;> rintro ⟨⟩ <;> simp_all
  cases type with
  | damage => exact damage_modest modest (vital (by simp))
  | heal =>
    exact forEach_modest (fun target ctx modest => healOne_modest modest _ (vital (by simp)) target)
      modest
  | restoreEnergy =>
    exact forEach_modest
      (fun target ctx modest => restoreEnergyOne_modest modest (vital (by simp)) target) modest
  | revive =>
    exact forEach_modest (fun target ctx modest => reviveOne_modest modest (vital (by simp)) target)
      modest
  | applyAura kind => exact applyAura_modest modest distinct bearable
  | removeAura kind => exact removeAura_modest modest
  | statModifier => exact statModifier_modest modest targets
  | grantMaterial => exact grantMaterial_modest modest targets
  | consumeMaterial => exact consumeMaterial_modest modest targets

end
end Handler

/-! ### Effects -/

theorem process_modest {handlers : Handlers} (builtin : handlers.AllBuiltin) {effect : Effect}
    {ctx : Context} (modest : ctx.Modest) (bears : ctx.Bears effect) :
    ∃ outcome after, process handlers effect ctx = .ok (outcome, after) ∧ after.Modest := by
  cases typed : effect.type? with
  | none => exact ⟨none, ctx, by rw [process, typed]; rfl, modest⟩
  | some type =>
    cases known : handlers type with
    | none => exact ⟨none, ctx, by rw [process, typed]; dsimp only; rw [known]; rfl, modest⟩
    | some handler =>
      obtain rfl := builtin type handler known
      rw [process_handled typed known]
      by_cases spent : ctx.isBlocked effect ctx.sourceKey = true
      · rw [if_pos spent]
        exact ⟨_, _, rfl, modest⟩
      · rw [if_neg spent]
        have sought : (ctx.seek type effect).2.Modest :=
          modest.of_encounter (by rw [Context.seek_rest])
        have small : effect.isVital = true →
            ((ctx.seek type effect).2.amount effect).natAbs ≤ 2 ^ 30 := by
          rw [Context.seek_rest]
          exact bears.amount
        have bearable : (ctx.seek type effect).2.BearsAura effect (ctx.seek type effect).1 := by
          rw [Context.seek_rest]
          exact bears.aura type typed
        obtain ⟨changes, handled, handling, kept⟩ :=
          Handler.builtin_modest sought typed (Context.seek_nodup ..) small bearable
        -- A use that the limit let through still counts: no handler touches the counters.
        have limits : handled.limits = ctx.limits := by
          rw [(Handler.builtin_keeps handling).1, Context.seek_rest]
        have free : handled.isBlocked effect ctx.sourceKey = false := by
          rw [Context.isBlocked_eq_false, limits, ← Context.isBlocked_eq_false]
          exact Bool.eq_false_iff.mpr spent
        obtain ⟨after, recorded⟩ := Context.recordUse_ok free
        rw [handling]
        change ∃ outcome last, (handled.recordUse effect ctx.sourceKey >>= _) = _ ∧ _
        rw [recorded]
        exact ⟨_, _, rfl, kept.of_encounter (by rw [Context.recordUse_rest recorded])⟩

/-! ### Passes -/

namespace AuraPass

/-- What the turn of an effect needs that fires from a slot: the slot can be borne once the effect
has drawn from it, and what was drawn can be resolved. -/
structure Bears (owner : Seat) (queued : QueuedEffect) (slot : AuraSlot) (ctx : Context) :
    Prop where
  drained : ((ctx.get owner).wearing ((ctx.get owner).auras.slots.set queued.slot
    (slot.draw queued.effect (queued.effect.amountValue
      (some (scalingStats owner slot ctx)))).2)).Bearable
  resolved : ∀ drawn c, (ctx.get owner).withAuras (·.draw queued.slot queued.effect
      (queued.effect.amountValue (some (scalingStats owner slot ctx)))) = .ok (drawn, c) →
    (opened owner slot c ctx).Bears (fired queued.effect slot.amount.isSome drawn)

section
variable {handlers : Handlers} {owner : Seat} {source : String} {queued : QueuedEffect}
  {ctx : Context} (modest : ctx.Modest)
include modest

theorem consume_modest (owner : Seat) (queued : QueuedEffect) (count : Count) :
    ∃ after, consume owner queued count ctx = .ok after ∧ after.Modest := by
  obtain ⟨c, worked, kept⟩ : ∃ c, (ctx.get owner).withAuras (spend queued count) = .ok ((), c) ∧
      c.Modest := by
    cases here : (ctx.get owner).auras.slots[queued.slot]? with
    | none => exact (modest owner).unchanged (by rw [spend, here]; rfl)
    | some slot =>
      by_cases still : queued.isFrom slot = true
      · obtain ⟨slots, removed, bearable⟩ := (modest owner).removeStacksAt queued.slot count
        refine (modest owner).withAuras bearable ?_
        rw [spend, here]
        dsimp only
        rw [if_pos still, removed]
        rfl
      · refine (modest owner).unchanged ?_
        rw [spend, here]
        dsimp only
        rw [if_neg still]
        rfl
  rw [consume_eq, worked]
  exact ⟨_, rfl, modest.set owner kept⟩

theorem settle_modest {limits : Option LimitTracker} (count : Count) (outcome : Option Outcome)
    (free : ∀ tracker, limits = some tracker → tracker.canFire queued.effect source = true) :
    ∃ outcomes after, settle owner source queued count limits outcome ctx = .ok (outcomes, after) ∧
      after.Modest := by
  have counting : ∃ counted, (if outcome.isSome then
      Context.recordUse { ctx with limits, credited := none } queued.effect source
    else pure { ctx with limits, credited := none }) = .ok counted ∧ counted.Modest := by
    split
    · have unblocked : Context.isBlocked { ctx with limits, credited := none } queued.effect
          source = false := Context.isBlocked_eq_false.mpr free
      obtain ⟨counted, recorded⟩ := Context.recordUse_ok unblocked
      exact ⟨counted, recorded, modest.of_encounter (by rw [Context.recordUse_rest recorded])⟩
    · exact ⟨_, rfl, modest.of_encounter rfl⟩
  obtain ⟨counted, counting, kept⟩ := counting
  unfold settle
  dsimp only
  rw [ite_bind, counting]
  change ∃ outcomes after, (if queued.effect.consume = true then
    consume owner queued count counted >>= _ else _) = _ ∧ _
  split
  · obtain ⟨last, consumed, left⟩ := consume_modest kept owner queued count
    rw [consumed]
    exact ⟨_, _, rfl, left⟩
  · exact ⟨_, _, rfl, kept⟩

theorem fire_modest {slot : AuraSlot} (builtin : handlers.AllBuiltin)
    (here : (ctx.get owner).auras.slots[queued.slot]? = some slot)
    (waits : queued.isFrom slot = true) (free : ctx.isBlocked queued.effect source = false)
    (bears : Bears owner queued slot ctx) :
    ∃ outcomes after, fire handlers owner source queued slot ctx = .ok (outcomes, after) ∧
      after.Modest := by
  have active : slot.isActive = true := (Bool.and_eq_true_iff.mp waits).1
  obtain ⟨drained, drew, kept⟩ := (modest owner).draw here active bears.drained
  obtain ⟨outcome, resolved, resolving, left⟩ := process_modest builtin
    (show (opened owner slot drained ctx).Modest from modest.set owner kept)
    (bears.resolved _ drained drew)
  change ∃ outcomes after, fire handlers owner source queued slot
    { ctx with limits := ctx.limits } = .ok (outcomes, after) ∧ after.Modest
  rw [fire_eq]
  dsimp only
  rw [drew]
  change ∃ outcomes after, (process handlers (fired queued.effect slot.amount.isSome _)
    (opened owner slot drained ctx) >>= _) = _ ∧ _
  rw [resolving]
  exact settle_modest left _ outcome (Context.isBlocked_eq_false.mp free)

end

/-- What a pass needs on its way, turn by turn. -/
def Borne (handlers : Handlers) (owner : Seat) (source : String) :
    List QueuedEffect → Context → Prop
  | [], _ => True
  | queued :: rest, ctx =>
    (∀ slot, (ctx.get owner).auras.slots[queued.slot]? = some slot → queued.isFrom slot = true →
      ctx.isBlocked queued.effect source = false → Bears owner queued slot ctx) ∧
    ∀ outcomes after, step handlers owner source queued ctx = .ok (outcomes, after) →
      Borne handlers owner source rest after

section
variable {handlers : Handlers} (builtin : handlers.AllBuiltin) {owner : Seat} {source : String}
include builtin

theorem step_modest {queued : QueuedEffect} {ctx : Context} (modest : ctx.Modest)
    (bears : ∀ slot, (ctx.get owner).auras.slots[queued.slot]? = some slot →
      queued.isFrom slot = true → ctx.isBlocked queued.effect source = false →
        Bears owner queued slot ctx) :
    ∃ outcomes after, step handlers owner source queued ctx = .ok (outcomes, after) ∧
      after.Modest := by
  unfold step
  split
  · exact ⟨_, _, rfl, modest⟩
  · rename_i slot found
    obtain ⟨here, waits⟩ := Option.filter_eq_some_iff.mp found
    split
    · exact ⟨_, _, rfl, modest⟩
    · rename_i free
      have unblocked := Bool.eq_false_iff.mpr free
      exact fire_modest modest builtin here waits unblocked (bears slot here waits unblocked)

theorem run_modest {queue : List QueuedEffect} {ctx : Context} (modest : ctx.Modest)
    (borne : Borne handlers owner source queue ctx) :
    ∃ outcomes after, run handlers owner source queue ctx = .ok (outcomes, after) ∧
      after.Modest := by
  induction queue generalizing ctx with
  | nil => exact ⟨[], ctx, rfl, modest⟩
  | cons queued rest ih =>
    obtain ⟨outcomes, middle, stepped, kept⟩ := step_modest builtin modest borne.1
    obtain ⟨more, last, later, left⟩ := ih kept (borne.2 outcomes middle stepped)
    refine ⟨outcomes ++ more, last, ?_, left⟩
    unfold run
    rw [stepped]
    change (run handlers owner source rest middle >>= _) = _
    rw [later]
    rfl

end
end AuraPass

theorem triggerAuras_modest {handlers : Handlers} (builtin : handlers.AllBuiltin) {owner : Seat}
    {trigger : Trigger} {ctx : Context} (modest : ctx.Modest)
    (borne : AuraPass.Borne handlers owner (AuraPass.enter owner ctx).sourceKey
      (AuraPass.queue owner trigger ctx) (AuraPass.enter owner ctx)) :
    ∃ outcomes after, triggerAuras handlers owner trigger ctx = .ok (outcomes, after) ∧
      after.Modest := by
  obtain ⟨outcomes, last, ran, left⟩ := AuraPass.run_modest builtin
    (show (AuraPass.enter owner ctx).Modest from modest) borne
  unfold triggerAuras
  unfold AuraPass.queue at ran
  split
  · exact ⟨[], ctx, rfl, modest⟩
  · rename_i fires
    rw [if_neg fires] at ran
    split
    · exact ⟨[], ctx, rfl, modest⟩
    · change ∃ outcomes after, (AuraPass.run handlers owner (AuraPass.enter owner ctx).sourceKey _
        (AuraPass.enter owner ctx) >>= _) = _ ∧ _
      rw [ran]
      exact ⟨_, _, rfl, left.of_encounter rfl⟩

/-- Where there is room, effects and passes go through and leave room for more. -/
theorem arithmetic_finishes {handlers : Handlers} (builtin : handlers.AllBuiltin) {ctx : Context}
    (modest : ctx.Modest) :
    (∀ effect, ctx.Bears effect → ∃ outcome after,
      process handlers effect ctx = .ok (outcome, after) ∧ after.Modest) ∧
    ∀ owner trigger,
      AuraPass.Borne handlers owner (AuraPass.enter owner ctx).sourceKey
        (AuraPass.queue owner trigger ctx) (AuraPass.enter owner ctx) →
      ∃ outcomes after, triggerAuras handlers owner trigger ctx = .ok (outcomes, after) ∧
        after.Modest :=
  ⟨fun _ bears => process_modest builtin modest bears,
    fun _ _ borne => triggerAuras_modest builtin modest borne⟩

/-! A squire aglow, who is healed at the start of a turn and may well glow more. -/

namespace Context

def glow : Aura :=
  { id := "glow", name := "Glow", stackPolicy := .stack
    effects := [
      { kind := .statModifier "hitpoints" false, trigger := .passive, amount := some (.flat 5) },
      { kind := .heal .flat, target := .self, trigger := .turnStart, amount := some (.flat 3) }] }

def squireStats : StatBlock := ({} : StatBlock).insert "hitpoints" 20

def aglow : Character :=
  { id := "squire", name := "Squire", role := some "squire", hitpoints := 10
    innate := squireStats
    stats := ({} : StatBlock).insert "hitpoints" 25
    auras := {
      slots := [.setAura ⟨0, glow⟩ 1 none none]
      modifiers := [{ aura := "glow", stat := "hitpoints", value := 5, percent := false }] } }

def glade : Context where
  encounter := ⟨⟨aglow, .empty, .empty⟩, ⟨.empty, .empty, .empty⟩⟩
  content := { auras := AuraCatalog.register {} .buff glow }
  source := some ⟨.heroes, .front⟩

def kindle : Effect := { kind := .applyAura .buff "glow", target := .self }

theorem empty_modest : Character.empty.Modest where
  fresh := ⟨rfl, rfl⟩
  bearable := ⟨by decide, by decide, fun _ => Nat.zero_le _⟩
  hitpoints := by decide
  energy := by decide
  maxEnergy_nonneg := by decide
  maxEnergy_le := by decide

theorem glade_modest : glade.Modest := by
  have squire : aglow.Modest := by
    constructor
    case fresh =>
      have modifiers : aglow.auras.modifiers =
          aglow.auras.slots.flatMap AuraSlot.contribution := by decide +kernel
      exact ⟨modifiers, by decide +kernel⟩
    case bearable =>
      have few := AuraSlots.stacksFor_le
      exact ⟨by decide +kernel, by decide +kernel, fun id => (few id _).trans (by decide +kernel)⟩
    all_goals decide
  rintro ⟨side, position⟩
  cases side <;> cases position
  · exact squire
  all_goals exact empty_modest

theorem glade_bears : glade.Bears kindle where
  amount := nofun
  aura := by
    rintro type ⟨⟩ kind id held ⟨⟩ known target member
    have seated : (glade.seek (.applyAura .buff) kindle).1 = [⟨.heroes, .front⟩] := by
      decide +kernel
    obtain rfl : held = ⟨0, glow⟩ := by
      have here : glade.content.auras.lookup .buff "glow" = some ⟨0, glow⟩ := by decide +kernel
      exact Option.some.inj (known.symm.trans here)
    rw [seated, List.mem_singleton] at member
    subst member
    have few := AuraSlots.stacksFor_le
    exact ⟨by decide +kernel, by decide +kernel, fun id => (few id _).trans (by decide +kernel)⟩

end Context

namespace AuraPass

def gladeTurn : QueuedEffect where
  slot := 0
  held := ⟨0, Context.glow⟩
  effect :=
    { kind := .heal .flat, target := .self, trigger := .turnStart, amount := some (.flat 3) }

theorem glade_borne :
    Borne Handlers.builtin ⟨.heroes, .front⟩ (enter ⟨.heroes, .front⟩ Context.glade).sourceKey
      (queue ⟨.heroes, .front⟩ .turnStart Context.glade)
      (enter ⟨.heroes, .front⟩ Context.glade) := by
  have waiting : queue ⟨.heroes, .front⟩ .turnStart Context.glade = [gladeTurn] := by
    decide +kernel
  rw [waiting]
  refine ⟨fun slot here _ _ => ?_, fun _ _ _ => trivial⟩
  obtain rfl : AuraSlot.setAura ⟨0, Context.glow⟩ 1 none none = slot := Option.some.inj here
  constructor
  case drained =>
    have few := AuraSlots.stacksFor_le
    exact ⟨by decide +kernel, by decide +kernel, fun id => (few id _).trans (by decide +kernel)⟩
  case resolved =>
    intro drawn c drew
    have healed : (Context.glade.get ⟨.heroes, .front⟩).withAuras (·.draw 0 gladeTurn.effect
        (gladeTurn.effect.amountValue (some Context.aglow.stats))) = .ok (3, Context.aglow) := by
      decide +kernel
    have same := Except.ok.inj (drew.symm.trans healed)
    cases same
    constructor
    case amount =>
      intro _
      decide +kernel
    case aura => exact fun _ _ _ _ _ applies => nomatch applies

end AuraPass

theorem arithmetic_finishes_glade :
    Handlers.builtin.AllBuiltin ∧ Context.glade.Modest ∧ Context.glade.Bears Context.kindle ∧
      (∃ outcome after, process Handlers.builtin Context.kindle Context.glade =
        .ok (outcome, after) ∧ after.Modest) ∧
      ∃ outcomes after, triggerAuras Handlers.builtin ⟨.heroes, .front⟩ .turnStart Context.glade =
        .ok (outcomes, after) ∧ after.Modest := by
  obtain ⟨effects, passes⟩ := arithmetic_finishes Handlers.builtin_allBuiltin Context.glade_modest
  exact ⟨Handlers.builtin_allBuiltin, Context.glade_modest, Context.glade_bears,
    effects Context.kindle Context.glade_bears, passes ⟨.heroes, .front⟩ .turnStart
      AuraPass.glade_borne⟩

/-! A spring that heals more than there is room for. -/

namespace Context

def flood : Effect :=
  { kind := .heal .flat, target := .self, trigger := .turnStart
    amount := some (.flat 9300000000000000000) }

def spring : Aura := { id := "spring", name := "Spring", effects := [flood] }

def wounded : Character :=
  { id := "squire", name := "Squire", role := some "squire", hitpoints := 10
    innate := squireStats
    stats := squireStats
    auras := { slots := [.setAura ⟨0, spring⟩ 1 none none] } }

def ford : Context where
  encounter := ⟨⟨wounded, .empty, .empty⟩, ⟨.empty, .empty, .empty⟩⟩
  content := { auras := AuraCatalog.register {} .buff spring }
  source := some ⟨.heroes, .front⟩

end Context

theorem arithmetic_overflows :
    (∀ seat, (Context.ford.get seat).Reachable) ∧
      process Handlers.builtin Context.flood Context.ford = .error .overflow ∧
      triggerAuras Handlers.builtin ⟨.heroes, .front⟩ .turnStart Context.ford =
        .error .overflow := by
  have made : Leads Character.act { id := "squire", name := "Squire", role := some "squire" }
      Context.wounded := by
    refine ⟨[.withInnate Context.squireStats,
      .changeAuras [.add ⟨0, Context.spring⟩ { stackCount := 1 }], .takeDamage 10 none], ?_⟩
    decide +kernel
  have squire : Context.wounded.Reachable := .becomes (.created ..) made
  refine ⟨?_, ?_, ?_⟩
  · rintro ⟨side, position⟩
    cases side <;> cases position
    · exact squire
    all_goals exact .empty
  · apply error_of_map (f := fun _ => ())
    decide +kernel
  · apply error_of_map (f := fun _ => ())
    decide +kernel

end Combat
