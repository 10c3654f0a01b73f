import Combat.Proofs.Resolution.Frame
import Mathlib.Algebra.BigOperators.Group.Finset.Basic
import Mathlib.Algebra.Ring.Int.Defs

/-!
Outcomes account for what happened. What an outcome records of a character is what changed between
the contexts before and after, and what it does not record did not change.
-/

namespace Combat
open Checked

/-! ### Targets -/

/-- No selector stands for a seat twice. -/
theorem Aim.resolveIn_nodup (α : Type) [Arithmetic α] (selector : Selector) (aim : Aim)
    (random : RandomSource) : (aim.resolveIn α selector random).1.Nodup := by
  have single : ∀ seat : Option Seat, seat.toList.Nodup := fun seat => by cases seat <;> simp
  have seats : aim.seats.Nodup := by
    unfold seats
    cases aim.party <;> decide
  have eligible : aim.eligible.Nodup := seats.filter _
  unfold resolveIn
  cases selector with
  | self => exact single _
  | attacker => exact single _
  | target => exact single _
  | nobody => exact .nil
  | unknown => exact .nil
  | front => exact single _
  | center => exact single _
  | back => exact single _
  | cleave =>
    have both : ([Position.front, .center].map (Seat.mk aim.party)).Nodup := by
      cases aim.party <;> decide
    exact both.filter _
  | random =>
    change (aim.drawOne random).1.Nodup
    unfold drawOne
    split
    · exact .nil
    · exact single _
  | lowest => exact single _
  | all => exact eligible
  | dead =>
    have dead : aim.deadMembers.Nodup := seats.filter _
    exact dead

theorem Context.seek_nodup (ctx : Context) (type : EffectType) (effect : Effect) :
    (ctx.seek type effect).1.Nodup := by
  unfold seek
  split
  · exact Aim.resolveIn_nodup ..
  · exact .nil

/-! ### What one target is told of -/

def Change.seat? : Change → Option Seat
  | .damage seat .. | .heal seat _ | .energyRestored seat _ | .revived seat _
  | .auraApplied seat .. | .auraRemoved seat _ => some seat
  | .statModifier .. | .materialGranted .. | .materialConsumed .. => none

/-- The changes recorded for one target by an effect of the type, and what they say of the
character before and after. -/
inductive Told (target : Seat) (before after : Character) : EffectType → List Change → Prop where
  | damaged (stays : before.dead = true → after.dead = true) :
    Told target before after .damage
      [.damage target (before.hitpoints - after.hitpoints) (!before.dead && after.dead)]
  | healed (life : after.dead = before.dead) :
    Told target before after .heal [.heal target (after.hitpoints - before.hitpoints)]
  | restored (life : after.dead = before.dead) :
    Told target before after .restoreEnergy [.energyRestored target (after.energy - before.energy)]
  | revived (died : before.dead = true) (lives : after.dead = false) :
    Told target before after .revive [.revived target after.hitpoints]
  | unrevived (life : after.dead = before.dead) : Told target before after .revive []
  | applied {kind : AuraKind} {id : String} {stackCount : Count} (life : after.dead = before.dead)
    (counts : after.auras.stacksOf id = .ok stackCount) :
    Told target before after (.applyAura kind) [.auraApplied target id stackCount]
  | unapplied {kind : AuraKind} (life : after.dead = before.dead) :
    Told target before after (.applyAura kind) []
  | removed {kind : AuraKind} {id : String} (life : after.dead = before.dead) :
    Told target before after (.removeAura kind) [.auraRemoved target id]
  | unremoved {kind : AuraKind} (life : after.dead = before.dead) :
    Told target before after (.removeAura kind) []

namespace Told
variable {target : Seat} {before after : Character} {type : EffectType} {changes : List Change}

theorem damage_eq (h : Told target before after .damage changes) :
    changes =
      [.damage target (before.hitpoints - after.hitpoints) (!before.dead && after.dead)] := by
  cases h
  rfl

theorem heal_eq (h : Told target before after .heal changes) :
    changes = [.heal target (after.hitpoints - before.hitpoints)] := by
  cases h
  rfl

theorem energy_eq (h : Told target before after .restoreEnergy changes) :
    changes = [.energyRestored target (after.energy - before.energy)] := by
  cases h
  rfl

theorem revived_iff (h : Told target before after type changes) (seat : Seat) (hitpoints : Int) :
    .revived seat hitpoints ∈ changes ↔
      seat = target ∧ before.dead = true ∧ after.dead = false ∧ hitpoints = after.hitpoints := by
  cases h with
  | damaged stays =>
    simp only [List.mem_singleton, reduceCtorEq, false_iff]
    rintro ⟨-, died, lives, -⟩
    rw [stays died] at lives
    cases lives
  | revived died lives => simp [died, lives]
  | _ life => cases died : before.dead <;> simp [life, died]

theorem died (h : Told target before after type changes) (alive : before.dead = false)
    (dead : after.dead = true) : ∃ amount, .damage target amount true ∈ changes := by
  cases h with
  | damaged stays =>
    refine ⟨before.hitpoints - after.hitpoints, ?_⟩
    rw [alive, dead]
    exact List.mem_singleton_self _
  | revived died =>
    rw [died] at alive
    cases alive
  | _ life =>
    rw [life, alive] at dead
    cases dead

theorem applied_ok (h : Told target before after type changes) {seat : Seat} {id : String}
    {stackCount : Count} (member : .auraApplied seat id stackCount ∈ changes) :
    seat = target ∧ after.auras.stacksOf id = .ok stackCount := by
  cases h with
  | applied life counts =>
    obtain ⟨rfl, rfl, rfl⟩ : seat = _ ∧ id = _ ∧ stackCount = _ := by simpa using member
    exact ⟨rfl, counts⟩
  | _ => simp at member

end Told

/-! ### Handlers -/

namespace Handler
open Context

theorem damageOne_told {amount : Int} {target : Seat} {ctx after : Context} {changes : List Change}
    (h : damageOne amount target ctx = .ok (changes, after)) :
    Told target (ctx.get target) (after.get target) .damage changes := by
  unfold damageOne at h
  obtain ⟨⟨blow, c⟩, taken, h⟩ := bind_ok h
  obtain ⟨rfl, rfl⟩ := pair_ok h
  obtain ⟨-, lost, killing, stays⟩ := Character.takeDamage_ok taken
  have last : (if blow.killing = true then
      ((ctx.setCharacter target c).say s!"{c.name} takes {blow.amount} damage").say
        s!"{c.name} is defeated"
      else (ctx.setCharacter target c).say s!"{c.name} takes {blow.amount} damage").get target =
      c := by
    split <;> exact get_setCharacter_self ..
  rw [last, lost, killing]
  exact .damaged stays

theorem healOne_told {mode : HealMode} {amount : Int} {target : Seat} {ctx after : Context}
    {changes : List Change} (h : healOne mode amount target ctx = .ok (changes, after)) :
    Told target (ctx.get target) (after.get target) .heal changes := by
  unfold healOne at h
  obtain ⟨value, _, h⟩ := bind_ok h
  obtain ⟨⟨healed, c⟩, done, h⟩ := bind_ok h
  obtain ⟨rfl, rfl⟩ := pair_ok h
  obtain ⟨same, gained⟩ := Character.heal_ok done
  have last : (if 0 < healed then
      (ctx.setCharacter target c).say s!"{c.name} recovers {healed} hitpoints"
      else ctx.setCharacter target c).get target = c := by
    split <;> exact get_setCharacter_self ..
  rw [last, gained]
  exact .healed (by rw [same])

theorem restoreEnergyOne_told {amount : Int} {target : Seat} {ctx after : Context}
    {changes : List Change} (h : restoreEnergyOne amount target ctx = .ok (changes, after)) :
    Told target (ctx.get target) (after.get target) .restoreEnergy changes := by
  unfold restoreEnergyOne at h
  obtain ⟨⟨restored, c⟩, done, h⟩ := bind_ok h
  obtain ⟨rfl, rfl⟩ := pair_ok h
  obtain ⟨same, gained⟩ := Character.restoreEnergy_ok done
  rw [get_setCharacter_self, gained]
  exact .restored (by rw [same])

theorem reviveOne_told {percent : Int} {target : Seat} {ctx after : Context}
    {changes : List Change} (h : reviveOne percent target ctx = .ok (changes, after)) :
    Told target (ctx.get target) (after.get target) .revive changes := by
  unfold reviveOne at h
  obtain ⟨⟨revived, c⟩, done, h⟩ := bind_ok h
  obtain ⟨rfl, -⟩ | ⟨hitpoints, rfl, died, same⟩ := Character.revive_ok done
  · obtain ⟨rfl, rfl⟩ := pair_ok h
    exact .unrevived rfl
  · obtain ⟨rfl, rfl⟩ := pair_ok h
    have last : ((ctx.setCharacter target c).say
        s!"{c.name} is revived with {hitpoints} hitpoints").get target = c :=
      get_setCharacter_self ..
    have new : hitpoints = c.hitpoints := by rw [same]
    rw [last, new]
    exact .revived died (by rw [same])

theorem applyOne_told {kind : AuraKind} {held : RegisteredAura} {application : AuraApplication}
    {target : Seat} {ctx after : Context} {changes : List Change}
    (h : applyOne held application target ctx = .ok (changes, after)) :
    Told target (ctx.get target) (after.get target) (.applyAura kind) changes := by
  unfold applyOne at h
  obtain ⟨⟨added, c⟩, done, h⟩ := bind_ok h
  have life := Character.withAuras_dead done
  cases added with
  | none =>
    obtain ⟨rfl, rfl⟩ := pair_ok h
    rw [get_setCharacter_self]
    exact .unapplied life
  | some slot =>
    obtain ⟨stackCount, counts, h⟩ := bind_ok h
    obtain ⟨rfl, rfl⟩ := pair_ok h
    have last : ((ctx.setCharacter target c).say
        s!"{c.name} gains {held.aura.name} ({stackCount.val})").get target = c :=
      get_setCharacter_self ..
    rw [last]
    exact .applied life counts

theorem removeOne_told {kind : AuraKind} {id : String} {count : Option Count} {target : Seat}
    {ctx after : Context} {changes : List Change}
    (h : removeOne id count target ctx = .ok (changes, after)) :
    Told target (ctx.get target) (after.get target) (.removeAura kind) changes := by
  unfold removeOne at h
  obtain ⟨⟨removed, c⟩, done, h⟩ := bind_ok h
  have life := Character.withAuras_dead done
  cases removed with
  | true =>
    obtain ⟨rfl, rfl⟩ := pair_ok h
    have last : ((ctx.setCharacter target c).say s!"{c.name} loses {id}").get target = c :=
      get_setCharacter_self ..
    rw [last]
    exact .removed life
  | false =>
    obtain ⟨rfl, rfl⟩ := pair_ok h
    rw [get_setCharacter_self]
    exact .unremoved life

/-- Every target is told of in its turn, where no target comes twice. -/
theorem forEach_told {type : EffectType} {step : Seat → Context → Checked (List Change × Context)}
    (moves : ∀ {target ctx changes after}, step target ctx = .ok (changes, after) →
      Evolves [target] ctx after)
    (tells : ∀ {target ctx changes after}, step target ctx = .ok (changes, after) →
      Told target (ctx.get target) (after.get target) type changes)
    {targets : List Seat} {ctx after : Context} {changes : List Change} (distinct : targets.Nodup)
    (h : forEach step targets ctx = .ok (changes, after)) :
    ∃ parts : Seat → List Change, changes = targets.flatMap parts ∧
      ∀ target ∈ targets, Told target (ctx.get target) (after.get target) type (parts target) := by
  induction targets generalizing ctx changes with
  | nil =>
    obtain ⟨rfl, rfl⟩ := pair_ok h
    exact ⟨fun _ => [], rfl, fun _ member => absurd member List.not_mem_nil⟩
  | cons target rest ih =>
    obtain ⟨⟨first, middle⟩, stepped, h⟩ := bind_ok h
    obtain ⟨⟨more, last⟩, later, h⟩ := bind_ok h
    obtain ⟨rfl, rfl⟩ := pair_ok h
    obtain ⟨fresh, distinct⟩ := List.nodup_cons.mp distinct
    obtain ⟨parts, rfl, told⟩ := ih distinct later
    -- The first target is not among the rest, so later steps leave it and this one leaves them.
    have other : ∀ seat ∈ rest, seat ≠ target := fun seat member same => fresh (same ▸ member)
    refine ⟨fun seat => if seat = target then first else parts seat, ?_, ?_⟩
    · rw [List.flatMap_cons, if_pos rfl]
      refine congrArg (first ++ ·) (List.flatMap_congr fun seat member => ?_)
      rw [if_neg (other seat member)]
    · intro seat member
      dsimp only
      rcases List.mem_cons.mp member with rfl | member
      · rw [if_pos rfl, (forEach_evolves moves later).others seat fresh]
        exact tells stepped
      · have untouched : middle.get seat = ctx.get seat :=
          (moves stepped).others seat fun listed =>
            other seat member (List.mem_singleton.mp listed)
        rw [if_neg (other seat member), ← untouched]
        exact told seat member

theorem nothing_told {type : EffectType} (quiet : ∀ target c, Told target c c type [])
    (targets : List Seat) (ctx : Context) :
    ∃ parts : Seat → List Change, [] = targets.flatMap parts ∧
      ∀ target ∈ targets, Told target (ctx.get target) (ctx.get target) type (parts target) :=
  ⟨fun _ => [], by simp, fun target _ => quiet target _⟩

theorem builtin_told {type : EffectType} {effect : Effect} {targets : List Seat}
    {ctx after : Context} {changes : List Change} (lands : type.targetsCharacters = true)
    (distinct : targets.Nodup)
    (h : Handler.builtin type effect targets ctx = .ok (changes, after)) :
    ∃ parts : Seat → List Change, changes = targets.flatMap parts ∧
      ∀ target ∈ targets, Told target (ctx.get target) (after.get target) type (parts target) := by
  cases type with
  | damage =>
    obtain ⟨amount, _, h⟩ := bind_ok h
    exact forEach_told damageOne_evolves damageOne_told distinct h
  | heal => exact forEach_told healOne_evolves healOne_told distinct h
  | restoreEnergy => exact forEach_told restoreEnergyOne_evolves restoreEnergyOne_told distinct h
  | revive => exact forEach_told reviveOne_evolves reviveOne_told distinct h
  | applyAura kind =>
    change applyAura effect targets ctx = _ at h
    have quiet : ∀ target c, Told target c c (.applyAura kind) [] := fun _ _ => .unapplied rfl
    unfold applyAura at h
    split at h
    · split at h
      · exact forEach_told applyOne_evolves applyOne_told distinct h
      · obtain ⟨rfl, rfl⟩ := pair_ok h
        exact nothing_told quiet targets ctx
    · obtain ⟨rfl, rfl⟩ := pair_ok h
      exact nothing_told quiet targets ctx
  | removeAura kind =>
    change removeAura effect targets ctx = _ at h
    have quiet : ∀ target c, Told target c c (.removeAura kind) [] := fun _ _ => .unremoved rfl
    unfold removeAura at h
    split at h
    · split at h
      · exact forEach_told removeOne_evolves removeOne_told distinct h
      · obtain ⟨rfl, rfl⟩ := pair_ok h
        exact nothing_told quiet targets ctx
    · obtain ⟨rfl, rfl⟩ := pair_ok h
      exact nothing_told quiet targets ctx
  | statModifier => cases lands
  | grantMaterial => cases lands
  | consumeMaterial => cases lands

theorem builtin_apart {type : EffectType} {effect : Effect} {targets : List Seat}
    {ctx after : Context} {changes : List Change} (apart : type.targetsCharacters = false)
    (h : Handler.builtin type effect targets ctx = .ok (changes, after)) :
    after.encounter = ctx.encounter ∧ ∀ change ∈ changes, change.seat? = none := by
  cases type with
  | statModifier =>
    change statModifier effect targets ctx = _ at h
    obtain ⟨rfl | ⟨_, _, rfl⟩, rfl⟩ := statModifier_ok h
    · simp
    · simp [Change.seat?]
  | grantMaterial =>
    change grantMaterial effect targets ctx = _ at h
    obtain ⟨rfl, rfl⟩ | ⟨_, _, _, _, _, _, rfl, rfl⟩ := grantMaterial_ok h
    · simp
    · simp [Change.seat?, Context.say]
  | consumeMaterial =>
    change consumeMaterial effect targets ctx = _ at h
    obtain ⟨rfl, rfl⟩ | ⟨_, _, _, _, _, _, _, rfl, rfl⟩ := consumeMaterial_ok h
    · simp
    · simp [Change.seat?, Context.say]
  | _ => cases apart

end Handler

/-! ### Effects that record nothing -/

/-- Every character is as working its stats out anew would leave it. -/
def Context.Settled (ctx : Context) : Prop :=
  ∀ seat, (ctx.get seat).rebuild = .ok (ctx.get seat)

theorem Character.withAuras_idle {α : Type} {c after : Character} {result : α}
    {change : AuraSlots → Checked (α × AuraSlots)} (settled : c.rebuild = .ok c)
    (idle : ∀ {auras}, change c.auras = .ok (result, auras) → auras = c.auras)
    (h : c.withAuras change = .ok (result, after)) : after = c := by
  obtain ⟨auras, changed, worked⟩ := withAuras_ok h
  obtain rfl := idle changed
  rw [settled] at worked
  exact (Except.ok.inj worked).symm

namespace Handler
open Context

theorem forEach_idle {step : Seat → Context → Checked (List Change × Context)}
    (each : ∀ {target ctx after}, ctx.Settled → step target ctx = .ok ([], after) → after = ctx)
    {targets : List Seat} {ctx after : Context} (settled : ctx.Settled)
    (h : forEach step targets ctx = .ok ([], after)) : after = ctx := by
  induction targets with
  | nil => exact (pair_ok h).2.symm
  | cons target rest ih =>
    obtain ⟨⟨first, middle⟩, stepped, h⟩ := bind_ok h
    obtain ⟨⟨more, last⟩, later, h⟩ := bind_ok h
    obtain ⟨empty, rfl⟩ := pair_ok h
    obtain ⟨rfl, rfl⟩ := List.append_eq_nil_iff.mp empty
    obtain rfl := each settled stepped
    exact ih later

theorem reviveOne_idle {percent : Int} {target : Seat} {ctx after : Context}
    (h : reviveOne percent target ctx = .ok ([], after)) : after = ctx := by
  unfold reviveOne at h
  obtain ⟨⟨revived, c⟩, done, h⟩ := bind_ok h
  cases revived with
  | none => exact (pair_ok h).2.symm
  | some hitpoints => cases h

theorem applyOne_idle {held : RegisteredAura} {application : AuraApplication} {target : Seat}
    {ctx after : Context} (settled : ctx.Settled)
    (h : applyOne held application target ctx = .ok ([], after)) : after = ctx := by
  unfold applyOne at h
  obtain ⟨⟨added, c⟩, done, h⟩ := bind_ok h
  cases added with
  | none =>
    have same : c = ctx.get target := by
      refine Character.withAuras_idle (settled target) (fun changed => ?_) done
      obtain ⟨-, -, same⟩ | ⟨-, some, -⟩ := AuraSlots.add_ok changed
      · exact same
      · cases some
    obtain ⟨-, rfl⟩ := pair_ok h
    rw [same, setCharacter_get]
  | some slot =>
    obtain ⟨stackCount, _, h⟩ := bind_ok h
    cases h

theorem removeOne_idle {id : String} {count : Option Count} {target : Seat} {ctx after : Context}
    (settled : ctx.Settled) (h : removeOne id count target ctx = .ok ([], after)) :
    after = ctx := by
  unfold removeOne at h
  obtain ⟨⟨removed, c⟩, done, h⟩ := bind_ok h
  cases removed with
  | true => cases h
  | false =>
    have same : c = ctx.get target := by
      refine Character.withAuras_idle (settled target) (fun changed => ?_) done
      cases count with
      | none =>
        obtain ⟨-, ⟨-, same⟩ | ⟨removed, -⟩⟩ := AuraSlots.remove_ok changed
        · exact same
        · cases removed
      | some count =>
        obtain ⟨-, -, same⟩ | ⟨_, -, removed, -⟩ := AuraSlots.removeStacks_ok changed
        · exact same
        · cases removed
    obtain ⟨-, rfl⟩ := pair_ok h
    rw [same, setCharacter_get]

theorem builtin_idle {type : EffectType} {effect : Effect} {targets : List Seat}
    {ctx after : Context} (settled : ctx.Settled)
    (h : Handler.builtin type effect targets ctx = .ok ([], after)) : after = ctx := by
  cases type with
  | damage =>
    obtain ⟨amount, _, h⟩ := bind_ok h
    exact forEach_idle (fun _ stepped => nomatch (damageOne_told stepped).damage_eq) settled h
  | heal =>
    exact forEach_idle (fun _ stepped => nomatch (healOne_told stepped).heal_eq) settled h
  | restoreEnergy =>
    exact forEach_idle (fun _ stepped => nomatch (restoreEnergyOne_told stepped).energy_eq) settled
      h
  | revive => exact forEach_idle (fun _ stepped => reviveOne_idle stepped) settled h
  | applyAura kind =>
    change applyAura effect targets ctx = _ at h
    unfold applyAura at h
    split at h
    · split at h
      · exact forEach_idle applyOne_idle settled h
      · exact (pair_ok h).2.symm
    · exact (pair_ok h).2.symm
  | removeAura kind =>
    change removeAura effect targets ctx = _ at h
    unfold removeAura at h
    split at h
    · split at h
      · exact forEach_idle removeOne_idle settled h
      · exact (pair_ok h).2.symm
    · exact (pair_ok h).2.symm
  | statModifier =>
    change statModifier effect targets ctx = _ at h
    exact (statModifier_ok h).2
  | grantMaterial =>
    change grantMaterial effect targets ctx = _ at h
    obtain ⟨-, same⟩ | ⟨_, _, _, _, _, _, recorded, _⟩ := grantMaterial_ok h
    · exact same
    · cases recorded
  | consumeMaterial =>
    change consumeMaterial effect targets ctx = _ at h
    obtain ⟨-, same⟩ | ⟨_, _, _, _, _, _, _, recorded, _⟩ := consumeMaterial_ok h
    · exact same
    · cases recorded

end Handler
/-! ### Sums -/

theorem Checked.sum_ok {xs : List Int} {total : Int} (h : Checked.sum xs = .ok total) :
    total = xs.sum := by
  have general : ∀ {xs : List Int} {start total : Int},
      xs.foldlM Checked.add start = .ok total → total = start + xs.sum := by
    intro xs
    induction xs with
    | nil =>
      intro start total h
      rw [List.sum_nil, Int.add_zero]
      exact (pure_ok h).symm
    | cons x rest ih =>
      intro start total h
      rw [List.foldlM_cons] at h
      obtain ⟨next, added, h⟩ := bind_ok h
      rw [List.sum_cons, ih h, add_ok added, Int.add_assoc]
  have whole := general h
  rwa [Int.zero_add] at whole

theorem Checked.sum_zeros {xs : List Int} (zeros : ∀ x ∈ xs, x = 0) : Checked.sum xs = .ok 0 := by
  unfold sum
  induction xs with
  | nil => rfl
  | cons x rest ih =>
    obtain rfl := zeros x List.mem_cons_self
    exact ih fun x member => zeros x (List.mem_cons_of_mem _ member)

theorem Seat.mem_all : ∀ seat, seat ∈ Seat.all := fun ⟨side, position⟩ => by
  cases side <;> cases position <;> decide

theorem sum_seats {f : Seat → Int} {targets : List Seat} (distinct : targets.Nodup)
    (others : ∀ seat, seat ∉ targets → f seat = 0) :
    (Seat.all.map f).sum = (targets.map f).sum := by
  have once : Seat.all.Nodup := by decide
  rw [← List.sum_toFinset f once, ← List.sum_toFinset f distinct]
  symm
  refine Finset.sum_subset (fun seat _ => List.mem_toFinset.mpr (Seat.mem_all seat)) ?_
  intro seat _ unlisted
  exact others seat fun listed => unlisted (List.mem_toFinset.mpr listed)

/-! ### Outcomes -/

/-- The hitpoints that a character lost from one context to another, and gained the other way. -/
def Context.lost (before after : Context) (seat : Seat) : Int :=
  (before.get seat).hitpoints - (after.get seat).hitpoints

structure Outcome.Accounts (outcome : Outcome) (before after : Context) : Prop where
  distinct : outcome.targets.Nodup
  others : ∀ seat, seat ∉ outcome.targets → after.get seat = before.get seat
  damage : outcome.type = .damage →
    outcome.changes = outcome.targets.map fun seat =>
      .damage seat (before.lost after seat) (!(before.get seat).dead && (after.get seat).dead)
  heal : outcome.type = .heal →
    outcome.changes = outcome.targets.map fun seat => .heal seat (after.lost before seat)
  energy : outcome.type = .restoreEnergy →
    outcome.changes = outcome.targets.map fun seat =>
      .energyRestored seat ((after.get seat).energy - (before.get seat).energy)
  /-- These records come of no other effects. -/
  kinds : (∀ seat amount killing, .damage seat amount killing ∈ outcome.changes →
      outcome.type = .damage) ∧
    (∀ seat amount, .heal seat amount ∈ outcome.changes → outcome.type = .heal) ∧
    ∀ seat amount, .energyRestored seat amount ∈ outcome.changes → outcome.type = .restoreEnergy
  revived : ∀ seat hitpoints, .revived seat hitpoints ∈ outcome.changes ↔
    (before.get seat).dead = true ∧ (after.get seat).dead = false ∧
      hitpoints = (after.get seat).hitpoints
  died : ∀ seat, (before.get seat).dead = false → (after.get seat).dead = true →
    ∃ amount, .damage seat amount true ∈ outcome.changes
  applied : ∀ seat id stackCount, .auraApplied seat id stackCount ∈ outcome.changes →
    seat ∈ outcome.targets ∧ (after.get seat).auras.stacksOf id = .ok stackCount
  idle : outcome.changes = [] →
    after.encounter = before.encounter ∧ after.stash = before.stash ∧ after.log = before.log

theorem flatMap_singletons {α β : Type} {xs : List α} {parts : α → List β} {f : α → β}
    (single : ∀ x ∈ xs, parts x = [f x]) : xs.flatMap parts = xs.map f := by
  induction xs with
  | nil => rfl
  | cons x rest ih =>
    rw [List.flatMap_cons, single x List.mem_cons_self, List.map_cons,
      ih fun y member => single y (List.mem_cons_of_mem _ member)]
    rfl

theorem Told.kinds {target : Seat} {before after : Character} {type : EffectType}
    {changes : List Change} (h : Told target before after type changes) :
    (∀ seat amount killing, .damage seat amount killing ∈ changes → type = .damage) ∧
      (∀ seat amount, .heal seat amount ∈ changes → type = .heal) ∧
      ∀ seat amount, .energyRestored seat amount ∈ changes → type = .restoreEnergy := by
  cases h <;> simp

theorem Outcome.accounts_of_told {outcome : Outcome} {before after : Context}
    {parts : Seat → List Change} (distinct : outcome.targets.Nodup)
    (others : ∀ seat, seat ∉ outcome.targets → after.get seat = before.get seat)
    (recorded : outcome.changes = outcome.targets.flatMap parts)
    (told : ∀ target ∈ outcome.targets,
      Told target (before.get target) (after.get target) outcome.type (parts target))
    (idle : outcome.changes = [] →
      after.encounter = before.encounter ∧ after.stash = before.stash ∧ after.log = before.log) :
    outcome.Accounts before after := by
  have listed : ∀ {change}, change ∈ outcome.changes →
      ∃ target ∈ outcome.targets, change ∈ parts target := by
    intro change member
    rw [recorded] at member
    exact List.mem_flatMap.mp member
  have records : ∀ {target change}, target ∈ outcome.targets → change ∈ parts target →
      change ∈ outcome.changes := by
    intro target change member part
    rw [recorded]
    exact List.mem_flatMap.mpr ⟨target, member, part⟩
  constructor
  case distinct => exact distinct
  case others => exact others
  case damage =>
    intro typed
    rw [typed] at told
    rw [recorded]
    exact flatMap_singletons fun target member => (told target member).damage_eq
  case heal =>
    intro typed
    rw [typed] at told
    rw [recorded]
    exact flatMap_singletons fun target member => (told target member).heal_eq
  case energy =>
    intro typed
    rw [typed] at told
    rw [recorded]
    exact flatMap_singletons fun target member => (told target member).energy_eq
  case kinds =>
    refine ⟨fun seat amount killing member => ?_, fun seat amount member => ?_,
      fun seat amount member => ?_⟩
    all_goals obtain ⟨target, hit, part⟩ := listed member
    · exact (told target hit).kinds.1 _ _ _ part
    · exact (told target hit).kinds.2.1 _ _ part
    · exact (told target hit).kinds.2.2 _ _ part
  case revived =>
    intro seat hitpoints
    constructor
    · intro member
      obtain ⟨target, hit, part⟩ := listed member
      obtain ⟨rfl, life⟩ := ((told target hit).revived_iff seat hitpoints).mp part
      exact life
    · rintro ⟨died, lives, rfl⟩
      by_cases hit : seat ∈ outcome.targets
      · exact records hit (((told seat hit).revived_iff _ _).mpr ⟨rfl, died, lives, rfl⟩)
      · rw [others seat hit, died] at lives
        cases lives
  case died =>
    intro seat alive dead
    by_cases hit : seat ∈ outcome.targets
    · obtain ⟨amount, part⟩ := (told seat hit).died alive dead
      exact ⟨amount, records hit part⟩
    · rw [others seat hit, alive] at dead
      cases dead
  case applied =>
    intro seat id stackCount member
    obtain ⟨target, hit, part⟩ := listed member
    obtain ⟨rfl, counts⟩ := (told target hit).applied_ok part
    exact ⟨hit, counts⟩
  case idle => exact idle

theorem Outcome.accounts_of_apart {outcome : Outcome} {before after : Context}
    (apart : outcome.type.targetsCharacters = false) (nobody : outcome.targets = [])
    (impersonal : ∀ change ∈ outcome.changes, change.seat? = none)
    (same : after.encounter = before.encounter)
    (idle : outcome.changes = [] →
      after.encounter = before.encounter ∧ after.stash = before.stash ∧ after.log = before.log) :
    outcome.Accounts before after := by
  have unchanged : ∀ seat, after.get seat = before.get seat := fun seat => by
    rw [Context.get, same, Context.get]
  have other : ∀ type : EffectType, type.targetsCharacters = true → outcome.type ≠ type := by
    intro type lands typed
    rw [← typed, apart] at lands
    cases lands
  constructor
  case distinct =>
    rw [nobody]
    exact .nil
  case others => exact fun seat _ => unchanged seat
  case damage => exact fun typed => absurd typed (other .damage rfl)
  case heal => exact fun typed => absurd typed (other .heal rfl)
  case energy => exact fun typed => absurd typed (other .restoreEnergy rfl)
  case kinds =>
    refine ⟨fun _ _ _ member => ?_, fun _ _ member => ?_, fun _ _ member => ?_⟩
    all_goals cases impersonal _ member
  case revived =>
    intro seat hitpoints
    constructor
    · intro member
      cases impersonal _ member
    · rintro ⟨died, lives, -⟩
      rw [unchanged, died] at lives
      cases lives
  case died =>
    intro seat alive dead
    rw [unchanged, alive] at dead
    cases dead
  case applied =>
    intro _ _ _ member
    cases impersonal _ member
  case idle => exact idle

section
variable {outcome : Outcome} {before after : Context}

theorem Outcome.Accounts.totalDamage_eq (h : outcome.Accounts before after) :
    outcome.totalDamage =
      if outcome.type = .damage then Checked.sum (outcome.targets.map (before.lost after))
      else .ok 0 := by
  unfold totalDamage
  split
  · rename_i typed
    rw [h.damage typed, List.map_map]
    rfl
  · rename_i other
    refine Checked.sum_zeros fun amount member => ?_
    obtain ⟨change, recorded, rfl⟩ := List.mem_map.mp member
    cases change with
    | damage seat amount killing => exact absurd (h.kinds.1 _ _ _ recorded) other
    | _ => rfl

theorem Outcome.Accounts.totalHealing_eq (h : outcome.Accounts before after) :
    outcome.totalHealing =
      if outcome.type = .heal then Checked.sum (outcome.targets.map (after.lost before))
      else .ok 0 := by
  unfold totalHealing
  split
  · rename_i typed
    rw [h.heal typed, List.map_map]
    rfl
  · rename_i other
    refine Checked.sum_zeros fun amount member => ?_
    obtain ⟨change, recorded, rfl⟩ := List.mem_map.mp member
    cases change with
    | heal seat amount => exact absurd (h.kinds.2.1 _ _ recorded) other
    | _ => rfl

theorem Outcome.Accounts.lost_elsewhere (h : outcome.Accounts before after) {seat : Seat}
    (unlisted : seat ∉ outcome.targets) :
    before.lost after seat = 0 ∧ after.lost before seat = 0 := by
  unfold Context.lost
  rw [h.others seat unlisted]
  exact ⟨Int.sub_self _, Int.sub_self _⟩

end

section
variable {handlers : Handlers} {effect : Effect} {ctx after : Context} {outcome : Outcome}

theorem process_told (builtin : handlers.AllBuiltin)
    (h : process handlers effect ctx = .ok (some outcome, after))
    (lands : outcome.type.targetsCharacters = true) :
    ∃ parts : Seat → List Change, outcome.changes = outcome.targets.flatMap parts ∧
      ∀ target ∈ outcome.targets,
        Told target (ctx.get target) (after.get target) outcome.type (parts target) := by
  cases process_resolution h with
  | blocked => exact ⟨fun _ => [], rfl, fun _ member => absurd member List.not_mem_nil⟩
  | resolved typed known free handling counted =>
    obtain rfl := builtin _ _ known
    obtain ⟨parts, recorded, told⟩ :=
      Handler.builtin_told lands (Context.seek_nodup ctx _ effect) handling
    refine ⟨parts, recorded, fun target hit => ?_⟩
    rw [Context.recordUse_get counted, ← Context.seek_get ctx _ effect]
    exact told target hit

theorem process_apart (builtin : handlers.AllBuiltin)
    (h : process handlers effect ctx = .ok (some outcome, after))
    (apart : outcome.type.targetsCharacters = false) :
    outcome.targets = [] ∧ after.encounter = ctx.encounter ∧
      ∀ change ∈ outcome.changes, change.seat? = none := by
  cases process_resolution h with
  | blocked => exact ⟨rfl, rfl, fun _ member => absurd member List.not_mem_nil⟩
  | @resolved type _ _ _ _ typed known free handling counted =>
    obtain rfl := builtin _ _ known
    obtain ⟨same, impersonal⟩ := Handler.builtin_apart apart handling
    have nobody : (ctx.seek type effect).1 = [] := by
      have elsewhere : ¬type.targetsCharacters = true := Bool.eq_false_iff.mp apart
      rw [Context.seek, if_neg elsewhere]
    refine ⟨nobody, ?_, impersonal⟩
    rw [Context.recordUse_rest counted, same, Context.seek_rest]

theorem process_idle (builtin : handlers.AllBuiltin) (settled : ctx.Settled)
    (h : process handlers effect ctx = .ok (some outcome, after)) (idle : outcome.changes = []) :
    after.encounter = ctx.encounter ∧ after.stash = ctx.stash ∧ after.log = ctx.log := by
  cases process_resolution h with
  | blocked => exact ⟨rfl, rfl, rfl⟩
  | @resolved type _ _ _ _ typed known free handling counted =>
    obtain rfl := builtin _ _ known
    have stable : (ctx.seek type effect).2.Settled := fun seat => by
      rw [Context.seek_get]
      exact settled seat
    obtain rfl := idle
    have same := Handler.builtin_idle stable handling
    rw [Context.recordUse_rest counted, same, Context.seek_rest]
    exact ⟨rfl, rfl, rfl⟩

theorem process_distinct (h : process handlers effect ctx = .ok (some outcome, after)) :
    outcome.targets.Nodup := by
  cases process_resolution h with
  | blocked => exact .nil
  | resolved => exact Context.seek_nodup ..

theorem process_account (builtin : handlers.AllBuiltin) (settled : ctx.Settled)
    (h : process handlers effect ctx = .ok (some outcome, after)) :
    outcome.Accounts ctx after := by
  have idle := process_idle builtin settled h
  have distinct := process_distinct h
  by_cases lands : outcome.type.targetsCharacters = true
  · obtain ⟨parts, recorded, told⟩ := process_told builtin h lands
    have others : ∀ seat, seat ∉ outcome.targets → after.get seat = ctx.get seat :=
      fun seat unlisted => (process_evolves builtin h).others seat (by simpa using unlisted)
    exact Outcome.accounts_of_told distinct others recorded told idle
  · have apart := Bool.eq_false_iff.mpr lands
    obtain ⟨nobody, same, impersonal⟩ := process_apart builtin h apart
    exact Outcome.accounts_of_apart apart nobody impersonal same idle

end

/-- An outcome accounts for everything that its effect did, and its totals are the hitpoints that
blows took and heals gave. -/
theorem process_accounts {handlers : Handlers} {effect : Effect} {ctx after : Context}
    {outcome : Outcome} (builtin : handlers.AllBuiltin) (settled : ctx.Settled)
    (h : process handlers effect ctx = .ok (some outcome, after)) :
    outcome.Accounts ctx after ∧
      (outcome.totalDamage =
        if outcome.type = .damage then Checked.sum (outcome.targets.map (ctx.lost after))
        else .ok 0) ∧
      (outcome.totalHealing =
        if outcome.type = .heal then Checked.sum (outcome.targets.map (after.lost ctx))
        else .ok 0) ∧
      (∀ total, outcome.type = .damage → outcome.totalDamage = .ok total →
        total = (Seat.all.map (ctx.lost after)).sum) ∧
      ∀ total, outcome.type = .heal → outcome.totalHealing = .ok total →
        total = (Seat.all.map (after.lost ctx)).sum := by
  have accounts := process_account builtin settled h
  refine ⟨accounts, accounts.totalDamage_eq, accounts.totalHealing_eq, ?_, ?_⟩
  · intro total typed summed
    rw [accounts.totalDamage_eq, if_pos typed] at summed
    rw [Checked.sum_ok summed]
    exact (sum_seats accounts.distinct fun seat other => (accounts.lost_elsewhere other).1).symm
  · intro total typed summed
    rw [accounts.totalHealing_eq, if_pos typed] at summed
    rw [Checked.sum_ok summed]
    exact (sum_seats accounts.distinct fun seat other => (accounts.lost_elsewhere other).2).symm

/-! A fallen knight comes back with one hitpoint. -/

namespace Outcome

def fallenStats : StatBlock := ({} : StatBlock).insert "hitpoints" 10

def fallenKnight : Character :=
  { id := "knight", name := "Knight", role := some "fighter", dead := true
    innate := fallenStats, stats := fallenStats }

def fallenContext : Context :=
  { encounter := ⟨⟨fallenKnight, .empty, .empty⟩, ⟨.empty, .empty, .empty⟩⟩
    content := {}
    target := some ⟨.heroes, .front⟩ }

def reviveEffect : Effect := { kind := .revive, target := .target }

end Outcome

theorem process_accounts_revived :
    Handlers.builtin.AllBuiltin ∧ Outcome.fallenContext.Settled ∧ ∃ outcome after,
      process Handlers.builtin Outcome.reviveEffect Outcome.fallenContext =
        .ok (some outcome, after) ∧
      outcome.changes = [.revived ⟨.heroes, .front⟩ 1] ∧
      outcome.Accounts Outcome.fallenContext after := by
  have settled : Outcome.fallenContext.Settled := by
    rintro ⟨side, position⟩
    cases side <;> cases position <;> rfl
  have revived : ∃ result : Outcome × Context,
      process Handlers.builtin Outcome.reviveEffect Outcome.fallenContext =
        .ok (some result.1, result.2) ∧ result.1.changes = [.revived ⟨.heroes, .front⟩ 1] :=
    ⟨(_, _), rfl, rfl⟩
  obtain ⟨⟨outcome, after⟩, h, changes⟩ := revived
  exact ⟨Handlers.builtin_allBuiltin, settled, outcome, after, h, changes,
    (process_accounts Handlers.builtin_allBuiltin settled h).1⟩

end Combat
