import Combat.Proofs.Resolution.Pass

/-!
Derived stats are never stale. The modifiers that aura slots keep are those of their active auras,
and the stats that a character keeps are what its sources come to, after every action and after
every effect and pass that a fight resolves.
-/

namespace Combat
open Checked

/-- What a modifier of the slot is worth before stacks: the stored amount rounded down, or else the
effect's own. -/
def AuraSlot.worth (slot : AuraSlot) (effect : Effect) : Int :=
  match slot.amount with
  | some amount => Binary64.toInt (Binary64.floor amount)
  | none => effect.amountValue none

/-- The modifier that an effect of a carried aura is, told without faults. -/
def AuraSlot.contributed? (slot : AuraSlot) (held : RegisteredAura) (effect : Effect) :
    Option StatModifier :=
  match effect.kind with
  | .statModifier stat percent =>
    let times := if effect.stack then slot.stackCount.toInt else 1
    some { aura := held.id, stat, value := slot.worth effect * times, percent }
  | _ => none

/-- The modifiers of an active slot, in the order of its aura's effects. -/
def AuraSlot.contribution (slot : AuraSlot) : List StatModifier :=
  match slot.held with
  | some held => if slot.isActive then held.aura.effects.filterMap (slot.contributed? held) else []
  | none => []

/-- The sources of a character's stats, with the modifiers taken from its aura slots. -/
def Character.freshSources (c : Character) : List StatSource :=
  .innate c.innate :: (c.gear.map fun item => .worn item.1 item.2) ++
    [.auras (c.auras.slots.flatMap AuraSlot.contribution)]

/-! ### Modifiers of aura slots -/

namespace AuraSlot

theorem modifier?_ok {slot : AuraSlot} {held : RegisteredAura} {effect : Effect}
    {answer : Option StatModifier} (h : slot.modifier? held effect = .ok answer) :
    answer = slot.contributed? held effect := by
  rw [modifier?] at h
  rw [contributed?]
  cases kind : effect.kind with
  | statModifier stat percent =>
    rw [kind] at h
    dsimp only at h ⊢
    rw [ite_bind] at h
    obtain ⟨value, scaled, h⟩ := bind_ok h
    obtain rfl := pure_ok h
    have scales : value =
        slot.worth effect * if effect.stack then slot.stackCount.toInt else 1 := by
      split at scaled
      · rename_i perStack
        rw [if_pos perStack]
        exact mul_ok scaled
      · rename_i once
        rw [if_neg once, Int.mul_one]
        exact (pure_ok scaled).symm
    rw [scales]
  | _ =>
    rw [kind] at h
    exact (pure_ok h).symm

theorem modifiers_ok {slot : AuraSlot} {modifiers : List StatModifier}
    (h : slot.modifiers = .ok modifiers) : modifiers = slot.contribution := by
  unfold AuraSlot.modifiers at h
  unfold contribution
  cases holds : slot.held with
  | none =>
    rw [holds] at h
    exact (pure_ok h).symm
  | some held =>
    rw [holds] at h
    dsimp only at h ⊢
    split at h
    · rename_i active
      obtain ⟨answers, mapped, h⟩ := bind_ok h
      obtain rfl := pure_ok h
      rw [if_pos active, mapM_ok modifier?_ok mapped, List.filterMap_map]
      rfl
    · rename_i inactive
      rw [if_neg inactive, pure_ok h]

end AuraSlot

namespace AuraSlots

def UpToDate (auras : AuraSlots) : Prop :=
  auras.modifiers = auras.slots.flatMap AuraSlot.contribution

theorem ofSlots_upToDate {slots : List AuraSlot} {auras : AuraSlots}
    (h : ofSlots slots = .ok auras) : auras.UpToDate := by
  unfold ofSlots contributions at h
  obtain ⟨modifiers, worked, h⟩ := bind_ok h
  obtain ⟨parts, mapped, worked⟩ := bind_ok worked
  obtain rfl := pure_ok worked
  obtain rfl := pure_ok h
  rw [UpToDate, mapM_ok AuraSlot.modifiers_ok mapped, List.flatMap_def]

theorem act_upToDate (action : Action) (before after : AuraSlots) (fresh : before.UpToDate)
    (h : act action before = .ok after) : after.UpToDate := by
  obtain rfl | ⟨slots, worked⟩ := act_ok h
  · exact fresh
  · exact ofSlots_upToDate worked

end AuraSlots

/-! ### Stats of characters -/

namespace Character

/-- Both layers of what is derived: the modifiers that the slots keep, and the stats. -/
structure UpToDate (c : Character) : Prop where
  modifiers : c.auras.UpToDate
  stats : StatBlock.ofSources c.sources = .ok c.stats

theorem UpToDate.of_same {c after : Character} (fresh : c.UpToDate)
    (innate : after.innate = c.innate) (gear : after.gear = c.gear) (auras : after.auras = c.auras)
    (stats : after.stats = c.stats) : after.UpToDate where
  modifiers := by
    rw [auras]
    exact fresh.modifiers
  stats := by
    rw [sources, innate, gear, auras, stats]
    exact fresh.stats

theorem rebuild_upToDate {c after : Character} (modifiers : c.auras.UpToDate)
    (h : c.rebuild = .ok after) : after.UpToDate := by
  obtain ⟨worked, rebuilt⟩ := rebuild_ok h
  constructor
  case modifiers =>
    rw [rebuilt]
    exact modifiers
  case stats =>
    have same : after.sources = c.sources := by
      rw [rebuilt]
      rfl
    rw [same]
    exact worked

theorem UpToDate.rebuild_eq {c : Character} (fresh : c.UpToDate) :
    c.rebuild = .ok { c with hitpoints := min c.hitpoints c.maxHitpoints } := by
  rw [rebuild, fresh.stats]
  rfl

theorem withInnate_upToDate {c after : Character} {stats : StatBlock} (fresh : c.UpToDate)
    (h : c.withInnate stats = .ok after) : after.UpToDate := by
  unfold withInnate at h
  obtain ⟨rebuilt, worked, h⟩ := bind_ok h
  obtain rfl := pure_ok h
  have current := rebuild_upToDate (c := { c with innate := stats }) fresh.modifiers worked
  exact current.of_same rfl rfl rfl rfl

theorem unequip_upToDate {c after : Character} {slot : GearSlot} {item : Option StatBlock}
    (fresh : c.UpToDate) (h : c.unequip slot = .ok (item, after)) : after.UpToDate := by
  unfold unequip at h
  split at h
  · obtain ⟨rebuilt, worked, h⟩ := bind_ok h
    obtain ⟨-, rfl⟩ := pair_ok h
    exact rebuild_upToDate (c := { c with gear := c.gear.filter (·.1 ≠ slot) }) fresh.modifiers
      worked
  · obtain ⟨-, rfl⟩ := pair_ok h
    exact fresh

theorem takeDamage_upToDate {c after : Character} {amount : Int} {attacker : Option Seat}
    {blow : Blow} (fresh : c.UpToDate) (h : c.takeDamage amount attacker = .ok (blow, after)) :
    after.UpToDate := by
  rw [(takeDamage_ok h).1]
  exact fresh.of_same rfl rfl rfl rfl

theorem heal_upToDate {c after : Character} {amount healed : Int} (fresh : c.UpToDate)
    (h : c.heal amount = .ok (healed, after)) : after.UpToDate := by
  rw [(heal_ok h).1]
  exact fresh.of_same rfl rfl rfl rfl

theorem restoreEnergy_upToDate {c after : Character} {amount restored : Int} (fresh : c.UpToDate)
    (h : c.restoreEnergy amount = .ok (restored, after)) : after.UpToDate := by
  rw [(restoreEnergy_ok h).1]
  exact fresh.of_same rfl rfl rfl rfl

theorem revive_upToDate {c after : Character} {percent : Int} {revived : Option Int}
    (fresh : c.UpToDate) (h : c.revive percent = .ok (revived, after)) : after.UpToDate := by
  obtain ⟨-, rfl⟩ | ⟨hitpoints, -, -, rfl⟩ := revive_ok h
  · exact fresh
  · exact fresh.of_same rfl rfl rfl rfl

theorem withAuras_upToDate {α : Type} {c after : Character} {result : α}
    {change : AuraSlots → Checked (α × AuraSlots)}
    (keeps : ∀ {result auras}, change c.auras = .ok (result, auras) → auras.UpToDate)
    (h : c.withAuras change = .ok (result, after)) : after.UpToDate := by
  obtain ⟨auras, changed, worked⟩ := withAuras_ok h
  exact rebuild_upToDate (c := { c with auras }) (keeps changed) worked

theorem act_upToDate (action : Action) (before after : Character) (fresh : before.UpToDate)
    (h : act action before = .ok after) : after.UpToDate := by
  cases action with
  | withInnate stats => exact withInnate_upToDate fresh h
  | setInnate stats =>
    exact rebuild_upToDate (c := { before with innate := stats }) fresh.modifiers h
  | equip slot item =>
    exact rebuild_upToDate (c := { before with gear := wear slot item before.gear })
      fresh.modifiers h
  | unequip slot =>
    obtain ⟨⟨item, c⟩, done, h⟩ := bind_ok h
    obtain rfl := pure_ok h
    exact unequip_upToDate fresh done
  | rebuild => exact rebuild_upToDate fresh.modifiers h
  | takeDamage amount attacker =>
    obtain ⟨⟨blow, c⟩, done, h⟩ := bind_ok h
    obtain rfl := pure_ok h
    exact takeDamage_upToDate fresh done
  | heal amount =>
    obtain ⟨⟨healed, c⟩, done, h⟩ := bind_ok h
    obtain rfl := pure_ok h
    exact heal_upToDate fresh done
  | restoreEnergy amount =>
    obtain ⟨⟨restored, c⟩, done, h⟩ := bind_ok h
    obtain rfl := pure_ok h
    exact restoreEnergy_upToDate fresh done
  | revive percent =>
    obtain ⟨⟨revived, c⟩, done, h⟩ := bind_ok h
    obtain rfl := pure_ok h
    exact revive_upToDate fresh done
  | changeAuras actions =>
    obtain ⟨⟨_, c⟩, changed, h⟩ := bind_ok h
    obtain rfl := pure_ok h
    refine withAuras_upToDate (fun run => ?_) changed
    obtain ⟨auras, played, run⟩ := bind_ok run
    obtain ⟨-, rfl⟩ := pair_ok run
    exact play_keeps AuraSlots.act_upToDate fresh.modifiers played

/-- The characters that come of a new one by actions, by effects and by passes. -/
inductive Reachable : Character → Prop where
  | created (id name : String) (role : Option String) (maxEnergy : Int) :
    Reachable { id, name, role, maxEnergy }
  | empty : Reachable Character.empty
  | acted {c after : Character} (reachable : Reachable c) (action : Action)
    (h : act action c = .ok after) : Reachable after
  | resolved {handlers : Handlers} {effect : Effect} {ctx after : Context}
    {outcome : Option Outcome} {seat : Seat} (reachable : Reachable (ctx.get seat))
    (builtin : handlers.AllBuiltin) (h : process handlers effect ctx = .ok (outcome, after)) :
    Reachable (after.get seat)
  | triggered {handlers : Handlers} {owner : Seat} {trigger : Trigger} {ctx after : Context}
    {outcomes : List Outcome} {seat : Seat} (reachable : Reachable (ctx.get seat))
    (builtin : handlers.AllBuiltin)
    (h : triggerAuras handlers owner trigger ctx = .ok (outcomes, after)) :
    Reachable (after.get seat)

/-- What every action keeps of a character holds of all that come of a new one. -/
theorem Reachable.keeps {P : Character → Prop}
    (created : ∀ id name role maxEnergy, P { id, name, role, maxEnergy })
    (empty : P Character.empty)
    (keeps : ∀ action before after, P before → act action before = .ok after → P after)
    {c : Character} (reachable : Reachable c) : P c := by
  induction reachable with
  | created id name role maxEnergy => exact created id name role maxEnergy
  | empty => exact empty
  | acted _ action h kept => exact keeps action _ _ kept h
  | resolved _ builtin h kept => exact Leads.keeps keeps kept ((process_evolves builtin h).acted _)
  | triggered _ builtin h kept =>
    rw [AuraPass.triggerAuras_eq_turnsOf] at h
    obtain ⟨⟨turns, last⟩, taken, h⟩ := map_ok h
    obtain ⟨-, rfl⟩ := Prod.mk.inj h
    exact Leads.keeps keeps kept ((AuraPass.turns_evolves builtin rfl taken).acted _)

theorem Reachable.becomes {c after : Character} (reachable : Reachable c) (h : c.Becomes after) :
    Reachable after :=
  Leads.keeps (fun action _ _ reachable h => .acted reachable action h) reachable h

theorem Reachable.upToDate {c : Character} (reachable : Reachable c) : c.UpToDate :=
  reachable.keeps (fun _ _ _ _ => ⟨rfl, rfl⟩) ⟨rfl, rfl⟩ act_upToDate

end Character

/-- Whatever was done to a character, its modifiers are those of its active auras, its stats are
what its sources come to, and working them out anew changes no more than its hitpoints. -/
theorem Character.derived_never_stale {c : Character} (reachable : Character.Reachable c) :
    c.auras.modifiers = c.auras.slots.flatMap AuraSlot.contribution ∧
      StatBlock.ofSources c.freshSources = .ok c.stats ∧
      c.rebuild = .ok { c with hitpoints := min c.hitpoints c.maxHitpoints } := by
  have fresh := reachable.upToDate
  have modifiers : c.auras.modifiers = c.auras.slots.flatMap AuraSlot.contribution :=
    fresh.modifiers
  refine ⟨modifiers, ?_, fresh.rebuild_eq⟩
  rw [freshSources, ← modifiers]
  exact fresh.stats

/-! A fighter with a sword, weakened twice and freed once. -/

namespace Character

def weaknessAura : Aura :=
  { id := "weakness", name := "Weakness", stackPolicy := .stack, combine := true
    effects := [{ kind := .statModifier "strength" true, stack := true },
      { kind := .statModifier "hitpoints" false }] }

def swordStats : StatBlock := ({} : StatBlock).insert "strength" 5

def fighterActions : List Action :=
  [.setInnate (({} : StatBlock).insert "hitpoints" 20), .equip .weapon swordStats,
    .changeAuras [.add ⟨0, weaknessAura⟩ { stackCount := 2 },
      .removeStacks "weakness" 1], .rebuild]

end Character

theorem Character.derived_never_stale_weakened :
    ∃ c, Character.Reachable c ∧ c.auras.modifiers.map (·.stat) = ["strength", "hitpoints"] ∧
      c.stats.value "strength" = 5 ∧
      c.auras.modifiers = c.auras.slots.flatMap AuraSlot.contribution ∧
      StatBlock.ofSources c.freshSources = .ok c.stats ∧
      c.rebuild = .ok { c with hitpoints := min c.hitpoints c.maxHitpoints } := by
  have played : ∃ c, play act fighterActions { id := "f", name := "F", role := some "fighter" } =
      .ok c ∧ c.auras.modifiers.map (·.stat) = ["strength", "hitpoints"] ∧
      c.stats.value "strength" = 5 := ⟨_, rfl, rfl, rfl⟩
  obtain ⟨c, h, modifiers, strength⟩ := played
  have reachable : Character.Reachable c :=
    Reachable.becomes (.created "f" "F" (some "fighter") 100) ⟨fighterActions, h⟩
  exact ⟨c, reachable, modifiers, strength, Character.derived_never_stale reachable⟩

end Combat
