import Combat.Proofs.Totals

/-!
Vital signs. As long as every step leaves a character with at least one greatest hitpoint, its
hitpoints and energy stay within their bounds, and it is dead exactly when its hitpoints are zero.
-/

namespace Combat
open Checked

theorem Checked.clamp_ok {n low high m : Int} (h : clamp n low high = .ok m) :
    low ≤ high ∧ m = max low (min high n) := by
  unfold clamp at h
  split at h
  · cases h
  · cases h
    exact ⟨by omega, rfl⟩

namespace Character

structure Vital (c : Character) : Prop where
  hitpoints_nonneg : 0 ≤ c.hitpoints
  hitpoints_le : c.hitpoints ≤ c.maxHitpoints
  energy_nonneg : 0 ≤ c.energy
  energy_le : c.energy ≤ c.maxEnergy
  dead_iff : c.dead = true ↔ c.hitpoints = 0

/-! ### What the actions do to hitpoints and energy -/

/-- Of the vital signs, working the stats out anew changes the hitpoints only. -/
theorem rebuild_signs {c after : Character} (h : c.rebuild = .ok after) :
    after.hitpoints = min c.hitpoints after.maxHitpoints ∧ after.energy = c.energy ∧
      after.maxEnergy = c.maxEnergy ∧ after.dead = c.dead := by
  unfold rebuild at h
  obtain ⟨stats, _, h⟩ := bind_ok h
  obtain rfl := pure_ok h
  exact ⟨rfl, rfl, rfl, rfl⟩

theorem takeDamage_hitpoints {c after : Character} {amount : Int} {attacker : Option Seat}
    {blow : Blow} (alive : c.dead = false) (h : c.takeDamage amount attacker = .ok (blow, after)) :
    after.hitpoints = max (c.hitpoints - max amount 0) 0 ∧
      (after.dead = true ↔ after.hitpoints = 0) := by
  unfold takeDamage at h
  rw [if_neg (by simp [alive])] at h
  obtain ⟨left, subtracted, h⟩ := bind_ok h
  obtain ⟨lost, _, h⟩ := bind_ok h
  obtain ⟨-, rfl⟩ := pair_ok h
  rw [sub_ok subtracted]
  simp

theorem takeDamage_dead {c after : Character} {amount : Int} {attacker : Option Seat} {blow : Blow}
    (dead : c.dead = true) (h : c.takeDamage amount attacker = .ok (blow, after)) : after = c := by
  unfold takeDamage at h
  rw [if_pos dead] at h
  exact (pair_ok h).2.symm

theorem heal_hitpoints {c after : Character} {amount healed : Int}
    (h : c.heal amount = .ok (healed, after)) :
    after = c ∨ (c.dead = false ∧ 0 < amount ∧
      after = { c with hitpoints := min (c.hitpoints + amount) c.maxHitpoints }) := by
  unfold heal at h
  split at h
  · exact .inl (pair_ok h).2.symm
  · rename_i may
    obtain ⟨sum, added, h⟩ := bind_ok h
    obtain ⟨gained, _, h⟩ := bind_ok h
    obtain ⟨-, rfl⟩ := pair_ok h
    rw [add_ok added]
    simp only [Bool.or_eq_true, decide_eq_true_eq, not_or, Bool.not_eq_true] at may
    exact .inr ⟨may.1, by omega, rfl⟩

theorem restoreEnergy_energy {c after : Character} {amount restored : Int}
    (h : c.restoreEnergy amount = .ok (restored, after)) :
    0 ≤ c.maxEnergy ∧ after = { c with energy := max 0 (min c.maxEnergy (c.energy + amount)) } := by
  unfold restoreEnergy at h
  obtain ⟨sum, added, h⟩ := bind_ok h
  obtain ⟨energy, clamped, h⟩ := bind_ok h
  obtain ⟨gained, _, h⟩ := bind_ok h
  obtain ⟨-, rfl⟩ := pair_ok h
  obtain ⟨ordered, rfl⟩ := clamp_ok clamped
  rw [add_ok added]
  exact ⟨ordered, rfl⟩

theorem revive_hitpoints {c after : Character} {percent hitpoints : Int}
    (h : c.revive percent = .ok (some hitpoints, after)) :
    c.dead = true ∧ after = { c with dead := false, hitpoints } ∧
      1 ≤ hitpoints ∧ hitpoints ≤ max c.maxHitpoints 1 := by
  unfold revive at h
  split at h
  · exact nomatch (pair_ok h).1
  · rename_i may
    obtain ⟨whole, _, h⟩ := bind_ok h
    obtain ⟨share, clamped, h⟩ := bind_ok h
    obtain ⟨same, rfl⟩ := pair_ok h
    obtain rfl := Option.some.inj same
    obtain ⟨-, rfl⟩ := clamp_ok clamped
    simp only [Bool.or_eq_true, Bool.not_eq_true', not_or, Bool.not_eq_false] at may
    exact ⟨may.1, rfl, by omega, by omega⟩

/-! ### What each action keeps -/

theorem Vital.of_same {c other : Character} (vital : c.Vital)
    (hitpoints : other.hitpoints = c.hitpoints) (stats : other.stats = c.stats)
    (energy : other.energy = c.energy) (maxEnergy : other.maxEnergy = c.maxEnergy)
    (dead : other.dead = c.dead) : other.Vital where
  hitpoints_nonneg := by rw [hitpoints]; exact vital.hitpoints_nonneg
  hitpoints_le := by rw [hitpoints, maxHitpoints, stats]; exact vital.hitpoints_le
  energy_nonneg := by rw [energy]; exact vital.energy_nonneg
  energy_le := by rw [energy, maxEnergy]; exact vital.energy_le
  dead_iff := by rw [dead, hitpoints]; exact vital.dead_iff

theorem rebuild_vital {c after : Character} (vital : c.Vital) (h : c.rebuild = .ok after)
    (positive : 1 ≤ after.maxHitpoints) : after.Vital := by
  obtain ⟨nonneg, -, energyNonneg, energyLe, dead⟩ := vital
  obtain ⟨hitpoints, energy, maxEnergy, same⟩ := rebuild_signs h
  constructor
  case hitpoints_nonneg => omega
  case hitpoints_le => omega
  case energy_nonneg => omega
  case energy_le => omega
  case dead_iff =>
    rw [same, dead]
    omega

theorem takeDamage_vital {c after : Character} {amount : Int} {attacker : Option Seat} {blow : Blow}
    (vital : c.Vital) (h : c.takeDamage amount attacker = .ok (blow, after)) : after.Vital := by
  cases alive : c.dead with
  | true =>
    rw [takeDamage_dead alive h]
    exact vital
  | false =>
    obtain ⟨nonneg, le, energyNonneg, energyLe, -⟩ := vital
    obtain ⟨hitpoints, dead⟩ := takeDamage_hitpoints alive h
    obtain ⟨rest, -⟩ := takeDamage_ok h
    have maximum : after.maxHitpoints = c.maxHitpoints := by rw [rest]; rfl
    have energy : after.energy = c.energy := by rw [rest]
    have maxEnergy : after.maxEnergy = c.maxEnergy := by rw [rest]
    constructor
    case hitpoints_nonneg => omega
    case hitpoints_le => omega
    case energy_nonneg => rwa [energy]
    case energy_le => rwa [energy, maxEnergy]
    case dead_iff => exact dead

theorem heal_vital {c after : Character} {amount healed : Int} (vital : c.Vital)
    (positive : 1 ≤ c.maxHitpoints) (h : c.heal amount = .ok (healed, after)) : after.Vital := by
  obtain rfl | ⟨alive, gain, rfl⟩ := heal_hitpoints h
  · exact vital
  · obtain ⟨nonneg, le, energyNonneg, energyLe, dead⟩ := vital
    have standing : c.hitpoints ≠ 0 := by
      intro zero
      rw [dead.mpr zero] at alive
      cases alive
    refine ⟨?_, ?_, energyNonneg, energyLe, ?_⟩
    · change 0 ≤ min (c.hitpoints + amount) c.maxHitpoints
      omega
    · exact Int.min_le_right ..
    · change c.dead = true ↔ min (c.hitpoints + amount) c.maxHitpoints = 0
      rw [dead]
      omega

theorem restoreEnergy_vital {c after : Character} {amount restored : Int} (vital : c.Vital)
    (h : c.restoreEnergy amount = .ok (restored, after)) : after.Vital := by
  obtain ⟨ordered, rfl⟩ := restoreEnergy_energy h
  refine { vital with energy_nonneg := ?_, energy_le := ?_ }
  · exact Int.le_max_left ..
  · change max 0 (min c.maxEnergy (c.energy + amount)) ≤ c.maxEnergy
    omega

theorem revive_vital {c after : Character} {percent : Int} {revived : Option Int} (vital : c.Vital)
    (positive : 1 ≤ c.maxHitpoints) (h : c.revive percent = .ok (revived, after)) :
    after.Vital := by
  cases revived with
  | none =>
    obtain ⟨-, rfl⟩ | ⟨hitpoints, revived, -⟩ := revive_ok h
    · exact vital
    · cases revived
  | some hitpoints =>
    obtain ⟨-, rfl, low, high⟩ := revive_hitpoints h
    refine { vital with hitpoints_nonneg := ?_, hitpoints_le := ?_, dead_iff := ?_ }
    · change 0 ≤ hitpoints
      omega
    · change hitpoints ≤ c.maxHitpoints
      omega
    · change false = true ↔ hitpoints = 0
      simp only [Bool.false_eq_true, false_iff]
      omega

/-- Every action but taking innate stats together with full hitpoints, which is how a character is
made. -/
def Action.inPlay : Action → Bool
  | .withInnate _ => false
  | _ => true

theorem act_vital {action : Action} {before after : Character} (inPlay : action.inPlay = true)
    (vital : before.Vital) (standing : 1 ≤ before.maxHitpoints)
    (h : act action before = .ok after) (positive : 1 ≤ after.maxHitpoints) : after.Vital := by
  cases act_acted h with
  | made => cases inPlay
  | rebuilt innate gear auras worked =>
    have same : Vital { before with innate, gear, auras } := vital.of_same rfl rfl rfl rfl rfl
    exact rebuild_vital same worked positive
  | kept same =>
    rw [same]
    exact vital
  | damaged taken => exact takeDamage_vital vital taken
  | healed restored => exact heal_vital vital standing restored
  | energized restored => exact restoreEnergy_vital vital restored
  | revived done => exact revive_vital vital standing done

/-- Only a revival brings the dead back. -/
theorem act_dead {action : Action} {before after : Character} (inPlay : action.inPlay = true)
    (unrevived : ∀ percent, action ≠ .revive percent) (dead : before.dead = true)
    (h : act action before = .ok after) : after.dead = true := by
  cases act_acted h with
  | made => cases inPlay
  | rebuilt innate gear auras worked => exact (rebuild_signs worked).2.2.2.trans dead
  | kept same =>
    rw [same]
    exact dead
  | damaged taken => exact (takeDamage_ok taken).2.2.2 dead
  | healed restored =>
    rw [(heal_ok restored).1]
    exact dead
  | energized restored =>
    rw [(restoreEnergy_ok restored).1]
    exact dead
  | revived => exact absurd rfl (unrevived _)

/-! ### Runs -/

/-- A run of actions each of which leaves at least one greatest hitpoint. -/
inductive Sustained : Character → List Action → Character → Prop where
  | nil (c : Character) : Sustained c [] c
  | cons {c middle after : Character} {action : Action} {actions : List Action}
    (inPlay : action.inPlay = true) (h : act action c = .ok middle)
    (positive : 1 ≤ middle.maxHitpoints) (rest : Sustained middle actions after) :
    Sustained c (action :: actions) after

theorem Sustained.vital {c after : Character} {actions : List Action}
    (run : Sustained c actions after) (vital : c.Vital) (positive : 1 ≤ c.maxHitpoints) :
    after.Vital ∧ 1 ≤ after.maxHitpoints := by
  induction run with
  | nil c => exact ⟨vital, positive⟩
  | cons inPlay h left _ ih => exact ih (act_vital inPlay vital positive h left) left

theorem Sustained.dead {c after : Character} {actions : List Action}
    (run : Sustained c actions after) (dead : c.dead = true)
    (unrevived : ∀ percent, .revive percent ∉ actions) : after.dead = true := by
  induction run with
  | nil c => exact dead
  | cons inPlay h _ _ ih =>
    simp only [List.mem_cons, not_or] at unrevived
    exact ih (act_dead inPlay (fun percent => Ne.symm (unrevived percent).1) dead h)
      fun percent => (unrevived percent).2

theorem created_vital {id name : String} {role : Option String} {maxEnergy : Int}
    {stats : StatBlock} {c : Character} (positive : 1 ≤ stats.value StatBlock.hitpoints)
    (ordered : 0 ≤ maxEnergy)
    (made : withInnate { id, name, role, maxEnergy } stats = .ok c) :
    c.Vital ∧ 1 ≤ c.maxHitpoints := by
  unfold withInnate at made
  obtain ⟨rebuilt, worked, made⟩ := bind_ok made
  obtain rfl := pure_ok made
  have maximum : rebuilt.maxHitpoints = stats.value StatBlock.hitpoints :=
    StatBlock.ofSources_innate (rebuild_ok worked).1 _
  have standing : 1 ≤ rebuilt.maxHitpoints := by omega
  obtain ⟨-, energy, greatest, alive⟩ := rebuild_signs worked
  refine ⟨?_, standing⟩
  constructor
  case hitpoints_nonneg => exact Int.le_of_lt standing
  case hitpoints_le => exact Int.le_refl _
  case energy_nonneg => exact Int.le_of_eq energy.symm
  case energy_le =>
    change rebuilt.energy ≤ rebuilt.maxEnergy
    rw [energy, greatest]
    exact ordered
  case dead_iff =>
    change rebuilt.dead = true ↔ rebuilt.maxHitpoints = 0
    rw [alive]
    simp only [Bool.false_eq_true, false_iff]
    omega

end Character

/-- A character made with at least one hitpoint keeps its vital signs through every run of actions
that leaves its greatest hitpoints positive, revivals bring it back within its bounds, and until
one does the dead stay at zero. -/
theorem Character.vitals_hold {id name : String} {role : Option String} {maxEnergy : Int}
    {stats : StatBlock} {start c : Character} {actions : List Character.Action}
    (positive : 1 ≤ stats.value StatBlock.hitpoints) (ordered : 0 ≤ maxEnergy)
    (made : Character.withInnate { id, name, role, maxEnergy } stats = .ok start)
    (run : Character.Sustained start actions c) :
    (0 ≤ c.hitpoints ∧ c.hitpoints ≤ c.maxHitpoints ∧ 0 ≤ c.energy ∧ c.energy ≤ c.maxEnergy ∧
        (c.dead = true ↔ c.hitpoints = 0)) ∧
      (∀ percent hitpoints after, c.revive percent = .ok (some hitpoints, after) →
        1 ≤ hitpoints ∧ hitpoints ≤ after.maxHitpoints ∧ after.hitpoints = hitpoints ∧
          after.dead = false) ∧
      ∀ more after, c.dead = true → (∀ percent, .revive percent ∉ more) →
        Character.Sustained c more after → after.dead = true ∧ after.hitpoints = 0 := by
  obtain ⟨vital, standing⟩ := created_vital positive ordered made
  obtain ⟨now, left⟩ := run.vital vital standing
  refine ⟨⟨now.hitpoints_nonneg, now.hitpoints_le, now.energy_nonneg, now.energy_le, now.dead_iff⟩,
    ?_, ?_⟩
  · intro percent hitpoints after revived
    obtain ⟨-, rfl, low, high⟩ := revive_hitpoints revived
    have bounded : hitpoints ≤ c.maxHitpoints := by omega
    exact ⟨low, bounded, rfl, rfl⟩
  · intro more after dead unrevived later
    have still := later.dead dead unrevived
    exact ⟨still, (later.vital now left).1.dead_iff.mp still⟩

/-! A squire put into mail, struck down, stripped while dead, healed in vain and revived. -/

namespace Character

def mail : StatBlock := ({} : StatBlock).insert "hitpoints" 10

def squireStats : StatBlock := ({} : StatBlock).insert "hitpoints" 20

def squireActions : List Action :=
  [.equip .body mail, .restoreEnergy 130, .restoreEnergy (-30), .takeDamage 40 none]

end Character

theorem Character.vitals_hold_fallen :
    ∃ start fallen risen,
      Character.withInnate { id := "s", name := "S", role := some "squire" } squireStats =
        .ok start ∧
      Character.Sustained start squireActions fallen ∧
      fallen.revive 50 = .ok (some 15, risen) ∧
      (0 ≤ fallen.hitpoints ∧ fallen.hitpoints ≤ fallen.maxHitpoints ∧ 0 ≤ fallen.energy ∧
        fallen.energy ≤ fallen.maxEnergy ∧ (fallen.dead = true ↔ fallen.hitpoints = 0)) ∧
      (1 ≤ (15 : Int) ∧ 15 ≤ risen.maxHitpoints ∧ risen.hitpoints = 15 ∧ risen.dead = false) ∧
      ∃ later, Character.Sustained fallen [.unequip .body, .heal 8] later ∧
        later.dead = true ∧ later.hitpoints = 0 := by
  obtain ⟨start, fallen, risen, later, made, run, revived, dead, more⟩ : ∃ start fallen risen later,
      Character.withInnate { id := "s", name := "S", role := some "squire" } squireStats =
        .ok start ∧
      Character.Sustained start squireActions fallen ∧
      fallen.revive 50 = .ok (some 15, risen) ∧ fallen.dead = true ∧
      Character.Sustained fallen [.unequip .body, .heal 8] later :=
    ⟨_, _, _, _, rfl,
      .cons rfl rfl (by decide) <| .cons rfl rfl (by decide) <| .cons rfl rfl (by decide) <|
        .cons rfl rfl (by decide) <| .nil _,
      rfl, rfl, .cons rfl rfl (by decide) <| .cons rfl rfl (by decide) <| .nil _⟩
  obtain ⟨bounds, revives, stays⟩ := Character.vitals_hold (by decide) (by decide) made run
  exact ⟨start, fallen, risen, made, run, revived, bounds, revives 50 15 risen revived, later, more,
    stays _ later dead (by simp) more⟩

end Combat
