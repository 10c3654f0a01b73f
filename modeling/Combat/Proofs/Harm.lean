import Combat.Proofs.DerivedStats
import Combat.Proofs.Vitals

/-!
What damage and healing do to hitpoints. Damage clamps at zero from below and healing at the
greatest value from above, so each goes the wrong way where hitpoints stand beyond its clamp: below
zero, where a lowered greatest value leaves them, and above the greatest value, where a revival
puts them.
-/

namespace Combat
open Checked

namespace Character

/-! ### Where hitpoints stand -/

/-- The living stand above their greatest hitpoints only as revived, with the one hitpoint that a
revival gives at least. -/
def Capped (c : Character) : Prop :=
  c.dead = false → c.hitpoints ≤ c.maxHitpoints ∨ c.hitpoints = 1 ∧ c.maxHitpoints ≤ 0

theorem withInnate_capped {c after : Character} {stats : StatBlock}
    (h : c.withInnate stats = .ok after) : after.Capped := by
  unfold withInnate at h
  obtain ⟨rebuilt, _, h⟩ := bind_ok h
  obtain rfl := pure_ok h
  intro _
  exact .inl (Int.le_refl _)

theorem rebuild_capped {c after : Character} (h : c.rebuild = .ok after) : after.Capped := by
  intro _
  have hitpoints := (rebuild_signs h).1
  omega

theorem takeDamage_capped {c after : Character} {amount : Int} {attacker : Option Seat}
    {blow : Blow} (capped : c.Capped) (h : c.takeDamage amount attacker = .ok (blow, after)) :
    after.Capped := by
  intro alive
  have was : c.dead = false := by
    cases was : c.dead with
    | false => rfl
    | true => exact absurd ((takeDamage_ok h).2.2.2 was) (by simp [alive])
  obtain ⟨hitpoints, dead⟩ := takeDamage_hitpoints was h
  have maximum : after.maxHitpoints = c.maxHitpoints := by
    rw [(takeDamage_ok h).1]
    rfl
  -- who lives after a blow has hitpoints left, so nothing was lifted to zero
  have left : after.hitpoints ≠ 0 := fun zero => by simp [dead.mpr zero] at alive
  have before := capped was
  omega

theorem heal_capped {c after : Character} {amount healed : Int} (capped : c.Capped)
    (h : c.heal amount = .ok (healed, after)) : after.Capped := by
  obtain rfl | ⟨-, -, rfl⟩ := heal_hitpoints h
  · exact capped
  · intro _
    exact .inl (Int.min_le_right ..)

theorem revive_capped {c after : Character} {percent : Int} {revived : Option Int}
    (capped : c.Capped) (h : c.revive percent = .ok (revived, after)) : after.Capped := by
  cases revived with
  | none =>
    obtain ⟨-, rfl⟩ | ⟨_, revived, -⟩ := revive_ok h
    · exact capped
    · cases revived
  | some hitpoints =>
    obtain ⟨-, rfl, low, high⟩ := revive_hitpoints h
    intro _
    change hitpoints ≤ c.maxHitpoints ∨ hitpoints = 1 ∧ c.maxHitpoints ≤ 0
    omega

theorem act_capped (action : Action) (before after : Character) (capped : before.Capped)
    (h : act action before = .ok after) : after.Capped := by
  cases act_acted h with
  | made done => exact withInnate_capped done
  | rebuilt innate gear auras worked => exact rebuild_capped worked
  | kept same =>
    rw [same]
    exact capped
  | damaged taken => exact takeDamage_capped capped taken
  | healed restored => exact heal_capped capped restored
  | energized restored =>
    rw [(restoreEnergy_ok restored).1]
    exact capped
  | revived done => exact revive_capped capped done

theorem Reachable.capped {c : Character} (reachable : c.Reachable) : c.Capped :=
  reachable.keeps (fun _ _ _ _ _ => .inl (Int.le_refl 0)) (fun dead => nomatch dead) act_capped

/-! ### Which way hitpoints go -/

theorem takeDamage_raises_iff {c after : Character} {amount : Int} {attacker : Option Seat}
    {blow : Blow} (h : c.takeDamage amount attacker = .ok (blow, after)) :
    c.hitpoints < after.hitpoints ↔ c.dead = false ∧ c.hitpoints < 0 := by
  cases alive : c.dead with
  | true =>
    rw [takeDamage_dead alive h]
    simp
  | false =>
    obtain ⟨hitpoints, -⟩ := takeDamage_hitpoints alive h
    rw [hitpoints]
    simp only [true_and]
    omega

theorem heal_alive {c after : Character} {amount healed : Int} (alive : c.dead = false)
    (gain : 0 < amount) (h : c.heal amount = .ok (healed, after)) :
    after.hitpoints = min (c.hitpoints + amount) c.maxHitpoints := by
  unfold heal at h
  rw [if_neg (by simp [alive, gain])] at h
  obtain ⟨sum, added, h⟩ := bind_ok h
  obtain ⟨gained, _, h⟩ := bind_ok h
  obtain ⟨-, rfl⟩ := pair_ok h
  rw [add_ok added]

theorem heal_lowers_iff {c after : Character} {amount healed : Int} (capped : c.Capped)
    (h : c.heal amount = .ok (healed, after)) :
    after.hitpoints < c.hitpoints ↔
      c.dead = false ∧ 0 < amount ∧ c.hitpoints = 1 ∧ c.maxHitpoints ≤ 0 := by
  constructor
  · intro lower
    obtain rfl | ⟨alive, gain, rfl⟩ := heal_hitpoints h
    · exact absurd lower (Int.lt_irrefl _)
    · have lower : min (c.hitpoints + amount) c.maxHitpoints < c.hitpoints := lower
      have stands := capped alive
      exact ⟨alive, gain, by omega, by omega⟩
  · rintro ⟨alive, gain, one, spent⟩
    have hitpoints := heal_alive alive gain h
    omega

end Character

/-- Of characters that come of a new one, damage raises the hitpoints exactly of the living who
stand below zero, and leaves these at zero and dead; healing lowers them exactly of the living who
stand at the one hitpoint of a revival over no greatest hitpoints, and leaves these at that
greatest. The amounts told are those lost and gained. -/
theorem Character.harm_and_heal {c : Character} (reachable : c.Reachable) :
    (∀ amount attacker blow after, c.takeDamage amount attacker = .ok (blow, after) →
      blow.amount = c.hitpoints - after.hitpoints ∧
      (c.hitpoints < after.hitpoints ↔ c.dead = false ∧ c.hitpoints < 0) ∧
      (c.hitpoints < after.hitpoints → after.hitpoints = 0 ∧ after.dead = true)) ∧
    ∀ amount healed after, c.heal amount = .ok (healed, after) →
      healed = after.hitpoints - c.hitpoints ∧
      (after.hitpoints < c.hitpoints ↔
        c.dead = false ∧ 0 < amount ∧ c.hitpoints = 1 ∧ c.maxHitpoints ≤ 0) ∧
      (after.hitpoints < c.hitpoints → after.hitpoints = c.maxHitpoints) := by
  constructor
  · intro amount attacker blow after h
    refine ⟨(takeDamage_ok h).2.1, takeDamage_raises_iff h, fun raised => ?_⟩
    obtain ⟨alive, below⟩ := (takeDamage_raises_iff h).mp raised
    obtain ⟨hitpoints, dead⟩ := takeDamage_hitpoints alive h
    have zero : after.hitpoints = 0 := by omega
    exact ⟨zero, dead.mpr zero⟩
  · intro amount healed after h
    refine ⟨(heal_ok h).2, heal_lowers_iff reachable.capped h, fun lowered => ?_⟩
    obtain ⟨alive, gain, one, spent⟩ := (heal_lowers_iff reachable.capped h).mp lowered
    have hitpoints := heal_alive alive gain h
    omega

/-! A fighter cursed to fewer than no hitpoints, and one struck down, stripped and revived. -/

namespace Character

def fighterStats : StatBlock := ({} : StatBlock).insert "hitpoints" 20

def cursedStats : StatBlock := ({} : StatBlock).insert "hitpoints" (-5)

def cursedActions : List Action := [.withInnate fighterStats, .setInnate cursedStats]

def strippedActions : List Action :=
  [.withInnate fighterStats, .takeDamage 20 none, .setInnate {}, .revive 50]

theorem reachable_play {actions : List Action} {c : Character}
    (h : play act actions { id := "f", name := "F", role := some "fighter" } = .ok c) :
    c.Reachable :=
  .becomes (.created "f" "F" (some "fighter") 100) ⟨actions, h⟩

end Character

theorem Character.harm_and_heal_cursed :
    ∃ c blow after healed same, Character.Reachable c ∧
      c.takeDamage 0 none = .ok (blow, after) ∧ c.heal 3 = .ok (healed, same) ∧
      blow.amount = -5 ∧ after.hitpoints = 0 ∧ after.dead = true ∧
      c.hitpoints ≤ same.hitpoints := by
  obtain ⟨c, blow, after, healed, same, played, hurt, mended, alive, below⟩ :
      ∃ c blow after healed same,
        play act cursedActions { id := "f", name := "F", role := some "fighter" } = .ok c ∧
        c.takeDamage 0 none = .ok (blow, after) ∧ c.heal 3 = .ok (healed, same) ∧
        c.dead = false ∧ c.hitpoints = -5 := ⟨_, _, _, _, _, rfl, rfl, rfl, rfl, rfl⟩
  have reachable := Character.reachable_play played
  obtain ⟨harm, heal⟩ := Character.harm_and_heal reachable
  obtain ⟨amount, raises, raised⟩ := harm 0 none blow after hurt
  obtain ⟨zero, dead⟩ := raised (raises.mpr ⟨alive, by omega⟩)
  obtain ⟨-, lowers, -⟩ := heal 3 healed same mended
  refine ⟨c, blow, after, healed, same, reachable, hurt, mended, by omega, zero, dead, ?_⟩
  refine Int.not_lt.mp fun lower => ?_
  have one := (lowers.mp lower).2.2.1
  omega

/-- A blow of nothing lifts the cursed fighter to zero, and the mending of the stripped one takes
its last hitpoint. -/
theorem Character.harm_heals_and_healing_harms :
    ¬(∀ c, Character.Reachable c → ∀ amount attacker blow after,
      c.takeDamage amount attacker = .ok (blow, after) →
        after.hitpoints ≤ c.hitpoints ∧ 0 ≤ blow.amount) ∧
    ¬∀ c, Character.Reachable c → ∀ amount healed after, c.heal amount = .ok (healed, after) →
      c.hitpoints ≤ after.hitpoints ∧ 0 ≤ healed := by
  constructor
  · intro claim
    obtain ⟨c, blow, after, played, hurt, amount⟩ : ∃ c blow after,
        play act cursedActions { id := "f", name := "F", role := some "fighter" } = .ok c ∧
        c.takeDamage 0 none = .ok (blow, after) ∧ blow.amount = -5 := ⟨_, _, _, rfl, rfl, rfl⟩
    have told := (claim c (Character.reachable_play played) 0 none blow after hurt).2
    omega
  · intro claim
    obtain ⟨c, healed, after, played, mended, amount⟩ : ∃ c healed after,
        play act strippedActions { id := "f", name := "F", role := some "fighter" } = .ok c ∧
        c.heal 5 = .ok (healed, after) ∧ healed = -1 := ⟨_, _, _, rfl, rfl, rfl⟩
    have told := (claim c (Character.reachable_play played) 5 healed after mended).2
    omega

/-- Where every action of a run leaves at least one greatest hitpoint, damage never raises
hitpoints and healing never lowers them. -/
theorem Character.Sustained.never_astray {start c : Character} {actions : List Action}
    (run : Sustained start actions c) (vital : start.Vital) (positive : 1 ≤ start.maxHitpoints) :
    (∀ amount attacker blow after, c.takeDamage amount attacker = .ok (blow, after) →
      after.hitpoints ≤ c.hitpoints ∧ 0 ≤ blow.amount) ∧
    ∀ amount healed after, c.heal amount = .ok (healed, after) →
      c.hitpoints ≤ after.hitpoints ∧ 0 ≤ healed := by
  obtain ⟨now, left⟩ := run.vital vital positive
  have nonneg := now.hitpoints_nonneg
  constructor
  · intro amount attacker blow after h
    have lost := (takeDamage_ok h).2.1
    have lower : ¬c.hitpoints < after.hitpoints := fun raised => by
      have below := ((takeDamage_raises_iff h).mp raised).2
      omega
    omega
  · intro amount healed after h
    have capped : c.Capped := fun _ => .inl now.hitpoints_le
    have gained := (heal_ok h).2
    have higher : ¬after.hitpoints < c.hitpoints := fun lowered => by
      have spent := ((heal_lowers_iff capped h).mp lowered).2.2.2
      omega
    omega

end Combat
