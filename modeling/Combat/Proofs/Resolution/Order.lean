import Combat.Proofs.Resolution.Frame
import Mathlib.Data.List.Flatten
import Mathlib.Data.List.Nodup

/-!
The order in which an effect takes its targets. A handler has fixed what it does before it takes the
first of them, and its step reads of the encounter only the character it is at; so each target gets
what it would get alone, and what all of them leave behind is told target by target.
-/

namespace Combat
open Checked

/-- What comes of one target. -/
structure Dealt where
  changes : List Change
  lines : List String
  becomes : Character

instance : Inhabited Dealt := ⟨[], [], .empty⟩

namespace Context

def deal (ctx : Context) (target : Seat) (dealt : Dealt) : Context :=
  { ctx.setCharacter target dealt.becomes with log := ctx.log ++ dealt.lines }

/-- Where the seats have all been dealt with. -/
def settled (ctx : Context) (dealt : Seat → Dealt) (targets : List Seat) : Context :=
  { ctx with
    encounter := targets.foldl
      (fun encounter target => encounter.set target (dealt target).becomes) ctx.encounter
    log := ctx.log ++ targets.flatMap fun target => (dealt target).lines }

variable {ctx : Context} {dealt : Seat → Dealt} {targets others : List Seat}

theorem get_deal_other {target seat : Seat} {one : Dealt} (other : target ≠ seat) :
    (ctx.deal target one).get seat = ctx.get seat :=
  (get_setCharacter ctx target seat one.becomes).trans (if_neg other)

/-- A target that stays as it is and has nothing said of it. -/
theorem deal_unchanged (ctx : Context) (target : Seat) (changes : List Change) :
    ctx.deal target ⟨changes, [], ctx.get target⟩ = ctx := by
  rw [deal, setCharacter_get, List.append_nil]

theorem settled_nil : ctx.settled dealt [] = ctx := by
  simp only [settled, List.foldl_nil, List.flatMap_nil, List.append_nil]

theorem settled_cons (target : Seat) :
    ctx.settled dealt (target :: targets) =
      (ctx.deal target (dealt target)).settled dealt targets := by
  simp only [settled, deal, setCharacter, List.foldl_cons, List.flatMap_cons, List.append_assoc]

theorem settled_get (seat : Seat) :
    (ctx.settled dealt targets).get seat =
      if seat ∈ targets then (dealt seat).becomes else ctx.get seat := by
  induction targets generalizing ctx with
  | nil => rw [settled_nil, if_neg List.not_mem_nil]
  | cons target rest ih =>
    rw [settled_cons, ih]
    by_cases listed : seat ∈ rest
    · rw [if_pos listed, if_pos (List.mem_cons_of_mem target listed)]
    · rw [if_neg listed]
      by_cases same : target = seat
      · subst same
        rw [if_pos List.mem_cons_self]
        exact get_setCharacter_self ..
      · have unlisted : seat ∉ target :: rest := by
          rw [List.mem_cons, not_or]
          exact ⟨Ne.symm same, listed⟩
        rw [get_deal_other same, if_neg unlisted]

theorem settled_perm (reordered : targets.Perm others) :
    ctx.settled dealt others =
      { ctx.settled dealt targets with
        log := ctx.log ++ others.flatMap fun target => (dealt target).lines } := by
  have alike : (ctx.settled dealt others).encounter = (ctx.settled dealt targets).encounter := by
    apply Encounter.ext_get
    intro seat
    show (ctx.settled dealt others).get seat = (ctx.settled dealt targets).get seat
    simp only [settled_get, reordered.mem_iff]
  show { ctx with encounter := (ctx.settled dealt others).encounter, log := _ } = _
  rw [alike]
  rfl

end Context

namespace Handler
open Context

/-- What the step does to a target depends on that target and on who is credited, and on nothing
else of the context. -/
def Separate (step : Seat → Context → Checked (List Change × Context))
    (deed : Option Seat → Seat → Character → Checked Dealt) : Prop :=
  ∀ target ctx, step target ctx =
    (fun dealt => (dealt.changes, ctx.deal target dealt)) <$>
      deed ctx.damageSource target (ctx.get target)

/-! ### One target after another -/

section
variable {step : Seat → Context → Checked (List Change × Context)}
  {deed : Option Seat → Seat → Character → Checked Dealt}

theorem Separate.deeds_finish (separate : Separate step deed) {targets : List Seat}
    {ctx after : Context} {changes : List Change} (distinct : targets.Nodup)
    (h : forEach step targets ctx = .ok (changes, after)) :
    ∀ target ∈ targets, (deed ctx.damageSource target (ctx.get target)).Finishes := by
  induction targets generalizing ctx changes with
  | nil => exact fun _ member => absurd member List.not_mem_nil
  | cons first rest ih =>
    obtain ⟨fresh, distinct⟩ := List.nodup_cons.mp distinct
    obtain ⟨⟨_, middle⟩, acted, h⟩ := bind_ok h
    obtain ⟨⟨_, last⟩, later, h⟩ := bind_ok h
    obtain ⟨-, rfl⟩ := pair_ok h
    rw [separate] at acted
    obtain ⟨dealt, done, moved⟩ := map_ok acted
    obtain rfl := (Prod.mk.inj moved).2
    intro target member
    rcases List.mem_cons.mp member with rfl | member
    · exact ⟨dealt, done⟩
    · -- a later target is as the row found it, since the first is another
      have other : first ≠ target := fun same => fresh (same ▸ member)
      have finishes := ih distinct later target member
      rwa [get_deal_other other] at finishes

/-- No step is in the way of a later one. -/
theorem Separate.forEach_settled (separate : Separate step deed) {dealt : Seat → Dealt}
    {targets : List Seat} {ctx : Context} (distinct : targets.Nodup)
    (deeds : ∀ target ∈ targets,
      deed ctx.damageSource target (ctx.get target) = .ok (dealt target)) :
    forEach step targets ctx =
      .ok (targets.flatMap fun target => (dealt target).changes, ctx.settled dealt targets) := by
  induction targets generalizing ctx with
  | nil =>
    rw [settled_nil]
    rfl
  | cons first rest ih =>
    obtain ⟨fresh, distinct⟩ := List.nodup_cons.mp distinct
    have later : forEach step rest (ctx.deal first (dealt first)) =
        .ok (rest.flatMap fun target => (dealt target).changes,
          (ctx.deal first (dealt first)).settled dealt rest) := by
      apply ih distinct
      intro target member
      have other : first ≠ target := fun same => fresh (same ▸ member)
      rw [get_deal_other other]
      exact deeds target (List.mem_cons_of_mem first member)
    rw [forEach, separate, deeds first List.mem_cons_self]
    show (forEach step rest (ctx.deal first (dealt first)) >>= _) = _
    rw [later, settled_cons, List.flatMap_cons]
    rfl

end

/-! ### The steps -/

theorem damageOne_separate (amount : Int) :
    Separate (damageOne amount) fun source target c => do
      let (blow, c) ← c.takeDamage amount source
      return {
        changes := [.damage target blow.amount blow.killing]
        lines := s!"{c.name} takes {blow.amount} damage" ::
          if blow.killing then [s!"{c.name} is defeated"] else []
        becomes := c } := by
  intro target ctx
  unfold damageOne
  rw [map_bind]
  apply bind_congr
  rintro ⟨blow, c⟩
  dsimp only
  split
  · simp only [deal, say, List.append_assoc, map_pure]
    rfl
  · rfl

theorem healOne_separate (mode : HealMode) (amount : Int) :
    Separate (healOne mode amount) fun _ target c => do
      let (healed, c) ← c.heal (← healAmount mode amount c)
      return {
        changes := [.heal target healed]
        lines := if 0 < healed then [s!"{c.name} recovers {healed} hitpoints"] else []
        becomes := c } := by
  intro target ctx
  unfold healOne
  rw [map_bind]
  apply bind_congr
  intro value
  rw [map_bind]
  apply bind_congr
  rintro ⟨healed, c⟩
  dsimp only
  split
  · rfl
  · simp only [deal, List.append_nil, map_pure]
    rfl

theorem restoreEnergyOne_separate (amount : Int) :
    Separate (restoreEnergyOne amount) fun _ target c => do
      let (restored, c) ← c.restoreEnergy amount
      return { changes := [.energyRestored target restored], lines := [], becomes := c } := by
  intro target ctx
  unfold restoreEnergyOne
  rw [map_bind]
  apply bind_congr
  rintro ⟨restored, c⟩
  simp only [deal, List.append_nil, map_pure]
  rfl

theorem reviveOne_separate (percent : Int) :
    Separate (reviveOne percent) fun _ target before => do
      match ← before.revive percent with
      | (some hitpoints, c) =>
        return {
          changes := [.revived target hitpoints]
          lines := [s!"{c.name} is revived with {hitpoints} hitpoints"]
          becomes := c }
      | (none, _) => return { changes := [], lines := [], becomes := before } := by
  intro target ctx
  unfold reviveOne
  rw [map_bind]
  apply bind_congr
  rintro ⟨revived, c⟩
  cases revived with
  | none =>
    dsimp only
    rw [map_pure, deal_unchanged]
  | some hitpoints => rfl

theorem applyOne_separate (held : RegisteredAura) (application : AuraApplication) :
    Separate (applyOne held application) fun _ target c => do
      let (added, c) ← c.withAuras (·.add held application)
      match added with
      | none => return { changes := [], lines := [], becomes := c }
      | some _ =>
        let stackCount ← c.auras.stacksOf held.id
        return {
          changes := [.auraApplied target held.id stackCount]
          lines := [s!"{c.name} gains {held.aura.name} ({stackCount.val})"]
          becomes := c } := by
  intro target ctx
  unfold applyOne
  rw [map_bind]
  apply bind_congr
  rintro ⟨added, c⟩
  cases added with
  | none =>
    simp only [deal, List.append_nil, map_pure]
    rfl
  | some place =>
    dsimp only
    rw [map_bind]
    rfl

/-- What a removal makes of one target. -/
def stripped (id : String) (count : Option Count) (target : Seat) (c : Character) :
    Checked Dealt := do
  let (removed, c) ← c.withAuras fun auras =>
    match count with
    | some count => auras.removeStacks id count
    | none => auras.remove id
  return {
    changes := if removed then [.auraRemoved target id] else []
    lines := if removed then [s!"{c.name} loses {id}"] else []
    becomes := c }

theorem removeOne_separate (id : String) (count : Option Count) :
    Separate (removeOne id count) fun _ => stripped id count := by
  intro target ctx
  unfold removeOne stripped
  rw [map_bind]
  apply bind_congr
  rintro ⟨removed, c⟩
  cases removed with
  | true => rfl
  | false =>
    simp only [deal, map_pure, Bool.false_eq_true, if_false, List.append_nil]
    rfl

theorem pass_separate :
    Separate (fun _ ctx => return ([], ctx)) fun _ _ c =>
      return { changes := [], lines := [], becomes := c } := by
  intro target ctx
  rw [map_pure, deal_unchanged]

theorem forEach_pass (targets : List Seat) (ctx : Context) :
    forEach (fun _ ctx => return ([], ctx)) targets ctx = .ok ([], ctx) := by
  induction targets with
  | nil => rfl
  | cons target rest ih =>
    show (forEach _ rest ctx >>= _) = _
    rw [ih]
    rfl

/-! ### Handlers -/

section
variable {effect : Effect} {targets : List Seat} {ctx after : Context} {changes : List Change}

/-- The step is settled by the effect and the context the handler begins in, whoever the targets
are. -/
theorem builtin_separate {type : EffectType} (lands : type.targetsCharacters = true)
    (h : Handler.builtin type effect targets ctx = .ok (changes, after)) :
    ∃ step deed, Separate step deed ∧
      ∀ others, Handler.builtin type effect others ctx = forEach step others ctx := by
  cases type with
  | damage =>
    obtain ⟨amount, told, -⟩ := bind_ok h
    refine ⟨damageOne amount, _, damageOne_separate amount, fun others => ?_⟩
    show (damageAmount effect ctx >>= _) = _
    rw [told]
    rfl
  | heal => exact ⟨_, _, healOne_separate _ _, fun _ => rfl⟩
  | restoreEnergy => exact ⟨_, _, restoreEnergyOne_separate _, fun _ => rfl⟩
  | revive => exact ⟨_, _, reviveOne_separate _, fun _ => rfl⟩
  | applyAura kind =>
    clear h
    simp only [Handler.builtin, applyAura]
    split
    · split
      · exact ⟨_, _, applyOne_separate _ _, fun _ => rfl⟩
      · exact ⟨_, _, pass_separate, fun others => (forEach_pass others ctx).symm⟩
    · exact ⟨_, _, pass_separate, fun others => (forEach_pass others ctx).symm⟩
  | removeAura kind =>
    clear h
    simp only [Handler.builtin, removeAura]
    split
    · split
      · exact ⟨_, _, removeOne_separate _ _, fun _ => rfl⟩
      · exact ⟨_, _, pass_separate, fun others => (forEach_pass others ctx).symm⟩
    · exact ⟨_, _, pass_separate, fun others => (forEach_pass others ctx).symm⟩
  | statModifier => cases lands
  | grantMaterial => cases lands
  | consumeMaterial => cases lands

/-- Each target gets what it would get alone, in whatever order they are taken. -/
theorem targets_in_any_order {type : EffectType} {others : List Seat}
    (lands : type.targetsCharacters = true) (distinct : targets.Nodup)
    (reordered : targets.Perm others)
    (h : Handler.builtin type effect targets ctx = .ok (changes, after)) :
    ∃ (records : Seat → List Change) (lines : Seat → List String),
      changes = targets.flatMap records ∧ after.log = ctx.log ++ targets.flatMap lines ∧
      Handler.builtin type effect others ctx =
        .ok (others.flatMap records, { after with log := ctx.log ++ others.flatMap lines }) ∧
      ∀ target ∈ targets, ∃ alone,
        Handler.builtin type effect [target] ctx = .ok (records target, alone) ∧
        alone.get target = after.get target ∧ alone.log = ctx.log ++ lines target := by
  obtain ⟨step, deed, separate, steps⟩ := builtin_separate lands h
  rw [steps] at h
  choose! dealt deeds using separate.deeds_finish distinct h
  have taken : ∀ row : List Seat, row.Nodup → (∀ target ∈ row, target ∈ targets) →
      Handler.builtin type effect row ctx =
        .ok (row.flatMap fun target => (dealt target).changes, ctx.settled dealt row) :=
    fun row distinct among => (steps row).trans
      (separate.forEach_settled distinct fun target member => deeds target (among target member))
  have whole := taken targets distinct fun _ member => member
  rw [steps, h] at whole
  obtain ⟨rfl, rfl⟩ := Prod.mk.inj (Except.ok.inj whole)
  refine ⟨fun target => (dealt target).changes, fun target => (dealt target).lines, rfl, rfl, ?_,
    fun target member => ?_⟩
  · rw [taken others (reordered.nodup_iff.mp distinct) fun _ => reordered.mem_iff.mpr,
      settled_perm reordered]
  · have alone := taken [target] (List.nodup_singleton target) fun other single => by
      rw [List.mem_singleton] at single
      rwa [single]
    refine ⟨ctx.settled dealt [target], ?_, ?_, ?_⟩
    · rw [alone, List.flatMap_singleton]
    · rw [settled_get, settled_get, if_pos member, if_pos (List.mem_singleton_self target)]
    · show ctx.log ++ [target].flatMap _ = _
      rw [List.flatMap_singleton]

end

end Handler

/-! A rally in which each soldier gains as many stacks as the captain has strength, the captain
first, who is stronger for it. -/

namespace Context

def valour : Aura :=
  { id := "valour", name := "Valour"
    effects := [
      { kind := .statModifier "strength" false, trigger := .passive, amount := some (.flat 5) }] }

def soldier (name : String) : Character :=
  { id := "soldier", name, role := some "fighter"
    innate := ({} : StatBlock).insert "strength" 2
    stats := ({} : StatBlock).insert "strength" 2 }

def muster : Context where
  encounter := ⟨⟨soldier "Captain", soldier "Recruit", .empty⟩, ⟨.empty, .empty, .empty⟩⟩
  content := { auras := AuraCatalog.register {} .buff valour }
  source := some ⟨.heroes, .front⟩

def rally : Effect :=
  { kind := .applyAura .buff "valour", target := .all
    stackCount := some ((Formula.flat 0).withScaling "strength" 1) }

end Context

namespace Handler
open Context

theorem targets_in_any_order_rally :
    EffectType.targetsCharacters (.applyAura .buff) = true ∧
      [(⟨.heroes, .front⟩ : Seat), ⟨.heroes, .center⟩].Nodup ∧
      [(⟨.heroes, .front⟩ : Seat), ⟨.heroes, .center⟩].Perm
        [⟨.heroes, .center⟩, ⟨.heroes, .front⟩] ∧
      ∃ changes after,
        Handler.builtin (.applyAura .buff) rally [⟨.heroes, .front⟩, ⟨.heroes, .center⟩] muster =
          .ok (changes, after) ∧
        (after.get ⟨.heroes, .front⟩).stats.value "strength" = 7 ∧
        Handler.builtin (.applyAura .buff) rally [⟨.heroes, .center⟩, ⟨.heroes, .front⟩] muster =
          .ok ([.auraApplied ⟨.heroes, .center⟩ "valour" 2,
              .auraApplied ⟨.heroes, .front⟩ "valour" 2],
            { after with log := ["Recruit gains Valour (2)", "Captain gains Valour (2)"] }) := by
  have distinct : [(⟨.heroes, .front⟩ : Seat), ⟨.heroes, .center⟩].Nodup := by decide
  have reordered : [(⟨.heroes, .front⟩ : Seat), ⟨.heroes, .center⟩].Perm
      [⟨.heroes, .center⟩, ⟨.heroes, .front⟩] := .swap ..
  obtain ⟨⟨changes, after⟩, ran, stronger⟩ : ∃ done,
      Handler.builtin (.applyAura .buff) rally [⟨.heroes, .front⟩, ⟨.heroes, .center⟩] muster =
        .ok done ∧ (done.2.get ⟨.heroes, .front⟩).stats.value "strength" = 7 :=
    holds_ok (by decide +kernel)
  obtain ⟨records, lines, -, -, reversed, alone⟩ :=
    targets_in_any_order rfl distinct reordered ran
  have told : ∀ target ∈ [(⟨.heroes, .front⟩ : Seat), ⟨.heroes, .center⟩],
      records target = [.auraApplied target "valour" 2] ∧
        lines target = [(muster.get target).name ++ " gains Valour (2)"] := by
    intro target member
    obtain ⟨only, acted, -, logged⟩ := alone target member
    have closed : (Handler.builtin (.applyAura .buff) rally [target] muster).toOption.map
        (fun done => (done.1, done.2.log)) =
          some ([.auraApplied target "valour" 2],
            [(muster.get target).name ++ " gains Valour (2)"]) := by
      simp only [List.mem_cons, List.not_mem_nil, or_false] at member
      rcases member with rfl | rfl <;> decide +kernel
    rw [acted] at closed
    obtain ⟨recorded, said⟩ := Prod.mk.inj (Option.some.inj closed)
    exact ⟨recorded, logged.symm.trans said⟩
  refine ⟨rfl, distinct, reordered, changes, after, ran, stronger, ?_⟩
  simp only [reversed, List.flatMap_cons, List.flatMap_nil, told, List.mem_cons, true_or, or_true]
  rfl

end Handler
end Combat
