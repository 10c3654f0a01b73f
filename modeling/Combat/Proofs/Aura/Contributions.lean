import Combat.Proofs.Keeping

/-!
What a draw does to the modifiers of aura slots. A draw that does not split changes nothing; one
that splits makes a pool where nothing was stored, and from then on the stat modifiers of the aura
are worth that pool instead of their own amounts.
-/

namespace Combat
open Checked

/-! ### Lists -/

theorem flatMap_split {α β : Type} {xs : List α} {index : Nat} {x : α} (f : α → List β)
    (here : xs[index]? = some x) :
    xs.flatMap f =
      (xs.take index).flatMap f ++ (f x ++ (xs.drop (index + 1)).flatMap f) := by
  obtain ⟨bound, rfl⟩ := List.getElem?_eq_some_iff.mp here
  have whole : xs.take index ++ xs[index] :: xs.drop (index + 1) = xs := by simp
  rw [← List.flatMap_cons, ← List.flatMap_append, whole]

theorem flatMap_set_eq_iff {α β : Type} {xs : List α} {index : Nat} {old new : α} {f : α → List β}
    (here : xs[index]? = some old) (lengths : (f new).length = (f old).length) :
    (xs.set index new).flatMap f = xs.flatMap f ↔ f new = f old := by
  have bound := (List.getElem?_eq_some_iff.mp here).1
  rw [flatMap_split f here, flatMap_split f (List.getElem?_set_self bound),
    List.take_set_of_le (Nat.le_refl index), List.drop_set_of_lt (Nat.lt_succ_self index),
    List.append_cancel_left_eq]
  constructor
  · exact fun same => (List.append_inj same lengths).1
  · exact fun same => by rw [same]

theorem filterMap_eq_iff {α β : Type} {xs : List α} {f g : α → Option β}
    (both : ∀ x ∈ xs, (f x).isSome = (g x).isSome) :
    xs.filterMap f = xs.filterMap g ↔ ∀ x ∈ xs, f x = g x := by
  induction xs with
  | nil => simp
  | cons x xs ih =>
    have rest := ih fun y member => both y (List.mem_cons_of_mem x member)
    have first := both x List.mem_cons_self
    rw [List.forall_mem_cons, List.filterMap_cons, List.filterMap_cons, ← rest]
    cases here : f x <;> cases there : g x <;> simp_all

theorem length_filterMap_congr {α β : Type} {xs : List α} {f g : α → Option β}
    (both : ∀ x ∈ xs, (f x).isSome = (g x).isSome) :
    (xs.filterMap f).length = (xs.filterMap g).length := by
  rw [List.length_filterMap_eq_countP, List.length_filterMap_eq_countP]
  exact List.countP_congr fun x member => by rw [both x member]

/-! ### Draws -/

/-- What a split draw stores where nothing was stored: its own amount for every stack, or what the
share leaves of that. -/
def Aura.poolMade (stackCount : Count) (evaluated : Int) : Float :=
  let count : Float := Arithmetic.ofInt stackCount.toInt
  let floor : Float := Arithmetic.mul (Arithmetic.ofInt evaluated) count
  Arithmetic.max (Arithmetic.sub floor (Arithmetic.ceil (Arithmetic.div floor count))) floor

namespace AuraSlot

def storing (slot : AuraSlot) (amount : Option Float) : AuraSlot := { slot with amount }

@[simp] theorem storing_held (slot : AuraSlot) (amount : Option Float) :
    (slot.storing amount).held = slot.held := rfl

@[simp] theorem storing_isActive (slot : AuraSlot) (amount : Option Float) :
    (slot.storing amount).isActive = slot.isActive := rfl

theorem IsActive.stacked {slot : AuraSlot} (active : slot.isActive = true) :
    0 < slot.stackCount.val := by
  unfold isActive at active
  rw [Bool.and_eq_true, decide_eq_true_eq] at active
  exact active.2

theorem draw_unsplit {effect : Effect} (slot : AuraSlot) (evaluated : Int)
    (unsplit : effect.split = false) : (slot.draw effect evaluated).2 = slot := by
  unfold draw Aura.draw
  rw [unsplit]
  rfl

theorem draw_split {effect : Effect} {slot : AuraSlot} (evaluated : Int)
    (split : effect.split = true) (active : slot.isActive = true) (unstored : slot.amount = none) :
    (slot.draw effect evaluated).2 =
      slot.storing (some (Aura.poolMade slot.stackCount evaluated)) := by
  have stacked : slot.stackCount.val ≠ 0 := Nat.ne_of_gt (IsActive.stacked active)
  unfold draw Aura.draw Aura.drawShare
  rw [if_pos split, if_neg stacked, unstored]
  rfl

/-- The effects of the aura that count toward the carrier's stats. -/
def statModifiers (slot : AuraSlot) : List Effect :=
  (slot.held.toList.flatMap (·.aura.effects)).filter (·.kind.isStatModifier)

theorem contributed?_isSome (slot : AuraSlot) (held : RegisteredAura) (effect : Effect) :
    (slot.contributed? held effect).isSome = effect.kind.isStatModifier := by
  unfold contributed?
  cases effect.kind <;> rfl

theorem contributed?_storing {slot : AuraSlot} {amount : Option Float} {held : RegisteredAura}
    {effect : Effect} (active : slot.isActive = true) :
    (slot.storing amount).contributed? held effect = slot.contributed? held effect ↔
      (effect.kind.isStatModifier = true →
        (slot.storing amount).worth effect = slot.worth effect) := by
  have stacked : slot.stackCount.toInt ≠ 0 := by
    have positive := IsActive.stacked active
    unfold Count.toInt
    omega
  have same : (slot.storing amount).stackCount = slot.stackCount := rfl
  unfold contributed?
  rw [same]
  cases effect.kind with
  | statModifier stat percent =>
    by_cases perStack : effect.stack = true
    · simp [EffectKind.isStatModifier, perStack, Int.mul_eq_mul_right_iff stacked]
    · simp [EffectKind.isStatModifier, perStack]
  | _ => simp [EffectKind.isStatModifier]

theorem contribution_storing {slot : AuraSlot} {amount : Option Float}
    (active : slot.isActive = true) :
    (slot.storing amount).contribution = slot.contribution ↔
      ∀ modifier ∈ slot.statModifiers,
        (slot.storing amount).worth modifier = slot.worth modifier := by
  unfold contribution statModifiers
  rw [storing_held, storing_isActive]
  cases slot.held with
  | none => simp
  | some held =>
    dsimp only
    rw [if_pos active, if_pos active, filterMap_eq_iff]
    · simp only [contributed?_storing active]
      simp
    · intro effect _
      rw [contributed?_isSome, contributed?_isSome]

theorem length_contribution_storing (slot : AuraSlot) (amount : Option Float) :
    (slot.storing amount).contribution.length = slot.contribution.length := by
  unfold contribution
  rw [storing_held, storing_isActive]
  cases slot.held with
  | none => rfl
  | some held =>
    dsimp only
    split
    · refine length_filterMap_congr fun effect _ => ?_
      rw [contributed?_isSome, contributed?_isSome]
    · rfl

end AuraSlot

namespace AuraSlots

/-- Working the modifiers out anew changes nothing. -/
def Worked (auras : AuraSlots) : Prop := ofSlots auras.slots = .ok auras

theorem ofSlots_worked {slots : List AuraSlot} {auras : AuraSlots}
    (h : ofSlots slots = .ok auras) : auras.Worked := by
  rw [Worked, ofSlots_slots h]
  exact h

theorem act_worked (action : Action) (before after : AuraSlots) (worked : before.Worked)
    (h : act action before = .ok after) : after.Worked := by
  obtain rfl | ⟨slots, h⟩ := act_ok h
  · exact worked
  · exact ofSlots_worked h

theorem Worked.upToDate {auras : AuraSlots} (worked : auras.Worked) : auras.UpToDate :=
  ofSlots_upToDate worked

theorem Worked.fits {auras : AuraSlots} (worked : auras.Worked) :
    ∀ slot ∈ auras.slots, slot.Fits :=
  finishes_ofSlots.mp ⟨auras, worked⟩

theorem Worked.draw_unsplit {auras : AuraSlots} {effect : Effect} (worked : auras.Worked)
    (index : Nat) (evaluated : Int) (unsplit : effect.split = false) :
    ∃ drawn, auras.draw index effect evaluated = .ok (drawn, auras) := by
  unfold draw
  cases here : auras.slots[index]? with
  | none => exact ⟨0, rfl⟩
  | some slot =>
    dsimp only
    split
    · refine ⟨(slot.draw effect evaluated).1, ?_⟩
      obtain ⟨bound, same⟩ := List.getElem?_eq_some_iff.mp here
      rw [AuraSlot.draw_unsplit slot evaluated unsplit, ← same, List.set_getElem_self, worked]
      rfl
    · exact ⟨0, rfl⟩

theorem draw_inactive {auras : AuraSlots} {index : Nat} {slot : AuraSlot} (effect : Effect)
    (evaluated : Int) (here : auras.slots[index]? = some slot) (idle : slot.isActive = false) :
    auras.draw index effect evaluated = .ok (0, auras) := by
  unfold draw
  rw [here]
  dsimp only
  rw [idle]
  rfl

theorem draw_active {auras : AuraSlots} {index : Nat} {slot : AuraSlot} {effect : Effect}
    (evaluated : Int) (here : auras.slots[index]? = some slot) (active : slot.isActive = true) :
    auras.draw index effect evaluated = do
      return ((slot.draw effect evaluated).1,
        ← ofSlots (auras.slots.set index (slot.draw effect evaluated).2)) := by
  unfold draw
  rw [here]
  dsimp only
  rw [if_pos active]

/-- Slots work out with another stored amount in one of them where its modifiers are worth as
much. -/
theorem Worked.storing {auras : AuraSlots} {index : Nat} {slot : AuraSlot} {amount : Option Float}
    (worked : auras.Worked) (here : auras.slots[index]? = some slot)
    (alike : ∀ modifier ∈ slot.statModifiers,
      (slot.storing amount).worth modifier = slot.worth modifier) :
    (ofSlots (auras.slots.set index (slot.storing amount))).Finishes := by
  rw [finishes_ofSlots]
  intro other member
  obtain member | rfl := List.mem_or_eq_of_mem_set member
  · exact worked.fits other member
  · have fits := worked.fits slot (List.mem_of_getElem? here)
    intro held holds active effect listed modifies perStack
    have counts : effect ∈ slot.statModifiers := by
      rw [AuraSlot.statModifiers, ← slot.storing_held amount, holds]
      simp [listed, modifies]
    rw [alike effect counts]
    exact fits held holds active effect listed modifies perStack

/-- A draw keeps the modifiers of slots that store nothing where it does not split. A split draw
goes through and keeps them just where the pool it makes is worth what each stat modifier of the
aura is worth of its own. -/
theorem draw_keeps_modifiers {auras : AuraSlots} (reached : Leads act {} auras) {index : Nat}
    {slot : AuraSlot} (here : auras.slots[index]? = some slot) (unstored : slot.amount = none)
    (effect : Effect) (evaluated : Int) :
    (effect.split = false ∨ slot.isActive = false →
      ∃ drawn, auras.draw index effect evaluated = .ok (drawn, auras)) ∧
    (effect.split = true → slot.isActive = true →
      ((∃ drawn after, auras.draw index effect evaluated = .ok (drawn, after) ∧
          after.modifiers = auras.modifiers) ↔
        ∀ modifier ∈ slot.statModifiers,
          Binary64.toInt (Binary64.floor (Aura.poolMade slot.stackCount evaluated)) =
            modifier.amountValue none)) := by
  have empty : Worked {} := rfl
  have worked : auras.Worked := reached.keeps act_worked empty
  constructor
  · rintro (unsplit | idle)
    · exact worked.draw_unsplit index evaluated unsplit
    · exact ⟨0, draw_inactive effect evaluated here idle⟩
  · intro split active
    have made := AuraSlot.draw_split evaluated split active unstored
    generalize Aura.poolMade slot.stackCount evaluated = pool at made ⊢
    have worth : ∀ modifier, (slot.storing (some pool)).worth modifier = slot.worth modifier ↔
        Binary64.toInt (Binary64.floor pool) = modifier.amountValue none := by
      intro modifier
      unfold AuraSlot.worth
      rw [unstored]
      rfl
    have same : (auras.slots.set index (slot.storing (some pool))).flatMap AuraSlot.contribution =
        auras.modifiers ↔ ∀ modifier ∈ slot.statModifiers,
          Binary64.toInt (Binary64.floor pool) = modifier.amountValue none := by
      -- each slot contributes as many modifiers as before, so the lists agree where its part does
      rw [worked.upToDate, flatMap_set_eq_iff here (AuraSlot.length_contribution_storing slot _),
        AuraSlot.contribution_storing active]
      exact forall₂_congr fun modifier _ => worth modifier
    rw [draw_active evaluated here active, made]
    constructor
    · rintro ⟨drawn, after, drew, kept⟩
      obtain ⟨last, h, drew⟩ := bind_ok drew
      obtain ⟨-, rfl⟩ := pair_ok drew
      refine same.mp ?_
      rw [← kept, ofSlots_upToDate h, ofSlots_slots h]
    · intro alike
      have finishes := worked.storing here fun modifier member =>
        (worth modifier).mpr (alike modifier member)
      obtain ⟨after, h⟩ := finishes
      refine ⟨(slot.draw effect evaluated).1, after, ?_, ?_⟩
      · rw [h]
        rfl
      · rw [ofSlots_upToDate h, ofSlots_slots h]
        exact same.mpr alike

/-! An aura that hardens its carrier and heals it in shares. -/

def barkHeal : Effect :=
  { kind := .heal .flat, target := .self, trigger := .turnEnd, amount := some (.flat 3),
    split := true }

def bark (defence : Float) : RegisteredAura :=
  ⟨0, { id := "bark", name := "Bark"
        effects := [{ kind := .statModifier "defence" false, amount := some (.flat defence) },
          barkHeal] }⟩

/-- Two stacks that store nothing, or the pool that their heal makes. -/
def barked (defence : Float) (amount : Option Float) (value : Int) : AuraSlots where
  slots := [.setAura (bark defence) 2 amount none]
  modifiers := [{ aura := "bark", stat := "defence", value, percent := false }]

theorem barked_reached : Leads act {} (barked 5 none 5) ∧ Leads act {} (barked 6 none 6) :=
  ⟨⟨[.setAuraAt 0 (bark 5) 2 none none], by decide +kernel⟩,
    ⟨[.setAuraAt 0 (bark 6) 2 none none], by decide +kernel⟩⟩

/-- A pool of six is worth what the defence of six is. -/
theorem draw_keeps_modifiers_barked :
    Leads act {} (barked 6 none 6) ∧
      (barked 6 none 6).slots[0]? = some (.setAura (bark 6) 2 none none) ∧
      ∃ drawn after, (barked 6 none 6).draw 0 barkHeal 3 = .ok (drawn, after) ∧
        after.modifiers = (barked 6 none 6).modifiers := by
  have here : (barked 6 none 6).slots[0]? = some (.setAura (bark 6) 2 none none) := rfl
  refine ⟨barked_reached.2, here, ?_⟩
  refine ((draw_keeps_modifiers barked_reached.2 here rfl barkHeal 3).2 rfl rfl).mpr ?_
  decide +kernel

/-- The heal of three in two stacks turns a defence of five into six. -/
theorem draw_changes_modifiers :
    ¬∀ (auras after : AuraSlots) (index : Nat) (slot : AuraSlot) (effect : Effect)
      (evaluated drawn : Int), Leads act {} auras → auras.slots[index]? = some slot →
      slot.amount = none → auras.draw index effect evaluated = .ok (drawn, after) →
      after.modifiers = auras.modifiers := by
  intro keeps
  have drew : (barked 5 none 5).draw 0 barkHeal 3 = .ok (3, barked 5 (some 6) 6) := by
    decide +kernel
  have kept := keeps _ _ 0 _ barkHeal 3 3 barked_reached.1 rfl rfl drew
  exact absurd kept (by decide)

end AuraSlots
end Combat
