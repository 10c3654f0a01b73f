import Combat.Proofs.Content
import Combat.Proofs.Resolution.Frame

/-!
Buffs and debuffs apart. An effect on the auras of one kind and id changes slots that carry that
id and, where it applies one, a slot that carries nothing; so auras of the other kind are kept as
long as none of them has the same id.
-/

namespace Combat
open Checked

/-! ### Slots -/

theorem AuraSlot.carries_iff {slot : AuraSlot} {id : String} :
    slot.carries id = true ↔
      slot.isActive = true ∧ ∃ held, slot.held = some held ∧ held.id = id := by
  cases slot with
  | mk held => cases held <;> simp [carries, id?]

/-- What effects on the auras of one id may do to a slot, where `placing` is the aura they apply if
they apply one. -/
inductive AuraSlot.Touched (id : String) (placing : Option RegisteredAura) (before : AuraSlot) :
    AuraSlot → Prop where
  | kept : Touched id placing before before
  | carried {after : AuraSlot} (carries : before.carries id = true)
    (holds : after.held = before.held ∨ after.held = placing) : Touched id placing before after
  | taken {after : AuraSlot} {held : RegisteredAura} (idle : before.isActive = false)
    (placed : placing = some held) (holds : after.held = some held) :
    Touched id placing before after

theorem AuraSlot.Touched.trans {id : String} {placing : Option RegisteredAura}
    {first second third : AuraSlot} (h₁ : first.Touched id placing second)
    (h₂ : second.Touched id placing third) : first.Touched id placing third := by
  cases h₂ with
  | kept => exact h₁
  | carried carries later =>
    cases h₁ with
    | kept => exact .carried carries later
    | carried carries holds =>
      refine .carried carries ?_
      obtain same | placed := later
      · rwa [same]
      · exact .inr placed
    | taken idle placed holds =>
      -- whatever came later, the slot holds the aura that took it
      refine .taken idle placed ?_
      obtain same | last := later
      · rw [same, holds]
      · rw [last, placed]
  | taken idle placed later =>
    cases h₁ with
    | kept => exact .taken idle placed later
    | carried carries => exact .carried carries (.inr (later.trans placed.symm))
    | taken before => exact .taken before placed later

namespace AuraSlots

/-- Each slot is still there, touched at most. -/
def Touched (id : String) (placing : Option RegisteredAura) (before after : AuraSlots) : Prop :=
  ∀ (index : Nat) (slot : AuraSlot), before.slots[index]? = some slot →
    ∃ last, after.slots[index]? = some last ∧ slot.Touched id placing last

theorem Touched.refl (id : String) (placing : Option RegisteredAura) (auras : AuraSlots) :
    Touched id placing auras auras :=
  fun _ slot here => ⟨slot, here, .kept⟩

theorem Touched.trans {id : String} {placing : Option RegisteredAura}
    {first second third : AuraSlots} (h₁ : Touched id placing first second)
    (h₂ : Touched id placing second third) : Touched id placing first third := by
  intro index slot here
  obtain ⟨middle, there, early⟩ := h₁ index slot here
  obtain ⟨last, further, late⟩ := h₂ index middle there
  exact ⟨last, further, early.trans late⟩

theorem ofSlots_slots {slots : List AuraSlot} {after : AuraSlots}
    (h : ofSlots slots = .ok after) : after.slots = slots := by
  obtain ⟨_, _, h⟩ := bind_ok h
  obtain rfl := pure_ok h
  rfl

/-- Slots of which one is set are related to those before as that one is, where the relation lets
slots be as they were. -/
theorem each_of_set {R : Nat → AuraSlot → AuraSlot → Prop} {before after : AuraSlots} {index : Nat}
    {slot last : AuraSlot} (here : before.slots[index]? = some slot)
    (changed : after.slots = before.slots.set index last) (there : R index slot last)
    (elsewhere : ∀ other found, index ≠ other → R other found found) :
    ∀ {other found}, before.slots[other]? = some found →
      ∃ last, after.slots[other]? = some last ∧ R other found last := by
  intro other found stood
  rw [changed]
  by_cases same : index = other
  · subst same
    obtain rfl := Option.some.inj (here.symm.trans stood)
    rw [List.getElem?_set_self (List.getElem?_eq_some_iff.mp here).1]
    exact ⟨last, rfl, there⟩
  · rw [List.getElem?_set_ne same]
    exact ⟨found, stood, elsewhere other found same⟩

/-- A change of one slot touches the slots as it touches that one. -/
theorem Touched.of_modify {id : String} {placing : Option RegisteredAura}
    {before after : AuraSlots} {index : Nat} {change : AuraSlot → AuraSlot}
    (slots : after.slots = before.slots.modify index change)
    (touched : ∀ slot, before.slots[index]? = some slot → slot.Touched id placing (change slot)) :
    Touched id placing before after := by
  intro other slot here
  rw [slots, List.getElem?_modify, here]
  refine ⟨_, rfl, ?_⟩
  dsimp only
  split
  · rename_i same
    subst same
    exact touched slot here
  · exact .kept

theorem findIdx?_some {p : AuraSlot → Bool} {slots : List AuraSlot} {index : Nat}
    (found : slots.findIdx? p = some index) :
    ∃ slot, slots[index]? = some slot ∧ p slot = true := by
  obtain ⟨bound, holds, -⟩ := List.findIdx?_eq_some_iff_getElem.mp found
  exact ⟨slots[index], List.getElem?_eq_getElem bound, holds⟩

theorem findIdx?_here {p : AuraSlot → Bool} {slots : List AuraSlot} {index : Nat}
    (found : slots.findIdx? p = some index) :
    ∀ slot, slots[index]? = some slot → p slot = true := by
  intro slot here
  obtain ⟨_, there, holds⟩ := findIdx?_some found
  obtain rfl := Option.some.inj (there.symm.trans here)
  exact holds

theorem mergeInto_held (held : RegisteredAura) (application : AuraApplication) (slot : AuraSlot) :
    (mergeInto held application slot).held = slot.held := by
  unfold mergeInto AuraSlot.set
  split <;> rfl

theorem add_touched {auras after : AuraSlots} {held : RegisteredAura}
    {application : AuraApplication} {index : Option Nat}
    (h : auras.add held application = .ok (index, after)) :
    Touched held.id (some held) auras after := by
  obtain ⟨-, -, rfl⟩ | ⟨-, -, worked⟩ := add_ok h
  · exact .refl _ _ _
  · have slots := ofSlots_slots worked
    unfold apply at slots
    split at slots
    · rename_i found
      refine .of_modify slots fun slot here => ?_
      have merges := findIdx?_here found slot here
      unfold AuraSlots.merges at merges
      rw [Bool.and_eq_true] at merges
      exact .carried merges.1 (.inl (mergeInto_held ..))
    · dsimp only at slots
      split at slots
      · rename_i found
        intro other slot here
        rw [slots, List.getElem?_set]
        split
        · rename_i same
          subst same
          have idle := findIdx?_here found slot here
          rw [if_pos (List.getElem?_eq_some_iff.mp here).1]
          exact ⟨_, rfl, .taken (by simpa using idle) rfl rfl⟩
        · exact ⟨slot, here, .kept⟩
      · intro other slot here
        refine ⟨slot, ?_, .kept⟩
        rw [slots, List.getElem?_append_left (List.getElem?_eq_some_iff.mp here).1]
        exact here

theorem remove_touched {auras after : AuraSlots} {id : String} {removed : Bool}
    (h : auras.remove id = .ok (removed, after)) : Touched id none auras after := by
  obtain ⟨-, ⟨-, rfl⟩ | ⟨-, worked⟩⟩ := remove_ok h
  · exact .refl _ _ _
  · intro index slot here
    rw [ofSlots_slots worked, List.getElem?_map, here]
    refine ⟨_, rfl, ?_⟩
    dsimp only
    split
    · rename_i carries
      exact .carried carries (.inr rfl)
    · exact .kept

theorem removeStacks_touched {auras after : AuraSlots} {id : String} {count : Count}
    {removed : Bool} (h : auras.removeStacks id count = .ok (removed, after)) :
    Touched id none auras after := by
  obtain ⟨-, -, rfl⟩ | ⟨index, found, -, done⟩ := removeStacks_ok h
  · exact .refl _ _ _
  · obtain ⟨-, rfl⟩ | ⟨-, worked⟩ := modifyAt_ok done
    · exact .refl _ _ _
    · exact .of_modify (ofSlots_slots worked) fun slot here =>
        .carried (findIdx?_here found slot here) (.inl rfl)

end AuraSlots

/-! ### Resolving -/

/-- In every seat the aura slots are touched at most. -/
def Context.AurasTouched (id : String) (placing : Option RegisteredAura) (before after : Context) :
    Prop :=
  ∀ seat, (before.get seat).auras.Touched id placing (after.get seat).auras

namespace Context

theorem AurasTouched.of_encounter {id : String} {placing : Option RegisteredAura}
    {before after : Context} (same : after.encounter = before.encounter) :
    AurasTouched id placing before after := by
  intro seat
  rw [get, get, same]
  exact .refl _ _ _

theorem AurasTouched.trans {id : String} {placing : Option RegisteredAura}
    {first second third : Context} (h₁ : AurasTouched id placing first second)
    (h₂ : AurasTouched id placing second third) : AurasTouched id placing first third :=
  fun seat => (h₁ seat).trans (h₂ seat)

theorem aurasTouched_setCharacter {id : String} {placing : Option RegisteredAura} {ctx : Context}
    {target : Seat} {c : Character} (touched : (ctx.get target).auras.Touched id placing c.auras) :
    AurasTouched id placing ctx (ctx.setCharacter target c) :=
  setCharacter_relates (R := fun c after => c.auras.Touched id placing after.auras)
    (fun _ => .refl _ _ _) touched

end Context

theorem Character.withAuras_touched {α : Type} {id : String} {placing : Option RegisteredAura}
    {c after : Character} {result : α} {change : AuraSlots → Checked (α × AuraSlots)}
    (touches : ∀ {result auras}, change c.auras = .ok (result, auras) →
      c.auras.Touched id placing auras)
    (h : c.withAuras change = .ok (result, after)) : c.auras.Touched id placing after.auras := by
  obtain ⟨auras, changed, worked⟩ := withAuras_ok h
  rw [(rebuild_ok worked).2]
  exact touches changed

namespace Handler
open Context

theorem forEach_touched {step : Seat → Context → Checked (List Change × Context)}
    {id : String} {placing : Option RegisteredAura}
    (each : ∀ {target ctx changes after}, step target ctx = .ok (changes, after) →
      AurasTouched id placing ctx after)
    {targets : List Seat} {ctx after : Context} {changes : List Change}
    (h : forEach step targets ctx = .ok (changes, after)) : AurasTouched id placing ctx after :=
  forEach_relates (R := AurasTouched id placing) (fun _ => .of_encounter rfl) .trans each h

theorem applyOne_touched {held : RegisteredAura} {application : AuraApplication} {target : Seat}
    {ctx after : Context} {changes : List Change}
    (h : applyOne held application target ctx = .ok (changes, after)) :
    AurasTouched held.id (some held) ctx after := by
  unfold applyOne at h
  obtain ⟨⟨added, c⟩, done, h⟩ := bind_ok h
  have touched := aurasTouched_setCharacter (Character.withAuras_touched AuraSlots.add_touched done)
  cases added with
  | none =>
    obtain ⟨-, rfl⟩ := pair_ok h
    exact touched
  | some index =>
    obtain ⟨stackCount, _, h⟩ := bind_ok h
    obtain ⟨-, rfl⟩ := pair_ok h
    exact touched

theorem removeOne_touched {id : String} {count : Option Count} {target : Seat}
    {ctx after : Context} {changes : List Change}
    (h : removeOne id count target ctx = .ok (changes, after)) : AurasTouched id none ctx after := by
  unfold removeOne at h
  obtain ⟨⟨removed, c⟩, done, h⟩ := bind_ok h
  have touched : AurasTouched id none ctx (ctx.setCharacter target c) := by
    refine aurasTouched_setCharacter (Character.withAuras_touched (fun changed => ?_) done)
    cases count with
    | none => exact AuraSlots.remove_touched changed
    | some count => exact AuraSlots.removeStacks_touched changed
  cases removed with
  | true =>
    obtain ⟨-, rfl⟩ := pair_ok h
    exact touched
  | false =>
    obtain ⟨-, rfl⟩ := pair_ok h
    exact touched

theorem applyAura_touched {effect : Effect} {kind : AuraKind} {id : String} {targets : List Seat}
    {ctx after : Context} {changes : List Change} (faithful : ctx.content.auras.Faithful)
    (aims : effect.kind = .applyAura kind id)
    (h : applyAura effect targets ctx = .ok (changes, after)) :
    after = ctx ∨ ∃ held, ctx.content.auras.lookup kind id = some held ∧
      AurasTouched id (some held) ctx after := by
  unfold applyAura at h
  simp only [aims] at h
  split at h
  · rename_i held found
    refine .inr ⟨held, found, ?_⟩
    rw [← faithful kind id held found]
    exact forEach_touched applyOne_touched h
  · exact .inl (pair_ok h).2.symm

theorem removeAura_touched {effect : Effect} {kind : AuraKind} {id : String} {targets : List Seat}
    {ctx after : Context} {changes : List Change} (aims : effect.kind = .removeAura kind id)
    (h : removeAura effect targets ctx = .ok (changes, after)) :
    after = ctx ∨ ∃ held, ctx.content.auras.lookup kind id = some held ∧
      AurasTouched id none ctx after := by
  unfold removeAura at h
  simp only [aims] at h
  split at h
  · rename_i held found
    exact .inr ⟨held, found, forEach_touched removeOne_touched h⟩
  · exact .inl (pair_ok h).2.symm

/-- Nothing comes of an effect on an aura that the content does not know; of any other, slots are
touched at most, and taken only by an aura that is applied. -/
theorem builtin_touched {type : EffectType} {effect : Effect} {kind : AuraKind} {id : String}
    {targets : List Seat} {ctx after : Context} {changes : List Change}
    (faithful : ctx.content.auras.Faithful) (typed : effect.type? = some type)
    (aims : effect.kind = .applyAura kind id ∨ effect.kind = .removeAura kind id)
    (h : Handler.builtin type effect targets ctx = .ok (changes, after)) :
    after = ctx ∨ ∃ held placing, ctx.content.auras.lookup kind id = some held ∧
      AurasTouched id placing ctx after ∧
      (placing = none ∨ placing = some held ∧ effect.kind = .applyAura kind id) := by
  unfold Effect.type? at typed
  obtain applies | removes := aims
  · rw [applies] at typed
    obtain rfl := Option.some.inj typed
    exact (applyAura_touched faithful applies h).imp_right fun ⟨held, found, touched⟩ =>
      ⟨held, some held, found, touched, .inr ⟨rfl, applies⟩⟩
  · rw [removes] at typed
    obtain rfl := Option.some.inj typed
    exact (removeAura_touched removes h).imp_right fun ⟨held, found, touched⟩ =>
      ⟨held, none, found, touched, .inl rfl⟩

end Handler

theorem process_touched {handlers : Handlers} {effect : Effect} {ctx after : Context}
    {outcome : Option Outcome} {kind : AuraKind} {id : String}
    (faithful : ctx.content.auras.Faithful) (builtin : handlers.AllBuiltin)
    (aims : effect.kind = .applyAura kind id ∨ effect.kind = .removeAura kind id)
    (h : process handlers effect ctx = .ok (outcome, after)) :
    after.encounter = ctx.encounter ∨ ∃ held placing,
      ctx.content.auras.lookup kind id = some held ∧ ctx.AurasTouched id placing after ∧
      (placing = none ∨ placing = some held ∧ effect.kind = .applyAura kind id) := by
  cases process_resolution h with
  | unhandled => exact .inl rfl
  | blocked => exact .inl rfl
  | @resolved type _ _ handled _ typed known free handling counted =>
    obtain rfl := builtin _ _ known
    have content : (ctx.seek type effect).2.content = ctx.content := by rw [Context.seek_rest]
    have sought : (ctx.seek type effect).2.encounter = ctx.encounter := by rw [Context.seek_rest]
    have recorded : after.encounter = handled.encounter := by rw [Context.recordUse_rest counted]
    have faithful : (ctx.seek type effect).2.content.auras.Faithful := by rwa [content]
    obtain same | ⟨held, placing, found, touched, placed⟩ :=
      Handler.builtin_touched faithful typed aims handling
    · left
      rw [recorded, same, sought]
    · rw [content] at found
      exact .inr ⟨held, placing, found,
        ((Context.AurasTouched.of_encounter sought).trans touched).trans (.of_encounter recorded),
        placed⟩

/-- An effect that applies or removes an aura leaves every instance as it was except those of that
very aura and those whose stacks ran out, whose slots it may take for what it applies. The last
hypothesis leaves out the instances whose id names an aura of either kind. -/
theorem kinds_kept_apart {declaration : ContentDeclaration} {handlers : Handlers} {effect : Effect}
    {ctx after : Context} {outcome : Option Outcome} {kind home : AuraKind} {id : String}
    {seat : Seat} {index : Nat} {slot : AuraSlot} {held : RegisteredAura}
    (accepted : declaration.content = .ok ctx.content) (builtin : handlers.AllBuiltin)
    (aims : effect.kind = .applyAura kind id ∨ effect.kind = .removeAura kind id)
    (h : process handlers effect ctx = .ok (outcome, after))
    (here : (ctx.get seat).auras.slots[index]? = some slot) (holds : slot.held = some held)
    (known : ctx.content.auras.lookup home held.id = some held)
    (unshared : home ≠ kind → held.id = id → ctx.content.auras.lookup kind id = none) :
    ∃ last, (after.get seat).auras.slots[index]? = some last ∧
      (last = slot ∨
        (home = kind ∧ slot.isActive = true ∧ ctx.content.auras.lookup kind id = some held) ∨
        (slot.isActive = false ∧ effect.kind = .applyAura kind id ∧
          ∃ applied, ctx.content.auras.lookup kind id = some applied ∧
            last.held = some applied)) := by
  have faithful := ContentDeclaration.content_faithful accepted
  obtain same | ⟨named, placing, found, touched, placed⟩ :=
    process_touched faithful builtin aims h
  · refine ⟨slot, ?_, .inl rfl⟩
    rw [Context.get, same]
    exact here
  · obtain ⟨last, there, change⟩ := touched seat index slot here
    refine ⟨last, there, ?_⟩
    cases change with
    | kept => exact .inl rfl
    | carried carries =>
      obtain ⟨active, other, same, carried⟩ := AuraSlot.carries_iff.mp carries
      obtain rfl := Option.some.inj (holds.symm.trans same)
      by_cases own : home = kind
      · subst own
        exact .inr (.inl ⟨rfl, active, carried ▸ known⟩)
      · rw [unshared own carried] at found
        cases found
    | @taken _ applied idle takes last =>
      obtain absent | ⟨same, applies⟩ := placed
      · rw [absent] at takes
        cases takes
      · obtain rfl := Option.some.inj (same.symm.trans takes)
        exact .inr (.inr ⟨idle, applies, named, found, last⟩)

/-! A hero with a ward and a guard that is used up, where a debuff is called ward too. -/

def wards : ContentDeclaration where
  auras := {
    buffs := [{ id := "ward" }, { id := "guard" }]
    debuffs := [{ id := "ward" }, { id := "hex" }] }

def wardCatalog : AuraCatalog :=
  (((AuraCatalog.register {} .buff { id := "ward", name := "ward" }).register .buff
    { id := "guard", name := "guard" }).register .debuff
    { id := "ward", name := "ward" }).register .debuff { id := "hex", name := "hex" }

def ward : AuraSlot := .setAura ⟨0, { id := "ward", name := "ward" }⟩ 2 none none

def spentGuard : AuraSlot := .setAura ⟨1, { id := "guard", name := "guard" }⟩ 0 none none

def warded : Context where
  encounter := {
    heroes := {
      front := { id := "h", name := "H", role := some "hero", auras.slots := [ward, spentGuard] }
      center := .empty
      back := .empty }
    enemies := ⟨.empty, .empty, .empty⟩ }
  content := { auras := wardCatalog }
  source := some ⟨.heroes, .front⟩

def hexing : Effect := { kind := .applyAura .debuff "hex", target := .self }

def unwarding : Effect := { kind := .removeAura .debuff "ward", target := .self }

theorem kinds_kept_apart_hexed :
    ∃ outcome after, process .builtin hexing warded = .ok (outcome, after) ∧
      (after.get ⟨.heroes, .front⟩).auras.slots[0]? = some ward := by
  have accepted : wards.content = .ok warded.content := rfl
  have here : (warded.get ⟨.heroes, .front⟩).auras.slots[0]? = some ward := rfl
  have known : wardCatalog.lookup .buff "ward" = ward.held := rfl
  obtain ⟨outcome, after, h⟩ : ∃ outcome after,
      process .builtin hexing warded = .ok (outcome, after) := ⟨_, _, rfl⟩
  obtain ⟨last, there, same | ⟨-, -, own⟩ | ⟨spent, -⟩⟩ :=
    kinds_kept_apart accepted Handlers.builtin_allBuiltin (.inl rfl) h here rfl known (by decide)
  · exact ⟨outcome, after, h, by rw [there, same]⟩
  · cases own
  · cases spent

/-- An effect on a debuff can change instances of buffs: of one with the debuff's id, which it
empties here, and of one whose stacks ran out, whose slot it takes. -/
theorem kinds_meet :
    wards.content = .ok warded.content ∧
      (∃ outcome after, process .builtin unwarding warded = .ok (outcome, after) ∧
        ward.held = wardCatalog.lookup .buff "ward" ∧
        (warded.get ⟨.heroes, .front⟩).auras.slots[0]? = some ward ∧
        (after.get ⟨.heroes, .front⟩).auras.slots[0]? = some .empty) ∧
      ∃ outcome after last, process .builtin hexing warded = .ok (outcome, after) ∧
        spentGuard.held = wardCatalog.lookup .buff "guard" ∧
        (warded.get ⟨.heroes, .front⟩).auras.slots[1]? = some spentGuard ∧
        (after.get ⟨.heroes, .front⟩).auras.slots[1]? = some last ∧
        last.held = wardCatalog.lookup .debuff "hex" ∧ last.stackCount = 1 := by
  refine ⟨rfl, ⟨_, _, rfl, rfl, rfl, rfl⟩, _, _, _, rfl, rfl, rfl, rfl, rfl, rfl⟩

end Combat
