import Combat.Proofs.DerivedStats
import Combat.Proofs.Resolution.Kinds

/-!
Keeping aura slots. What is taken up again is what was kept without its stored amounts, and keeping
it once more keeps the same. Records fail to be taken up where a modifier that counts once per stack
leaves its range, and nowhere else.
-/

namespace Combat
open Checked

/-! ### Catalogs -/

/-- The catalogs that registrations make. -/
inductive AuraCatalog.Built : AuraCatalog → Prop where
  | empty : Built {}
  | register {catalog : AuraCatalog} (built : Built catalog) (kind : AuraKind) (aura : Aura) :
    Built (catalog.register kind aura)
  | extend {catalog : AuraCatalog} (built : Built catalog) (other : AuraCatalog) :
    Built (catalog.extend other)

namespace AuraCatalog

theorem foldl_register_faithful {catalog : AuraCatalog} (faithful : catalog.Faithful)
    (kind : AuraKind) (more : List RegisteredAura) :
    (more.foldl (fun catalog held => catalog.register kind held.aura) catalog).Faithful := by
  induction more generalizing catalog with
  | nil => exact faithful
  | cons held rest ih => exact ih (faithful.register kind held.aura)

theorem Built.faithful {catalog : AuraCatalog} (built : catalog.Built) : catalog.Faithful := by
  induction built with
  | empty => exact empty_faithful
  | register _ kind aura ih => exact ih.register kind aura
  | extend _ other ih =>
    exact foldl_register_faithful (foldl_register_faithful ih .buff _) .debuff _

theorem Faithful.get?_id {catalog : AuraCatalog} (faithful : catalog.Faithful) {id : String}
    {held : RegisteredAura} (h : catalog.get? id = some held) : held.id = id := by
  unfold get? at h
  cases buff : catalog.lookup .buff id with
  | some found =>
    rw [buff] at h
    obtain rfl := Option.some.inj h
    exact faithful .buff id found buff
  | none =>
    rw [buff] at h
    exact faithful .debuff id held h

end AuraCatalog

/-! ### Empty slots -/

/-- A slot without an aura has neither stacks nor a source. -/
def AuraSlot.Tidy (slot : AuraSlot) : Prop := slot.held = none → slot = .empty

def AuraSlots.Tidy (auras : AuraSlots) : Prop := ∀ slot ∈ auras.slots, slot.Tidy

namespace AuraSlot

theorem Tidy.of_held {slot : AuraSlot} {held : RegisteredAura} (holds : slot.held = some held) :
    slot.Tidy := by
  intro none
  rw [none] at holds
  cases holds

theorem empty_tidy : Tidy .empty := fun _ => rfl

theorem Tidy.set {slot : AuraSlot} (tidy : slot.Tidy) (stackCount : Count)
    (amount : Option Float) : (slot.set stackCount amount).Tidy := by
  unfold AuraSlot.set
  cases holds : slot.held with
  | none => rwa [if_pos (by rw [isEmpty, holds]; rfl)]
  | some held =>
    rw [if_neg (by rw [isEmpty, holds]; exact Bool.false_ne_true)]
    intro none
    cases none

theorem Tidy.removeStacks {slot : AuraSlot} (tidy : slot.Tidy) (count : Count) :
    (slot.removeStacks count).Tidy := by
  intro none
  have emptied : AuraSlot.empty.removeStacks count = .empty := by
    have nothing : Count.sub 0 count = 0 := Count.ext (by rw [Count.val_sub]; simp)
    unfold AuraSlot.removeStacks AuraSlot.empty
    dsimp only
    rw [nothing]
  rw [tidy none]
  exact emptied

theorem restore_tidy (catalog : AuraCatalog) (saved : SavedAura) :
    (restore catalog saved).Tidy := by
  unfold restore
  split
  · split
    · exact .of_held rfl
    · exact empty_tidy
  · exact empty_tidy

end AuraSlot

namespace AuraSlots

theorem modify_tidy {slots : List AuraSlot} (tidy : ∀ slot ∈ slots, slot.Tidy) (index : Nat)
    {change : AuraSlot → AuraSlot} (keeps : ∀ slot, slot.Tidy → (change slot).Tidy) :
    ∀ slot ∈ slots.modify index change, slot.Tidy := by
  intro slot member
  obtain ⟨i, here⟩ := List.mem_iff_getElem?.mp member
  rw [List.getElem?_modify] at here
  obtain ⟨before, there, rfl⟩ := Option.map_eq_some_iff.mp here
  have was := tidy before (List.mem_of_getElem? there)
  split
  · exact keeps before was
  · exact was

theorem set_tidy {slots : List AuraSlot} (tidy : ∀ slot ∈ slots, slot.Tidy) (index : Nat)
    {fresh : AuraSlot} (new : fresh.Tidy) : ∀ slot ∈ slots.set index fresh, slot.Tidy := by
  intro slot member
  rcases List.mem_or_eq_of_mem_set member with old | rfl
  · exact tidy slot old
  · exact new

theorem apply_tidy {slots : List AuraSlot} (tidy : ∀ slot ∈ slots, slot.Tidy)
    (held : RegisteredAura) (application : AuraApplication) :
    ∀ slot ∈ (apply held application slots).2, slot.Tidy := by
  unfold apply
  split
  · exact modify_tidy tidy _ fun slot was => was.set _ _
  · dsimp only
    split
    · exact set_tidy tidy _ (.of_held rfl)
    · intro slot member
      rcases List.mem_append.mp member with old | new
      · exact tidy slot old
      · obtain rfl := List.mem_singleton.mp new
        exact .of_held rfl

theorem Tidy.of_ofSlots {slots : List AuraSlot} {after : AuraSlots}
    (tidy : ∀ slot ∈ slots, slot.Tidy) (h : ofSlots slots = .ok after) : after.Tidy := by
  intro slot member
  rw [ofSlots_slots h] at member
  exact tidy slot member

theorem Tidy.modifyAt {auras after : AuraSlots} {index : Nat} {change : AuraSlot → AuraSlot}
    (tidy : auras.Tidy) (keeps : ∀ slot, slot.Tidy → (change slot).Tidy)
    (h : auras.modifyAt index change = .ok after) : after.Tidy := by
  obtain ⟨-, rfl⟩ | ⟨-, worked⟩ := modifyAt_ok h
  · exact tidy
  · exact .of_ofSlots (modify_tidy tidy index keeps) worked

theorem act_tidy (action : Action) (before after : AuraSlots) (tidy : before.Tidy)
    (h : act action before = .ok after) : after.Tidy := by
  cases action with
  | add held application =>
    obtain ⟨⟨slot, auras⟩, added, h⟩ := bind_ok h
    obtain rfl := pure_ok h
    obtain ⟨-, -, rfl⟩ | ⟨-, -, worked⟩ := add_ok added
    · exact tidy
    · exact .of_ofSlots (apply_tidy tidy held application) worked
  | remove id =>
    obtain ⟨⟨removed, auras⟩, done, h⟩ := bind_ok h
    obtain rfl := pure_ok h
    obtain ⟨-, ⟨-, rfl⟩ | ⟨-, worked⟩⟩ := remove_ok done
    · exact tidy
    · refine .of_ofSlots (fun slot member => ?_) worked
      obtain ⟨was, old, rfl⟩ := List.mem_map.mp member
      split
      · exact AuraSlot.empty_tidy
      · exact tidy was old
  | removeStacks id count =>
    obtain ⟨⟨removed, auras⟩, done, h⟩ := bind_ok h
    obtain rfl := pure_ok h
    obtain ⟨-, -, rfl⟩ | ⟨index, -, -, worked⟩ := removeStacks_ok done
    · exact tidy
    · exact tidy.modifyAt (fun slot was => was.removeStacks count) worked
  | setAuraAt index held stackCount amount source =>
    refine .of_ofSlots (set_tidy (fun slot member => ?_) index (.of_held rfl)) h
    rcases List.mem_append.mp member with old | padding
    · exact tidy slot old
    · rw [(List.mem_replicate.mp padding).2]
      exact AuraSlot.empty_tidy
  | setAt index stackCount amount =>
    exact tidy.modifyAt (fun slot was => was.set stackCount amount) h
  | removeAt index => exact tidy.modifyAt (fun _ _ => AuraSlot.empty_tidy) h
  | removeStacksAt index count => exact tidy.modifyAt (fun slot was => was.removeStacks count) h
  | draw index effect evaluated =>
    obtain ⟨⟨drawn, auras⟩, done, h⟩ := bind_ok h
    obtain rfl := pure_ok h
    obtain ⟨-, rfl⟩ | ⟨slot, -, active, -, worked⟩ := draw_ok done
    · exact tidy
    · -- Only an active slot is drawn from, and that one holds an aura.
      obtain ⟨held, holds⟩ := Option.isSome_iff_exists.mp (Bool.and_eq_true_iff.mp active).1
      have drained : (slot.draw effect evaluated).2.held = some held := holds
      exact .of_ofSlots (set_tidy tidy index (.of_held drained)) worked
  | load catalog saved =>
    refine .of_ofSlots (fun slot member => ?_) h
    obtain ⟨record, -, rfl⟩ := List.mem_map.mp member
    exact AuraSlot.restore_tidy catalog record

end AuraSlots

/-! ### Records and slots -/

namespace AuraSlot

def withoutAmount (slot : AuraSlot) : AuraSlot := { slot with amount := none }

@[simp] theorem save_withoutAmount (slot : AuraSlot) : slot.withoutAmount.save = slot.save := rfl

theorem restore_save {catalog : AuraCatalog} {slot : AuraSlot} (tidy : slot.Tidy)
    (known : ∀ held, slot.held = some held → catalog.get? held.id = some held) :
    restore catalog slot.save = slot.withoutAmount := by
  cases holds : slot.held with
  | none =>
    rw [tidy holds]
    rfl
  | some held =>
    have kept : slot.save.id = held.id := by
      unfold save id?
      rw [holds]
      rfl
    have has : slot.save.hasAura = true := by
      unfold save
      rw [holds]
      rfl
    -- The number that stands for no source is none of a seat.
    have source : Seat.ofIndex? slot.save.source = slot.source := by
      unfold save
      dsimp only
      cases slot.source with
      | none => rfl
      | some seat => exact seat.ofIndex?_index
    unfold restore
    rw [if_pos has, kept, known held holds, source]
    unfold withoutAmount
    rw [holds]
    rfl

/-- A slot that was restored needs no catalog but its own. -/
theorem restore_known {catalog : AuraCatalog} (faithful : catalog.Faithful) (saved : SavedAura)
    (held : RegisteredAura) (holds : (restore catalog saved).held = some held) :
    catalog.get? held.id = some held := by
  unfold restore at holds
  split at holds
  · split at holds
    · rename_i found here
      obtain rfl : found = held := Option.some.inj holds
      rw [faithful.get?_id here]
      exact here
    · cases holds
  · cases holds

theorem restore_withoutAmount (catalog : AuraCatalog) (saved : SavedAura) :
    (restore catalog saved).withoutAmount = restore catalog saved := by
  unfold restore
  split
  · split <;> rfl
  · rfl

/-! ### Modifiers that fit -/

/-- No modifier of the slot that counts once per stack leaves its range. -/
def Fits (slot : AuraSlot) : Prop :=
  ∀ held, slot.held = some held → slot.isActive = true → ∀ effect ∈ held.aura.effects,
    effect.kind.isStatModifier = true → effect.stack = true →
      least ≤ slot.worth effect * slot.stackCount.toInt ∧
        slot.worth effect * slot.stackCount.toInt ≤ greatest

theorem finishes_modifier? {slot : AuraSlot} {held : RegisteredAura} {effect : Effect} :
    (slot.modifier? held effect).Finishes ↔
      (effect.kind.isStatModifier = true → effect.stack = true →
        least ≤ slot.worth effect * slot.stackCount.toInt ∧
          slot.worth effect * slot.stackCount.toInt ≤ greatest) := by
  unfold modifier?
  cases kind : effect.kind with
  | statModifier stat percent =>
    dsimp only
    by_cases perStack : effect.stack = true
    · rw [if_pos perStack, finishes_return]
      exact finishes_int.trans ⟨fun bounds _ _ => bounds, fun bounds => bounds rfl perStack⟩
    · rw [if_neg perStack, finishes_return]
      exact ⟨fun _ _ again => absurd again perStack, fun _ => finishes_ok _⟩
  | _ => exact iff_of_true (finishes_ok none) fun modifies => nomatch modifies

theorem finishes_modifiers {slot : AuraSlot} : slot.modifiers.Finishes ↔ slot.Fits := by
  unfold modifiers Fits
  cases slot.held with
  | none => exact ⟨fun _ _ holds => (by cases holds), fun _ => finishes_ok []⟩
  | some held =>
    dsimp only
    by_cases active : slot.isActive = true
    · rw [if_pos active, finishes_return, finishes_mapM]
      constructor
      · rintro each _ ⟨⟩ - effect member
        exact finishes_modifier?.mp (each effect member)
      · intro fits effect member
        exact finishes_modifier?.mpr (fits held rfl active effect member)
    · rw [if_neg active]
      exact ⟨fun _ _ _ again => absurd again active, fun _ => finishes_ok []⟩

end AuraSlot

namespace AuraSlots

theorem finishes_ofSlots {slots : List AuraSlot} :
    (ofSlots slots).Finishes ↔ ∀ slot ∈ slots, slot.Fits := by
  unfold ofSlots contributions
  rw [finishes_return, finishes_return, finishes_mapM]
  exact forall₂_congr fun slot _ => AuraSlot.finishes_modifiers

/-! ### Keeping and taking up -/

theorem load_save {catalog : AuraCatalog} {auras : AuraSlots} (tidy : auras.Tidy)
    (known : ∀ slot ∈ auras.slots, ∀ held, slot.held = some held →
      catalog.get? held.id = some held) :
    load catalog auras.save = ofSlots (auras.slots.map AuraSlot.withoutAmount) := by
  unfold load save
  rw [List.map_map]
  refine congrArg ofSlots (List.map_congr_left fun slot member => ?_)
  exact AuraSlot.restore_save (tidy slot member) (known slot member)

/-- What the slots taken up are, compared with those that were kept. -/
structure Kept (auras loaded : AuraSlots) : Prop where
  slots : loaded.slots = auras.slots.map AuraSlot.withoutAmount
  modifiers : loaded.modifiers =
    (auras.slots.map AuraSlot.withoutAmount).flatMap AuraSlot.contribution
  again : loaded.save = auras.save

theorem load_kept {catalog : AuraCatalog} {auras loaded : AuraSlots} (tidy : auras.Tidy)
    (known : ∀ slot ∈ auras.slots, ∀ held, slot.held = some held →
      catalog.get? held.id = some held)
    (h : load catalog auras.save = .ok loaded) : Kept auras loaded := by
  rw [load_save tidy known] at h
  have slots := ofSlots_slots h
  refine ⟨slots, ?_, ?_⟩
  · rw [ofSlots_upToDate h, slots]
  · unfold save
    rw [slots, List.map_map]
    rfl

theorem load_settled {catalog : AuraCatalog} (faithful : catalog.Faithful)
    {saved : List SavedAura} {loaded : AuraSlots} (h : load catalog saved = .ok loaded) :
    load catalog loaded.save = .ok loaded := by
  have slots : loaded.slots = saved.map (AuraSlot.restore catalog) := ofSlots_slots h
  have restored : ∀ slot ∈ loaded.slots, ∃ record, slot = AuraSlot.restore catalog record := by
    intro slot member
    rw [slots] at member
    obtain ⟨record, -, rfl⟩ := List.mem_map.mp member
    exact ⟨record, rfl⟩
  have tidy : loaded.Tidy := by
    intro slot member
    obtain ⟨record, rfl⟩ := restored slot member
    exact AuraSlot.restore_tidy catalog record
  have known : ∀ slot ∈ loaded.slots, ∀ held, slot.held = some held →
      catalog.get? held.id = some held := by
    intro slot member
    obtain ⟨record, rfl⟩ := restored slot member
    exact AuraSlot.restore_known faithful record
  -- Records carry no amounts, so slots fresh from them have none to drop.
  have same : loaded.slots.map AuraSlot.withoutAmount = loaded.slots := by
    refine (List.map_congr_left fun slot member => ?_).trans (List.map_id _)
    obtain ⟨record, rfl⟩ := restored slot member
    exact AuraSlot.restore_withoutAmount catalog record
  rw [load_save tidy known, same, slots]
  exact h

end AuraSlots

theorem AuraSlots.load_keeps {catalog : AuraCatalog} (built : catalog.Built) :
    (∀ auras : AuraSlots, Leads act {} auras →
      (∀ slot ∈ auras.slots, ∀ held, slot.held = some held → catalog.get? held.id = some held) →
      ((load catalog auras.save).Finishes ↔ ∀ slot ∈ auras.slots, slot.withoutAmount.Fits) ∧
        ∀ loaded, load catalog auras.save = .ok loaded → Kept auras loaded) ∧
    ∀ saved : List SavedAura,
      ((load catalog saved).Finishes ↔
        ∀ record ∈ saved, (AuraSlot.restore catalog record).Fits) ∧
      ∀ loaded, load catalog saved = .ok loaded → load catalog loaded.save = .ok loaded := by
  constructor
  · intro auras reached known
    have tidy : auras.Tidy := reached.keeps act_tidy fun _ member => absurd member List.not_mem_nil
    refine ⟨?_, fun loaded h => load_kept tidy known h⟩
    rw [load_save tidy known, finishes_ofSlots, List.forall_mem_map]
  · intro saved
    refine ⟨?_, fun loaded h => load_settled built.faithful h⟩
    rw [load, finishes_ofSlots, List.forall_mem_map]

/-! An aura that counts once per stack: in use, used up, and beside a slot that is empty. -/

namespace AuraSlots

def growth (amount : Float) : Aura :=
  { id := "growth", name := "Growth"
    effects := [{
      kind := .statModifier "power" false
      trigger := .passive
      amount := some (.flat amount)
      stack := true }] }

def growthCatalog (amount : Float) : AuraCatalog := AuraCatalog.register {} .buff (growth amount)

def grown : AuraSlots where
  slots := [.empty, .setAura ⟨0, growth 2⟩ 3 (some 5) (some ⟨.enemies, .front⟩),
    .setAura ⟨0, growth 2⟩ 0 none none]
  modifiers := [{ aura := "growth", stat := "power", value := 15, percent := false }]

def grownAgain : AuraSlots where
  slots := [.empty, .setAura ⟨0, growth 2⟩ 3 none (some ⟨.enemies, .front⟩),
    .setAura ⟨0, growth 2⟩ 0 none none]
  modifiers := [{ aura := "growth", stat := "power", value := 6, percent := false }]

/-- As many stacks as there can be, held down by a stored amount of zero. -/
def overgrown : AuraSlots where
  slots := [.setAura ⟨0, growth 10000000000⟩ 4294967295 (some 0) none]
  modifiers := [{ aura := "growth", stat := "power", value := 0, percent := false }]

theorem load_keeps_grown :
    (growthCatalog 2).Built ∧ Leads act {} grown ∧
      load (growthCatalog 2) grown.save = .ok grownAgain ∧ Kept grown grownAgain ∧
      load (growthCatalog 2) grownAgain.save = .ok grownAgain := by
  have built : (growthCatalog 2).Built := .register .empty .buff (growth 2)
  have reached : Leads act {} grown := by
    refine ⟨[.setAuraAt 1 ⟨0, growth 2⟩ 3 (some 5) (some ⟨.enemies, .front⟩),
      .setAuraAt 2 ⟨0, growth 2⟩ 0 none none], ?_⟩
    decide +kernel
  have known : ∀ slot ∈ grown.slots, ∀ held, slot.held = some held →
      (growthCatalog 2).get? held.id = some held := by
    have here : ∀ slot ∈ grown.slots, slot.held = none ∨ slot.held = some ⟨0, growth 2⟩ := by
      decide +kernel
    intro slot member held holds
    rcases here slot member with none | growing
    · rw [none] at holds
      cases holds
    · rw [growing] at holds
      cases holds
      rfl
  have loaded : load (growthCatalog 2) grown.save = .ok grownAgain := by decide +kernel
  obtain ⟨kept, settled⟩ := load_keeps built
  exact ⟨built, reached, loaded, (kept grown reached known).2 grownAgain loaded,
    (settled grown.save).2 grownAgain loaded⟩

/-- Without its stored amount a slot can come to more than there is room for. -/
theorem load_overflows :
    (growthCatalog 10000000000).Built ∧ Leads act {} overgrown ∧
      (growthCatalog 10000000000).get? "growth" = some ⟨0, growth 10000000000⟩ ∧
      load (growthCatalog 10000000000) overgrown.save = .error .overflow := by
  refine ⟨.register .empty .buff (growth 10000000000), ⟨[.setAuraAt 0 ⟨0, growth 10000000000⟩
    4294967295 (some 0) none], ?_⟩, rfl, ?_⟩
  · decide +kernel
  · decide +kernel

end AuraSlots

end Combat
