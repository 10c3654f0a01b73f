import Combat.Proofs.Resolution.Kinds
import Mathlib.Data.List.Induction

/-!
Where instances of auras stand. An instance stays in the slot it was applied to until it is removed
or its stacks run out and the slot is used again; no aura has two instances from one source, and
there are no more slots than instances were active at once.
-/

namespace Combat
open Checked

/-! ### Applying -/

namespace AuraSlots

/-- A slot that the application has to itself. -/
def fresh (held : RegisteredAura) (application : AuraApplication) : AuraSlot :=
  .setAura held application.stackCount application.amount application.source

/-- The place of a fresh instance, and how many slots there are then: the place of one that is not
active, or else one more. -/
inductive Room (slots : List AuraSlot) : Nat → Nat → Prop where
  | reused {index : Nat} {slot : AuraSlot} (here : slots[index]? = some slot)
    (idle : slot.isActive = false) : Room slots index slots.length
  | added (full : ∀ slot ∈ slots, slot.isActive = true) :
    Room slots slots.length (slots.length + 1)

/-- A fresh instance stands where there was room, and all else is as it was. -/
structure Placed (held : RegisteredAura) (application : AuraApplication) (before : List AuraSlot)
    (index : Nat) (after : List AuraSlot) : Prop where
  apart : ∀ slot ∈ before, merges held application slot = false
  room : Room before index after.length
  here : after[index]? = some (fresh held application)
  frame : ∀ other, other ≠ index → after[other]? = before[other]?

theorem Placed.idle {held : RegisteredAura} {application : AuraApplication}
    {before after : List AuraSlot} {index : Nat}
    (placed : Placed held application before index after) :
    ∀ slot ∈ before[index]?, slot.isActive = false := by
  have room := placed.room
  generalize after.length = length at room
  intro slot there
  cases room with
  | reused here idle =>
    obtain rfl := Option.some.inj (here.symm.trans there)
    exact idle
  | added full =>
    have bound := (List.getElem?_eq_some_iff.mp there).1
    omega

/-- The slot that an application went to, and the slots after it. -/
inductive Applied (held : RegisteredAura) (application : AuraApplication) (before : List AuraSlot) :
    Nat → List AuraSlot → Prop where
  | merged {index : Nat} {slot : AuraSlot} (here : before[index]? = some slot)
    (merging : merges held application slot = true) :
    Applied held application before index (before.modify index (mergeInto held application))
  | placed {index : Nat} {after : List AuraSlot}
    (placed : Placed held application before index after) :
    Applied held application before index after

theorem placed_set {held : RegisteredAura} {application : AuraApplication} {slots : List AuraSlot}
    {index : Nat} {slot : AuraSlot} (apart : ∀ slot ∈ slots, merges held application slot = false)
    (here : slots[index]? = some slot) (idle : slot.isActive = false) :
    Placed held application slots index (slots.set index (fresh held application)) where
  apart := apart
  room := by
    rw [List.length_set]
    exact .reused here idle
  here := List.getElem?_set_self (List.getElem?_eq_some_iff.mp here).1
  frame _ other := List.getElem?_set_ne other.symm

theorem placed_concat {held : RegisteredAura} {application : AuraApplication}
    {slots : List AuraSlot} (apart : ∀ slot ∈ slots, merges held application slot = false)
    (full : ∀ slot ∈ slots, slot.isActive = true) :
    Placed held application slots slots.length (slots ++ [fresh held application]) where
  apart := apart
  room := by
    rw [List.length_append]
    exact .added full
  here := List.getElem?_concat_length
  frame other apart := by
    rw [List.getElem?_append]
    split
    · rfl
    · rename_i beyond
      rw [List.getElem?_eq_none (by rw [List.length_singleton]; omega),
        List.getElem?_eq_none (by omega)]

theorem apply_applied (held : RegisteredAura) (application : AuraApplication)
    (slots : List AuraSlot) :
    Applied held application slots (apply held application slots).1
      (apply held application slots).2 := by
  unfold apply
  split
  · rename_i index found
    obtain ⟨slot, here, merging⟩ := findIdx?_some found
    exact .merged here merging
  · rename_i absent
    have apart := List.findIdx?_eq_none_iff.mp absent
    dsimp only
    split
    · rename_i index found
      obtain ⟨slot, here, idle⟩ := findIdx?_some found
      exact .placed (placed_set apart here (by simpa using idle))
    · rename_i none
      have full := List.findIdx?_eq_none_iff.mp none
      exact .placed (placed_concat apart fun slot member => by simpa using full slot member)

/-- An application of stacks goes to a slot, and one of none does nothing. -/
theorem act_add {held : RegisteredAura} {application : AuraApplication} {before after : AuraSlots}
    (h : act (.add held application) before = .ok after) :
    (application.stackCount.val = 0 ∧ after = before) ∨ (application.stackCount.val ≠ 0 ∧
      ∃ index, before.add held application = .ok (some index, after) ∧
        Applied held application before.slots index after.slots) := by
  obtain ⟨⟨slot, auras⟩, added, h⟩ := bind_ok h
  obtain rfl := pure_ok h
  obtain ⟨nothing, -, rfl⟩ | ⟨stacked, rfl, worked⟩ := add_ok added
  · exact .inl ⟨nothing, rfl⟩
  · refine .inr ⟨stacked, _, added, ?_⟩
    rw [ofSlots_slots worked]
    exact apply_applied held application before.slots

theorem fresh_isActive {application : AuraApplication} (stacked : application.stackCount.val ≠ 0)
    (held : RegisteredAura) : (fresh held application).isActive = true := by
  simp [fresh, AuraSlot.setAura, AuraSlot.isActive, Nat.pos_of_ne_zero stacked]

end AuraSlots

/-! ### What an action does to each slot -/

/-- The same instance: its aura and its source are the same, and it was not brought back to use. -/
structure AuraSlot.Remains (before after : AuraSlot) : Prop where
  held : after.held = before.held
  source : after.source = before.source
  active : after.isActive = true → before.isActive = true

namespace AuraSlot

theorem Remains.refl (slot : AuraSlot) : slot.Remains slot := ⟨rfl, rfl, id⟩

theorem Remains.removeStacks (slot : AuraSlot) (count : Count) :
    slot.Remains (slot.removeStacks count) where
  held := rfl
  source := rfl
  active active := by
    unfold isActive AuraSlot.removeStacks at *
    rw [Bool.and_eq_true, decide_eq_true_eq, Count.val_sub] at active
    rw [Bool.and_eq_true, decide_eq_true_eq]
    exact ⟨active.1, by omega⟩

theorem Remains.draw (slot : AuraSlot) (effect : Effect) (evaluated : Int) :
    slot.Remains (slot.draw effect evaluated).2 := ⟨rfl, rfl, id⟩

theorem Remains.mergeInto {held : RegisteredAura} {application : AuraApplication} {slot : AuraSlot}
    (merging : AuraSlots.merges held application slot = true) :
    slot.Remains (AuraSlots.mergeInto held application slot) where
  held := AuraSlots.mergeInto_held ..
  source := by
    unfold AuraSlots.mergeInto AuraSlot.set
    split <;> rfl
  active _ := by
    rw [AuraSlots.merges, Bool.and_eq_true] at merging
    exact (carries_iff.mp merging.1).1

theorem Remains.carries {before after : AuraSlot} (remains : before.Remains after) {id : String}
    (carries : after.carries id = true) : before.carries id = true := by
  obtain ⟨active, held, holds, same⟩ := carries_iff.mp carries
  exact carries_iff.mpr ⟨remains.active active, held, remains.held ▸ holds, same⟩

end AuraSlot

namespace AuraSlots

/-- The actions that apply, remove and draw from auras, and write over none. -/
def Action.Ordinary : Action → Prop
  | .add .. | .remove .. | .removeStacks .. | .removeAt .. | .removeStacksAt .. | .draw .. => True
  | .setAuraAt .. | .setAt .. | .load .. => False

def Action.Removes : Action → Prop
  | .remove .. | .removeAt .. => True
  | _ => False

/-- Every slot is still there, with its instance or emptied. -/
structure Settled (action : Action) (before after : List AuraSlot) : Prop where
  length : after.length = before.length
  each : ∀ (index : Nat) (slot : AuraSlot), before[index]? = some slot →
    ∃ next, after[index]? = some next ∧ (slot.Remains next ∨ next = .empty ∧ action.Removes)

/-- What an action did to the slots: it left every instance where it stood, or placed one more. -/
inductive Changed (before after : List AuraSlot) : Action → Prop where
  | settled {action : Action} (settled : Settled action before after) : Changed before after action
  | placed {held : RegisteredAura} {application : AuraApplication} {index : Nat}
    (stacked : application.stackCount.val ≠ 0)
    (placed : Placed held application before index after) :
    Changed before after (.add held application)

theorem Settled.refl (action : Action) (slots : List AuraSlot) : Settled action slots slots :=
  ⟨rfl, fun _ slot here => ⟨slot, here, .inl (.refl slot)⟩⟩

theorem Settled.modify {action : Action} {slots : List AuraSlot} {index : Nat}
    {change : AuraSlot → AuraSlot}
    (changes : ∀ slot, slots[index]? = some slot →
      slot.Remains (change slot) ∨ change slot = .empty ∧ action.Removes) :
    Settled action slots (slots.modify index change) := by
  refine ⟨List.length_modify .., fun other slot here => ?_⟩
  rw [List.getElem?_modify, here]
  refine ⟨_, rfl, ?_⟩
  dsimp only
  split
  · rename_i same
    exact changes slot (same ▸ here)
  · exact .inl (.refl slot)

theorem Settled.set {action : Action} {slots : List AuraSlot} {index : Nat} {slot next : AuraSlot}
    (here : slots[index]? = some slot) (remains : slot.Remains next) :
    Settled action slots (slots.set index next) := by
  refine ⟨List.length_set .., fun other old there => ?_⟩
  by_cases same : index = other
  · subst same
    obtain rfl := Option.some.inj (here.symm.trans there)
    rw [List.getElem?_set_self (List.getElem?_eq_some_iff.mp here).1]
    exact ⟨next, rfl, .inl remains⟩
  · rw [List.getElem?_set_ne same]
    exact ⟨old, there, .inl (.refl old)⟩

theorem Changed.modifyAt {action : Action} {before after : AuraSlots} {index : Nat}
    {change : AuraSlot → AuraSlot}
    (changes : ∀ slot, slot.Remains (change slot) ∨ change slot = .empty ∧ action.Removes)
    (h : before.modifyAt index change = .ok after) :
    Changed before.slots after.slots action := by
  obtain ⟨-, rfl⟩ | ⟨-, worked⟩ := modifyAt_ok h
  · exact .settled (.refl action _)
  · rw [ofSlots_slots worked]
    exact .settled (.modify fun slot _ => changes slot)

theorem act_changed {action : Action} {before after : AuraSlots} (ordinary : action.Ordinary)
    (h : act action before = .ok after) : Changed before.slots after.slots action := by
  cases action with
  | add held application =>
    obtain ⟨-, rfl⟩ | ⟨stacked, index, -, applied⟩ := act_add h
    · exact .settled (.refl _ _)
    · generalize after.slots = last at applied ⊢
      cases applied with
      | @merged slot here merging =>
        refine .settled (.modify fun other there => .inl (.mergeInto ?_))
        obtain rfl := Option.some.inj (here.symm.trans there)
        exact merging
      | placed placed => exact .placed stacked placed
  | remove id =>
    obtain ⟨⟨removed, auras⟩, done, h⟩ := bind_ok h
    obtain rfl := pure_ok h
    obtain ⟨-, ⟨-, rfl⟩ | ⟨-, worked⟩⟩ := remove_ok done
    · exact .settled (.refl _ _)
    · rw [ofSlots_slots worked]
      refine .settled ⟨List.length_map .., fun index slot here => ?_⟩
      rw [List.getElem?_map, here]
      refine ⟨_, rfl, ?_⟩
      dsimp only
      split
      · exact .inr ⟨rfl, trivial⟩
      · exact .inl (.refl slot)
  | removeStacks id count =>
    obtain ⟨⟨removed, auras⟩, done, h⟩ := bind_ok h
    obtain rfl := pure_ok h
    obtain ⟨-, -, rfl⟩ | ⟨index, -, -, worked⟩ := removeStacks_ok done
    · exact .settled (.refl _ _)
    · exact .modifyAt (fun slot => .inl (.removeStacks slot count)) worked
  | removeAt index => exact .modifyAt (fun _ => .inr ⟨rfl, trivial⟩) h
  | removeStacksAt index count => exact .modifyAt (fun slot => .inl (.removeStacks slot count)) h
  | draw index effect evaluated =>
    obtain ⟨⟨drawn, auras⟩, done, h⟩ := bind_ok h
    obtain rfl := pure_ok h
    obtain ⟨-, rfl⟩ | ⟨slot, here, -, -, worked⟩ := draw_ok done
    · exact .settled (.refl _ _)
    · rw [ofSlots_slots worked]
      exact .settled (.set here (.draw slot effect evaluated))
  | _ => exact ordinary.elim

/-! ### One instance at most -/

/-- No two slots are of the kind. -/
def AtMostOne (kind : AuraSlot → Bool) (slots : List AuraSlot) : Prop :=
  ∀ (i j : Nat) (a b : AuraSlot), slots[i]? = some a → slots[j]? = some b →
    kind a = true → kind b = true → i = j

/-- What an instance is of its kind for as long as it stays, an empty slot never. -/
structure Lasting (kind : AuraSlot → Bool) : Prop where
  remains : ∀ {slot next : AuraSlot}, slot.Remains next → kind next = true → kind slot = true
  empty : kind .empty = false

theorem lasting_carries (id : String) : Lasting (·.carries id) :=
  ⟨fun remains => remains.carries, rfl⟩

theorem lasting_carries_from (id : String) (source : Option Seat) :
    Lasting fun slot => slot.carries id && slot.source = source where
  remains remains is := by
    rw [Bool.and_eq_true, decide_eq_true_eq] at is ⊢
    exact ⟨remains.carries is.1, remains.source ▸ is.2⟩
  empty := rfl

variable {kind : AuraSlot → Bool}

theorem AtMostOne.settled {action : Action} {before after : List AuraSlot} (lasting : Lasting kind)
    (one : AtMostOne kind before) (settled : Settled action before after) :
    AtMostOne kind after := by
  have was : ∀ {index : Nat} {next : AuraSlot}, after[index]? = some next → kind next = true →
      ∃ slot, before[index]? = some slot ∧ kind slot = true := by
    intro index next here is
    have bound : index < before.length := settled.length ▸ (List.getElem?_eq_some_iff.mp here).1
    have there := List.getElem?_eq_getElem bound
    obtain ⟨last, same, stays⟩ := settled.each index before[index] there
    obtain rfl := Option.some.inj (same.symm.trans here)
    obtain remains | ⟨rfl, -⟩ := stays
    · exact ⟨before[index], there, lasting.remains remains is⟩
    · rw [lasting.empty] at is
      cases is
  intro i j a b first second isFirst isSecond
  obtain ⟨_, first, isFirst⟩ := was first isFirst
  obtain ⟨_, second, isSecond⟩ := was second isSecond
  exact one i j _ _ first second isFirst isSecond

/-- The only way to come to be of the kind beside another is to merge with it. -/
def Action.Joins (kind : AuraSlot → Bool) : Action → Prop
  | .add held application => kind (fresh held application) = true →
      ∀ slot : AuraSlot, kind slot = true → merges held application slot = true
  | _ => True

theorem AtMostOne.placed {held : RegisteredAura} {application : AuraApplication}
    {before after : List AuraSlot} {index : Nat} (one : AtMostOne kind before)
    (joins : Action.Joins kind (.add held application))
    (placed : Placed held application before index after) : AtMostOne kind after := by
  -- were the fresh instance of the kind beside another, it would have merged with that one
  have alone : kind (fresh held application) = true → ∀ {other : Nat} {slot : AuraSlot},
      after[other]? = some slot → kind slot = true → other = index := by
    intro isFresh other slot there is
    by_contra apart
    rw [placed.frame other apart] at there
    have merging := joins isFresh slot is
    rw [placed.apart slot (List.mem_of_getElem? there)] at merging
    cases merging
  intro i j a b first second isFirst isSecond
  by_cases left : i = index
  · subst left
    obtain rfl := Option.some.inj (placed.here.symm.trans first)
    exact (alone isFirst second isSecond).symm
  · by_cases right : j = index
    · subst right
      obtain rfl := Option.some.inj (placed.here.symm.trans second)
      exact alone isSecond first isFirst
    · rw [placed.frame i left] at first
      rw [placed.frame j right] at second
      exact one i j a b first second isFirst isSecond

theorem AtMostOne.changed {action : Action} {before after : List AuraSlot}
    (lasting : Lasting kind) (one : AtMostOne kind before) (joins : action.Joins kind)
    (changed : Changed before after action) : AtMostOne kind after := by
  cases changed with
  | settled settled => exact one.settled lasting settled
  | placed _ placed => exact one.placed joins placed

theorem fresh_carries {held : RegisteredAura} {application : AuraApplication} {id : String}
    (carries : (fresh held application).carries id = true) : held.id = id := by
  obtain ⟨-, other, holds, same⟩ := AuraSlot.carries_iff.mp carries
  obtain rfl := Option.some.inj holds
  exact same

theorem joins_carries_from (action : Action) (id : String) (source : Option Seat) :
    action.Joins fun slot => slot.carries id && slot.source = source := by
  cases action with
  | add held application =>
    intro isFresh slot is
    rw [Bool.and_eq_true, decide_eq_true_eq] at isFresh is
    obtain rfl := fresh_carries isFresh.1
    rw [merges, is.1, is.2, ← isFresh.2]
    simp [fresh, AuraSlot.setAura]
  | _ => trivial

theorem joins_carries {action : Action} {id : String}
    (combines : ∀ held application, action = .add held application → held.id = id →
      held.aura.combine = true) : action.Joins (·.carries id) := by
  cases action with
  | add held application =>
    intro isFresh slot is
    have same := fresh_carries isFresh
    rw [merges, same, combines held application rfl same, Bool.true_or, Bool.and_true]
    exact is
  | _ => trivial

/-! ### How many slots there are -/

def activeCount (slots : List AuraSlot) : Nat := slots.countP (·.isActive)

theorem activeCount_le (slots : List AuraSlot) : activeCount slots ≤ slots.length :=
  List.countP_le_length

/-- A slot is added only where all are active. -/
theorem Changed.length {action : Action} {before after : List AuraSlot}
    (changed : Changed before after action) :
    after.length = before.length ∨
      after.length = before.length + 1 ∧ activeCount after = after.length := by
  cases changed with
  | settled settled => exact .inl settled.length
  | @placed held application index stacked placed =>
    obtain ⟨-, room, here, frame⟩ := placed
    generalize grown : after.length = length at room
    cases room with
    | reused => exact .inl rfl
    | added full =>
      refine .inr ⟨rfl, ?_⟩
      rw [← grown]
      refine List.countP_eq_length.mpr fun slot member => ?_
      obtain ⟨other, there⟩ := List.mem_iff_getElem?.mp member
      by_cases last : other = before.length
      · subst last
        obtain rfl := Option.some.inj (here.symm.trans there)
        exact fresh_isActive stacked held
      · rw [frame other last] at there
        exact full slot (List.mem_of_getElem? there)

/-! ### Places -/

/-- What an action leaves in a place. -/
inductive Stands (action : Action) : Option AuraSlot → Option AuraSlot → Prop where
  | nowhere : Stands action none none
  /-- The instance that stood there. -/
  | stays {slot next : AuraSlot} (remains : slot.Remains next) :
    Stands action (some slot) (some next)
  | removed {slot : AuraSlot} (removes : action.Removes) : Stands action (some slot) (some .empty)
  /-- What the action applied, where no instance was active. -/
  | applied {before : Option AuraSlot} {held : RegisteredAura} {application : AuraApplication}
    (adds : action = .add held application) (idle : ∀ slot ∈ before, slot.isActive = false) :
    Stands action before (some (fresh held application))

theorem Changed.stands {action : Action} {before after : List AuraSlot}
    (changed : Changed before after action) (index : Nat) :
    Stands action before[index]? after[index]? := by
  cases changed with
  | settled settled =>
    cases here : before[index]? with
    | none =>
      have beyond := List.getElem?_eq_none_iff.mp here
      rw [List.getElem?_eq_none (by rw [settled.length]; exact beyond)]
      exact .nowhere
    | some slot =>
      obtain ⟨next, there, remains | ⟨rfl, removes⟩⟩ := settled.each index slot here
      · rw [there]
        exact .stays remains
      · rw [there]
        exact .removed removes
  | @placed held application place stacked placed =>
    by_cases at_place : index = place
    · subst at_place
      rw [placed.here]
      exact .applied rfl placed.idle
    · rw [placed.frame index at_place]
      cases before[index]? with
      | none => exact .nowhere
      | some slot => exact .stays (.refl slot)

/-! ### Runs -/

theorem play_atMostOne {kind : AuraSlot → Bool} (lasting : Lasting kind) {actions : List Action}
    (ordinary : ∀ action ∈ actions, action.Ordinary) (joins : ∀ action ∈ actions, action.Joins kind)
    {after : AuraSlots} (run : play act actions {} = .ok after) : AtMostOne kind after.slots := by
  refine play_keeps_listed (P := fun auras => AtMostOne kind auras.slots)
    (fun action member before after one h => ?_) (fun i j a b first => by simp at first) run
  exact one.changed lasting (joins action member) (act_changed (ordinary action member) h)

theorem play_length_le {actions : List Action} (ordinary : ∀ action ∈ actions, action.Ordinary)
    {before after : AuraSlots} (run : play act actions before = .ok after) :
    before.slots.length ≤ after.slots.length := by
  refine play_keeps_listed (P := fun auras => before.slots.length ≤ auras.slots.length)
    (fun action member middle next le h => ?_) (Nat.le_refl _) run
  obtain same | ⟨more, -⟩ := (act_changed (ordinary action member) h).length
  · omega
  · omega

/-- Some time in the run every slot that there is at its end was active. -/
theorem play_full {actions : List Action} (ordinary : ∀ action ∈ actions, action.Ordinary)
    {after : AuraSlots} (run : play act actions {} = .ok after) :
    ∃ early middle, early <+: actions ∧ play act early {} = .ok middle ∧
      activeCount middle.slots = after.slots.length := by
  -- on the last action: it added a slot, and then all are active, or there were as many before it
  induction actions using List.reverseRecOn generalizing after with
  | nil =>
    obtain rfl := pure_ok run
    exact ⟨[], {}, List.prefix_refl _, rfl, rfl⟩
  | append_singleton actions action ih =>
    obtain ⟨last, before, done⟩ := play_concat_ok run
    have listed : ∀ other ∈ actions, other.Ordinary :=
      fun other member => ordinary other (List.mem_append_left _ member)
    have changed := act_changed (ordinary action (by simp)) done
    obtain same | ⟨-, full⟩ := changed.length
    · obtain ⟨early, middle, part, reached, count⟩ := ih listed before
      exact ⟨early, middle, part.trans (List.prefix_append ..), reached, count.trans same.symm⟩
    · exact ⟨actions ++ [action], after, List.prefix_refl _, run, full⟩

/-- After any run from no slots, active instances of one id have different sources, and there is one
at most if every aura applied under the id combines. There are as many slots as instances were ever
active at once, never fewer than before, and no action of the run moved an instance. -/
theorem instances_in_place {actions : List Action} {after : AuraSlots}
    (ordinary : ∀ action ∈ actions, action.Ordinary) (run : play act actions {} = .ok after) :
    (∀ id source, AtMostOne (fun slot => slot.carries id && slot.source = source) after.slots) ∧
    (∀ id, (∀ held application, .add held application ∈ actions → held.id = id →
        held.aura.combine = true) → AtMostOne (·.carries id) after.slots) ∧
    (∀ early middle, early <+: actions → play act early {} = .ok middle →
      middle.slots.length ≤ after.slots.length ∧
        activeCount middle.slots ≤ after.slots.length) ∧
    (∃ early middle, early <+: actions ∧ play act early {} = .ok middle ∧
      activeCount middle.slots = after.slots.length) ∧
    ∀ early action middle next, early ++ [action] <+: actions →
      play act early {} = .ok middle → act action middle = .ok next →
        ∀ index : Nat, Stands action middle.slots[index]? next.slots[index]? := by
  refine ⟨fun id source => ?_, fun id combines => ?_, fun early middle part reached => ?_,
    play_full ordinary run, fun early action middle next part _ done index => ?_⟩
  · exact play_atMostOne (lasting_carries_from id source) ordinary
      (fun action _ => joins_carries_from action id source) run
  · refine play_atMostOne (lasting_carries id) ordinary (fun action member => ?_) run
    exact joins_carries fun held application adds => combines held application (adds ▸ member)
  · obtain ⟨late, rfl⟩ := part
    rw [play_append, reached] at run
    have le := play_length_le
      (fun action member => ordinary action (List.mem_append_right early member))
      (run : play act late middle = .ok after)
    exact ⟨le, Nat.le_trans (activeCount_le _) le⟩
  · have member : action ∈ actions := part.subset (by simp)
    exact (act_changed (ordinary action member) done).stands index

/-! A mark from two sources, the first of which is used up, and a bond that combines. -/

def mark : RegisteredAura := ⟨0, { id := "mark", name := "Mark" }⟩

def bond : RegisteredAura := ⟨1, { id := "bond", name := "Bond", combine := true }⟩

def relay : List Action :=
  [.add mark { stackCount := 2, source := some ⟨.heroes, .front⟩ },
    .add mark { stackCount := 1, source := some ⟨.enemies, .back⟩ },
    .removeStacks "mark" 2,
    .add bond { stackCount := 1, source := some ⟨.heroes, .front⟩ },
    .add bond { stackCount := 3, source := some ⟨.heroes, .back⟩ },
    .removeAt 1]

def relayed : AuraSlots where
  slots := [.setAura bond 3 none (some ⟨.heroes, .front⟩), .empty]

theorem instances_in_place_relay :
    (∀ action ∈ relay, action.Ordinary) ∧ play act relay {} = .ok relayed ∧
      (∀ held application, .add held application ∈ relay → held.id = "bond" →
        held.aura.combine = true) ∧ AtMostOne (·.carries "bond") relayed.slots ∧
      ∃ early middle, early <+: relay ∧ play act early {} = .ok middle ∧
        activeCount middle.slots = relayed.slots.length := by
  have ordinary : ∀ action ∈ relay, action.Ordinary := by simp [relay, Action.Ordinary]
  have run : play act relay {} = .ok relayed := by decide +kernel
  have combines : ∀ held application, .add held application ∈ relay → held.id = "bond" →
      held.aura.combine = true := by
    intro held application member named
    have auras : held = mark ∨ held = bond := by
      simp only [relay, List.mem_cons, Action.add.injEq, reduceCtorEq, List.not_mem_nil] at member
      tauto
    obtain rfl | rfl := auras
    · exact absurd named (by decide)
    · rfl
  obtain ⟨-, one, -, full, -⟩ := instances_in_place ordinary run
  exact ⟨ordinary, run, combines, one "bond" combines, full⟩

end AuraSlots
end Combat
