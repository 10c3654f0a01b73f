import Combat.Proofs.Bounds
import Combat.Proofs.Resolution.Account
import Combat.Proofs.Resolution.Kinds
import Combat.Proofs.Resolution.Order
import Combat.Proofs.Sides.Handlers

/-!
What is told of removed auras. A removal names each target that carries the aura, and such a target
has fewer stacks of it afterwards unless none were to go.
-/

namespace Combat
open Checked

theorem Count.val_ofInt_pos {n : Int} : 0 < (ofInt n).val ↔ 0 < n := by
  have nearest : (ofInt n).val = Min.min n.toNat 4294967295 := rfl
  omega

/-! ### Stacks over slots -/

namespace AuraSlot
variable {id : String} {slot : AuraSlot}

theorem stacksFor_pos : 0 < slot.stacksFor id ↔ slot.carries id = true := by
  unfold stacksFor
  split
  · rename_i carries
    have active := (carries_iff.mp carries).1
    rw [isActive, Bool.and_eq_true, decide_eq_true_eq] at active
    exact ⟨fun _ => carries, fun _ => active.2⟩
  · rename_i absent
    exact ⟨fun none => absurd none (Nat.lt_irrefl 0), fun carries => absurd carries absent⟩

/-- Where nothing is left the slot counts no longer, and it would count nothing. -/
theorem stacksFor_removeStacks (carries : slot.carries id = true) (count : Count) :
    (slot.removeStacks count).stacksFor id = slot.stacksFor id - count.val := by
  have left : (slot.removeStacks count).stackCount.val = slot.stackCount.val - count.val :=
    Count.val_sub ..
  obtain ⟨-, held, holds, named⟩ := carries_iff.mp carries
  have whole : slot.stacksFor id = slot.stackCount.val := if_pos carries
  rw [whole, ← left]
  unfold stacksFor
  split
  · rfl
  · rename_i gone
    have idle : ¬(slot.removeStacks count).isActive = true := by
      intro active
      exact gone (carries_iff.mpr ⟨active, held, holds, named⟩)
    have holds' : (slot.removeStacks count).held = some held := holds
    rw [isActive, holds', Option.isSome_some, Bool.true_and, decide_eq_true_eq] at idle
    omega

end AuraSlot

namespace AuraSlots
variable {id : String} {slots : List AuraSlot}

theorem stacksFor_cons (slot : AuraSlot) :
    stacksFor id (slot :: slots) = slot.stacksFor id + stacksFor id slots := rfl

theorem stacksFor_pos : 0 < stacksFor id slots ↔ slots.any (·.carries id) = true := by
  induction slots with
  | nil => simp [stacksFor]
  | cons slot rest ih =>
    rw [stacksFor_cons, List.any_cons, Bool.or_eq_true, ← AuraSlot.stacksFor_pos, ← ih]
    omega

theorem stacksFor_emptied :
    stacksFor id (slots.map fun slot => if slot.carries id then .empty else slot) = 0 := by
  induction slots with
  | nil => rfl
  | cons slot rest ih =>
    rw [List.map_cons, stacksFor_cons, ih]
    split
    · rfl
    · rename_i absent
      exact if_neg absent

theorem stacksFor_modify {index : Nat} {slot : AuraSlot} (here : slots[index]? = some slot)
    (change : AuraSlot → AuraSlot) :
    stacksFor id (slots.modify index change) + slot.stacksFor id =
      stacksFor id slots + (change slot).stacksFor id := by
  induction slots generalizing index with
  | nil => cases here
  | cons head rest ih =>
    cases index with
    | zero =>
      obtain rfl : head = slot := Option.some.inj here
      rw [List.modify_zero_cons, stacksFor_cons, stacksFor_cons]
      omega
    | succ index =>
      have later := ih here
      rw [List.modify_succ_cons, stacksFor_cons, stacksFor_cons]
      omega

/-- A removal finds the aura where it is carried, and there it takes the stacks that are to go. -/
theorem removal_ok {auras after : AuraSlots} {count : Option Count} {removed : Bool}
    (h : Handler.removal id count auras = .ok (removed, after)) :
    removed = auras.slots.any (·.carries id) ∧
      (stacksFor id after.slots < stacksFor id auras.slots ↔
        removed = true ∧ ∀ going ∈ count, 0 < going.val) := by
  cases count with
  | none =>
    obtain ⟨found, ⟨rfl, rfl⟩ | ⟨rfl, worked⟩⟩ := remove_ok h
    · exact ⟨found, by simp⟩
    · rw [ofSlots_slots worked, stacksFor_emptied, stacksFor_pos, ← found]
      exact ⟨rfl, by simp⟩
  | some count =>
    obtain ⟨absent, rfl, rfl⟩ | ⟨index, found, rfl, removing⟩ := removeStacks_ok h
    · refine ⟨?_, by simp⟩
      rw [← List.findIdx?_isSome, absent, Option.isSome_none]
    · obtain ⟨slot, here, carries⟩ := findIdx?_some found
      have stacked := AuraSlot.stacksFor_pos.mpr carries
      have taken : stacksFor id (auras.slots.modify index (·.removeStacks count)) +
          slot.stacksFor id = stacksFor id auras.slots + (slot.stacksFor id - count.val) := by
        rw [stacksFor_modify here, AuraSlot.stacksFor_removeStacks carries]
      obtain ⟨beyond, -⟩ | ⟨-, worked⟩ := modifyAt_ok removing
      · rw [List.getElem?_eq_none beyond] at here
        cases here
      · rw [ofSlots_slots worked, ← List.findIdx?_isSome, found]
        refine ⟨rfl, ?_⟩
        simp only [Option.mem_def, Option.some.injEq, forall_eq', true_and]
        omega

end AuraSlots

/-! ### Targets -/

namespace Handler
open Context

theorem flatMap_filter {α β : Type} {xs : List α} {p : α → Bool} {parts : α → List β} {f : α → β}
    (each : ∀ x ∈ xs, parts x = if p x then [f x] else []) :
    xs.flatMap parts = (xs.filter p).map f := by
  induction xs with
  | nil => rfl
  | cons x rest ih =>
    obtain ⟨first, later⟩ := List.forall_mem_cons.mp each
    rw [List.flatMap_cons, first, ih later, List.filter_cons]
    split <;> rfl

theorem stripped_ok {id : String} {count : Option Count} {target : Seat} {c : Character}
    {dealt : Dealt} (h : stripped id count target c = .ok dealt) :
    dealt.changes =
        (if c.auras.slots.any (·.carries id) then [.auraRemoved target id] else []) ∧
      dealt.lines =
        (if c.auras.slots.any (·.carries id) then [s!"{c.name} loses {id}"] else []) ∧
      (AuraSlots.stacksFor id dealt.becomes.auras.slots < AuraSlots.stacksFor id c.auras.slots ↔
        c.auras.slots.any (·.carries id) = true ∧ ∀ going ∈ count, 0 < going.val) := by
  obtain ⟨⟨removed, last⟩, done, h⟩ := bind_ok h
  obtain ⟨auras, removing, worked⟩ := Character.withAuras_ok done
  obtain ⟨rfl, fewer⟩ := AuraSlots.removal_ok removing
  rw [← pure_ok h, (Character.rebuild_ok worked).2]
  exact ⟨rfl, rfl, fewer⟩

/-- Those of the targets that carry the aura, in their order. -/
def carriers (ctx : Context) (id : String) (targets : List Seat) : List Seat :=
  targets.filter fun seat => (ctx.get seat).auras.slots.any (·.carries id)

theorem removeEach_told {id : String} {count : Option Count} {targets : List Seat}
    {ctx after : Context} {changes : List Change} (distinct : targets.Nodup)
    (h : forEach (removeOne id count) targets ctx = .ok (changes, after)) :
    changes = (carriers ctx id targets).map (.auraRemoved · id) ∧
      after.log = ctx.log ++
        (carriers ctx id targets).map (fun seat => s!"{(ctx.get seat).name} loses {id}") ∧
      ∀ seat, AuraSlots.stacksFor id (after.get seat).auras.slots <
          AuraSlots.stacksFor id (ctx.get seat).auras.slots ↔
        seat ∈ carriers ctx id targets ∧ ∀ going ∈ count, 0 < going.val := by
  have separate := removeOne_separate id count
  choose! dealt deeds using separate.deeds_finish distinct h
  have told := fun target member => stripped_ok (deeds target member)
  rw [separate.forEach_settled distinct deeds] at h
  obtain ⟨rfl, rfl⟩ := Prod.mk.inj (Except.ok.inj h)
  refine ⟨flatMap_filter fun target member => (told target member).1, ?_, fun seat => ?_⟩
  · show ctx.log ++ _ = _
    rw [flatMap_filter fun target member => (told target member).2.1]
    rfl
  · rw [settled_get, carriers, List.mem_filter]
    by_cases listed : seat ∈ targets
    · rw [if_pos listed, (told seat listed).2.2]
      simp only [listed, true_and]
    · rw [if_neg listed]
      simp only [listed, false_and, Nat.lt_irrefl]

/-- Without a count the whole aura goes, and an effect without one stands for one. -/
theorem stackCount_pos {effect : Effect} {ctx : Context} :
    (∀ going ∈ effect.stackCount.map (fun _ => ctx.stackCount effect), 0 < going.val) ↔
      0 < effect.stacksValue ctx.sourceStats := by
  cases counted : effect.stackCount with
  | none => simp [Effect.stacksValue, counted]
  | some formula =>
    simp only [Option.map_some, Option.mem_def, Option.some.injEq, forall_eq']
    exact Count.val_ofInt_pos

theorem removeAura_told {effect : Effect} {kind : AuraKind} {id : String} {targets : List Seat}
    {ctx after : Context} {changes : List Change} (strips : effect.kind = .removeAura kind id)
    (distinct : targets.Nodup) (h : removeAura effect targets ctx = .ok (changes, after)) :
    ∃ told : List Seat, told.Nodup ∧ changes = told.map (.auraRemoved · id) ∧
      after.log = ctx.log ++ told.map (fun seat => s!"{(ctx.get seat).name} loses {id}") ∧
      ∀ seat,
        (seat ∈ told ↔ seat ∈ targets ∧ (ctx.content.auras.lookup kind id).isSome = true ∧
          0 < AuraSlots.stacksFor id (ctx.get seat).auras.slots) ∧
        (AuraSlots.stacksFor id (after.get seat).auras.slots <
            AuraSlots.stacksFor id (ctx.get seat).auras.slots ↔
          seat ∈ told ∧ 0 < effect.stacksValue ctx.sourceStats) := by
  unfold removeAura at h
  simp only [strips] at h
  cases known : ctx.content.auras.lookup kind id with
  | none =>
    rw [known] at h
    obtain ⟨rfl, rfl⟩ := pair_ok h
    exact ⟨[], .nil, rfl, (List.append_nil _).symm, by simp⟩
  | some held =>
    rw [known] at h
    obtain ⟨recorded, logged, fewer⟩ := removeEach_told distinct h
    refine ⟨carriers ctx id targets, distinct.filter _, recorded, logged, fun seat => ⟨?_, ?_⟩⟩
    · rw [carriers, List.mem_filter, AuraSlots.stacksFor_pos]
      simp
    · rw [fewer, stackCount_pos]

end Handler
/-- A removal tells truly what it removed where it takes stacks at all: everyone who carries the
aura is told of, and has fewer stacks of it unless none were to go. -/
theorem removals_told {handlers : Handlers} (builtin : handlers.AllBuiltin) {effect : Effect}
    {kind : AuraKind} {id : String} {ctx after : Context} {outcome : Option Outcome}
    (strips : effect.kind = .removeAura kind id)
    (h : process handlers effect ctx = .ok (outcome, after)) :
    ∃ told : List Seat, told.Nodup ∧
      outcome.toList.flatMap (·.changes) = told.map (.auraRemoved · id) ∧
      after.log = ctx.log ++ told.map (fun seat => s!"{(ctx.get seat).name} loses {id}") ∧
      ∀ seat,
        (seat ∈ told ↔ seat ∈ outcome.toList.flatMap (·.targets) ∧
          (ctx.content.auras.lookup kind id).isSome = true ∧
          0 < AuraSlots.stacksFor id (ctx.get seat).auras.slots) ∧
        (AuraSlots.stacksFor id (after.get seat).auras.slots <
            AuraSlots.stacksFor id (ctx.get seat).auras.slots ↔
          seat ∈ told ∧ 0 < effect.stacksValue ctx.sourceStats) := by
  cases process_resolution h with
  | unhandled => exact ⟨[], .nil, rfl, (List.append_nil _).symm, by simp⟩
  | blocked => exact ⟨[], .nil, rfl, (List.append_nil _).symm, by simp [Outcome.blockedBy]⟩
  | @resolved type _ changes handled _ typed known free handling counted =>
    obtain rfl := builtin type _ known
    obtain rfl : EffectType.removeAura kind = type := by
      rw [Effect.type?, strips] at typed
      exact Option.some.inj typed
    obtain ⟨told, distinct, recorded, logged, seats⟩ :=
      Handler.removeAura_told strips (Context.seek_nodup ..) handling
    rw [Context.seek_rest] at logged seats
    refine ⟨told, distinct, ?_, ?_, ?_⟩
    · rw [← recorded, Option.toList_some, List.flatMap_singleton]
    · rw [Context.recordUse_rest counted]
      exact logged
    · intro seat
      rw [Context.recordUse_get counted, Option.toList_some, List.flatMap_singleton]
      exact seats seat

/-! A knight in a grace of two stacks, of which some are to go. -/

namespace Context

def grace : Aura := { id := "grace", name := "Grace" }

def graced : Context where
  encounter :=
    ⟨⟨{ id := "knight", name := "Knight", role := some "fighter"
        auras := { slots := [.setAura ⟨0, grace⟩ 2 none none] } }, .empty, .empty⟩,
      ⟨.empty, .empty, .empty⟩⟩
  content := { auras := AuraCatalog.register {} .buff grace }
  source := some ⟨.heroes, .front⟩

def disgrace (going : Float) : Effect :=
  { kind := .removeAura .buff "grace", target := .self, stackCount := some (.flat going) }

end Context

theorem removals_told_graced :
    Handlers.builtin.AllBuiltin ∧ (Context.disgrace 1).kind = .removeAura .buff "grace" ∧
      ∃ outcome after, process Handlers.builtin (Context.disgrace 1) Context.graced =
          .ok (some outcome, after) ∧
        (∃ told : List Seat, ⟨.heroes, .front⟩ ∈ told ∧
          outcome.changes = told.map (.auraRemoved · "grace")) ∧
        AuraSlots.stacksFor "grace" (after.get ⟨.heroes, .front⟩).auras.slots <
          AuraSlots.stacksFor "grace" (Context.graced.get ⟨.heroes, .front⟩).auras.slots := by
  obtain ⟨⟨outcome, after⟩, ran, aimed⟩ : ∃ result,
      process Handlers.builtin (Context.disgrace 1) Context.graced = .ok result ∧
        result.1.map (·.targets) = some [⟨.heroes, .front⟩] :=
    holds_ok (by decide +kernel)
  obtain ⟨outcome, rfl, targets⟩ := Option.map_eq_some_iff.mp aimed
  obtain ⟨told, -, recorded, -, seats⟩ := removals_told Handlers.builtin_allBuiltin rfl ran
  obtain ⟨listed, fewer⟩ := seats ⟨.heroes, .front⟩
  have named : ⟨.heroes, .front⟩ ∈ told := by
    rw [listed, Option.toList_some, List.flatMap_singleton, targets]
    exact ⟨List.mem_singleton_self _, by decide +kernel, by decide +kernel⟩
  rw [Option.toList_some, List.flatMap_singleton] at recorded
  exact ⟨Handlers.builtin_allBuiltin, rfl, outcome, after, ran, ⟨told, named, recorded⟩,
    fewer.mpr ⟨named, by decide +kernel⟩⟩

/-- Where no stack is to go the grace is said to be lost, and both its stacks stay. -/
theorem removal_told_of_nothing :
    ¬∀ (effect : Effect) (kind : AuraKind) (id : String) (ctx after : Context) (outcome : Outcome),
      effect.kind = .removeAura kind id →
      process Handlers.builtin effect ctx = .ok (some outcome, after) →
      ∀ seat, .auraRemoved seat id ∈ outcome.changes ↔
        AuraSlots.stacksFor id (after.get seat).auras.slots <
          AuraSlots.stacksFor id (ctx.get seat).auras.slots := by
  intro truthful
  obtain ⟨⟨outcome, after⟩, ran, said, kept⟩ : ∃ result,
      process Handlers.builtin (Context.disgrace 0) Context.graced = .ok result ∧
        result.1.map (·.changes) = some [.auraRemoved ⟨.heroes, .front⟩ "grace"] ∧
        result.2.encounter = Context.graced.encounter :=
    holds_ok (by decide +kernel)
  obtain ⟨outcome, rfl, changes⟩ := Option.map_eq_some_iff.mp said
  have lost := (truthful _ .buff "grace" _ _ _ rfl ran ⟨.heroes, .front⟩).mp
    (by rw [changes]; exact List.mem_singleton_self _)
  rw [Context.get, kept] at lost
  exact Nat.lt_irrefl _ lost

end Combat
