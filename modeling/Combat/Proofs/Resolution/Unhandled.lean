import Combat.Proofs.Aura.Contributions
import Combat.Proofs.Resolution.Account
import Mathlib.Data.List.Basic

/-!
Passes over effects that nothing handles. Nothing comes of such an effect, but its turn draws from
its aura before that is known and consumes after it: a share leaves the pool, stacks leave the slot
and the carrier's stats are worked out anew.
-/

namespace Combat
open Checked

/-- The effect's type is unknown or has no handler. -/
def Handlers.Ignores (handlers : Handlers) (effect : Effect) : Prop :=
  effect.type?.bind handlers = none

theorem process_ignored {handlers : Handlers} {effect : Effect} (ctx : Context)
    (ignored : handlers.Ignores effect) : process handlers effect ctx = .ok (none, ctx) := by
  unfold Handlers.Ignores at ignored
  unfold process
  cases typed : effect.type? with
  | none => rfl
  | some type =>
    have unknown : handlers type = none := by
      rw [typed] at ignored
      exact ignored
    simp only [unknown]
    rfl

theorem Handlers.AllBuiltin.heeds {handlers : Handlers} (builtin : handlers.AllBuiltin)
    {effect : Effect} (heeded : ¬handlers.Ignores effect) :
    ∃ type, effect.type? = some type ∧ handlers type = some (Handler.builtin type) := by
  obtain ⟨handler, found⟩ := Option.ne_none_iff_exists'.mp heeded
  obtain ⟨type, typed, known⟩ := Option.bind_eq_some_iff.mp found
  obtain rfl := builtin type handler known
  exact ⟨type, typed, known⟩

/-! ### Wear -/

/-- What draws and consumption by the queue's entries leave of a slot: the same aura, and other
stacks or another stored amount only if an entry for the slot consumes or splits. -/
structure AuraSlot.Worn (queue : List QueuedEffect) (index : Nat) (before after : AuraSlot) :
    Prop where
  held : after.held = before.held
  source : after.source = before.source
  fewer : after.stackCount.val ≤ before.stackCount.val
  unconsumed : (∀ queued ∈ queue, queued.slot = index → queued.effect.consume = false) →
    after.stackCount = before.stackCount
  unsplit : (∀ queued ∈ queue, queued.slot = index → queued.effect.split = false) →
    after.amount = before.amount

structure AuraSlots.Worn (queue : List QueuedEffect) (before after : AuraSlots) : Prop where
  length : after.slots.length = before.slots.length
  slots : ∀ {index slot}, before.slots[index]? = some slot →
    ∃ worn, after.slots[index]? = some worn ∧ AuraSlot.Worn queue index slot worn

/-- Of the character nothing but its auras and what is worked out from them is different. -/
structure Character.Worn (queue : List QueuedEffect) (before after : Character) : Prop where
  rest : after = { before with
    auras := after.auras, stats := after.stats, hitpoints := after.hitpoints }
  hitpoints : after.hitpoints ≤ before.hitpoints
  auras : AuraSlots.Worn queue before.auras after.auras

namespace AuraSlot.Worn
variable {queue early late : List QueuedEffect} {index : Nat} {first second third : AuraSlot}

theorem refl (queue : List QueuedEffect) (index : Nat) (slot : AuraSlot) :
    Worn queue index slot slot :=
  ⟨rfl, rfl, Nat.le_refl _, fun _ => rfl, fun _ => rfl⟩

theorem mono (subset : early ⊆ late) (h : Worn early index first second) :
    Worn late index first second :=
  { h with
    unconsumed := fun none => h.unconsumed fun queued member => none queued (subset member)
    unsplit := fun none => h.unsplit fun queued member => none queued (subset member) }

theorem trans (h₁ : Worn queue index first second) (h₂ : Worn queue index second third) :
    Worn queue index first third where
  held := h₂.held.trans h₁.held
  source := h₂.source.trans h₁.source
  fewer := Nat.le_trans h₂.fewer h₁.fewer
  unconsumed none := (h₂.unconsumed none).trans (h₁.unconsumed none)
  unsplit none := (h₂.unsplit none).trans (h₁.unsplit none)

end AuraSlot.Worn

namespace AuraSlots.Worn
variable {queue early late : List QueuedEffect} {first second third : AuraSlots}

theorem refl (queue : List QueuedEffect) (auras : AuraSlots) : Worn queue auras auras :=
  ⟨rfl, fun here => ⟨_, here, .refl ..⟩⟩

theorem mono (subset : early ⊆ late) (h : Worn early first second) : Worn late first second where
  length := h.length
  slots here := by
    obtain ⟨worn, there, wears⟩ := h.slots here
    exact ⟨worn, there, wears.mono subset⟩

theorem trans (h₁ : Worn queue first second) (h₂ : Worn queue second third) :
    Worn queue first third where
  length := h₂.length.trans h₁.length
  slots here := by
    obtain ⟨middle, between, wears⟩ := h₁.slots here
    obtain ⟨last, there, later⟩ := h₂.slots between
    exact ⟨last, there, wears.trans later⟩

theorem of_set {index : Nat} {slot worn : AuraSlot} (here : first.slots[index]? = some slot)
    (wears : AuraSlot.Worn queue index slot worn)
    (changed : second.slots = first.slots.set index worn) :
    Worn queue first second where
  length := by rw [changed, List.length_set]
  slots := each_of_set here changed wears fun other found _ => .refl queue other found

end AuraSlots.Worn

namespace Character.Worn
variable {queue early late : List QueuedEffect} {first second third : Character}

theorem refl (queue : List QueuedEffect) (c : Character) : Worn queue c c :=
  ⟨rfl, Int.le_refl _, .refl ..⟩

theorem mono (subset : early ⊆ late) (h : Worn early first second) : Worn late first second :=
  { h with auras := h.auras.mono subset }

theorem trans (h₁ : Worn queue first second) (h₂ : Worn queue second third) :
    Worn queue first third where
  rest := by rw [h₂.rest, h₁.rest]
  hitpoints := Int.le_trans h₂.hitpoints h₁.hitpoints
  auras := h₁.auras.trans h₂.auras

theorem of_withAuras {α : Type} {result : α} {change : AuraSlots → Checked (α × AuraSlots)}
    (wears : ∀ {result auras}, change first.auras = .ok (result, auras) →
      AuraSlots.Worn queue first.auras auras)
    (h : first.withAuras change = .ok (result, second)) : Worn queue first second := by
  obtain ⟨auras, changed, worked⟩ := withAuras_ok h
  have rebuilt := (rebuild_ok worked).2
  have kept : second.auras = auras := by rw [rebuilt]
  constructor
  case rest => rw [rebuilt]
  case hitpoints =>
    rw [rebuilt]
    exact Int.min_le_left ..
  case auras =>
    rw [kept]
    exact wears changed

end Character.Worn

/-! ### What a turn wears -/

namespace AuraSlot
variable {queued : QueuedEffect} {slot : AuraSlot}

theorem draw_worn (evaluated : Int) :
    Worn [queued] queued.slot slot (slot.draw queued.effect evaluated).2 where
  held := rfl
  source := rfl
  fewer := Nat.le_refl _
  unconsumed _ := rfl
  unsplit none := by
    rw [draw_unsplit slot evaluated (none queued List.mem_cons_self rfl)]

theorem removeStacks_worn (count : Count) (consumes : queued.effect.consume = true) :
    Worn [queued] queued.slot slot (slot.removeStacks count) where
  held := rfl
  source := rfl
  fewer := by
    rw [removeStacks, Count.val_sub]
    exact Nat.sub_le ..
  unconsumed none := by
    have never := none queued List.mem_cons_self rfl
    rw [consumes] at never
    cases never
  unsplit _ := rfl

end AuraSlot

namespace AuraSlots.Worn
variable {queued : QueuedEffect} {auras after : AuraSlots}

theorem of_draw {evaluated drawn : Int}
    (h : auras.draw queued.slot queued.effect evaluated = .ok (drawn, after)) :
    Worn [queued] auras after := by
  obtain ⟨-, rfl⟩ | ⟨slot, here, -, -, worked⟩ := draw_ok h
  · exact .refl ..
  · exact .of_set here (AuraSlot.draw_worn evaluated) (ofSlots_slots worked)

theorem of_spend {count : Count} (consumes : queued.effect.consume = true)
    (h : AuraPass.spend queued count auras = .ok ((), after)) : Worn [queued] auras after := by
  obtain rfl | ⟨slot, here, -, removed⟩ := AuraPass.spend_ok h
  · exact .refl ..
  · obtain ⟨-, rfl⟩ | ⟨-, worked⟩ := modifyAt_ok removed
    · exact .refl ..
    · refine .of_set here (AuraSlot.removeStacks_worn count consumes) ?_
      rw [ofSlots_slots worked, List.modify_eq_set_getElem?, here]
      rfl

end AuraSlots.Worn

structure Context.Worn (owner : Seat) (queue : List QueuedEffect) (before after : Context) :
    Prop where
  rest : after = before.setCharacter owner (after.get owner)
  owner : (before.get owner).Worn queue (after.get owner)

namespace Context.Worn
variable {owner : Seat} {queue early late : List QueuedEffect} {first second third : Context}

theorem refl (owner : Seat) (queue : List QueuedEffect) (ctx : Context) :
    Worn owner queue ctx ctx :=
  ⟨(ctx.setCharacter_get owner).symm, .refl ..⟩

theorem mono (subset : early ⊆ late) (h : Worn owner early first second) :
    Worn owner late first second :=
  { h with owner := h.owner.mono subset }

theorem trans (h₁ : Worn owner queue first second) (h₂ : Worn owner queue second third) :
    Worn owner queue first third where
  rest := by
    have last := h₂.rest
    rw [h₁.rest, setCharacter_setCharacter] at last
    exact last
  owner := h₁.owner.trans h₂.owner

theorem of_owner {c : Character} (h : (first.get owner).Worn queue c) :
    Worn owner queue first (first.setCharacter owner c) where
  rest := by rw [get_setCharacter_self]
  owner := by
    rw [get_setCharacter_self]
    exact h

theorem credited (h : Worn owner queue first second) : second.credited = first.credited := by
  rw [h.rest]
  rfl

theorem isBlocked (h : Worn owner queue first second) (effect : Effect) (source : String) :
    second.isBlocked effect source = first.isBlocked effect source := by
  rw [h.rest]
  rfl

end Context.Worn

/-! ### Passes -/

namespace AuraPass
variable {handlers : Handlers} {owner : Seat} {source : String} {queued : QueuedEffect}
  {ctx after : Context}

/-- What a pass says of the entries that their limits stop. -/
def refusals (source : String) (queue : List QueuedEffect) (ctx : Context) : List Outcome :=
  (queue.filter fun queued => ctx.isBlocked queued.effect source).filterMap fun queued =>
    queued.effect.type?.map .blockedBy

theorem refusals_blocked {queue : List QueuedEffect} :
    ∀ outcome ∈ refusals source queue ctx, outcome.blocked = true := by
  intro outcome member
  obtain ⟨queued, -, answered⟩ := List.mem_filterMap.mp member
  obtain ⟨type, -, rfl⟩ := Option.map_eq_some_iff.mp answered
  rfl

theorem refusals_spent (spent : ctx.isBlocked queued.effect source = true) :
    refusals source [queued] ctx = (queued.effect.type?.map .blockedBy).toList := by
  simp only [refusals, List.filter_cons, spent, if_true, List.filter_nil, List.filterMap_cons]
  cases queued.effect.type? <;> rfl

theorem refusals_free (free : ctx.isBlocked queued.effect source = false) :
    refusals source [queued] ctx = [] := by
  simp [refusals, free]

theorem refusals_cons (source : String) (queued : QueuedEffect) (rest : List QueuedEffect)
    (ctx : Context) :
    refusals source (queued :: rest) ctx =
      refusals source [queued] ctx ++ refusals source rest ctx := by
  rw [refusals, refusals, refusals, ← List.filterMap_append, ← List.filter_append]
  rfl

theorem Firing.ignored {slot : AuraSlot} {outcome : Option Outcome} {drawn : Int}
    {drained : Character} {resolved counted : Context} (ignored : handlers.Ignores queued.effect)
    (uncredited : ctx.credited = none)
    (h : Firing handlers owner source queued slot ctx outcome after drawn drained resolved
      counted) : outcome = none ∧ ctx.Worn owner [queued] after := by
  have drew : (ctx.get owner).Worn [queued] drained := .of_withAuras .of_draw h.drew
  have undrawn : handlers.Ignores (fired queued.effect slot.amount.isSome drawn) := by
    rw [Handlers.Ignores, fired_type]
    exact ignored
  have resolving := h.resolving
  rw [process_ignored _ undrawn] at resolving
  obtain ⟨rfl, rfl⟩ := Prod.mk.inj (Except.ok.inj resolving)
  refine ⟨rfl, ?_⟩
  have middle : ctx.Worn owner [queued] (ctx.setCharacter owner drained) := .of_owner drew
  have same : counted = ctx.setCharacter owner drained := by
    have counting := h.counting
    -- nothing came of it, so nothing is counted
    obtain rfl := Except.ok.inj counting
    simp only [Context.setCharacter, ← uncredited]
  have consuming := h.consuming
  split at consuming
  · rename_i consumes
    rw [consume_eq] at consuming
    obtain ⟨⟨_, c⟩, spent, consuming⟩ := bind_ok consuming
    obtain rfl := pure_ok consuming
    rw [same] at spent ⊢
    exact middle.trans (.of_owner (.of_withAuras (.of_spend consumes) spent))
  · obtain rfl := Except.ok.inj consuming
    rw [same]
    exact middle

theorem TurnCase.ignored {outcome : Option Outcome} (ignored : handlers.Ignores queued.effect)
    (uncredited : ctx.credited = none)
    (h : TurnCase handlers owner source queued ctx outcome after) :
    outcome.toList.Sublist (refusals source [queued] ctx) ∧ ctx.Worn owner [queued] after := by
  cases h with
  | skipped => exact ⟨List.nil_sublist _, .refl ..⟩
  | stopped _ _ spent =>
    rw [refusals_spent spent]
    exact ⟨.refl _, .refl ..⟩
  | fires _ _ _ firing =>
    obtain ⟨rfl, worn⟩ := firing.ignored ignored uncredited
    exact ⟨List.nil_sublist _, worn⟩

theorem turns_ignored {queue : List QueuedEffect} {last : Context} {taken : List Turn}
    (ignored : ∀ queued ∈ queue, handlers.Ignores queued.effect) (uncredited : ctx.credited = none)
    (h : turns handlers owner source queue ctx = .ok (taken, last)) :
    (taken.filterMap (·.outcome)).Sublist (refusals source queue ctx) ∧
      ctx.Worn owner queue last := by
  induction queue generalizing ctx taken with
  | nil =>
    obtain ⟨rfl, rfl⟩ := pair_ok h
    exact ⟨.refl _, .refl ..⟩
  | cons queued rest ih =>
    obtain ⟨turn, more, rfl, rfl, rfl, turnCase, later⟩ := turns_cons h
    obtain ⟨refused, worn⟩ := turnCase.ignored (ignored _ List.mem_cons_self) uncredited
    have still : turn.after.credited = none := worn.credited.trans uncredited
    obtain ⟨others, wears⟩ := ih (fun q member => ignored q (List.mem_cons_of_mem _ member)) still
      later
    -- wear changes no count, so the limits answer later entries as they did at the start
    have unlimited : refusals source rest turn.after = refusals source rest turn.before := by
      simp only [refusals, worn.isBlocked]
    rw [unlimited] at others
    constructor
    · rw [refusals_cons]
      have joined := refused.append others
      rw [List.filterMap_cons]
      cases answer : turn.outcome with
      | none => simpa [answer] using joined
      | some outcome => simpa [answer] using joined
    · exact (worn.mono (by simp)).trans (wears.mono (by simp))

end AuraPass

/-! ### Owners at rest -/

/-- Working anything of it out anew changes nothing. -/
structure Character.AtRest (c : Character) : Prop where
  auras : c.auras.Worked
  rebuild : c.rebuild = .ok c

theorem Character.AtRest.withAuras {α : Type} {c : Character} {result : α}
    {change : AuraSlots → Checked (α × AuraSlots)} (rest : c.AtRest)
    (idle : change c.auras = .ok (result, c.auras)) : c.withAuras change = .ok (result, c) := by
  unfold Character.withAuras
  rw [idle]
  have same : { c with auras := c.auras }.rebuild = .ok c := rest.rebuild
  simp only [bind, Except.bind, same]
  rfl

theorem Character.Reachable.worked {c : Character} (reachable : c.Reachable) : c.auras.Worked := by
  refine reachable.keeps (P := fun c => c.auras.Worked) (fun _ _ _ _ => rfl) rfl ?_
  intro action before after worked h
  exact (act_auras action before after h).keeps AuraSlots.act_worked worked

/-- Characters of a fight are at rest, but for hitpoints above their greatest value. -/
theorem Character.Reachable.atRest {c : Character} (reachable : c.Reachable)
    (healthy : c.hitpoints ≤ c.maxHitpoints) : c.AtRest where
  auras := reachable.worked
  rebuild := by rw [reachable.upToDate.rebuild_eq, Int.min_eq_left healthy]

namespace AuraPass
variable {handlers : Handlers} {owner : Seat} {source : String} {queued : QueuedEffect}
  {ctx after : Context}

/-- A turn of the effect takes nothing from its aura. -/
structure Idle (effect : Effect) : Prop where
  unsplit : effect.split = false
  unconsumed : effect.consume = false

theorem step_ignored (rest : (ctx.get owner).AtRest) (uncredited : ctx.credited = none)
    (reached : Reached owner queued ctx) (ignored : handlers.Ignores queued.effect)
    (idle : Idle queued.effect) :
    step handlers owner source queued ctx = .ok (refusals source [queued] ctx, ctx) := by
  obtain ⟨slot, here, waits⟩ := reached
  unfold step
  rw [here, Option.filter_some, if_pos waits]
  dsimp only
  split
  · rename_i spent
    rw [refusals_spent spent]
    rfl
  · rename_i free
    rw [refusals_free (Bool.eq_false_iff.mpr free)]
    obtain ⟨drawn, drew⟩ := rest.auras.draw_unsplit queued.slot
      (queued.effect.amountValue (some (scalingStats owner slot ctx))) idle.unsplit
    have undrained : (ctx.get owner).withAuras (·.draw queued.slot queued.effect
        (queued.effect.amountValue (some (scalingStats owner slot ctx)))) =
          .ok (drawn, ctx.get owner) := rest.withAuras drew
    have undrawn : handlers.Ignores (fired queued.effect slot.amount.isSome drawn) := by
      rw [Handlers.Ignores, fired_type]
      exact ignored
    unfold scalingStats at undrained
    unfold fire
    simp only [undrained, bind, Except.bind, Context.setCharacter_get, process_ignored _ undrawn,
      idle.unconsumed]
    simp [pure, Except.pure, ← uncredited]

theorem run_ignored {queue : List QueuedEffect} (rest : (ctx.get owner).AtRest)
    (uncredited : ctx.credited = none) (reached : ∀ queued ∈ queue, Reached owner queued ctx)
    (ignored : ∀ queued ∈ queue, handlers.Ignores queued.effect)
    (idle : ∀ queued ∈ queue, Idle queued.effect) :
    run handlers owner source queue ctx = .ok (refusals source queue ctx, ctx) := by
  induction queue with
  | nil => rfl
  | cons queued more ih =>
    rw [List.forall_mem_cons] at reached ignored idle
    rw [run, step_ignored rest uncredited reached.1 ignored.1 idle.1,
      refusals_cons source queued more]
    simp only [bind, Except.bind, ih reached.2 ignored.2 idle.2]
    rfl

theorem triggerAuras_eq_run (handlers : Handlers) (owner : Seat) (trigger : Trigger)
    (ctx : Context) :
    triggerAuras handlers owner trigger ctx =
      (fun result => (result.1, leave ctx result.2)) <$>
        run handlers owner (enter owner ctx).sourceKey (queue owner trigger ctx)
          (enter owner ctx) := by
  rw [triggerAuras_eq_turnsOf, run_eq_turns, turnsOf]
  cases turns handlers owner (enter owner ctx).sourceKey (queue owner trigger ctx)
    (enter owner ctx) <;> rfl

end AuraPass

/-- A pass in which nothing has a handler says at most which entries are stopped by their limits,
and leaves all but its owner as it was; of the owner nothing changes but the stacks that entries
consume, the stored amounts that they share out and what is worked out from these. An owner whose
entries neither consume nor split is left as it was if it is at rest, as characters of a fight are
unless their hitpoints are above their greatest value. -/
theorem triggerAuras_unhandled {handlers : Handlers} {owner : Seat} {trigger : Trigger}
    {ctx : Context}
    (ignored : ∀ queued ∈ AuraPass.queue owner trigger ctx, handlers.Ignores queued.effect) :
    (∀ outcomes after, triggerAuras handlers owner trigger ctx = .ok (outcomes, after) →
      (∀ outcome ∈ outcomes, outcome.blocked = true) ∧
      after = ctx.setCharacter owner (after.get owner) ∧
      (ctx.get owner).Worn (AuraPass.queue owner trigger ctx) (after.get owner)) ∧
    ((ctx.get owner).AtRest ∨
        (ctx.get owner).Reachable ∧ (ctx.get owner).hitpoints ≤ (ctx.get owner).maxHitpoints →
      (∀ queued ∈ AuraPass.queue owner trigger ctx, AuraPass.Idle queued.effect) →
      triggerAuras handlers owner trigger ctx =
        .ok (AuraPass.refusals (AuraPass.enter owner ctx).sourceKey
          (AuraPass.queue owner trigger ctx) ctx, ctx)) := by
  constructor
  · intro outcomes after h
    rw [AuraPass.triggerAuras_eq_turnsOf] at h
    obtain ⟨⟨turns, last⟩, taken, h⟩ := map_ok h
    obtain ⟨rfl, rfl⟩ := Prod.mk.inj h
    obtain ⟨refused, worn⟩ := AuraPass.turns_ignored ignored rfl taken
    refine ⟨fun outcome member => ?_, ?_, worn.owner⟩
    · exact AuraPass.refusals_blocked outcome (refused.subset member)
    · exact congrArg (AuraPass.leave ctx) worn.rest
  · intro resting idle
    have rest : (ctx.get owner).AtRest := by
      rcases resting with rest | ⟨reachable, healthy⟩
      · exact rest
      · exact reachable.atRest healthy
    have reached : ∀ queued ∈ AuraPass.queue owner trigger ctx,
        AuraPass.Reached owner queued (AuraPass.enter owner ctx) := by
      intro queued member
      obtain ⟨slot, here, waits, -⟩ := AuraPass.mem_queue member
      exact ⟨slot, here, waits⟩
    have inside : ((AuraPass.enter owner ctx).get owner).AtRest := rest
    rw [AuraPass.triggerAuras_eq_run, AuraPass.run_ignored inside rfl reached ignored idle]
    rfl

/-! A knight who carries two stacks of an aura without a handler. -/

namespace AuraPass

def mending : Effect := { selfEffect (.heal .flat) with amount := some (.flat 3), stack := true }

def echoing (effect : Effect) (stackCount : Count) (amount : Option Float) : Context where
  encounter := ⟨⟨{ id := "knight", name := "Knight", role := some "fighter", auras := {
    slots := [.setAura ⟨0, { id := "echo", name := "Echo", effects := [effect] }⟩ stackCount amount
      none] } }, .empty, .empty⟩, ⟨.empty, .empty, .empty⟩⟩
  content := { auras := {} }

end AuraPass

theorem triggerAuras_unhandled_mending :
    (∀ queued ∈ AuraPass.queue ⟨.heroes, .front⟩ .turnStart
        (AuraPass.echoing AuraPass.mending 2 none), Handlers.empty.Ignores queued.effect) ∧
      (AuraPass.queue ⟨.heroes, .front⟩ .turnStart
        (AuraPass.echoing AuraPass.mending 2 none)).map (·.effect) = [AuraPass.mending] ∧
      triggerAuras Handlers.empty ⟨.heroes, .front⟩ .turnStart
        (AuraPass.echoing AuraPass.mending 2 none) =
          .ok ([], AuraPass.echoing AuraPass.mending 2 none) := by
  have waiting : (AuraPass.queue ⟨.heroes, .front⟩ .turnStart
      (AuraPass.echoing AuraPass.mending 2 none)).map (·.effect) = [AuraPass.mending] := rfl
  have ignored : ∀ queued ∈ AuraPass.queue ⟨.heroes, .front⟩ .turnStart
      (AuraPass.echoing AuraPass.mending 2 none), Handlers.empty.Ignores queued.effect := by
    intro queued _
    cases typed : queued.effect.type? <;> simp [Handlers.Ignores, Handlers.empty, typed]
  refine ⟨ignored, waiting, ?_⟩
  refine (triggerAuras_unhandled ignored).2 (.inl ⟨rfl, rfl⟩) fun queued member => ?_
  have listed := List.mem_map_of_mem (f := (·.effect)) member
  rw [waiting, List.mem_singleton] at listed
  rw [listed]
  exact ⟨rfl, rfl⟩

/-- One stack of two is consumed for an effect of an unknown type. -/
theorem triggerAuras_unhandled_consumes :
    ¬∀ (handlers : Handlers) (owner : Seat) (trigger : Trigger) (ctx after : Context)
      (outcomes : List Outcome),
      (∀ queued ∈ AuraPass.queue owner trigger ctx, handlers.Ignores queued.effect) →
      triggerAuras handlers owner trigger ctx = .ok (outcomes, after) →
      after.encounter = ctx.encounter := by
  intro keeps
  have fired : triggerAuras Handlers.builtin ⟨.heroes, .front⟩ .turnStart
      (AuraPass.echoing { AuraPass.selfEffect .unknown with consume := true } 2 none) =
        .ok ([], AuraPass.echoing { AuraPass.selfEffect .unknown with consume := true } 1 none) :=
    rfl
  have kept := keeps _ _ _ _ _ _ ?_ fired
  · exact absurd kept (by decide)
  · intro queued member
    have listed := List.mem_map_of_mem (f := (·.effect.type?)) member
    have typed : queued.effect.type? ∈ [none] := listed
    rw [List.mem_singleton] at typed
    rw [Handlers.Ignores, typed]
    rfl

/-- A share of twenty leaves the pool though nothing is healed. -/
example : ((triggerAuras Handlers.empty ⟨.heroes, .front⟩ .turnStart
    (AuraPass.echoing { AuraPass.mending with split := true } 2 (some 40))).toOption.map
      fun passed => (passed.2.get ⟨.heroes, .front⟩).auras.slots.map (·.amount)) =
    some [some 20] := by
  decide +kernel

end Combat
