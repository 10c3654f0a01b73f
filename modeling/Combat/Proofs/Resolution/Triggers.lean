import Combat.Proofs.Limits.Tracker
import Combat.Proofs.Resolution.Unhandled

/-!
Where triggers count. A pass takes up the effects that wait for its trigger, and no pass takes up an
unknown one. An effect that is resolved by itself is resolved whatever its trigger is: the trigger
only tells apart what its uses count for.
-/

namespace Combat
open Checked

/-! ### Passes -/

namespace AuraPass

theorem trigger_of_mem_queue {owner : Seat} {trigger : Trigger} {ctx : Context}
    {queued : QueuedEffect} (h : queued ∈ queue owner trigger ctx) :
    queued.effect.trigger = trigger ∧ queued.effect.trigger ≠ .other := by
  obtain ⟨slot, -, -, -, waits⟩ := mem_queue h
  refine ⟨waits, ?_⟩
  intro unknown
  rw [unknown] at waits
  rw [← waits] at h
  exact List.not_mem_nil h

end AuraPass

/-! ### Effects by themselves -/

section
variable {handlers : Handlers} {effect : Effect} {ctx : Context}

theorem Handler.builtin_withTrigger (type : EffectType) (effect : Effect) (trigger : Trigger) :
    Handler.builtin type (effect.withTrigger trigger) = Handler.builtin type effect := by
  cases type <;> rfl

theorem process_unlimited_handled {type : EffectType} (typed : effect.type? = some type)
    (known : handlers type = some (Handler.builtin type)) (unlimited : ctx.limits = none) :
    process handlers effect ctx =
      (fun done => (some { type, targets := (ctx.seek type effect).1, changes := done.1 }, done.2)) <$>
        Handler.builtin type effect (ctx.seek type effect).1 (ctx.seek type effect).2 := by
  rw [process_handled typed known, Context.isBlocked_unlimited unlimited]
  cases handling : Handler.builtin type effect (ctx.seek type effect).1
      (ctx.seek type effect).2 with
  | error fault => rfl
  | ok done =>
    obtain ⟨changes, handled⟩ := done
    have detached : handled.limits = none := by
      rw [(Handler.builtin_keeps handling).1, Context.seek_rest]
      exact unlimited
    show (handled.recordUse effect ctx.sourceKey >>= _) = _
    rw [Context.recordUse_unlimited detached]
    rfl

theorem process_withTrigger (builtin : handlers.AllBuiltin) (unlimited : ctx.limits = none)
    (trigger : Trigger) :
    process handlers (effect.withTrigger trigger) ctx = process handlers effect ctx := by
  by_cases ignored : handlers.Ignores effect
  · have ignored' : handlers.Ignores (effect.withTrigger trigger) := ignored
    rw [process_ignored _ ignored, process_ignored _ ignored']
  · obtain ⟨type, typed, known⟩ := builtin.heeds ignored
    have typed' : (effect.withTrigger trigger).type? = some type := typed
    rw [process_unlimited_handled typed known unlimited,
      process_unlimited_handled typed' known unlimited, Handler.builtin_withTrigger]
    rfl

/-- What its limit lets pass is resolved as without limits, and then counted. -/
theorem process_counted (builtin : handlers.AllBuiltin)
    (free : ctx.isBlocked effect ctx.sourceKey = false) :
    process handlers effect ctx = do
      let (outcome, resolved) ← process handlers effect { ctx with limits := none }
      let resolved := { resolved with limits := ctx.limits }
      let after ← if outcome.isSome then resolved.recordUse effect ctx.sourceKey else pure resolved
      return (outcome, after) := by
  by_cases ignored : handlers.Ignores effect
  · rw [process_ignored _ ignored, process_ignored _ ignored]
    rfl
  · obtain ⟨type, typed, known⟩ := builtin.heeds ignored
    have apart := Handler.builtin_blind type effect (ctx.seek type effect).1 none
      (ctx.seek type effect).2.random (ctx.seek type effect).2
    have unlimited : ({ ctx with limits := none } : Context).limits = none := rfl
    rw [process_handled typed known, free, process_unlimited_handled typed known unlimited,
      Context.seek_unlimited]
    show _ = (_ <$> Handler.builtin type effect (ctx.seek type effect).1
      ((ctx.seek type effect).2.aside none (ctx.seek type effect).2.random)) >>= _
    rw [apart]
    cases handling : Handler.builtin type effect (ctx.seek type effect).1
        (ctx.seek type effect).2 with
    | error fault => rfl
    | ok done =>
      obtain ⟨changes, handled⟩ := done
      obtain ⟨kept, undrawn⟩ := Handler.builtin_keeps handling
      have attached : handled.limits = ctx.limits := by rw [kept, Context.seek_rest]
      have whole : ({ handled.aside none (ctx.seek type effect).2.random with
          limits := ctx.limits } : Context) = handled := by
        rw [← attached, ← undrawn]
        rfl
      show (handled.recordUse effect ctx.sourceKey >>= _) =
        (Context.recordUse { handled.aside none (ctx.seek type effect).2.random with
          limits := ctx.limits } effect ctx.sourceKey >>= _)
      rw [whole]

theorem process_detached (builtin : handlers.AllBuiltin) (unlimited : ctx.limits = none)
    {outcome : Option Outcome} {after : Context}
    (h : process handlers effect ctx = .ok (outcome, after)) : after.limits = none := by
  cases process_resolution h with
  | unhandled => exact unlimited
  | blocked => exact unlimited
  | resolved typed known free handling counted =>
    obtain rfl := builtin _ _ known
    have detached := (Handler.builtin_keeps handling).1
    rw [Context.seek_rest] at detached
    rw [Context.recordUse_unlimited (detached.trans unlimited)] at counted
    obtain rfl := Except.ok.inj counted
    exact detached.trans unlimited

/-- Any trigger may stand in for that of any effect. -/
theorem processEach_withTrigger (builtin : handlers.AllBuiltin) (unlimited : ctx.limits = none)
    (trigger : Effect → Trigger) (effects : List Effect) :
    processEach handlers (effects.map fun effect => effect.withTrigger (trigger effect)) ctx =
      processEach handlers effects ctx := by
  induction effects generalizing ctx with
  | nil => rfl
  | cons effect rest ih =>
    rw [List.map_cons, processEach, processEach, process_withTrigger builtin unlimited]
    cases resolved : process handlers effect ctx with
    | error fault => rfl
    | ok done =>
      show (processEach handlers _ done.2 >>= _) = (processEach handlers rest done.2 >>= _)
      rw [ih (process_detached builtin unlimited resolved)]

end

/-! ### Both ways to an effect -/

/-- A pass is the turns of effects that wait for its trigger, none of them unknown; an effect
resolved by itself fires on any trigger, also on an unknown one. -/
theorem only_passes_heed_triggers (handlers : Handlers) :
    (∀ owner ctx, triggerAuras handlers owner .other ctx = .ok ([], ctx)) ∧
    (∀ owner trigger ctx outcomes after,
      triggerAuras handlers owner trigger ctx = .ok (outcomes, after) →
      ∃ turns last, AuraPass.Linked (AuraPass.enter owner ctx) turns last ∧
        after = AuraPass.leave ctx last ∧ outcomes = turns.filterMap (·.outcome) ∧
        ∀ turn ∈ turns,
          turn.queued.effect.trigger = trigger ∧ turn.queued.effect.trigger ≠ .other ∧
          AuraPass.TurnCase handlers owner (AuraPass.enter owner ctx).sourceKey turn.queued
            turn.before turn.outcome turn.after) ∧
    (handlers.AllBuiltin → ∀ effect trigger ctx,
      ctx.isBlocked (effect.withTrigger trigger) ctx.sourceKey = false →
      process handlers (effect.withTrigger trigger) ctx = do
        let (outcome, resolved) ← process handlers effect { ctx with limits := none }
        let resolved := { resolved with limits := ctx.limits }
        let after ←
          if outcome.isSome then resolved.recordUse (effect.withTrigger trigger) ctx.sourceKey
          else pure resolved
        return (outcome, after)) ∧
    (handlers.AllBuiltin → ∀ (effects : List Effect) (trigger : Effect → Trigger) ctx,
      ctx.limits = none →
      processAll handlers (effects.map fun effect => effect.withTrigger (trigger effect)) ctx =
        processAll handlers effects ctx) := by
  refine ⟨fun owner ctx => rfl, fun owner trigger ctx outcomes after h => ?_,
    fun builtin effect trigger ctx free => ?_, fun builtin effects trigger ctx unlimited => ?_⟩
  · rw [AuraPass.triggerAuras_eq_turnsOf] at h
    obtain ⟨⟨turns, last⟩, taken, h⟩ := map_ok h
    obtain ⟨rfl, rfl⟩ := Prod.mk.inj h
    refine ⟨turns, last, AuraPass.turns_linked taken, rfl, rfl, fun turn member => ?_⟩
    have entry : turn.queued ∈ AuraPass.queue owner trigger ctx := by
      rw [← AuraPass.turns_queued taken]
      exact List.mem_map_of_mem member
    obtain ⟨waits, known⟩ := AuraPass.trigger_of_mem_queue entry
    exact ⟨waits, known, AuraPass.turns_turnCase taken turn member⟩
  · rw [process_counted builtin free, process_withTrigger builtin rfl]
  · unfold processAll
    rw [processEach_withTrigger builtin unlimited]

/-! A knight under an omen that mends at the start of a turn and would strike on a trigger that is
not known. -/

namespace Context

def sideways : Effect :=
  { kind := .damage none, target := .self, trigger := .other, amount := some (.flat 3) }

def omen : Aura :=
  { id := "omen", name := "Omen"
    effects := [sideways,
      { kind := .heal .flat, target := .self, trigger := .turnStart, amount := some (.flat 2) }] }

def haunted : Context where
  encounter :=
    ⟨⟨{ id := "knight", name := "Knight", role := some "fighter", hitpoints := 10
        innate := ({} : StatBlock).insert "hitpoints" 20
        stats := ({} : StatBlock).insert "hitpoints" 20
        auras := { slots := [.setAura ⟨0, omen⟩ 1 none none] } }, .empty, .empty⟩,
      ⟨.empty, .empty, .empty⟩⟩
  content := {}
  source := some ⟨.heroes, .front⟩

end Context

theorem only_passes_heed_triggers_haunted :
    Handlers.builtin.AllBuiltin ∧ Context.haunted.limits = none ∧
      (∃ outcomes after, ∃ turns : List AuraPass.Turn,
        triggerAuras Handlers.builtin ⟨.heroes, .front⟩ .turnStart Context.haunted =
          .ok (outcomes, after) ∧
        (after.get ⟨.heroes, .front⟩).hitpoints = 12 ∧
        outcomes = turns.filterMap (·.outcome) ∧
        ∀ turn ∈ turns, turn.queued.effect.trigger = .turnStart) ∧
      processAll Handlers.builtin [Context.sideways.withTrigger .immediate] Context.haunted =
        processAll Handlers.builtin [Context.sideways] Context.haunted := by
  obtain ⟨-, passes, -, lists⟩ := only_passes_heed_triggers Handlers.builtin
  obtain ⟨⟨outcomes, after⟩, passed, mended⟩ : ∃ result,
      triggerAuras Handlers.builtin ⟨.heroes, .front⟩ .turnStart Context.haunted = .ok result ∧
        (result.2.get ⟨.heroes, .front⟩).hitpoints = 12 :=
    holds_ok (by decide +kernel)
  obtain ⟨turns, last, -, -, answered, waiting⟩ := passes _ _ _ _ _ passed
  exact ⟨Handlers.builtin_allBuiltin, rfl,
    ⟨outcomes, after, turns, passed, mended, answered, fun turn member => (waiting turn member).1⟩,
    lists Handlers.builtin_allBuiltin [Context.sideways] (fun _ => .immediate) Context.haunted rfl⟩

/-- Resolved by itself the strike costs three hitpoints. -/
theorem unknown_trigger_fires :
    ¬∀ (handlers : Handlers) (effect : Effect) (ctx after : Context) (outcome : Option Outcome),
      effect.trigger = .other → process handlers effect ctx = .ok (outcome, after) →
      after.encounter = ctx.encounter ∧ after.stash = ctx.stash ∧ after.log = ctx.log ∧
        after.limits = ctx.limits := by
  intro never
  obtain ⟨⟨outcome, after⟩, struck, hitpoints⟩ : ∃ result,
      process Handlers.builtin Context.sideways Context.haunted = .ok result ∧
        (result.2.encounter.get ⟨.heroes, .front⟩).hitpoints = 7 :=
    holds_ok (by decide +kernel)
  have still := (never _ _ _ _ _ rfl struck).1
  rw [still] at hitpoints
  exact absurd hitpoints (by decide)

end Combat
