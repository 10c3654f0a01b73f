import Combat.Proofs.Resolution.Pass

/-!
The discipline of aura passes. Whatever the effects of a pass do to the auras that it works through,
an entry fires only while the very aura it was queued from is active in its slot, and an entry that
does not fire changes nothing.
-/

namespace Combat
open Checked

namespace AuraPass
variable {handlers : Handlers} {owner : Seat} {trigger : Trigger} {source : String}
  {queued : QueuedEffect} {ctx after last : Context} {outcome : Option Outcome}

/-- The aura that the entry was queued from has stacks and is in the entry's slot. -/
def Stands (owner : Seat) (queued : QueuedEffect) (ctx : Context) : Prop :=
  ∃ slot, (ctx.get owner).auras.slots[queued.slot]? = some slot ∧
    slot.held = some queued.held ∧ 0 < slot.stackCount.val

theorem reached_iff_stands : Reached owner queued ctx ↔ Stands owner queued ctx := by
  have waits (slot : AuraSlot) : queued.isFrom slot = true ↔
      slot.held = some queued.held ∧ 0 < slot.stackCount.val := by
    rw [QueuedEffect.isFrom_iff, AuraSlot.isActive, Bool.and_eq_true, decide_eq_true_eq]
    constructor
    · rintro ⟨⟨-, stacked⟩, holds⟩
      exact ⟨holds, stacked⟩
    · rintro ⟨holds, stacked⟩
      exact ⟨⟨by rw [holds]; rfl, stacked⟩, holds⟩
  simp only [Reached, Stands, waits]

/-! ### One turn -/

/-- A turn that fires or changes anything was reached. -/
theorem TurnCase.reached (h : TurnCase handlers owner source queued ctx outcome after)
    (live : outcome.any (!·.blocked) = true ∨ after ≠ ctx) : Reached owner queued ctx := by
  by_cases reached : Reached owner queued ctx
  · exact reached
  · obtain ⟨rfl, rfl⟩ := h.skips reached
    rcases live with firing | changed
    · exact absurd firing Bool.false_ne_true
    · exact absurd rfl changed

theorem TurnCase.firing (h : TurnCase handlers owner source queued ctx outcome after)
    (reached : Reached owner queued ctx) (free : ctx.isBlocked queued.effect source = false) :
    ∃ slot drawn drained resolved counted,
      (ctx.get owner).auras.slots[queued.slot]? = some slot ∧
      Firing handlers owner source queued slot ctx outcome after drawn drained resolved
        counted := by
  cases h with
  | skipped gone => exact absurd reached gone
  | stopped _ _ spent =>
    rw [free] at spent
    exact absurd spent Bool.false_ne_true
  | fires here _ _ firing => exact ⟨_, _, _, _, _, here, firing⟩

/-! ### All turns of a pass -/

/-- What holds of a pass that took these turns, was left in the last context and answered with the
outcomes. -/
structure Discipline (handlers : Handlers) (owner : Seat) (trigger : Trigger) (ctx : Context)
    (turns : List Turn) (last : Context) (outcomes : List Outcome) (after : Context) : Prop where
  /-- Every entry of the queue has one turn, in the order of the queue. -/
  queued : turns.map (·.queued) = queue owner trigger ctx
  linked : Linked (enter owner ctx) turns last
  /-- A turn answers at most once. -/
  answered : outcomes = turns.filterMap (·.outcome)
  typed : ∀ turn ∈ turns, ∀ outcome ∈ turn.outcome,
    turn.queued.effect.type? = some outcome.type
  /-- An entry whose aura has left its slot does nothing at all. -/
  gone : ∀ turn ∈ turns, ¬Stands owner turn.queued turn.before →
    turn.outcome = none ∧ turn.after = turn.before
  /-- An entry whose limit is used up does no more than say so. -/
  spent : ∀ turn ∈ turns, Stands owner turn.queued turn.before →
    turn.before.isBlocked turn.queued.effect (enter owner ctx).sourceKey = true →
    turn.outcome = turn.queued.effect.type?.map .blockedBy ∧ turn.after = turn.before
  /-- Any other entry fires from its slot, in the context in which its turn began. -/
  fires : ∀ turn ∈ turns, Stands owner turn.queued turn.before →
    turn.before.isBlocked turn.queued.effect (enter owner ctx).sourceKey = false →
    ∃ slot drawn drained resolved counted,
      (turn.before.get owner).auras.slots[turn.queued.slot]? = some slot ∧
      Firing handlers owner (enter owner ctx).sourceKey turn.queued slot turn.before turn.outcome
        turn.after drawn drained resolved counted
  /-- What fires comes from an aura that was active in its slot when the pass began, and still is
  when its turn comes. -/
  rooted : ∀ turn ∈ turns, turn.fired = true ∨ turn.after ≠ turn.before →
    Stands owner turn.queued turn.before ∧ Stands owner turn.queued ctx ∧
      turn.queued.effect ∈ turn.queued.held.aura.effects ∧ turn.queued.effect.trigger = trigger
  others : ∀ seat, seat ≠ owner → (∀ outcome ∈ outcomes, seat ∉ outcome.targets) →
    after.get seat = ctx.get seat
  roles : after.source = ctx.source ∧ after.credited = ctx.credited
  /-- The tracker of the beginning is attached again and has counted what fired. -/
  limited : ∀ tracker, ctx.limits = some tracker →
    ∃ next, after.limits = some next ∧
      countTurns (enter owner ctx).sourceKey turns tracker = .ok next
  unlimited : ctx.limits = none → after.limits = none

theorem turns_spare {taken : List Turn} (builtin : handlers.AllBuiltin)
    (h : turnsOf handlers owner trigger ctx = .ok (taken, last)) {seat : Seat}
    (other : seat ≠ owner)
    (untouched : ∀ outcome ∈ taken.filterMap (·.outcome), seat ∉ outcome.targets) :
    last.get seat = ctx.get seat := by
  refine (turns_evolves builtin rfl h).others seat fun listed => ?_
  rcases List.mem_cons.mp listed with same | listed
  · exact other same
  · obtain ⟨turn, member, listed⟩ := List.mem_flatMap.mp listed
    obtain ⟨outcome, answer, listed⟩ := List.mem_flatMap.mp listed
    refine untouched outcome (List.mem_filterMap.mpr ⟨turn, member, ?_⟩) listed
    exact Option.mem_toList.mp answer

theorem turns_disciplined {taken : List Turn} (builtin : handlers.AllBuiltin)
    (h : turnsOf handlers owner trigger ctx = .ok (taken, last)) :
    Discipline handlers owner trigger ctx taken last (taken.filterMap (·.outcome))
      (leave ctx last) := by
  have cases := turns_turnCase h
  have queued := turns_queued h
  constructor
  case queued => exact queued
  case linked => exact turns_linked h
  case answered => rfl
  case typed =>
    intro turn member outcome answer
    have turnCase := cases turn member
    rw [Option.mem_def.mp answer] at turnCase
    exact turnCase.typed
  case gone =>
    intro turn member gone
    rw [← reached_iff_stands] at gone
    exact (cases turn member).skips gone
  case spent =>
    intro turn member stands spent
    exact (cases turn member).stops (reached_iff_stands.mpr stands) spent
  case fires =>
    intro turn member stands free
    exact (cases turn member).firing (reached_iff_stands.mpr stands) free
  case rooted =>
    intro turn member live
    have entry : turn.queued ∈ queue owner trigger ctx := by
      rw [← queued]
      exact List.mem_map_of_mem member
    obtain ⟨slot, here, waits, listed, triggered⟩ := mem_queue entry
    have early : Reached owner turn.queued ctx := ⟨slot, here, waits⟩
    have now := (cases turn member).reached live
    rw [reached_iff_stands] at early now
    exact ⟨now, early, listed, triggered⟩
  case others => exact fun seat other untouched => turns_spare builtin h other untouched
  case roles => exact ⟨rfl, rfl⟩
  case limited =>
    intro tracker attached
    have inside : (enter owner ctx).limits = some tracker := attached
    obtain ⟨next, final, counted⟩ := turns_limited inside h
    exact ⟨next, final, counted⟩
  case unlimited =>
    intro detached
    have inside : (enter owner ctx).limits = none := detached
    have final := turns_unlimited inside h
    exact final

end AuraPass

/-- Every pass keeps the discipline, with the turns that it takes. -/
theorem triggerAuras_disciplined {handlers : Handlers} {owner : Seat} {trigger : Trigger}
    {ctx after : Context} {outcomes : List Outcome} (builtin : handlers.AllBuiltin)
    (h : triggerAuras handlers owner trigger ctx = .ok (outcomes, after)) :
    ∃ turns last, AuraPass.turnsOf handlers owner trigger ctx = .ok (turns, last) ∧
      after = AuraPass.leave ctx last ∧
      AuraPass.Discipline handlers owner trigger ctx turns last outcomes after := by
  rw [AuraPass.triggerAuras_eq_turnsOf] at h
  obtain ⟨⟨turns, last⟩, taken, h⟩ := map_ok h
  obtain ⟨rfl, rfl⟩ := Prod.mk.inj h
  exact ⟨turns, last, taken, rfl, AuraPass.turns_disciplined builtin taken⟩

/-! An owner whose first aura strips the second and puts a third into its slot. -/

namespace AuraPass

def swapAura : Aura :=
  { id := "swap", name := "Swap"
    effects := [selfEffect (.removeAura .buff "old"), selfEffect (.applyAura .buff "new")] }

def namedAura (id : String) : Aura := { id, name := id, effects := [selfEffect (.damage none)] }

def swapOwner : Character :=
  { id := "knight", name := "Knight", role := some "fighter"
    auras := { slots := [.setAura ⟨0, swapAura⟩ 1 none none,
      .setAura ⟨1, namedAura "old"⟩ 1 none none] } }

def swapCatalog : AuraCatalog :=
  (({} : AuraCatalog).register .buff (namedAura "old")).register .buff (namedAura "new")

def swapContext : Context :=
  { encounter := ⟨⟨swapOwner, .empty, .empty⟩, ⟨.empty, .empty, .empty⟩⟩
    content := { auras := swapCatalog } }

theorem swap_turns : ∃ turns last,
    turnsOf Handlers.builtin ⟨.heroes, .front⟩ .turnStart swapContext = .ok (turns, last) ∧
      turns.map (fun turn => (turn.queued.slot, turn.outcome.map (·.type))) =
        [(0, some (.removeAura .buff)), (0, some (.applyAura .buff)), (1, none)] ∧
      ((last.get ⟨.heroes, .front⟩).auras.slots.map fun slot => (slot.id?, slot.isActive)) =
        [(some "swap", true), (some "new", true)] := by
  obtain ⟨⟨turns, last⟩, taken, told⟩ := Checked.holds_ok (P := fun result : List Turn × Context =>
      result.1.map (fun turn => (turn.queued.slot, turn.outcome.map (·.type))) =
        [(0, some (.removeAura .buff)), (0, some (.applyAura .buff)), (1, none)] ∧
      ((result.2.get ⟨.heroes, .front⟩).auras.slots.map fun slot => (slot.id?, slot.isActive)) =
        [(some "swap", true), (some "new", true)])
    (x := turnsOf Handlers.builtin ⟨.heroes, .front⟩ .turnStart swapContext) (by decide +kernel)
  exact ⟨turns, last, taken, told⟩

end AuraPass

/-- Three effects wait, but neither that of the stripped aura nor that of the new one fires, though
the new one is active in the slot of the stripped one. -/
theorem triggerAuras_disciplined_swap :
    Handlers.builtin.AllBuiltin ∧ ∃ outcomes after turns last,
      triggerAuras Handlers.builtin ⟨.heroes, .front⟩ .turnStart AuraPass.swapContext =
        .ok (outcomes, after) ∧
      AuraPass.turnsOf Handlers.builtin ⟨.heroes, .front⟩ .turnStart AuraPass.swapContext =
        .ok (turns, last) ∧
      turns.map (fun turn => (turn.queued.slot, turn.outcome.map (·.type))) =
        [(0, some (.removeAura .buff)), (0, some (.applyAura .buff)), (1, none)] ∧
      ((last.get ⟨.heroes, .front⟩).auras.slots.map fun slot => (slot.id?, slot.isActive)) =
        [(some "swap", true), (some "new", true)] ∧
      AuraPass.Discipline Handlers.builtin ⟨.heroes, .front⟩ .turnStart AuraPass.swapContext turns
        last outcomes after := by
  obtain ⟨turns, last, taken, answers, left⟩ := AuraPass.swap_turns
  have passed : triggerAuras Handlers.builtin ⟨.heroes, .front⟩ .turnStart AuraPass.swapContext =
      .ok (turns.filterMap (·.outcome), AuraPass.leave AuraPass.swapContext last) := by
    rw [AuraPass.triggerAuras_eq_turnsOf, taken]
    rfl
  obtain ⟨_, _, again, -, discipline⟩ := triggerAuras_disciplined Handlers.builtin_allBuiltin passed
  obtain ⟨rfl, rfl⟩ := Prod.mk.inj (Except.ok.inj (again.symm.trans taken))
  exact ⟨Handlers.builtin_allBuiltin, _, _, _, _, passed, taken, answers, left, discipline⟩

end Combat
