import Combat.Proofs.Resolution.Frame
import Combat.Resolution.AuraPass

/-!
Aura passes turn by turn. A pass takes the queue of its beginning and gives each entry one turn; the
turn of an entry whose aura has left its slot, or whose limit is used up, changes nothing.
-/

namespace Combat
open Checked

/-! ### The queue -/

theorem QueuedEffect.isFrom_iff {queued : QueuedEffect} {slot : AuraSlot} :
    queued.isFrom slot = true ↔ slot.isActive = true ∧ slot.held = some queued.held := by
  simp [isFrom]

theorem AuraSlots.mem_queueOf {trigger : Trigger} {index : Nat} {slot : AuraSlot}
    {queued : QueuedEffect} (h : queued ∈ queueOf trigger index slot) :
    queued.slot = index ∧ queued.isFrom slot = true ∧ queued.effect ∈ queued.held.aura.effects ∧
      queued.effect.trigger = trigger := by
  unfold queueOf at h
  split at h
  · rename_i held holds
    split at h
    · rename_i active
      obtain ⟨effect, member, rfl⟩ := List.mem_map.mp h
      obtain ⟨member, fires⟩ := List.mem_filter.mp member
      simp only [Bool.and_eq_true, decide_eq_true_eq] at fires
      exact ⟨rfl, QueuedEffect.isFrom_iff.mpr ⟨active, holds⟩, member, fires.1⟩
    · exact absurd h List.not_mem_nil
  · exact absurd h List.not_mem_nil

theorem AuraSlots.mem_effectsFor {auras : AuraSlots} {trigger : Trigger} {queued : QueuedEffect}
    (h : queued ∈ auras.effectsFor trigger) :
    ∃ slot, auras.slots[queued.slot]? = some slot ∧ queued.isFrom slot = true ∧
      queued.effect ∈ queued.held.aura.effects ∧ queued.effect.trigger = trigger := by
  unfold effectsFor at h
  obtain ⟨queue, member, h⟩ := List.mem_flatten.mp h
  obtain ⟨index, bound, rfl⟩ := List.mem_mapIdx.mp member
  obtain ⟨rfl, waits⟩ := mem_queueOf h
  exact ⟨auras.slots[queued.slot], List.getElem?_eq_getElem bound, waits⟩

namespace AuraPass

/-- What a pass has to do: nothing for a trigger that never fires or an owner that takes no part. -/
def queue (owner : Seat) (trigger : Trigger) (ctx : Context) : List QueuedEffect :=
  if trigger = .passive || trigger = .other || !(ctx.get owner).inCombat then []
  else (ctx.get owner).auras.effectsFor trigger

theorem mem_queue {owner : Seat} {trigger : Trigger} {ctx : Context} {queued : QueuedEffect}
    (h : queued ∈ queue owner trigger ctx) :
    ∃ slot, (ctx.get owner).auras.slots[queued.slot]? = some slot ∧ queued.isFrom slot = true ∧
      queued.effect ∈ queued.held.aura.effects ∧ queued.effect.trigger = trigger := by
  unfold queue at h
  split at h
  · exact absurd h List.not_mem_nil
  · exact AuraSlots.mem_effectsFor h

/-- Only characters that fight have a pass. -/
theorem inCombat_of_mem_queue {owner : Seat} {trigger : Trigger} {ctx : Context}
    {queued : QueuedEffect} (h : queued ∈ queue owner trigger ctx) :
    (ctx.get owner).inCombat = true := by
  unfold queue at h
  split at h
  · exact absurd h List.not_mem_nil
  · rename_i awaits
    simp only [Bool.or_eq_true, not_or, Bool.not_eq_true, Bool.not_eq_false'] at awaits
    exact awaits.2

/-- The context in which a pass works: the owner is the source and nobody else is credited. -/
def enter (owner : Seat) (ctx : Context) : Context :=
  { ctx with source := some owner, credited := none }

/-- The context after a pass, with the roles of the one before it. -/
def leave (ctx inside : Context) : Context :=
  { inside with source := ctx.source, credited := ctx.credited }

/-- One entry's turn: the context it found, what it answered and the context it left. -/
structure Turn where
  queued : QueuedEffect
  before : Context
  outcome : Option Outcome
  after : Context

/-- The turns of a queue, one for each entry in order. -/
def turns (handlers : Handlers) (owner : Seat) (source : String) :
    List QueuedEffect → Context → Checked (List Turn × Context)
  | [], ctx => return ([], ctx)
  | queued :: rest, ctx => do
    let (outcomes, after) ← step handlers owner source queued ctx
    let (more, last) ← turns handlers owner source rest after
    return ({ queued, before := ctx, outcome := outcomes.head?, after } :: more, last)

def turnsOf (handlers : Handlers) (owner : Seat) (trigger : Trigger) (ctx : Context) :
    Checked (List Turn × Context) :=
  turns handlers owner (enter owner ctx).sourceKey (queue owner trigger ctx) (enter owner ctx)

/-! ### One turn -/

/-- The stats that the amounts of a slot's effects scale with. -/
def scalingStats (owner : Seat) (slot : AuraSlot) (ctx : Context) : StatBlock :=
  ((ctx.encounter.occupant slot.source).getD (ctx.get owner)).stats

def creditedFor (slot : AuraSlot) (ctx : Context) : Option Seat :=
  if (ctx.encounter.occupant slot.source).isSome then slot.source else none

/-- The context in which a drawn effect is resolved. -/
def opened (owner : Seat) (slot : AuraSlot) (drained : Character) (ctx : Context) : Context :=
  { ctx.setCharacter owner drained with limits := none, credited := creditedFor slot ctx }

/-- What an effect goes through that fires from a slot: it draws, is resolved with the limits set
aside, is counted if something came of it, and consumes. -/
structure Firing (handlers : Handlers) (owner : Seat) (source : String) (queued : QueuedEffect)
    (slot : AuraSlot) (ctx : Context) (outcome : Option Outcome) (after : Context)
    (drawn : Int) (drained : Character) (resolved counted : Context) : Prop where
  drew : (ctx.get owner).withAuras (·.draw queued.slot queued.effect
    (queued.effect.amountValue (some (scalingStats owner slot ctx)))) = .ok (drawn, drained)
  resolving : process handlers (fired queued.effect slot.amount.isSome drawn)
    { ctx.setCharacter owner drained with limits := none, credited := creditedFor slot ctx } =
      .ok (outcome, resolved)
  counting : (if outcome.isSome then
      { resolved with limits := ctx.limits, credited := none }.recordUse queued.effect source
    else .ok { resolved with limits := ctx.limits, credited := none }) = .ok counted
  consuming : (if queued.effect.consume then
      consume owner queued
        (Count.ofInt (queued.effect.stacksValue (some (scalingStats owner slot ctx)))) counted
    else .ok counted) = .ok after

theorem fire_firing {handlers : Handlers} {owner : Seat} {source : String} {queued : QueuedEffect}
    {slot : AuraSlot} {ctx after : Context} {outcomes : List Outcome}
    (h : fire handlers owner source queued slot ctx = .ok (outcomes, after)) :
    ∃ outcome drawn drained resolved counted, outcomes = outcome.toList ∧
      Firing handlers owner source queued slot ctx outcome after drawn drained resolved
        counted := by
  unfold fire at h
  obtain ⟨⟨drawn, drained⟩, drew, h⟩ := bind_ok h
  obtain ⟨⟨outcome, resolved⟩, resolving, h⟩ := bind_ok h
  dsimp only at h
  rw [ite_bind] at h
  obtain ⟨counted, counting, h⟩ := bind_ok h
  rw [ite_bind] at h
  obtain ⟨last, consuming, h⟩ := bind_ok h
  obtain ⟨rfl, rfl⟩ := pair_ok h
  exact ⟨outcome, drawn, drained, resolved, counted, rfl, drew, resolving, counting, consuming⟩

def Reached (owner : Seat) (queued : QueuedEffect) (ctx : Context) : Prop :=
  ∃ slot, (ctx.get owner).auras.slots[queued.slot]? = some slot ∧ queued.isFrom slot = true

inductive TurnCase (handlers : Handlers) (owner : Seat) (source : String) (queued : QueuedEffect)
    (ctx : Context) : Option Outcome → Context → Prop where
  | skipped (gone : ¬Reached owner queued ctx) :
    TurnCase handlers owner source queued ctx none ctx
  | stopped {slot : AuraSlot} (here : (ctx.get owner).auras.slots[queued.slot]? = some slot)
    (waits : queued.isFrom slot = true) (spent : ctx.isBlocked queued.effect source = true) :
    TurnCase handlers owner source queued ctx (queued.effect.type?.map .blockedBy) ctx
  | fires {slot : AuraSlot} {outcome : Option Outcome} {drawn : Int} {drained : Character}
    {resolved counted after : Context}
    (here : (ctx.get owner).auras.slots[queued.slot]? = some slot)
    (waits : queued.isFrom slot = true) (free : ctx.isBlocked queued.effect source = false)
    (firing : Firing handlers owner source queued slot ctx outcome after drawn drained resolved
      counted) :
    TurnCase handlers owner source queued ctx outcome after

theorem step_turnCase {handlers : Handlers} {owner : Seat} {source : String}
    {queued : QueuedEffect} {ctx after : Context} {outcomes : List Outcome}
    (h : step handlers owner source queued ctx = .ok (outcomes, after)) :
    outcomes = outcomes.head?.toList ∧
      TurnCase handlers owner source queued ctx outcomes.head? after := by
  unfold step at h
  split at h
  · rename_i gone
    obtain ⟨rfl, rfl⟩ := pair_ok h
    refine ⟨rfl, .skipped ?_⟩
    rintro ⟨slot, here, waits⟩
    rw [here, Option.filter_some, if_pos waits] at gone
    cases gone
  · rename_i slot found
    obtain ⟨here, waits⟩ := Option.filter_eq_some_iff.mp found
    split at h
    · rename_i spent
      obtain ⟨rfl, rfl⟩ := pair_ok h
      rw [Option.head?_toList]
      exact ⟨rfl, .stopped here waits spent⟩
    · rename_i free
      obtain ⟨outcome, _, _, _, _, rfl, firing⟩ := fire_firing h
      rw [Option.head?_toList]
      exact ⟨rfl, .fires here waits (Bool.eq_false_iff.mpr free) firing⟩

/-! ### What one turn changes -/

theorem fired_kind (effect : Effect) (stored : Bool) (drawn : Int) :
    (fired effect stored drawn).kind = effect.kind := by
  unfold fired
  split <;> rfl

theorem fired_type (effect : Effect) (stored : Bool) (drawn : Int) :
    (fired effect stored drawn).type? = effect.type? := congrArg EffectKind.type? (fired_kind ..)

/-- What a consuming effect takes from the auras it came from. -/
def spend (queued : QueuedEffect) (count : Count) (auras : AuraSlots) :
    Checked (Unit × AuraSlots) :=
  match auras.slots[queued.slot]? with
  | some slot =>
    if queued.isFrom slot then do return ((), ← auras.removeStacksAt queued.slot count)
    else return ((), auras)
  | none => return ((), auras)

/-- Nothing is taken where the slot no longer holds the aura of the entry. -/
theorem spend_ok {queued : QueuedEffect} {count : Count} {auras after : AuraSlots}
    (h : spend queued count auras = .ok ((), after)) :
    after = auras ∨
      ∃ slot, auras.slots[queued.slot]? = some slot ∧ queued.isFrom slot = true ∧
        auras.removeStacksAt queued.slot count = .ok after := by
  unfold spend at h
  split at h
  · rename_i slot here
    split at h
    · rename_i waits
      obtain ⟨last, removed, h⟩ := bind_ok h
      obtain ⟨-, rfl⟩ := pair_ok h
      exact .inr ⟨slot, here, waits, removed⟩
    · obtain ⟨-, rfl⟩ := pair_ok h
      exact .inl rfl
  · obtain ⟨-, rfl⟩ := pair_ok h
    exact .inl rfl

theorem consume_eq (owner : Seat) (queued : QueuedEffect) (count : Count) (ctx : Context) :
    consume owner queued count ctx = do
      return ctx.setCharacter owner (← (ctx.get owner).withAuras (spend queued count)).2 := rfl

theorem consume_ok {owner : Seat} {queued : QueuedEffect} {count : Count} {ctx after : Context}
    (h : consume owner queued count ctx = .ok after) :
    ∃ c, (ctx.get owner).Becomes c ∧ after = ctx.setCharacter owner c := by
  rw [consume_eq] at h
  obtain ⟨⟨_, c⟩, changed, h⟩ := bind_ok h
  obtain rfl := pure_ok h
  refine ⟨c, Character.withAuras_becomes (fun run => ?_) changed, rfl⟩
  obtain rfl | ⟨-, -, -, removed⟩ := spend_ok run
  · exact .refl _
  · exact .single (AuraSlots.Action.removeStacksAt queued.slot count) removed

section
variable {handlers : Handlers} {owner : Seat} {source : String} {queued : QueuedEffect}
  {ctx after : Context} {outcome : Option Outcome}

theorem Firing.counted_rest {slot : AuraSlot} {drawn : Int} {drained : Character}
    {resolved counted : Context}
    (h : Firing handlers owner source queued slot ctx outcome after drawn drained resolved
      counted) :
    counted = { resolved with limits := counted.limits, credited := none } := by
  have counting := h.counting
  split at counting
  · rw [Context.recordUse_rest counting]
  · obtain rfl := Except.ok.inj counting
    rfl

theorem Firing.consumed {slot : AuraSlot} {drawn : Int} {drained : Character}
    {resolved counted : Context}
    (h : Firing handlers owner source queued slot ctx outcome after drawn drained resolved
      counted) :
    ∃ c, (counted.get owner).Becomes c ∧ after = counted.setCharacter owner c := by
  have consuming := h.consuming
  split at consuming
  · exact consume_ok consuming
  · obtain rfl := Except.ok.inj consuming
    refine ⟨counted.get owner, .refl _, ?_⟩
    rw [Context.setCharacter_get]

theorem Firing.evolves {slot : AuraSlot} {drawn : Int} {drained : Character}
    {resolved counted : Context} (builtin : handlers.AllBuiltin) (uncredited : ctx.credited = none)
    (h : Firing handlers owner source queued slot ctx outcome after drawn drained resolved
      counted) :
    Context.Evolves (owner :: outcome.toList.flatMap (·.targets)) ctx after := by
  have drew : (ctx.get owner).Becomes drained :=
    Character.withAuras_becomes
      (fun changed => .single (AuraSlots.Action.draw queued.slot queued.effect _) (snd_ok changed))
      h.drew
  obtain ⟨c, consumed, last⟩ := h.consumed
  have first := Context.evolves_setCharacter drew
  have second := process_evolves builtin h.resolving
  have third := Context.evolves_setCharacter consumed
  have same : ∀ seat, counted.get seat = resolved.get seat := fun seat => by
    rw [h.counted_rest]
    rfl
  constructor
  case rest =>
    rw [last, h.counted_rest, second.rest]
    simp only [Context.setCharacter, uncredited]
  case acted =>
    intro seat
    have resolved' := (first.acted seat).trans (second.acted seat)
    rw [last]
    refine resolved'.trans ?_
    rw [← same seat]
    exact third.acted seat
  case others =>
    intro seat other
    rw [List.mem_cons, not_or] at other
    have notOwner : seat ∉ [owner] := by simpa using other.1
    calc after.get seat = (counted.setCharacter owner c).get seat := by rw [last]
      _ = counted.get seat := third.others seat notOwner
      _ = resolved.get seat := same seat
      _ = _ := second.others seat other.2
      _ = ctx.get seat := first.others seat notOwner

theorem TurnCase.evolves (builtin : handlers.AllBuiltin) (uncredited : ctx.credited = none)
    (h : TurnCase handlers owner source queued ctx outcome after) :
    Context.Evolves (owner :: outcome.toList.flatMap (·.targets)) ctx after := by
  cases h with
  | skipped => exact .refl ..
  | stopped => exact .refl ..
  | fires _ _ _ firing => exact firing.evolves builtin uncredited

theorem TurnCase.typed {result : Outcome}
    (h : TurnCase handlers owner source queued ctx (some result) after) :
    queued.effect.type? = some result.type := by
  generalize answered : some result = outcome at h
  cases h with
  | skipped => cases answered
  | stopped =>
    obtain ⟨type, typed, rfl⟩ := Option.map_eq_some_iff.mp answered.symm
    exact typed
  | fires _ _ _ firing =>
    subst answered
    rw [← fired_type, process_type firing.resolving]

/-- A tracker stays attached, and counts the effect once if it fired and was not blocked. -/
theorem TurnCase.limited {tracker : LimitTracker} (attached : ctx.limits = some tracker)
    (h : TurnCase handlers owner source queued ctx outcome after) :
    ∃ next, after.limits = some next ∧
      (if outcome.any (!·.blocked) then tracker.record queued.effect source else .ok tracker) =
        .ok next := by
  cases h with
  | skipped => exact ⟨tracker, attached, rfl⟩
  | stopped =>
    refine ⟨tracker, attached, ?_⟩
    cases queued.effect.type? <;> rfl
  | @fires _ _ _ _ resolved counted _ _ _ _ firing =>
    obtain ⟨c, -, last⟩ := firing.consumed
    have kept : after.limits = counted.limits := by rw [last]; rfl
    have counting := firing.counting
    cases outcome with
    | none =>
      obtain rfl := Except.ok.inj counting
      exact ⟨tracker, kept.trans attached, rfl⟩
    | some result =>
      have free := process_unlimited rfl firing.resolving
      simp only [Context.recordUse, attached] at counting
      obtain ⟨next, recorded, counting⟩ := bind_ok counting
      obtain rfl := pure_ok counting
      exact ⟨next, kept, by simpa [free] using recorded⟩

theorem TurnCase.unlimited (detached : ctx.limits = none)
    (h : TurnCase handlers owner source queued ctx outcome after) : after.limits = none := by
  cases h with
  | skipped => exact detached
  | stopped => exact detached
  | @fires _ _ _ _ resolved counted _ _ _ _ firing =>
    obtain ⟨c, -, last⟩ := firing.consumed
    have kept : after.limits = counted.limits := by rw [last]; rfl
    have counting := firing.counting
    simp only [Context.recordUse, detached] at counting
    split at counting
    all_goals
      obtain rfl := Except.ok.inj counting
      exact kept

theorem TurnCase.skips (h : TurnCase handlers owner source queued ctx outcome after)
    (gone : ¬Reached owner queued ctx) : outcome = none ∧ after = ctx := by
  cases h with
  | skipped => exact ⟨rfl, rfl⟩
  | stopped here waits => exact absurd ⟨_, here, waits⟩ gone
  | fires here waits => exact absurd ⟨_, here, waits⟩ gone

theorem TurnCase.stops (h : TurnCase handlers owner source queued ctx outcome after)
    (reached : Reached owner queued ctx) (spent : ctx.isBlocked queued.effect source = true) :
    outcome = queued.effect.type?.map .blockedBy ∧ after = ctx := by
  cases h with
  | skipped gone => exact absurd reached gone
  | stopped => exact ⟨rfl, rfl⟩
  | fires _ _ free =>
    rw [free] at spent
    exact absurd spent Bool.false_ne_true

end

/-! ### Whole passes -/

/-- Something came of the turn, and not just a word that the limit is used up. -/
def Turn.fired (turn : Turn) : Bool := turn.outcome.any (!·.blocked)

/-- Each turn begins in the context that the one before it left. -/
def Linked : Context → List Turn → Context → Prop
  | first, [], last => first = last
  | first, turn :: rest, last => turn.before = first ∧ Linked turn.after rest last

def countTurns (source : String) (turns : List Turn) (tracker : LimitTracker) :
    Checked LimitTracker :=
  (turns.filter Turn.fired).foldlM
    (fun tracker turn => tracker.record turn.queued.effect source) tracker

theorem countTurns_cons (source : String) (turn : Turn) (rest : List Turn)
    (tracker : LimitTracker) :
    countTurns source (turn :: rest) tracker =
      (if turn.fired then tracker.record turn.queued.effect source else .ok tracker) >>=
        countTurns source rest := by
  unfold countTurns
  rw [List.filter_cons]
  split
  · rw [List.foldlM_cons]
  · rfl

section
variable {handlers : Handlers} {owner : Seat} {source : String}

theorem turns_cons {queued : QueuedEffect} {rest : List QueuedEffect} {ctx last : Context}
    {taken : List Turn} (h : turns handlers owner source (queued :: rest) ctx = .ok (taken, last)) :
    ∃ turn more, taken = turn :: more ∧ turn.queued = queued ∧ turn.before = ctx ∧
      TurnCase handlers owner source queued ctx turn.outcome turn.after ∧
      turns handlers owner source rest turn.after = .ok (more, last) := by
  unfold turns at h
  obtain ⟨⟨outcomes, after⟩, stepped, h⟩ := bind_ok h
  obtain ⟨⟨more, final⟩, later, h⟩ := bind_ok h
  obtain ⟨rfl, rfl⟩ := pair_ok h
  exact ⟨_, more, rfl, rfl, rfl, (step_turnCase stepped).2, later⟩

theorem turns_fault {queue : List QueuedEffect} {ctx : Context} {fault : Fault}
    (h : turns handlers owner source queue ctx = .error fault) :
    ∃ early queued late taken inside, queue = early ++ queued :: late ∧
      turns handlers owner source early ctx = .ok (taken, inside) ∧
      step handlers owner source queued inside = .error fault := by
  induction queue generalizing ctx with
  | nil => cases h
  | cons queued rest ih =>
    unfold turns at h
    rcases bind_error h with stopped | ⟨⟨outcomes, after⟩, stepped, h⟩
    · exact ⟨[], queued, rest, [], ctx, rfl, rfl, stopped⟩
    · rcases bind_error h with later | ⟨_, _, done⟩
      · obtain ⟨early, last, late, taken, inside, rfl, ran, stopped⟩ := ih later
        refine ⟨queued :: early, last, late, Turn.mk queued ctx outcomes.head? after :: taken,
          inside, rfl, ?_, stopped⟩
        rw [turns, stepped]
        simp only [bind, Except.bind, ran]
        rfl
      · cases done

theorem turns_queued {queue : List QueuedEffect} {ctx last : Context} {taken : List Turn}
    (h : turns handlers owner source queue ctx = .ok (taken, last)) :
    taken.map (·.queued) = queue := by
  induction queue generalizing ctx taken with
  | nil =>
    obtain ⟨rfl, -⟩ := pair_ok h
    rfl
  | cons queued rest ih =>
    obtain ⟨turn, more, rfl, same, -, -, later⟩ := turns_cons h
    rw [List.map_cons, same, ih later]

theorem turns_linked {queue : List QueuedEffect} {ctx last : Context} {taken : List Turn}
    (h : turns handlers owner source queue ctx = .ok (taken, last)) : Linked ctx taken last := by
  induction queue generalizing ctx taken with
  | nil =>
    obtain ⟨rfl, rfl⟩ := pair_ok h
    rfl
  | cons queued rest ih =>
    obtain ⟨turn, more, rfl, -, same, -, later⟩ := turns_cons h
    exact ⟨same, ih later⟩

theorem turns_turnCase {queue : List QueuedEffect} {ctx last : Context} {taken : List Turn}
    (h : turns handlers owner source queue ctx = .ok (taken, last)) :
    ∀ turn ∈ taken,
      TurnCase handlers owner source turn.queued turn.before turn.outcome turn.after := by
  induction queue generalizing ctx taken with
  | nil =>
    obtain ⟨rfl, -⟩ := pair_ok h
    exact fun _ member => absurd member List.not_mem_nil
  | cons queued rest ih =>
    obtain ⟨turn, more, rfl, rfl, rfl, taken, later⟩ := turns_cons h
    intro other member
    rcases List.mem_cons.mp member with rfl | member
    · exact taken
    · exact ih later other member

/-- What every turn keeps of the context holds when each turn begins, and at the end. -/
theorem turns_keep {P : Context → Prop} {queue : List QueuedEffect} {ctx last : Context}
    {taken : List Turn}
    (keeps : ∀ {queued ctx outcome after}, P ctx →
      TurnCase handlers owner source queued ctx outcome after → P after)
    (start : P ctx) (h : turns handlers owner source queue ctx = .ok (taken, last)) :
    (∀ turn ∈ taken, P turn.before) ∧ P last := by
  induction queue generalizing ctx taken with
  | nil =>
    obtain ⟨rfl, rfl⟩ := pair_ok h
    exact ⟨fun _ member => absurd member List.not_mem_nil, start⟩
  | cons queued rest ih =>
    obtain ⟨turn, more, rfl, -, rfl, turnCase, later⟩ := turns_cons h
    obtain ⟨each, final⟩ := ih (keeps start turnCase) later
    exact ⟨List.forall_mem_cons.mpr ⟨start, each⟩, final⟩

theorem turns_evolves {queue : List QueuedEffect} {ctx last : Context} {taken : List Turn}
    (builtin : handlers.AllBuiltin) (uncredited : ctx.credited = none)
    (h : turns handlers owner source queue ctx = .ok (taken, last)) :
    Context.Evolves (owner :: taken.flatMap fun turn => turn.outcome.toList.flatMap (·.targets))
      ctx last := by
  induction queue generalizing ctx taken with
  | nil =>
    obtain ⟨rfl, rfl⟩ := pair_ok h
    exact .refl ..
  | cons queued rest ih =>
    obtain ⟨turn, more, rfl, rfl, rfl, taken, later⟩ := turns_cons h
    have first := taken.evolves builtin uncredited
    have still : turn.after.credited = none := by
      rw [first.rest]
      exact uncredited
    refine (first.trans (ih still later)).mono fun seat listed => ?_
    simp only [List.flatMap_cons, List.mem_append, List.mem_cons] at listed ⊢
    grind

theorem turns_limited {queue : List QueuedEffect} {ctx last : Context} {taken : List Turn}
    {tracker : LimitTracker} (attached : ctx.limits = some tracker)
    (h : turns handlers owner source queue ctx = .ok (taken, last)) :
    ∃ next, last.limits = some next ∧ countTurns source taken tracker = .ok next := by
  induction queue generalizing ctx taken tracker with
  | nil =>
    obtain ⟨rfl, rfl⟩ := pair_ok h
    exact ⟨tracker, attached, rfl⟩
  | cons queued rest ih =>
    obtain ⟨turn, more, rfl, rfl, rfl, taken, later⟩ := turns_cons h
    obtain ⟨middle, still, counted⟩ := taken.limited attached
    obtain ⟨next, final, more⟩ := ih still later
    refine ⟨next, final, ?_⟩
    rw [countTurns_cons, Turn.fired, counted]
    exact more

theorem turns_unlimited {queue : List QueuedEffect} {ctx last : Context} {taken : List Turn}
    (detached : ctx.limits = none)
    (h : turns handlers owner source queue ctx = .ok (taken, last)) : last.limits = none := by
  induction queue generalizing ctx taken with
  | nil =>
    obtain ⟨-, rfl⟩ := pair_ok h
    exact detached
  | cons queued rest ih =>
    obtain ⟨turn, more, rfl, rfl, rfl, taken, later⟩ := turns_cons h
    exact ih (taken.unlimited detached) later

theorem run_eq_turns (queue : List QueuedEffect) (ctx : Context) :
    run handlers owner source queue ctx =
      (fun result => (result.1.filterMap (·.outcome), result.2)) <$>
        turns handlers owner source queue ctx := by
  induction queue generalizing ctx with
  | nil => rfl
  | cons queued rest ih =>
    unfold run turns
    cases stepped : step handlers owner source queued ctx with
    | error fault => rfl
    | ok result =>
      obtain ⟨outcomes, after⟩ := result
      have answered := (step_turnCase stepped).1
      simp only [bind, Except.bind, ih]
      cases turns handlers owner source rest after with
      | error fault => rfl
      | ok later =>
        obtain ⟨more, last⟩ := later
        simp only [Functor.map, Except.map, pure, Except.pure, List.filterMap_cons]
        rw [answered]
        cases outcomes.head? <;> rfl

end

/-- A pass answers what its turns answer and leaves the context that they leave. -/
theorem triggerAuras_eq_turnsOf (handlers : Handlers) (owner : Seat) (trigger : Trigger)
    (ctx : Context) :
    triggerAuras handlers owner trigger ctx =
      (fun result => (result.1.filterMap (·.outcome), leave ctx result.2)) <$>
        turnsOf handlers owner trigger ctx := by
  unfold triggerAuras turnsOf queue
  split
  · rfl
  · split
    · rename_i none
      rw [none]
      rfl
    · change run handlers owner (enter owner ctx).sourceKey _ (enter owner ctx) >>= _ = _
      rw [run_eq_turns]
      cases turns handlers owner (enter owner ctx).sourceKey
        ((ctx.get owner).auras.effectsFor trigger) (enter owner ctx) <;> rfl

/-- What a carrier does to itself as its turns begin. -/
def selfEffect (kind : EffectKind) : Effect := { kind, target := .self, trigger := .turnStart }

end AuraPass
end Combat
