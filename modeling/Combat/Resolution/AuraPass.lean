import Combat.Resolution.Process

/-!
Aura passes: on a trigger, the effects of a character's active auras fire in order. The queue is
fixed when the pass begins; an effect whose aura has left its slot by its turn is skipped. An effect
draws its amount from its aura, scales with whoever applied the aura while that character keeps its
seat, and is resolved with the carrier as the source.
-/

namespace Combat

namespace AuraPass

/-- The effect as it is resolved: with the amount drawn, if it names one or its aura stores one. -/
def fired (effect : Effect) (stored : Bool) (drawn : Int) : Effect :=
  if effect.amount.isSome || stored then effect.withAmount (.flat (Float.ofInt drawn)) else effect

/-- Takes stacks off the aura of a consumed effect, if it is still in its slot. -/
def consume (owner : Seat) (queued : QueuedEffect) (count : Count) (ctx : Context) :
    Checked Context := do
  let (_, c) ← (ctx.get owner).withAuras fun auras =>
    match auras.slots[queued.slot]? with
    | some slot =>
      if queued.isFrom slot then do return ((), ← auras.removeStacksAt queued.slot count)
      else return ((), auras)
    | none => return ((), auras)
  return ctx.setCharacter owner c

/-- Draws, resolves, counts and consumes. Limits know the effect as it is written, so they are set
aside while the drawn one is resolved. -/
def fire (handlers : Handlers) (owner : Seat) (source : String) (queued : QueuedEffect)
    (slot : AuraSlot) (ctx : Context) : Checked (List Outcome × Context) := do
  let effect := queued.effect
  let applier := ctx.encounter.occupant slot.source
  let credited := if applier.isSome then slot.source else none
  let stats := (applier.getD (ctx.get owner)).stats
  let evaluated := effect.amountValue (some stats)
  let consumed := effect.stacksValue (some stats)
  let (drawn, c) ← (ctx.get owner).withAuras (·.draw queued.slot effect evaluated)
  let ctx := ctx.setCharacter owner c
  let limits := ctx.limits
  let (outcome, ctx) ← process handlers (fired effect slot.amount.isSome drawn)
    { ctx with limits := none, credited }
  let ctx := { ctx with limits, credited := none }
  let ctx ← if outcome.isSome then ctx.recordUse effect source else pure ctx
  let ctx ← if effect.consume then consume owner queued (Count.ofInt consumed) ctx else pure ctx
  return (outcome.toList, ctx)

/-- One effect's turn: skipped, stopped by its limit or fired. -/
def step (handlers : Handlers) (owner : Seat) (source : String) (queued : QueuedEffect)
    (ctx : Context) : Checked (List Outcome × Context) :=
  match ((ctx.get owner).auras.slots[queued.slot]?).filter queued.isFrom with
  | none => return ([], ctx)
  | some slot =>
    if ctx.isBlocked queued.effect source then
      return ((queued.effect.type?.map Outcome.blockedBy).toList, ctx)
    else fire handlers owner source queued slot ctx

def run (handlers : Handlers) (owner : Seat) (source : String) : List QueuedEffect → Context →
    Checked (List Outcome × Context)
  | [], ctx => return ([], ctx)
  | queued :: rest, ctx => do
    let (outcomes, ctx) ← step handlers owner source queued ctx
    let (more, ctx) ← run handlers owner source rest ctx
    return (outcomes ++ more, ctx)

end AuraPass

/-- Fires the owner's aura effects for a trigger. Passive effects and those of an unknown trigger
never fire, and neither do those of an empty seat. -/
def triggerAuras (handlers : Handlers) (owner : Seat) (trigger : Trigger) (ctx : Context) :
    Checked (List Outcome × Context) :=
  if trigger = .passive || trigger = .other || !(ctx.get owner).inCombat then return ([], ctx)
  else
    match (ctx.get owner).auras.effectsFor trigger with
    | [] => return ([], ctx)
    | queue => do
      let inside := { ctx with source := some owner, credited := none }
      let (outcomes, after) ← AuraPass.run handlers owner inside.sourceKey queue inside
      return (outcomes, { after with source := ctx.source, credited := ctx.credited })

end Combat
