import Combat.Resolution.Handlers

/-!
Resolving effects one by one: an effect that a limit stops does nothing but say so, and one that
fired counts toward its limit.
-/

namespace Combat

/-- Nothing comes of an effect whose type is unknown or has no handler. -/
def process (handlers : Handlers) (effect : Effect) (ctx : Context) :
    Checked (Option Outcome × Context) :=
  match effect.type? with
  | none => return (none, ctx)
  | some type =>
    match handlers type with
    | none => return (none, ctx)
    | some handler =>
      let source := ctx.sourceKey
      if ctx.isBlocked effect source then return (some (.blockedBy type), ctx)
      else do
        let (targets, ctx) :=
          if type.targetsCharacters then ctx.resolveTargets effect else ([], ctx)
        let (changes, ctx) ← handler effect targets ctx
        let ctx ← ctx.recordUse effect source
        return (some { type, targets, changes }, ctx)

/-- In order, each in the context that the one before it left. -/
def processEach (handlers : Handlers) : List Effect → Context →
    Checked (List (Option Outcome) × Context)
  | [], ctx => return ([], ctx)
  | effect :: rest, ctx => do
    let (outcome, ctx) ← process handlers effect ctx
    let (more, ctx) ← processEach handlers rest ctx
    return (outcome :: more, ctx)

/-- The outcomes of those that came to something. -/
def processAll (handlers : Handlers) (effects : List Effect) (ctx : Context) :
    Checked (List Outcome × Context) := do
  let (outcomes, ctx) ← processEach handlers effects ctx
  return (outcomes.filterMap id, ctx)

end Combat
