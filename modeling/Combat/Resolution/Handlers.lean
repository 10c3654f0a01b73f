import Combat.Resolution.Context

/-!
Handlers: what each type of effect does to the seats it lands on. A handler takes its targets one
after another and records each change it makes.
-/

namespace Combat

/-- The changes made and the context after them. -/
abbrev Handler := Effect → List Seat → Context → Checked (List Change × Context)

namespace Handler

/-- One step for each target in turn. -/
def forEach (step : Seat → Context → Checked (List Change × Context)) :
    List Seat → Context → Checked (List Change × Context)
  | [], ctx => return ([], ctx)
  | target :: rest, ctx => do
    let (changes, ctx) ← step target ctx
    let (more, ctx) ← forEach step rest ctx
    return (changes ++ more, ctx)

/-- So many percent, rounded down. -/
def percentOf (value percent : Int) : Checked Int := do
  return (← Checked.mul value percent) / 100

/-! ### Vitals -/

/-- The amount, or that percentage of the source's value of the stat the effect names. -/
def damageAmount (effect : Effect) (ctx : Context) : Checked Int :=
  match effect.kind with
  | .damage (some stat) =>
    percentOf ((ctx.sourceStats.map (·.value stat)).getD 0) (ctx.amount effect)
  | _ => return ctx.amount effect

def damageOne (amount : Int) (target : Seat) (ctx : Context) : Checked (List Change × Context) := do
  let c := ctx.get target
  let (blow, c) ← c.takeDamage amount ctx.damageSource
  let ctx := (ctx.setCharacter target c).say s!"{c.name} takes {blow.amount} damage"
  let ctx := if blow.killing then ctx.say s!"{c.name} is defeated" else ctx
  return ([.damage target blow.amount blow.killing], ctx)

def damage : Handler := fun effect targets ctx => do
  let amount ← damageAmount effect ctx
  forEach (damageOne amount) targets ctx

def healAmount (mode : HealMode) (amount : Int) (c : Character) : Checked Int :=
  match mode with
  | .flat => return amount
  | .missingHitpoints => do percentOf (← Checked.sub c.maxHitpoints c.hitpoints) amount
  | .greatestHitpoints => percentOf c.maxHitpoints amount

def healOne (mode : HealMode) (amount : Int) (target : Seat) (ctx : Context) :
    Checked (List Change × Context) := do
  let c := ctx.get target
  let (healed, c) ← c.heal (← healAmount mode amount c)
  let ctx := ctx.setCharacter target c
  let ctx := if 0 < healed then ctx.say s!"{c.name} recovers {healed} hitpoints" else ctx
  return ([.heal target healed], ctx)

def healMode (effect : Effect) : HealMode :=
  match effect.kind with
  | .heal mode => mode
  | _ => .flat

def heal : Handler := fun effect targets ctx =>
  forEach (healOne (healMode effect) (ctx.amount effect)) targets ctx

def restoreEnergyOne (amount : Int) (target : Seat) (ctx : Context) :
    Checked (List Change × Context) := do
  let (restored, c) ← (ctx.get target).restoreEnergy amount
  return ([.energyRestored target restored], ctx.setCharacter target c)

def restoreEnergy : Handler := fun effect targets ctx =>
  forEach (restoreEnergyOne (ctx.amount effect)) targets ctx

def reviveOne (percent : Int) (target : Seat) (ctx : Context) :
    Checked (List Change × Context) := do
  match ← (ctx.get target).revive percent with
  | (some hitpoints, c) =>
    return ([.revived target hitpoints],
      (ctx.setCharacter target c).say s!"{c.name} is revived with {hitpoints} hitpoints")
  | (none, _) => return ([], ctx)

def revive : Handler := fun effect targets ctx =>
  forEach (reviveOne (ctx.amount effect)) targets ctx

/-! ### Auras -/

def applyOne (held : RegisteredAura) (application : AuraApplication) (target : Seat)
    (ctx : Context) : Checked (List Change × Context) := do
  let (added, c) ← (ctx.get target).withAuras (·.add held application)
  let ctx := ctx.setCharacter target c
  match added with
  | none => return ([], ctx)
  | some _ =>
    let stackCount ← c.auras.stacksOf held.id
    return ([.auraApplied target held.id stackCount],
      ctx.say s!"{c.name} gains {held.aura.name} ({stackCount.val})")

/-- What the effect hands over: an amount only if it names one, and itself as the source. -/
def application (effect : Effect) (ctx : Context) : AuraApplication :=
  { stackCount := ctx.stackCount effect
    amount := effect.amount.map fun _ => Float.ofInt (ctx.amount effect)
    source := ctx.source }

/-- An aura that the content does not know is passed over. -/
def applyAura : Handler := fun effect targets ctx =>
  match effect.kind with
  | .applyAura kind id =>
    match ctx.content.auras.lookup kind id with
    | some held => forEach (applyOne held (application effect ctx)) targets ctx
    | none => return ([], ctx)
  | _ => return ([], ctx)

/-- With a count only so many stacks go, or else the whole aura. -/
def removeOne (id : String) (count : Option Count) (target : Seat) (ctx : Context) :
    Checked (List Change × Context) := do
  let (removed, c) ← (ctx.get target).withAuras fun auras =>
    match count with
    | some count => auras.removeStacks id count
    | none => auras.remove id
  let ctx := ctx.setCharacter target c
  if removed then return ([.auraRemoved target id], ctx.say s!"{c.name} loses {id}")
  else return ([], ctx)

def removeAura : Handler := fun effect targets ctx =>
  match effect.kind with
  | .removeAura kind id =>
    match ctx.content.auras.lookup kind id with
    | some _ =>
      forEach (removeOne id (effect.stackCount.map fun _ => ctx.stackCount effect)) targets ctx
    | none => return ([], ctx)
  | _ => return ([], ctx)

/-! ### Stats and materials -/

/-- Says what the modifier would be; the stats themselves come from carried auras. -/
def statModifier : Handler := fun effect _ ctx =>
  match effect.kind with
  | .statModifier stat percent =>
    if ctx.content.hasStat stat then return ([.statModifier stat (ctx.amount effect) percent], ctx)
    else return ([], ctx)
  | _ => return ([], ctx)

/-- One, unless the effect names an amount. -/
def quantity (effect : Effect) (ctx : Context) : Count :=
  match effect.amount with
  | some _ => Count.ofInt (ctx.amount effect)
  | none => 1

/-- Grants nothing without a stash or where the quantity is zero. -/
def grantMaterial : Handler := fun effect _ ctx =>
  match effect.kind with
  | .grantMaterial id =>
    match ctx.content.material? id, ctx.stash with
    | some material, some stash =>
      let amount := quantity effect ctx
      if amount.val = 0 then return ([], ctx)
      else
        return ([.materialGranted id amount],
          { ctx with stash := some (stash.add id amount) }.say
            s!"Gained {amount.val} {material.name}")
    | _, _ => return ([], ctx)
  | _ => return ([], ctx)

/-- Uses nothing where the stash holds too little. -/
def consumeMaterial : Handler := fun effect _ ctx =>
  match effect.kind with
  | .consumeMaterial id =>
    match ctx.content.material? id, ctx.stash with
    | some material, some stash =>
      let amount := quantity effect ctx
      match stash.remove id amount with
      | .ok stash =>
        return ([.materialConsumed id amount],
          { ctx with stash := some stash }.say s!"Used {amount.val} {material.name}")
      | .error _ => return ([], ctx)
    | _, _ => return ([], ctx)
  | _ => return ([], ctx)

/-- Changes nothing. -/
def idle : Handler := fun _ _ ctx => return ([], ctx)

/-- The handler that belongs to a type. -/
def builtin : EffectType → Handler
  | .damage => damage
  | .heal => heal
  | .restoreEnergy => restoreEnergy
  | .revive => revive
  | .applyAura _ => applyAura
  | .removeAura _ => removeAura
  | .statModifier => statModifier
  | .grantMaterial => grantMaterial
  | .consumeMaterial => consumeMaterial

end Handler

/-- The handlers in use, by type of effect. -/
abbrev Handlers := EffectType → Option Handler

namespace Handlers

def empty : Handlers := fun _ => none

def builtin : Handlers := fun type => some (Handler.builtin type)

/-- Replaces the handler of a type. -/
def register (handlers : Handlers) (type : EffectType) (handler : Handler) : Handlers :=
  fun other => if other = type then some handler else handlers other

/-- The types that have a handler. -/
def types (handlers : Handlers) : List EffectType :=
  EffectType.all.filter fun type => (handlers type).isSome

end Handlers
end Combat
