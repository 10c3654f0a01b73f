import Combat.Content
import Combat.Limits
import Combat.Outcome
import Combat.Stash
import Combat.Targeting

/-!
The context an effect is resolved in: the encounter and the roles its characters play, and what the
effect may use besides. Resolving an effect leads from one context to the next.
-/

namespace Combat

structure Context where
  encounter : Encounter
  content : Content
  source : Option Seat := none
  target : Option Seat := none
  attacker : Option Seat := none
  /-- Who is credited with damage in place of the source. -/
  credited : Option Seat := none
  exclude : List Seat := []
  allowDead : Bool := false
  stash : Option Stash := none
  limits : Option LimitTracker := none
  log : List String := []
  random : RandomSource := { script := [] }

namespace Context

def get (ctx : Context) (seat : Seat) : Character := ctx.encounter.get seat

def setCharacter (ctx : Context) (seat : Seat) (c : Character) : Context :=
  { ctx with encounter := ctx.encounter.set seat c }

def say (ctx : Context) (message : String) : Context := { ctx with log := ctx.log ++ [message] }

/-- The source, as long as someone who takes part sits there. -/
def sourceCharacter (ctx : Context) : Option Character := ctx.encounter.occupant ctx.source

/-- The stats that amounts scale with. -/
def sourceStats (ctx : Context) : Option StatBlock := ctx.sourceCharacter.map (·.stats)

/-- Who counts as the attacker. -/
def damageSource (ctx : Context) : Option Seat := ctx.credited <|> ctx.source

/-- The source as limits know it: the character and its seat, or one name for all others. -/
def sourceKey (ctx : Context) : String :=
  match ctx.source, ctx.sourceCharacter with
  | some seat, some c => s!"{c.id}#{seat.index}"
  | _, _ => "global"

def amount (ctx : Context) (effect : Effect) : Int := effect.amountValue ctx.sourceStats

/-- Never negative. -/
def stackCount (ctx : Context) (effect : Effect) : Count :=
  Count.ofInt (effect.stacksValue ctx.sourceStats)

/-- The side on which the effect seeks positions; heroes are the allies of nobody. -/
def partyFor (ctx : Context) (effect : Effect) : Side :=
  match effect.partyScope, ctx.source with
  | .ally, some seat => seat.side
  | .enemy, some seat => seat.side.opponent
  | .ally, none => .heroes
  | .enemy, none => .enemies

/-- Only a revival may aim at the dead without leave. -/
def aim (ctx : Context) (effect : Effect) : Aim :=
  { encounter := ctx.encounter
    party := ctx.partyFor effect
    self := ctx.source
    attacker := ctx.attacker
    target := ctx.target
    exclude := ctx.exclude
    allowDead := ctx.allowDead || effect.kind = .revive }

def resolveTargets (ctx : Context) (effect : Effect) : List Seat × Context :=
  let (targets, random) := (ctx.aim effect).resolve effect.target ctx.random
  (targets, { ctx with random })

/-- Whether a limit stops the effect for the source. -/
def isBlocked (ctx : Context) (effect : Effect) (source : String) : Bool :=
  match ctx.limits with
  | some limits => !limits.canFire effect source
  | none => false

def recordUse (ctx : Context) (effect : Effect) (source : String) : Checked Context :=
  match ctx.limits with
  | some limits => do return { ctx with limits := some (← limits.record effect source) }
  | none => return ctx

end Context
end Combat
