import Combat.ConfigError
import Combat.Mastery.Practice
import Combat.Resolution.AuraPass
import Combat.Skirmish.Roster

/-!
Skirmishes: a fight of heroes and enemies, round by round, until one side has fallen or the rounds
run out. What happens is recorded as a list of events, from which the report is written.
-/

namespace Combat

/-- One line on a character after a round. -/
structure Standing where
  name : String
  hitpoints : Int
  maxHitpoints : Int
  strength : Int
  dead : Bool
  /-- Active auras with their stacks. -/
  auras : List (String × Count)

inductive Verdict where
  | stalemate | victory | defeat
  deriving DecidableEq, Repr

inductive Event where
  | begun
  | round (number : Nat)
  /-- A message for the players. -/
  | message (text : String)
  /-- Effects were resolved, with these outcomes. -/
  | resolved (outcomes : List Outcome)
  /-- The loot of an enemy was handed out. -/
  | looted (enemy : Seat)
  | standings (side : Side) (lines : List Standing)
  | ended (verdict : Verdict) (rounds : Nat)
  /-- What the stash holds at the end. -/
  | gained (material : String) (count : Count)

/-- A fight under way: the context with no roles given, and what happened so far. -/
structure Battle where
  ctx : Context
  events : List Event := []

namespace Battle

def record (battle : Battle) (event : Event) : Battle :=
  { battle with events := battle.events ++ [event] }

/-- Resolves something in the battle's context with some roles given, and takes the roles back. -/
def act (roles : Context → Context) (resolve : Context → Checked (List Outcome × Context))
    (battle : Battle) : Checked (List Outcome × Battle) := do
  let (outcomes, after) ← resolve (roles battle.ctx)
  let ctx := { after with source := none, attacker := none }
  return (outcomes, { battle with ctx }.record (.resolved outcomes))

def asSource (seat : Seat) (ctx : Context) : Context := { ctx with source := some seat }

def useEffects (source : Seat) (effects : List Effect) : Battle → Checked (List Outcome × Battle) :=
  act (asSource source) (processAll .builtin effects)

def trigger (owner : Seat) (trigger : Trigger) : Battle → Checked (List Outcome × Battle) :=
  act id (triggerAuras .builtin owner trigger)

/-- On every seat, heroes first. -/
def triggerAll (trigger : Trigger) (battle : Battle) : Checked Battle :=
  Seat.all.foldlM (fun battle seat => do return (← battle.trigger seat trigger).2) battle

def resetLimits (battle : Battle) (scope : LimitScope) : Battle :=
  { battle with ctx := { battle.ctx with limits := battle.ctx.limits.map (·.reset scope) } }

/-- Moves the messages of the log into the record. -/
def flush (battle : Battle) : Battle :=
  { ctx := { battle.ctx with log := [] }
    events := battle.events ++ battle.ctx.log.map .message }

def isFinished (battle : Battle) : Bool := battle.ctx.encounter.isFinished

/-! ### Turns -/

/-- The seats that damage landed on, or that it killed, each once. -/
def damaged (lethal : Bool) (outcomes : List Outcome) : List Seat :=
  (outcomes.flatMap (·.changes)).foldl (fun seats change =>
    match change with
    | .damage target amount killing =>
      if (if lethal then killing else 0 < amount) && !seats.contains target then seats ++ [target]
      else seats
    | _ => seats) []

/-- The ability that a seat uses on its turn. -/
def ability (roster : Roster) (actor : Seat) (random : RandomSource) :
    Checked (Option String × RandomSource) :=
  match actor.side with
  | .heroes => return (roster.heroes[actor.position.index]?.map (·.ability), random)
  | .enemies =>
    match roster.enemies[actor.position.index]? with
    | some enemy =>
      if enemy.abilities.isEmpty then return (none, random)
      else do
        let (id, random) ← enemy.abilities.draw random
        return (some id, random)
    | none => return (none, random)

/-- An ability that the roster does not list is passed over. -/
def useAbility (roster : Roster) (actor : Seat) (battle : Battle) :
    Checked (List Outcome × Battle) := do
  let (id, random) ← ability roster actor battle.ctx.random
  let battle := { battle with ctx := { battle.ctx with random } }
  match id.bind roster.abilities.get? with
  | some effects => battle.useEffects actor effects
  | none => return ([], battle)

/-- Everyone who was hit reacts. -/
def react (attacker : Seat) : List Seat → Battle → Checked (List Outcome × Battle)
  | [], battle => return ([], battle)
  | hit :: rest, battle => do
    let (outcomes, battle) ← battle.act (fun ctx => { ctx with attacker := some attacker })
      (triggerAuras .builtin hit .afterDamageReceived)
    let (more, battle) ← react attacker rest battle
    return (outcomes ++ more, battle)

/-- Hands out the loot of the enemies among the fallen. -/
def loot (roster : Roster) : List Seat → Battle → Checked Battle
  | [], battle => return battle
  | fallen :: rest, battle =>
    match fallen.side, roster.enemies[fallen.position.index]? with
    | .enemies, some enemy => do
      let (_, battle) ← battle.useEffects fallen enemy.loot
      loot roster rest (battle.record (.looted fallen))
    | _, _ => loot roster rest battle

/-- Auras at the start, the ability of a character that still lives, reactions to the damage done
so far, auras at the end, and loot for whoever fell. -/
def turn (roster : Roster) (actor : Seat) (battle : Battle) : Checked Battle :=
  if battle.isFinished || !(battle.ctx.get actor).isAlive then return battle
  else do
    let (started, battle) ← (battle.resetLimits .turn).trigger actor .turnStart
    let (used, battle) ←
      if (battle.ctx.get actor).isAlive then battle.useAbility roster actor else pure ([], battle)
    let (reacted, battle) ← react actor (damaged false (started ++ used)) battle
    let (ended, battle) ← battle.trigger actor .turnEnd
    let battle ← battle.loot roster (damaged true (started ++ used ++ reacted ++ ended))
    return battle.flush

/-! ### Rounds -/

def standing (c : Character) : Standing :=
  { name := c.name
    hitpoints := c.hitpoints
    maxHitpoints := c.maxHitpoints
    strength := c.stats.value "strength"
    dead := c.dead
    auras := (c.auras.slots.filter (·.isActive)).map fun slot =>
      (slot.id?.getD "?", slot.stackCount) }

def recordStandings (battle : Battle) (side : Side) : Battle :=
  battle.record (.standings side ((battle.ctx.encounter.party side).members.map standing))

def playRound (roster : Roster) (number : Nat) (battle : Battle) : Checked Battle := do
  let battle := (battle.record (.round number)).resetLimits .round
  let battle ← battle.triggerAll .roundStart
  let battle ← Seat.all.foldlM (fun battle seat => battle.turn roster seat) battle
  let battle ← battle.triggerAll .roundEnd
  return (battle.flush.recordStandings .heroes).recordStandings .enemies

/-- Plays at most so many rounds more and gives the number of the last. -/
def playRounds (roster : Roster) : Nat → Nat → Battle → Checked (Nat × Battle)
  | 0, played, battle => return (played, battle)
  | left + 1, played, battle =>
    if battle.isFinished then return (played, battle)
    else do playRounds roster left (played + 1) (← battle.playRound roster (played + 1))

/-- The most rounds a skirmish lasts. -/
def maxRounds : Nat := 20

/-! ### The whole fight -/

/-- The heroes use their openings. -/
def useOpenings : List (Seat × Hero) → Battle → Checked Battle
  | [], battle => return battle
  | (seat, hero) :: rest, battle => do
    useOpenings rest (← battle.useEffects seat hero.opening).2

/-- The sword drill of the hero in front. -/
def drill : Practice := { category := "swordsmanship", level := 50 }

/-- What the drill's rewards do. -/
def drillEffects (mastery : MasteryRegistry) : List Effect :=
  (drill.active mastery).1.filterMap Reward.effect?

def seats (side : Side) : List Seat := Position.all.map (Seat.mk side)

def start (mastery : MasteryRegistry) (roster : Roster) (battle : Battle) : Checked Battle := do
  let battle ← (battle.record .begun).useOpenings ((seats .heroes).zip roster.heroes)
  let (_, battle) ← battle.useEffects ⟨.heroes, .front⟩ (drillEffects mastery)
  return (← battle.triggerAll .encounterStart).flush

def verdict (battle : Battle) : Verdict :=
  if !battle.isFinished then .stalemate
  else if battle.ctx.encounter.heroes.anyAlive then .victory
  else .defeat

/-- Writes down how the fight ended and what was gained. -/
def close (rounds : Nat) (battle : Battle) : Battle :=
  let battle := (battle.resetLimits .combat).flush
  let battle := battle.record (.ended battle.verdict rounds)
  let gains := (battle.ctx.stash.getD {}).counts.entries.map fun (id, count) =>
    Event.gained (((battle.ctx.content.material? id).map (·.name)).getD id) count
  { battle with events := battle.events ++ gains }

def finish (rounds : Nat) (battle : Battle) : Checked Battle := do
  return (← battle.triggerAll .encounterEnd).close rounds

def play (mastery : MasteryRegistry) (roster : Roster) (battle : Battle) : Checked Battle := do
  let battle ← battle.start mastery roster
  let (rounds, battle) ← battle.playRounds roster maxRounds 0
  battle.finish rounds

end Battle

namespace Roster

def party (first second third : Fighter) : Checked Party := do
  return { front := ← first.character, center := ← second.character, back := ← third.character }

/-- The battle before anything happens. It takes three on each side. -/
def lineUp (roster : Roster) (content : Content) (random : RandomSource) :
    Except ConfigError (Checked Battle) :=
  match roster.heroes, roster.enemies with
  | [h0, h1, h2], [e0, e1, e2] => .ok do
    let heroes ← party h0.fighter h1.fighter h2.fighter
    let enemies ← party e0.fighter e1.fighter e2.fighter
    let encounter : Encounter := { heroes, enemies }
    return { ctx := { encounter, content, random, stash := some {}, limits := some {} } }
  | _, _ => .error (.invalid .partySizes)

def skirmish (roster : Roster) (content : Content) (mastery : MasteryRegistry)
    (random : RandomSource) : Except ConfigError (Checked Battle) := do
  let first ← roster.lineUp content random
  return first >>= Battle.play mastery roster

end Roster
end Combat
