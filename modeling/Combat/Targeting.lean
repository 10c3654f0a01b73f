import Combat.Encounter
import Combat.Random

/-!
Finding the seats that a selector stands for. Positions are sought in one party; a seat is eligible
if its character takes part, is alive and is not excluded. Only the random selector draws, and only
if someone is eligible.
-/

namespace Combat

/-- What a selector can look at. -/
structure Aim where
  encounter : Encounter
  /-- The party that positions are sought in. -/
  party : Side
  self : Option Seat := none
  attacker : Option Seat := none
  target : Option Seat := none
  exclude : List Seat := []
  /-- Lets the roles stand for dead characters too. -/
  allowDead : Bool := false

namespace Aim

def seats (aim : Aim) : List Seat := Position.all.map (Seat.mk aim.party)

def isEligible (aim : Aim) (seat : Seat) : Bool :=
  let c := aim.encounter.get seat
  c.inCombat && c.isAlive && !aim.exclude.contains seat

/-- The eligible seats, front to back. -/
def eligible (aim : Aim) : List Seat := aim.seats.filter aim.isEligible

/-- A role alone, if its character is alive or may be dead. -/
def role (aim : Aim) (seat : Option Seat) : List Seat :=
  (seat.filter fun seat => aim.allowDead || (aim.encounter.get seat).isAlive).toList

/-- The first eligible of the positions that stand in for one. -/
def positional (aim : Aim) (position : Position) : List Seat :=
  ((position.fallback.map (Seat.mk aim.party)).find? aim.isEligible).toList

/-- The first seat whose key is below the keys of all before it and not above any after it. -/
def leastBy {α : Type} (less : α → α → Bool) (key : Seat → α) : List Seat → Option Seat
  | [] => none
  | seat :: rest =>
    some (rest.foldl (fun best next => if less (key next) (key best) then next else best) seat)

/-- The eligible seat with the least part of its hitpoints left, the first of several. -/
def lowest (α : Type) [Arithmetic α] (aim : Aim) : List Seat :=
  (leastBy Arithmetic.less (fun seat => (aim.encounter.get seat).hitpointsFraction α)
    aim.eligible).toList

/-- An even draw from the eligible seats. -/
def drawOne (aim : Aim) (random : RandomSource) : List Seat × RandomSource :=
  match aim.eligible with
  | [] => ([], random)
  | pool =>
    let (roll, random) := random.below pool.length
    (pool[roll]?.toList, random)

def deadMembers (aim : Aim) : List Seat :=
  aim.seats.filter fun seat =>
    let c := aim.encounter.get seat
    c.inCombat && c.dead && !aim.exclude.contains seat

/-- The seats that a selector stands for, with fractions of hitpoints in the given arithmetic. -/
def resolveIn (α : Type) [Arithmetic α] (selector : Selector) (aim : Aim) (random : RandomSource) :
    List Seat × RandomSource :=
  match selector with
  | .self => (aim.role aim.self, random)
  | .attacker => (aim.role aim.attacker, random)
  | .target => (aim.role aim.target, random)
  | .nobody | .unknown => ([], random)
  | .front => (aim.positional .front, random)
  | .center => (aim.positional .center, random)
  | .back => (aim.positional .back, random)
  | .cleave =>
    (([.front, .center].map (Seat.mk aim.party)).filter aim.isEligible, random)
  | .random => aim.drawOne random
  | .lowest => (aim.lowest α, random)
  | .all => (aim.eligible, random)
  | .dead => (aim.deadMembers, random)

def resolve (selector : Selector) (aim : Aim) (random : RandomSource) : List Seat × RandomSource :=
  aim.resolveIn Float selector random

end Aim
end Combat
