/-!
Seats of an encounter: two sides of three positions each. A character is referred to by its seat.
-/

namespace Combat

inductive Side where
  | heroes | enemies
  deriving DecidableEq, Repr

namespace Side

def all : List Side := [.heroes, .enemies]

def name : Side → String
  | .heroes => "heroes"
  | .enemies => "enemies"

def opponent : Side → Side
  | .heroes => .enemies
  | .enemies => .heroes

@[simp] theorem opponent_opponent (s : Side) : s.opponent.opponent = s := by cases s <;> rfl

end Side

inductive Position where
  | front | center | back
  deriving DecidableEq, Repr

namespace Position

def all : List Position := [.front, .center, .back]

def name : Position → String
  | .front => "front"
  | .center => "center"
  | .back => "back"

def index : Position → Nat
  | .front => 0
  | .center => 1
  | .back => 2

/-- The order in which positions stand in for this one. -/
def fallback : Position → List Position
  | .front => [.front, .center, .back]
  | .center => [.center, .front, .back]
  | .back => [.back, .center, .front]

end Position

structure Seat where
  side : Side
  position : Position
  deriving DecidableEq, Repr

namespace Seat

/-- Heroes first, each side front to back. -/
def all : List Seat := Side.all.flatMap fun side => Position.all.map (Seat.mk side)

/-- Heroes 0 to 2, enemies 3 to 5. -/
def index (seat : Seat) : Nat :=
  (match seat.side with
    | .heroes => 0
    | .enemies => 3) + seat.position.index

def ofIndex? (n : Nat) : Option Seat := all[n]?

theorem ofIndex?_index (seat : Seat) : ofIndex? seat.index = some seat := by
  rcases seat with ⟨side, position⟩
  cases side <;> cases position <;> rfl

end Seat

/-- Places on a character that take an item. -/
inductive GearSlot where
  | weapon | offhand | head | body | hands | legs | feet | cape | amulet | ring
  deriving DecidableEq, Repr

namespace GearSlot

def all : List GearSlot :=
  [.weapon, .offhand, .head, .body, .hands, .legs, .feet, .cape, .amulet, .ring]

def name : GearSlot → String
  | .weapon => "weapon"
  | .offhand => "offhand"
  | .head => "head"
  | .body => "body"
  | .hands => "hands"
  | .legs => "legs"
  | .feet => "feet"
  | .cape => "cape"
  | .amulet => "amulet"
  | .ring => "ring"

end GearSlot
end Combat
