import Combat.Character

/-!
Encounters: two parties of three characters, one in each seat.
-/

namespace Combat

structure Party where
  front : Character
  center : Character
  back : Character
  deriving DecidableEq

namespace Party

def get (party : Party) : Position → Character
  | .front => party.front
  | .center => party.center
  | .back => party.back

def set (party : Party) (position : Position) (c : Character) : Party :=
  match position with
  | .front => { party with front := c }
  | .center => { party with center := c }
  | .back => { party with back := c }

/-- Front to back. -/
def members (party : Party) : List Character := [party.front, party.center, party.back]

/-- Whether anyone who takes part still stands. -/
def anyAlive (party : Party) : Bool := party.members.any fun c => c.inCombat && c.isAlive

theorem get_set (party : Party) (p q : Position) (c : Character) :
    (party.set p c).get q = if p = q then c else party.get q := by
  cases p <;> cases q <;> rfl

end Party

structure Encounter where
  heroes : Party
  enemies : Party
  deriving DecidableEq

namespace Encounter

def party (encounter : Encounter) : Side → Party
  | .heroes => encounter.heroes
  | .enemies => encounter.enemies

def get (encounter : Encounter) (seat : Seat) : Character :=
  (encounter.party seat.side).get seat.position

def set (encounter : Encounter) (seat : Seat) (c : Character) : Encounter :=
  match seat.side with
  | .heroes => { encounter with heroes := encounter.heroes.set seat.position c }
  | .enemies => { encounter with enemies := encounter.enemies.set seat.position c }

/-- Who a reference stands for, as long as someone who takes part sits there. -/
def occupant (encounter : Encounter) (seat : Option Seat) : Option Character :=
  (seat.map encounter.get).filter (·.inCombat)

/-- One side has nobody standing. -/
def isFinished (encounter : Encounter) : Bool :=
  !encounter.heroes.anyAlive || !encounter.enemies.anyAlive

@[simp] theorem get_set_self (encounter : Encounter) (seat : Seat) (c : Character) :
    (encounter.set seat c).get seat = c := by
  rcases seat with ⟨side, position⟩
  cases side <;> cases position <;> rfl

theorem get_set (encounter : Encounter) (seat other : Seat) (c : Character) :
    (encounter.set seat c).get other = if seat = other then c else encounter.get other := by
  rcases seat with ⟨side, position⟩
  rcases other with ⟨side', position'⟩
  cases side <;> cases position <;> cases side' <;> cases position' <;> rfl

/-- Two encounters with the same character in every seat are equal. -/
theorem ext_get {a b : Encounter} (h : ∀ seat, a.get seat = b.get seat) : a = b := by
  rcases a with ⟨⟨_, _, _⟩, ⟨_, _, _⟩⟩
  rcases b with ⟨⟨_, _, _⟩, ⟨_, _, _⟩⟩
  simp only [Encounter.mk.injEq, Party.mk.injEq]
  exact ⟨⟨h ⟨.heroes, .front⟩, h ⟨.heroes, .center⟩, h ⟨.heroes, .back⟩⟩,
    ⟨h ⟨.enemies, .front⟩, h ⟨.enemies, .center⟩, h ⟨.enemies, .back⟩⟩⟩

end Encounter
end Combat
