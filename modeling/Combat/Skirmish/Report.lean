import Combat.Skirmish.Battle

/-!
The report of a skirmish, line by line.
-/

namespace Combat

namespace Standing

def padLeft (width : Nat) (s : String) : String :=
  String.ofList (List.replicate (width - s.length) ' ') ++ s

def padRight (width : Nat) (s : String) : String :=
  s ++ String.ofList (List.replicate (width - s.length) ' ')

/-- Columns are as wide as most entries; longer entries are not cut. -/
def line (standing : Standing) : String :=
  let auras := standing.auras.map fun (id, stackCount) => s!"{id}x{stackCount.val}"
  let state := if standing.dead then "DEAD" else " ".intercalate auras
  "  " ++ padRight 14 standing.name ++ " " ++ padLeft 4 s!"{standing.hitpoints}" ++ "/"
    ++ padRight 4 s!"{standing.maxHitpoints}" ++ " str " ++ padRight 3 s!"{standing.strength}"
    ++ " " ++ state

end Standing

def Verdict.text : Verdict → String
  | .stalemate => "Stalemate"
  | .victory => "Victory"
  | .defeat => "Defeat"

namespace Event

/-- The texts that the report has for an event. -/
def texts : Event → List String
  | .begun => ["=== Encounter start ==="]
  | .round number => ["", s!"=== Round {number} ==="]
  | .message text => ["  " ++ text]
  | .resolved _ | .looted _ => []
  | .standings .heroes lines => "-- Heroes --" :: lines.map Standing.line
  | .standings .enemies lines => "-- Enemies --" :: lines.map Standing.line
  | .ended verdict rounds => ["", s!"=== {verdict.text} after {rounds} round(s) ==="]
  | .gained material count => [s!"  {material} x{count.val}"]

end Event

/-- The lines of the report; a text with line ends in it makes several. -/
def Battle.report (battle : Battle) : List String :=
  (battle.events.flatMap Event.texts).flatMap (·.splitOn "\n")

end Combat
