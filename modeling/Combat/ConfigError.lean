import Combat.Aura.Declaration

/-!
Why declarations are refused: they cannot be read, or what they declare is not valid.
-/

namespace Combat

/-- What is not valid in declarations that can be read. -/
inductive Violation where
  /-- With the word for what is declared. -/
  | blankId (what : String)
  | repeatedId (what id : String)
  | aura (error : AuraError)
  | milestoneAboveMax (category : String) (level maxLevel : Count)
  | partySizes
  deriving DecidableEq

def Violation.message : Violation → String
  | .blankId what => s!"{what} with empty id"
  | .repeatedId what id => s!"duplicate {what} '{id}'"
  | .aura error => error.message
  | .milestoneAboveMax category level maxLevel =>
    s!"mastery category '{category}' has a milestone at level {level.val}" ++
      s!" above max level {maxLevel.val}"
  | .partySizes => "a skirmish needs exactly three heroes and three enemies"

inductive ConfigError where
  /-- There is no file to read. -/
  | missing
  /-- The text or value does not read as a declaration. -/
  | unreadable
  | invalid (violation : Violation)
  deriving DecidableEq

def ConfigError.message : ConfigError → String
  | .missing => "Failed to read config file"
  | .unreadable => "Failed to parse TOML"
  | .invalid violation => "Configuration validation error: " ++ violation.message

/-- Refuses blank ids and ids that were seen before, in order. -/
def checkIds (what : String) : List String → List String → Except Violation Unit
  | _, [] => .ok ()
  | seen, id :: rest =>
    if Text.isBlank id then .error (.blankId what)
    else if seen.contains id then .error (.repeatedId what id)
    else checkIds what (id :: seen) rest

end Combat
