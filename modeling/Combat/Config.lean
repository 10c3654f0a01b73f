import Combat.Content.Declaration
import Combat.Mastery.Declaration
import Combat.Skirmish.Roster
import Combat.Value.Toml

/-!
Configurations: content, auras, mastery and rosters as values or as TOML texts. What does not read
as its declaration is refused before anything declared is checked.
-/

namespace Combat

namespace Config

/-- Reads a declaration and builds what it declares. -/
def build {α β : Type} (read : Value.Origin → Value → Option α) (build : α → Except Violation β)
    (origin : Value.Origin) (value : Value) : Except ConfigError β :=
  match read origin value with
  | none => .error .unreadable
  | some declaration => (build declaration).mapError .invalid

/-- Reads a TOML text first. -/
def ofText {α : Type} (read : Value.Origin → Value → Except ConfigError α) (text : String) :
    Except ConfigError α :=
  match Value.ofToml? text with
  | none => .error .unreadable
  | some value => read .toml value

end Config

namespace Content

def ofValue : Value.Origin → Value → Except ConfigError Content :=
  Config.build ContentDeclaration.ofValue? ContentDeclaration.content

def ofToml : String → Except ConfigError Content := Config.ofText ofValue

end Content

namespace AuraCatalog

def ofValue : Value.Origin → Value → Except ConfigError AuraCatalog :=
  Config.build AurasDeclaration.ofValue? AurasDeclaration.catalog

def ofToml : String → Except ConfigError AuraCatalog := Config.ofText ofValue

end AuraCatalog

namespace MasteryRegistry

def ofValue : Value.Origin → Value → Except ConfigError MasteryRegistry :=
  Config.build MasteryDeclaration.ofValue? MasteryDeclaration.registry

def ofToml : String → Except ConfigError MasteryRegistry := Config.ofText ofValue

end MasteryRegistry

namespace Roster

/-- How many fight on each side is not checked here. -/
def ofToml : String → Except ConfigError Roster := Config.ofText (Config.build ofValue? .ok)

end Roster
end Combat
