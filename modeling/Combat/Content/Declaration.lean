import Combat.ConfigError
import Combat.Content

/-!
Content as it is declared, and the content that a declaration comes to. Ids are checked first, then
the auras one by one; the first violation is the one reported.
-/

namespace Combat

structure AurasDeclaration where
  buffs : List AuraDeclaration := []
  debuffs : List AuraDeclaration := []
  deriving DecidableEq

structure ContentDeclaration where
  stats : List NamedItem := []
  materials : List NamedItem := []
  auras : AurasDeclaration := {}
  deriving DecidableEq

namespace AurasDeclaration

def registerAll (kind : AuraKind) :
    AuraCatalog → List AuraDeclaration → Except Violation AuraCatalog
  | catalog, [] => .ok catalog
  | catalog, declaration :: rest =>
    match declaration.aura with
    | .error error => .error (.aura error)
    | .ok aura => registerAll kind (catalog.register kind aura) rest

def catalog (declaration : AurasDeclaration) : Except Violation AuraCatalog := do
  checkIds "buff" [] (declaration.buffs.map (·.id))
  checkIds "debuff" [] (declaration.debuffs.map (·.id))
  let catalog ← registerAll .buff {} declaration.buffs
  registerAll .debuff catalog declaration.debuffs

def ofRecord? (origin : Value.Origin) (record : Value.Record) : Option AurasDeclaration := do
  let auras := Value.defaulted [] (Value.list? (AuraDeclaration.ofValue? origin))
  let buffs ← auras (record.member 0 "buffs")
  let debuffs ← auras (record.member 1 "debuffs")
  return { buffs, debuffs }

def ofValue? (origin : Value.Origin) (value : Value) : Option AurasDeclaration :=
  (value.record? origin 2).bind (ofRecord? origin)

end AurasDeclaration

namespace NamedItem

def ofValue? (origin : Value.Origin) (value : Value) : Option NamedItem := do
  let record ← value.record? origin 2
  let id ← Value.required Value.text? (record.member 0 "id")
  let name ← Value.defaulted "" Value.text? (record.member 1 "name")
  return { id, name }

end NamedItem

namespace ContentDeclaration

def content (declaration : ContentDeclaration) : Except Violation Content := do
  checkIds "stat" [] (declaration.stats.map (·.id))
  checkIds "material" [] (declaration.materials.map (·.id))
  let auras ← declaration.auras.catalog
  let withStats := declaration.stats.foldl Content.addStat { auras }
  return declaration.materials.foldl Content.addMaterial withStats

/-- The members of the auras stand beside the others and are gathered. -/
def ofValue? (origin : Value.Origin) (value : Value) : Option ContentDeclaration := do
  let record ← value.named?
  let items := Value.defaulted [] (Value.list? (NamedItem.ofValue? origin))
  let stats ← items (record.member 0 "stats")
  let materials ← items (record.member 1 "materials")
  let auras ← AurasDeclaration.ofRecord? origin.gather record
  return { stats, materials, auras }

end ContentDeclaration
end Combat
