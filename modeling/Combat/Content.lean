import Combat.Aura.Catalog
import Combat.IdMap

/-!
Content: the stats, materials and auras that effects refer to by id.
-/

namespace Combat

/-- A stat or material with the name shown for it. -/
structure NamedItem where
  id : String
  name : String := ""
  deriving DecidableEq

structure Content where
  stats : IdMap NamedItem := {}
  materials : IdMap NamedItem := {}
  auras : AuraCatalog := {}
  deriving DecidableEq

namespace Content

def addStat (content : Content) (stat : NamedItem) : Content :=
  { content with stats := content.stats.insert stat.id stat }

def addMaterial (content : Content) (material : NamedItem) : Content :=
  { content with materials := content.materials.insert material.id material }

def hasStat (content : Content) (id : String) : Bool := content.stats.contains id

def material? (content : Content) (id : String) : Option NamedItem := content.materials.get? id

end Content
end Combat
