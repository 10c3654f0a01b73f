import Combat.Aura.Basic

/-!
Catalogs of auras: buffs and debuffs under their ids. Every registration gets a serial number of
its own, so that an aura registered anew is told apart from the one it replaces, even where the two
are equal in all else.
-/

namespace Combat

structure RegisteredAura where
  serial : Nat
  aura : Aura
  deriving DecidableEq

def RegisteredAura.id (registered : RegisteredAura) : String := registered.aura.id

structure AuraCatalog where
  buffs : IdMap RegisteredAura := {}
  debuffs : IdMap RegisteredAura := {}
  /-- The serial number of the next registration. -/
  next : Nat := 0
  deriving DecidableEq

namespace AuraCatalog

def table (catalog : AuraCatalog) : AuraKind → IdMap RegisteredAura
  | .buff => catalog.buffs
  | .debuff => catalog.debuffs

/-- Replaces an aura of the same kind and id. -/
def register (catalog : AuraCatalog) (kind : AuraKind) (aura : Aura) : AuraCatalog :=
  let registered := ⟨catalog.next, aura⟩
  match kind with
  | .buff =>
    { catalog with buffs := catalog.buffs.insert aura.id registered, next := catalog.next + 1 }
  | .debuff =>
    { catalog with debuffs := catalog.debuffs.insert aura.id registered, next := catalog.next + 1 }

def lookup (catalog : AuraCatalog) (kind : AuraKind) (id : String) : Option RegisteredAura :=
  (catalog.table kind).get? id

/-- Of either kind, buffs first. -/
def get? (catalog : AuraCatalog) (id : String) : Option RegisteredAura :=
  catalog.lookup .buff id <|> catalog.lookup .debuff id

/-- Buffs, then debuffs. -/
def toList (catalog : AuraCatalog) : List RegisteredAura :=
  catalog.buffs.values ++ catalog.debuffs.values

/-- Registers the auras of another catalog too. -/
def extend (catalog other : AuraCatalog) : AuraCatalog :=
  let withBuffs := other.buffs.values.foldl (fun c r => c.register .buff r.aura) catalog
  other.debuffs.values.foldl (fun c r => c.register .debuff r.aura) withBuffs

def size (catalog : AuraCatalog) : Nat := catalog.buffs.size + catalog.debuffs.size

def isEmpty (catalog : AuraCatalog) : Bool := catalog.size = 0

end AuraCatalog
end Combat
