import Combat.Content.Declaration

/-!
Declared content: every aura of an accepted declaration stands under its own id.
-/

namespace Combat

theorem Violation.bind_ok {α β : Type} {x : Except Violation α} {f : α → Except Violation β} {b : β}
    (h : (x >>= f) = .ok b) : ∃ a, x = .ok a ∧ f a = .ok b := by
  cases x with
  | error violation => cases h
  | ok a => exact ⟨a, rfl, h⟩

/-- Every aura stands under its own id. -/
def AuraCatalog.Faithful (catalog : AuraCatalog) : Prop :=
  ∀ kind id held, catalog.lookup kind id = some held → held.id = id

namespace AuraCatalog

theorem empty_faithful : Faithful {} := by
  intro kind id held h
  cases kind <;> cases h

theorem lookup_register (catalog : AuraCatalog) (kind other : AuraKind) (aura : Aura)
    (id : String) :
    (catalog.register kind aura).lookup other id =
      if other = kind ∧ aura.id = id then some ⟨catalog.next, aura⟩
      else catalog.lookup other id := by
  cases kind <;> cases other <;> simp [register, lookup, table, IdMap.get?_insert]

theorem Faithful.register {catalog : AuraCatalog} (faithful : catalog.Faithful) (kind : AuraKind)
    (aura : Aura) : (catalog.register kind aura).Faithful := by
  intro other id held h
  rw [lookup_register] at h
  split at h
  · rename_i same
    obtain rfl := Option.some.inj h
    exact same.2
  · exact faithful other id held h

end AuraCatalog

namespace AurasDeclaration
open Violation

theorem registerAll_faithful {kind : AuraKind} {catalog after : AuraCatalog}
    {declarations : List AuraDeclaration} (faithful : catalog.Faithful)
    (h : registerAll kind catalog declarations = .ok after) : after.Faithful := by
  induction declarations generalizing catalog with
  | nil =>
    obtain rfl := Except.ok.inj h
    exact faithful
  | cons declaration rest ih =>
    unfold registerAll at h
    split at h
    · cases h
    · rename_i aura _
      exact ih (faithful.register kind aura) h

theorem catalog_faithful {declaration : AurasDeclaration} {catalog : AuraCatalog}
    (h : declaration.catalog = .ok catalog) : catalog.Faithful := by
  unfold AurasDeclaration.catalog at h
  obtain ⟨_, _, h⟩ := bind_ok h
  obtain ⟨_, _, h⟩ := bind_ok h
  obtain ⟨buffs, registered, h⟩ := bind_ok h
  exact registerAll_faithful (registerAll_faithful AuraCatalog.empty_faithful registered) h

end AurasDeclaration

namespace Content

theorem foldl_addStat_rest (stats : List NamedItem) (content : Content) :
    (stats.foldl addStat content).materials = content.materials ∧
      (stats.foldl addStat content).auras = content.auras := by
  induction stats generalizing content with
  | nil => exact ⟨rfl, rfl⟩
  | cons stat rest ih => exact ih (content.addStat stat)

theorem foldl_addMaterial_rest (materials : List NamedItem) (content : Content) :
    (materials.foldl addMaterial content).stats = content.stats ∧
      (materials.foldl addMaterial content).auras = content.auras := by
  induction materials generalizing content with
  | nil => exact ⟨rfl, rfl⟩
  | cons material rest ih => exact ih (content.addMaterial material)

end Content

theorem ContentDeclaration.content_auras {declaration : ContentDeclaration} {content : Content}
    (h : declaration.content = .ok content) : declaration.auras.catalog = .ok content.auras := by
  unfold ContentDeclaration.content at h
  obtain ⟨_, _, h⟩ := Violation.bind_ok h
  obtain ⟨_, _, h⟩ := Violation.bind_ok h
  obtain ⟨auras, made, h⟩ := Violation.bind_ok h
  obtain rfl := Except.ok.inj h
  rw [made, (Content.foldl_addMaterial_rest ..).2, (Content.foldl_addStat_rest ..).2]

theorem ContentDeclaration.content_faithful {declaration : ContentDeclaration} {content : Content}
    (h : declaration.content = .ok content) : content.auras.Faithful :=
  AurasDeclaration.catalog_faithful (content_auras h)

end Combat
