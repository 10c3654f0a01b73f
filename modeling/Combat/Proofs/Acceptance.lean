import Combat.Proofs.Content

/-!
Which declarations of content are accepted. All that is wrong with a declaration stands in one list,
in the order in which it is looked for. The first of it is reported; where there is nothing, the
content holds what is declared and nothing else.
-/

namespace Combat

/-- The first violation, or the value where there is none. -/
def Violation.report {α : Type} (a : α) : List Violation → Except Violation α
  | [] => .ok a
  | first :: _ => .error first

namespace Violation
variable {α β : Type}

theorem report_bind {a : α} {b : β} {violations more : List Violation}
    {f : α → Except Violation β} (next : violations = [] → f a = report b more) :
    (report a violations >>= f) = report b (violations ++ more) := by
  cases violations with
  | nil => exact next rfl
  | cons first rest => rfl

theorem report_eq_error_iff {a : α} {violations : List Violation} {violation : Violation} :
    report a violations = .error violation ↔ violations.head? = some violation := by
  cases violations <;> simp [report]

theorem report_eq_ok_iff {a b : α} {violations : List Violation} :
    report a violations = .ok b ↔ violations = [] ∧ a = b := by
  cases violations <;> simp [report]

end Violation
open Violation

/-! ### Ids -/

/-- Every id says something, and none stands twice. -/
def ProperIds (ids : List String) : Prop := (∀ id ∈ ids, Text.isBlank id = false) ∧ ids.Nodup

instance (ids : List String) : Decidable (ProperIds ids) := inferInstanceAs (Decidable (_ ∧ _))

/-- What is wrong with the id at a place: it is blank, or else it stands earlier as well. -/
def idFault (what : String) (ids : List String) (placed : String × Nat) : Option Violation :=
  if Text.isBlank placed.1 then some (.blankId what)
  else if placed.1 ∈ ids.take placed.2 then some (.repeatedId what placed.1)
  else none

def idFaults (what : String) (ids : List String) : List Violation :=
  ids.zipIdx.filterMap (idFault what ids)

/-- The rest of a check reports what it would of the whole list, when what was seen is what stands
before the rest. -/
theorem checkIds_from (what : String) {seen early : List String}
    (same : ∀ id, id ∈ seen ↔ id ∈ early) (late : List String) :
    checkIds what seen late =
      report () ((late.zipIdx early.length).filterMap (idFault what (early ++ late))) := by
  induction late generalizing seen early with
  | nil => rfl
  | cons id rest ih =>
    have same' : ∀ other, other ∈ id :: seen ↔ other ∈ early ++ [id] := by simp [same, or_comm]
    have rest_eq := ih same'
    rw [List.append_assoc, List.length_append] at rest_eq
    simp only [checkIds, List.zipIdx_cons, List.filterMap_cons, idFault, List.take_left]
    split
    · rfl
    · rename_i said
      by_cases repeated : id ∈ early
      · simp [same, repeated, report]
      · simp [same, repeated, rest_eq]

theorem checkIds_eq (what : String) (ids : List String) :
    checkIds what [] ids = report () (idFaults what ids) :=
  checkIds_from what (fun _ => Iff.rfl) ids

theorem checkIds_ok_iff (what : String) (seen ids : List String) :
    checkIds what seen ids = .ok () ↔
      (∀ id ∈ ids, Text.isBlank id = false ∧ id ∉ seen) ∧ ids.Nodup := by
  induction ids generalizing seen with
  | nil => simp [checkIds]
  | cons id rest ih =>
    simp only [checkIds, List.forall_mem_cons, List.nodup_cons]
    split
    · rename_i blank
      simp [blank]
    · split
      · rename_i repeated
        simp [List.contains_iff_mem.mp repeated]
      · rename_i said fresh
        rw [List.contains_iff_mem] at fresh
        simp only [ih, List.mem_cons, not_or]
        grind

theorem idFaults_eq_nil_iff (what : String) (ids : List String) :
    idFaults what ids = [] ↔ ProperIds ids := by
  have checked := checkIds_ok_iff what [] ids
  rw [checkIds_eq, report_eq_ok_iff] at checked
  simpa [ProperIds] using checked

/-! ### Flags -/

namespace AuraDeclaration

/-- What is wrong with the flags: two of them for one policy. -/
def flagFault (declaration : AuraDeclaration) : Option AuraError :=
  if declaration.stack ∧ declaration.refresh then some (.twoStackPolicies declaration.id)
  else if declaration.accumulate ∧ declaration.overwrite then
    some (.twoAmountPolicies declaration.id)
  else none

/-- The aura that is meant, with the policies that the flags name. -/
def declared (declaration : AuraDeclaration) : Aura where
  id := declaration.id
  name := if declaration.name = "" then declaration.id else declaration.name
  description := declaration.description
  effects := declaration.effects
  combine := declaration.combine
  stackPolicy :=
    if declaration.stack then .stack else if declaration.refresh then .refresh else .keep
  amountPolicy :=
    if declaration.accumulate then .accumulate
    else if declaration.overwrite then .overwrite
    else .keep

theorem aura_eq {declaration : AuraDeclaration} (said : Text.isBlank declaration.id = false) :
    declaration.aura =
      match declaration.flagFault with
      | some error => .error error
      | none => .ok declaration.declared := by
  obtain ⟨id, name, description, effects, combine, stack, refresh, accumulate, overwrite⟩ :=
    declaration
  change Text.isBlank id = false at said
  cases stack <;> cases refresh <;> cases accumulate <;> cases overwrite <;>
    simp [aura, said, stackPolicy, amountPolicy, flagFault, declared] <;> rfl

theorem flagFault_eq_none_iff {declaration : AuraDeclaration} :
    declaration.flagFault = none ↔ ¬(declaration.stack ∧ declaration.refresh) ∧
      ¬(declaration.accumulate ∧ declaration.overwrite) := by
  unfold flagFault
  split
  · simp [*]
  · split <;> simp [*]

end AuraDeclaration

/-! ### Declarations told as a list of violations and a result -/

namespace AurasDeclaration

/-- The aura of each declaration registered in turn. -/
def fill (kind : AuraKind) (catalog : AuraCatalog) (declarations : List AuraDeclaration) :
    AuraCatalog :=
  declarations.foldl (fun catalog declaration => catalog.register kind declaration.declared) catalog

def filled (declaration : AurasDeclaration) : AuraCatalog :=
  fill .debuff (fill .buff {} declaration.buffs) declaration.debuffs

def flagFaults (declarations : List AuraDeclaration) : List Violation :=
  declarations.filterMap fun declaration => declaration.flagFault.map .aura

theorem flagFaults_eq_nil_iff {declarations : List AuraDeclaration} :
    flagFaults declarations = [] ↔ ∀ declaration ∈ declarations,
      ¬(declaration.stack ∧ declaration.refresh) ∧
        ¬(declaration.accumulate ∧ declaration.overwrite) := by
  simp only [flagFaults, List.filterMap_eq_nil_iff, Option.map_eq_none_iff,
    AuraDeclaration.flagFault_eq_none_iff]

/-- All that is wrong: ids of buffs, ids of debuffs, flags of buffs, flags of debuffs. -/
def violations (declaration : AurasDeclaration) : List Violation :=
  idFaults "buff" (declaration.buffs.map (·.id)) ++
    (idFaults "debuff" (declaration.debuffs.map (·.id)) ++
      (flagFaults declaration.buffs ++ flagFaults declaration.debuffs))

theorem registerAll_eq {kind : AuraKind} {declarations : List AuraDeclaration}
    (said : ∀ declaration ∈ declarations, Text.isBlank declaration.id = false)
    (catalog : AuraCatalog) :
    registerAll kind catalog declarations =
      report (fill kind catalog declarations) (flagFaults declarations) := by
  induction declarations generalizing catalog with
  | nil => rfl
  | cons declaration rest ih =>
    obtain ⟨first, later⟩ := List.forall_mem_cons.mp said
    rw [registerAll, flagFaults, List.filterMap_cons, declaration.aura_eq first]
    cases declaration.flagFault with
    | none => exact ih later _
    | some error => rfl

theorem catalog_eq (declaration : AurasDeclaration) :
    declaration.catalog = report declaration.filled declaration.violations := by
  have said {what : String} {declarations : List AuraDeclaration}
      (proper : idFaults what (declarations.map (·.id)) = []) :
      ∀ declaration ∈ declarations, Text.isBlank declaration.id = false := by
    have proper := ((idFaults_eq_nil_iff ..).mp proper).1
    simpa using proper
  rw [catalog, checkIds_eq]
  refine report_bind fun buffs => ?_
  rw [checkIds_eq]
  refine report_bind fun debuffs => ?_
  rw [registerAll_eq (said buffs)]
  exact report_bind fun _ => registerAll_eq (said debuffs) _

end AurasDeclaration

namespace ContentDeclaration

def filled (declaration : ContentDeclaration) : Content :=
  declaration.materials.foldl Content.addMaterial
    (declaration.stats.foldl Content.addStat { auras := declaration.auras.filled })

/-- All that is wrong: ids of stats, ids of materials, then what is wrong with the auras. -/
def violations (declaration : ContentDeclaration) : List Violation :=
  idFaults "stat" (declaration.stats.map (·.id)) ++
    (idFaults "material" (declaration.materials.map (·.id)) ++ declaration.auras.violations)

theorem content_eq (declaration : ContentDeclaration) :
    declaration.content = report declaration.filled declaration.violations := by
  rw [content, checkIds_eq]
  refine report_bind fun _ => ?_
  rw [checkIds_eq]
  refine report_bind fun _ => ?_
  rw [AurasDeclaration.catalog_eq]
  cases declaration.auras.violations <;> rfl

end ContentDeclaration

/-! ### What is found afterwards -/

/-- Where each step puts one value under its key and the keys are different, what is found in the
end is what was put there, and under other keys what was there before. -/
theorem look_foldl {σ ι κ ν : Type} [DecidableEq κ] (look : σ → κ → Option ν)
    (step : σ → ι → σ) (key : ι → κ) (value : ι → ν)
    (stepped : ∀ s item k,
      look (step s item) k = if key item = k then some (value item) else look s k)
    {items : List ι} (distinct : (items.map key).Nodup) (s : σ) (k : κ) (v : ν) :
    look (items.foldl step s) k = some v ↔
      (∃ item ∈ items, key item = k ∧ value item = v) ∨
        (k ∉ items.map key ∧ look s k = some v) := by
  induction items generalizing s with
  | nil => simp
  | cons item rest ih =>
    obtain ⟨fresh, distinct⟩ := List.nodup_cons.mp distinct
    rw [List.foldl_cons, ih distinct, stepped]
    by_cases same : key item = k
    · subst same
      have only : ¬∃ other ∈ rest, key other = key item ∧ value other = v :=
        fun ⟨other, member, again, _⟩ => fresh (List.mem_map.mpr ⟨other, member, again⟩)
      simp only [List.map_cons, List.mem_cons, fresh, or_false, not_true, not_false_iff, only,
        false_or, false_and, true_and, if_true, exists_eq_or_imp, Option.some.injEq]
    · simp only [same, List.map_cons, List.mem_cons, exists_eq_or_imp, false_and, false_or,
        if_false, Ne.symm same]

/-- Where nothing was found before, exactly the items are found. -/
theorem look_foldl_of_none {σ ι κ ν : Type} [DecidableEq κ] (look : σ → κ → Option ν)
    (step : σ → ι → σ) (key : ι → κ) (value : ι → ν)
    (stepped : ∀ s item k,
      look (step s item) k = if key item = k then some (value item) else look s k)
    {items : List ι} (distinct : (items.map key).Nodup) {s : σ} (nothing : ∀ k, look s k = none)
    (k : κ) (v : ν) :
    look (items.foldl step s) k = some v ↔ ∃ item ∈ items, key item = k ∧ value item = v := by
  refine (look_foldl look step key value stepped distinct s k v).trans (or_iff_left ?_)
  simp [nothing]

theorem IdMap.length_place {α : Type} {id : String} {l : List (String × α)}
    (fresh : find id l = none) (value : α) : (place id value l).length = l.length + 1 := by
  induction l with
  | nil => rfl
  | cons head rest ih =>
    obtain ⟨k, v⟩ := head
    simp only [find] at fresh
    split at fresh
    · cases fresh
    · rename_i other
      simp only [place]
      split
      · rfl
      · rw [if_neg (Ne.symm other), List.length_cons, ih fresh, List.length_cons]

theorem AuraCatalog.size_register {catalog : AuraCatalog} {kind : AuraKind} {aura : Aura}
    (fresh : catalog.lookup kind aura.id = none) :
    (catalog.register kind aura).size = catalog.size + 1 := by
  cases kind with
  | buff =>
    have longer := IdMap.length_place fresh ⟨catalog.next, aura⟩
    simp only [register, size, IdMap.size, IdMap.insert, table] at longer ⊢
    omega
  | debuff =>
    have longer := IdMap.length_place fresh ⟨catalog.next, aura⟩
    simp only [register, size, IdMap.size, IdMap.insert, table] at longer ⊢
    omega

namespace AurasDeclaration

def listed (declaration : AurasDeclaration) : AuraKind → List AuraDeclaration
  | .buff => declaration.buffs
  | .debuff => declaration.debuffs

theorem fill_lookup {kind : AuraKind} {declarations : List AuraDeclaration}
    (distinct : (declarations.map (·.id)).Nodup) {catalog : AuraCatalog}
    (nothing : ∀ id, catalog.lookup kind id = none) (id : String) (aura : Aura) :
    ((fill kind catalog declarations).lookup kind id).map (·.aura) = some aura ↔
      ∃ declaration ∈ declarations, declaration.id = id ∧ declaration.declared = aura := by
  refine look_foldl_of_none
    (fun (catalog : AuraCatalog) id => (catalog.lookup kind id).map (·.aura)) _ (·.id)
    AuraDeclaration.declared (fun catalog declaration id => ?_) distinct
    (fun id => congrArg _ (nothing id)) id aura
  rw [AuraCatalog.lookup_register]
  change (if kind = kind ∧ declaration.id = id then _ else _ : Option RegisteredAura).map _ = _
  split <;> simp_all

theorem fill_lookup_other {kind other : AuraKind} (different : other ≠ kind)
    (declarations : List AuraDeclaration) (catalog : AuraCatalog) (id : String) :
    (fill kind catalog declarations).lookup other id = catalog.lookup other id := by
  induction declarations generalizing catalog with
  | nil => rfl
  | cons declaration rest ih =>
    refine (ih _).trans ?_
    rw [AuraCatalog.lookup_register, if_neg fun same => different same.1]

/-- The buffs do not show among the debuffs. -/
theorem fill_buffs_debuff (buffs : List AuraDeclaration) (id : String) :
    (fill .buff {} buffs).lookup .debuff id = none := by
  rw [fill_lookup_other (by decide)]
  rfl

theorem filled_lookup {declaration : AurasDeclaration}
    (distinct : ∀ kind, ((declaration.listed kind).map (·.id)).Nodup) (kind : AuraKind)
    (id : String) (aura : Aura) :
    (declaration.filled.lookup kind id).map (·.aura) = some aura ↔
      ∃ listed ∈ declaration.listed kind, listed.id = id ∧ listed.declared = aura := by
  cases kind with
  | buff =>
    rw [filled, fill_lookup_other (by decide)]
    exact fill_lookup (distinct .buff) (fun _ => rfl) id aura
  | debuff => exact fill_lookup (distinct .debuff) (fill_buffs_debuff declaration.buffs) id aura

theorem fill_size {kind : AuraKind} {declarations : List AuraDeclaration}
    (distinct : (declarations.map (·.id)).Nodup) {catalog : AuraCatalog}
    (fresh : ∀ declaration ∈ declarations, catalog.lookup kind declaration.id = none) :
    (fill kind catalog declarations).size = catalog.size + declarations.length := by
  induction declarations generalizing catalog with
  | nil => rfl
  | cons declaration rest ih =>
    obtain ⟨new, distinct⟩ := List.nodup_cons.mp distinct
    obtain ⟨first, later⟩ := List.forall_mem_cons.mp fresh
    have still : ∀ other ∈ rest,
        (catalog.register kind declaration.declared).lookup kind other.id = none := by
      intro other member
      rw [AuraCatalog.lookup_register, if_neg, later other member]
      rintro ⟨-, again⟩
      exact new (List.mem_map.mpr ⟨other, member, again.symm⟩)
    refine (ih distinct still).trans ?_
    rw [AuraCatalog.size_register first, List.length_cons]
    omega

theorem filled_size {declaration : AurasDeclaration}
    (distinct : ∀ kind, ((declaration.listed kind).map (·.id)).Nodup) :
    declaration.filled.size = declaration.buffs.length + declaration.debuffs.length := by
  have buffs : (fill .buff {} declaration.buffs).size = 0 + declaration.buffs.length :=
    fill_size (distinct .buff) fun _ _ => rfl
  have debuffs := fill_size (distinct .debuff) fun debuff _ =>
    fill_buffs_debuff declaration.buffs debuff.id
  refine debuffs.trans ?_
  rw [buffs]
  exact congrArg (· + _) (Nat.zero_add _)

end AurasDeclaration

/-! ### What is accepted, and as what -/

/-- Within each table the ids are proper, and no aura names two policies of one sort. -/
structure ContentDeclaration.Valid (declaration : ContentDeclaration) : Prop where
  stats : ProperIds (declaration.stats.map (·.id))
  materials : ProperIds (declaration.materials.map (·.id))
  auras : ∀ kind, ProperIds ((declaration.auras.listed kind).map (·.id))
  flags : ∀ kind, ∀ listed ∈ declaration.auras.listed kind,
    ¬(listed.stack ∧ listed.refresh) ∧ ¬(listed.accumulate ∧ listed.overwrite)

/-- The content knows what is declared and nothing else. -/
structure ContentDeclaration.Loaded (declaration : ContentDeclaration) (content : Content) :
    Prop where
  stats : ∀ id stat, content.stats.get? id = some stat ↔ stat ∈ declaration.stats ∧ stat.id = id
  hasStat : ∀ id, content.hasStat id = true ↔ ∃ stat ∈ declaration.stats, stat.id = id
  materials : ∀ id material,
    content.material? id = some material ↔ material ∈ declaration.materials ∧ material.id = id
  auras : ∀ kind id aura, (content.auras.lookup kind id).map (·.aura) = some aura ↔
    ∃ listed ∈ declaration.auras.listed kind, listed.id = id ∧ listed.declared = aura
  size : content.auras.size = declaration.auras.buffs.length + declaration.auras.debuffs.length

namespace ContentDeclaration

theorem violations_eq_nil_iff {declaration : ContentDeclaration} :
    declaration.violations = [] ↔ declaration.Valid := by
  simp only [violations, AurasDeclaration.violations, List.append_eq_nil_iff, idFaults_eq_nil_iff,
    AurasDeclaration.flagFaults_eq_nil_iff]
  constructor
  · rintro ⟨stats, materials, buffs, debuffs, buffFlags, debuffFlags⟩
    exact ⟨stats, materials, fun kind => by cases kind <;> assumption,
      fun kind => by cases kind <;> assumption⟩
  · rintro ⟨stats, materials, auras, flags⟩
    exact ⟨stats, materials, auras .buff, auras .debuff, flags .buff, flags .debuff⟩

theorem filled_stat {declaration : ContentDeclaration}
    (distinct : (declaration.stats.map (·.id)).Nodup) (id : String) (stat : NamedItem) :
    declaration.filled.stats.get? id = some stat ↔ stat ∈ declaration.stats ∧ stat.id = id := by
  rw [filled, (Content.foldl_addMaterial_rest ..).1]
  refine (look_foldl_of_none (fun (content : Content) id => content.stats.get? id) Content.addStat
    (·.id) (fun stat => stat) (fun _ _ _ => IdMap.get?_insert ..) distinct (fun _ => rfl) id
    stat).trans ?_
  grind

theorem filled_material {declaration : ContentDeclaration}
    (distinct : (declaration.materials.map (·.id)).Nodup) (id : String) (material : NamedItem) :
    declaration.filled.material? id = some material ↔
      material ∈ declaration.materials ∧ material.id = id := by
  have nothing (id : String) :
      (declaration.stats.foldl Content.addStat { auras := declaration.auras.filled }).material? id =
        none := by
    rw [Content.material?, (Content.foldl_addStat_rest ..).1]
    rfl
  refine (look_foldl_of_none Content.material? Content.addMaterial (·.id)
    (fun material => material) (fun _ _ _ => IdMap.get?_insert ..) distinct nothing id
    material).trans ?_
  grind

theorem filled_loaded {declaration : ContentDeclaration} (valid : declaration.Valid) :
    declaration.Loaded declaration.filled := by
  have stats := filled_stat valid.stats.2
  have distinct (kind : AuraKind) := (valid.auras kind).2
  have auras : declaration.filled.auras = declaration.auras.filled := by
    rw [filled, (Content.foldl_addMaterial_rest ..).2, (Content.foldl_addStat_rest ..).2]
  refine ⟨stats, fun id => ?_, filled_material valid.materials.2, ?_, ?_⟩
  · simp [Content.hasStat, IdMap.contains, Option.isSome_iff_exists, stats]
  · rw [auras]
    exact AurasDeclaration.filled_lookup distinct
  · rw [auras]
    exact AurasDeclaration.filled_size distinct

/-- A declaration is accepted exactly where it is valid, or else the first thing wrong is reported;
what is loaded is what is declared. -/
theorem content_exact (declaration : ContentDeclaration) :
    ((∃ content, declaration.content = .ok content) ↔ declaration.Valid) ∧
      (∀ violation, declaration.content = .error violation ↔
        declaration.violations.head? = some violation) ∧
      ∀ content, declaration.content = .ok content → declaration.Loaded content := by
  rw [content_eq]
  refine ⟨?_, fun _ => report_eq_error_iff, fun content accepted => ?_⟩
  · simp only [report_eq_ok_iff, exists_and_left, exists_eq', and_true, violations_eq_nil_iff]
  · obtain ⟨valid, rfl⟩ := report_eq_ok_iff.mp accepted
    exact filled_loaded (violations_eq_nil_iff.mp valid)

/-! Ids that differ in a blank at the end, an id declared as a buff and as a debuff, and an aura
without a name. -/

def spaced : ContentDeclaration where
  stats := [{ id := "strength" }, { id := "strength " }]
  materials := [{ id := "ore", name := "Ore" }]
  auras := {
    buffs := [{ id := "might", stack := true, overwrite := true }]
    debuffs := [{ id := "might", name := "Weight" }] }

theorem content_exact_spaced :
    (∃ content, spaced.content = .ok content) ∧
      ∀ content, spaced.content = .ok content → spaced.Loaded content :=
  have ⟨accepted, _, loaded⟩ := content_exact spaced
  ⟨accepted.mpr ⟨by decide, by decide, fun kind => by cases kind <;> decide,
    fun kind => by cases kind <;> decide⟩, loaded⟩

end ContentDeclaration
end Combat
