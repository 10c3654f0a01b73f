import Combat.Effect.Codec
import Mathlib.Data.List.Induction

/-!
What an effect says in writing. Reading a table asks for the members of the effect and of its kind
and for nothing else, and what an effect writes answers with the effect, whichever other members
stand beside.
-/

namespace Combat

/-! ### Members of a table -/

namespace IdMap
variable {α : Type} {l other : List (String × α)}

theorem find_append (id : String) (l other : List (String × α)) :
    find id (l ++ other) = (find id l).or (find id other) := by
  induction l with
  | nil => rfl
  | cons head rest ih =>
    rw [List.cons_append, find, find, ih]
    split <;> rfl

theorem find_eq_none {id : String} (absent : id ∉ l.map (·.1)) : find id l = none := by
  rw [← Option.not_isSome_iff_eq_none, find_isSome]
  rintro ⟨value, listed⟩
  exact absent (List.mem_map.mpr ⟨_, listed, rfl⟩)

theorem find_filter {id : String} {names : List String} (named : id ∈ names)
    (l : List (String × α)) : find id (l.filter (·.1 ∈ names)) = find id l := by
  induction l with
  | nil => rfl
  | cons head rest ih =>
    by_cases kept : head.1 ∈ names
    · simp [kept, find, ih]
    · have apart : head.1 ≠ id := fun same => kept (same ▸ named)
      simp [kept, find, apart, ih]

theorem find_eq_some_iff (distinct : (l.map (·.1)).Nodup) {id : String} {value : α} :
    find id l = some value ↔ (id, value) ∈ l := by
  induction l with
  | nil => simp [find]
  | cons head rest ih =>
    obtain ⟨fresh, distinct⟩ := List.nodup_cons.mp distinct
    by_cases same : head.1 = id
    · have only : (id, value) ∉ rest := by
        intro listed
        exact fresh (List.mem_map.mpr ⟨_, listed, same.symm⟩)
      simp [find, same, only, Prod.ext_iff, eq_comm]
    · simp [find, same, ih distinct, Prod.ext_iff, eq_comm]

theorem find_perm (distinct : (l.map (·.1)).Nodup) (same : l.Perm other) (id : String) :
    find id l = find id other := by
  apply Option.ext
  intro value
  rw [find_eq_some_iff distinct, find_eq_some_iff ((same.map _).nodup distinct), same.mem_iff]

theorem place_last {id : String} (value : α) (last : ∀ entry ∈ l, entry.1 < id) :
    place id value l = l ++ [(id, value)] := by
  induction l with
  | nil => rfl
  | cons head rest ih =>
    obtain ⟨first, later⟩ := List.forall_mem_cons.mp last
    rw [place, if_neg (String.lt_asymm first), if_neg (Ne.symm (String.ne_of_lt first)), ih later,
      List.cons_append]

theorem ofList_entries (m : IdMap α) : ofList m.entries = m := by
  have whole : ∀ l : List (String × α), l.Pairwise (fun a b => a.1 < b.1) →
      (ofList l).entries = l := by
    intro l sorted
    induction l using List.reverseRecOn with
    | nil => rfl
    | append_singleton l last ih =>
      obtain ⟨early, -, below⟩ := List.pairwise_append.mp sorted
      have placed : (ofList (l ++ [last])).entries = place last.1 last.2 (ofList l).entries := by
        rw [ofList, List.foldl_append]
        rfl
      rw [placed, ih early]
      exact place_last _ fun entry listed => below entry listed last List.mem_cons_self
  exact ext (whole m.entries m.sorted)

end IdMap

namespace Value
variable {α : Type} {read : Value → Option α} {write : α → Value}

theorem find_member (id key : String) (write : α → Value) (a : Option α) :
    IdMap.find id (member key write a) = if key = id then a.map write else none := by
  cases a <;> simp [member, IdMap.find]

theorem member_sublist (key : String) (write : α → Value) (a : Option α) :
    ((member key write a).map (·.1)).Sublist [key] := by
  cases a <;> simp [member]

theorem optional_some {value : Value} (said : value ≠ .null) :
    optional read (some value) = (read value).map some := by
  cases value with
  | null => exact absurd rfl said
  | _ => rfl

theorem optional_map {a : Option α} (back : ∀ b ∈ a, write b ≠ .null ∧ read (write b) = some b) :
    optional read (a.map write) = some a := by
  cases a with
  | none => rfl
  | some b =>
    obtain ⟨said, again⟩ := back b rfl
    rw [Option.map_some, optional_some said, again, Option.map_some]

theorem mapM_map {β : Type} {f : β → α} {g : α → Option β} {l : List β}
    (back : ∀ b ∈ l, g (f b) = some b) : (l.map f).mapM g = some l := by
  induction l with
  | nil => rfl
  | cons b rest ih =>
    obtain ⟨first, later⟩ := List.forall_mem_cons.mp back
    rw [List.map_cons, List.mapM_cons, first, ih later]
    rfl

theorem idMap?_ofIdMap {m : IdMap α}
    (back : ∀ entry ∈ m.entries, read (write entry.2) = some entry.2) :
    idMap? read (ofIdMap write m) = some m := by
  have again : ∀ entry ∈ m.entries,
      (read (write entry.2)).map ((entry.1, write entry.2).1, ·) = some entry := by
    intro entry listed
    rw [back entry listed]
    rfl
  rw [ofIdMap, idMap?, mapM_map again, Option.map_some, IdMap.ofList_entries]

theorem float?_ofFloat {x : Float} (finite : Binary64.isFinite x = true) :
    float? (ofFloat x) = some x := by
  rw [ofFloat, if_pos finite]
  rfl

theorem count?_int (count : Count) : count? (.int count.toInt) = some count := by
  have within : 0 ≤ count.toInt ∧ count.toInt ≤ Count.greatest :=
    ⟨Int.natCast_nonneg _, Int.ofNat_le.mpr count.le_greatest⟩
  rw [count?, intWithin?, if_pos within, Option.map_some]
  exact congrArg some (Count.ext (Count.val_ofNat_of_le count.le_greatest))

end Value

/-! ### What a table is asked for -/

/-- The members tell the kind, once its type is known. -/
def EffectKind.ToldBy (origin : Value.Origin) (member : String → Option Value) :
    EffectKind → Prop
  | .damage stat => Value.optional Value.text? (member "stat") = some stat
  | .heal mode =>
    Value.defaulted .flat (HealMode.ofValue? origin.gather) (member "mode") = some mode
  | .applyAura _ id | .removeAura _ id | .grantMaterial id | .consumeMaterial id =>
    Value.required Value.text? (member "id") = some id
  | .statModifier stat percent =>
    Value.required Value.text? (member "stat") = some stat ∧
      Value.defaulted false Value.bool? (member "percent") = some percent
  | .restoreEnergy | .revive | .unknown => True

/-- The members tell the settings of the effect, apart from its amount. -/
structure Effect.SetBy (origin : Value.Origin) (member : String → Option Value)
    (effect : Effect) : Prop where
  target : Value.defaulted .target (Selector.ofValue? origin) (member "target") =
    some effect.target
  party : Value.optional (PartyScope.ofValue? origin) (member "party") = some effect.party
  trigger : Value.defaulted .immediate (Trigger.ofValue? origin) (member "trigger") =
    some effect.trigger
  stackCount : Value.optional Formula.ofValue? (member "stacks") = some effect.stackCount
  consume : Value.defaulted false Value.bool? (member "consume") = some effect.consume
  stack : Value.defaulted false Value.bool? (member "stack") = some effect.stack
  split : Value.defaulted false Value.bool? (member "split") = some effect.split
  limit : Value.optional (LimitScope.ofValue? origin) (member "limit") = some effect.limit
  times : Value.optional Value.count? (member "times") = some effect.times

/-- The members tell all of the effect but its type and its amount. -/
structure Effect.ToldBy (origin : Value.Origin) (member : String → Option Value)
    (effect : Effect) : Prop extends effect.SetBy origin member where
  kind : effect.kind.ToldBy origin member

theorem EffectKind.ofRecord?_eq_some_iff {origin : Value.Origin} {type : Option EffectType}
    {entries : List (String × Value)} {kind : EffectKind} :
    ofRecord? origin type (.named entries) = some kind ↔
      type = kind.type? ∧ kind.ToldBy origin (IdMap.find · entries) := by
  cases type with
  | none => cases kind <;> simp [ofRecord?, type?, ToldBy]
  | some type =>
    cases type <;> cases kind <;>
      simp [ofRecord?, ofDetails?, type?, ToldBy, Value.Record.member, Option.bind_eq_some_iff]
    -- an aura's kind and id are left
    all_goals exact and_comm

theorem Effect.ofEntries?_eq_some_iff {origin : Value.Origin} {entries : List (String × Value)}
    {effect : Effect} : ofEntries? origin entries = some effect ↔
      Value.required (typeOfValue? origin) (IdMap.find "type" entries) = some effect.type? ∧
        effect.ToldBy origin (IdMap.find · entries) ∧
        Value.optional Formula.ofValue? (IdMap.find "amount" entries) = some effect.amount := by
  simp only [ofEntries?, Option.bind_eq_bind, Option.bind_eq_some_iff,
    EffectKind.ofRecord?_eq_some_iff]
  constructor
  · rintro ⟨type, typed, kind, ⟨rfl, told⟩, selector, target, party, itsParty, trigger, itsTrigger,
      amount, itsAmount, stackCount, itsStacks, consume, itsConsume, stack, itsStack, split,
      itsSplit, limit, itsLimit, times, itsTimes, made⟩
    obtain rfl := Option.some.inj made
    exact ⟨typed, ⟨⟨target, itsParty, itsTrigger, itsStacks, itsConsume, itsStack, itsSplit,
      itsLimit, itsTimes⟩, told⟩, itsAmount⟩
  · rintro ⟨typed, told, amount⟩
    exact ⟨_, typed, _, ⟨rfl, told.kind⟩, _, told.target, _, told.party, _, told.trigger, _, amount,
      _, told.stackCount, _, told.consume, _, told.stack, _, told.split, _, told.limit, _,
      told.times, rfl⟩

/-! ### Names of members -/

namespace EffectKind
variable {origin : Value.Origin} {member other : String → Option Value} {kind : EffectKind}

/-- Those that a kind of its type may have. -/
def memberNames : EffectKind → List String
  | .damage _ => ["type", "stat"]
  | .heal _ => ["type", "mode"]
  | .statModifier .. => ["type", "stat", "percent"]
  | .applyAura .. | .removeAura .. | .grantMaterial _ | .consumeMaterial _ => ["type", "id"]
  | .restoreEnergy | .revive | .unknown => ["type"]

theorem ToldBy.congr (told : kind.ToldBy origin member)
    (same : ∀ name ∈ kind.memberNames, name ≠ "type" → other name = member name) :
    kind.ToldBy origin other := by
  cases kind <;> simp_all [ToldBy, memberNames]

theorem type_mem_memberNames (kind : EffectKind) : "type" ∈ kind.memberNames := by
  cases kind <;> simp [memberNames]

theorem members_sublist (kind : EffectKind) :
    (kind.members.map (·.1)).Sublist kind.memberNames := by
  cases kind with
  | damage stat => exact (Value.member_sublist ..).cons_cons _
  | _ => exact List.Sublist.refl _

theorem told_by_members (origin : Value.Origin) (kind : EffectKind) :
    kind.ToldBy origin (IdMap.find · kind.members) := by
  cases kind with
  | damage stat => cases stat <;> rfl
  | heal mode => cases mode <;> rfl
  | statModifier stat percent => exact ⟨rfl, rfl⟩
  | _ => first | rfl | trivial

theorem typeOfValue?_typeName (kind : EffectKind) (origin : Value.Origin) :
    Value.required (Effect.typeOfValue? origin) (IdMap.find "type" kind.members) =
      some kind.type? := by
  cases kind with
  | applyAura kind id => cases kind <;> rfl
  | removeAura kind id => cases kind <;> rfl
  | _ => rfl

end EffectKind

/-! ### Settings in writing -/

theorem Trigger.ofValue?_toValue (origin : Value.Origin) (trigger : Trigger) :
    ofValue? origin trigger.toValue = some trigger := by
  cases trigger <;> rfl

theorem Selector.ofValue?_toValue (origin : Value.Origin) (selector : Selector) :
    ofValue? origin selector.toValue = some selector := by
  cases selector <;> rfl

theorem LimitScope.ofValue?_toValue (origin : Value.Origin) (scope : LimitScope) :
    ofValue? origin scope.toValue = some scope := by
  cases scope <;> rfl

theorem PartyScope.ofValue?_toValue (origin : Value.Origin) (scope : PartyScope) :
    ofValue? origin scope.toValue = some scope := by
  cases scope <;> rfl

namespace Formula

structure IsFinite (formula : Formula) : Prop where
  base : Binary64.isFinite formula.base = true
  scaling : ∀ entry ∈ formula.scaling.entries, Binary64.isFinite entry.2 = true

theorem ofValue?_table (entries : List (String × Value)) :
    ofValue? (.table entries) =
      (Value.defaulted 0.0 Value.float? (IdMap.find "base" entries)).bind fun base =>
        (Value.defaulted {} (Value.idMap? Value.float?) (IdMap.find "scaling" entries)).bind
          fun scaling => some { base, scaling } :=
  rfl

theorem ofValue?_toValue {formula : Formula} (finite : formula.IsFinite) :
    ofValue? formula.toValue = some formula := by
  obtain ⟨base, scaling⟩ := formula
  have itsBase : Value.float? (Value.ofFloat base) = some base :=
    Value.float?_ofFloat finite.base
  have itsScaling : Value.idMap? Value.float? (Value.ofIdMap Value.ofFloat scaling) =
      some scaling :=
    Value.idMap?_ofIdMap fun entry listed => Value.float?_ofFloat (finite.scaling entry listed)
  rw [toValue, isScaling, ofValue?_table]
  cases bare : scaling.isEmpty with
  | true =>
    have nothing : scaling = {} := IdMap.ext (List.isEmpty_iff.mp bare)
    simp [IdMap.find, Value.defaulted, itsBase, nothing]
  | false => simp [IdMap.find, Value.defaulted, itsBase, itsScaling]

end Formula

namespace Effect
variable {origin : Value.Origin} {member other : String → Option Value} {effect : Effect}

def settingNames : List String :=
  ["target", "party", "trigger", "amount", "stacks", "consume", "stack", "split", "limit",
    "times"]

theorem SetBy.congr (set : effect.SetBy origin member)
    (same : ∀ name ∈ settingNames, name ≠ "amount" → other name = member name) :
    effect.SetBy origin other := by
  simp only [settingNames, List.mem_cons, List.not_mem_nil, or_false, ne_eq, forall_eq_or_imp,
    String.reduceEq, not_false_eq_true, forall_const, not_true_eq_false, IsEmpty.forall_iff,
    forall_eq, true_and] at same
  obtain ⟨target, party, trigger, stackCount, consume, stack, split, limit, times⟩ := same
  constructor
  case target => exact target ▸ set.target
  case party => exact party ▸ set.party
  case trigger => exact trigger ▸ set.trigger
  case stackCount => exact stackCount ▸ set.stackCount
  case consume => exact consume ▸ set.consume
  case stack => exact stack ▸ set.stack
  case split => exact split ▸ set.split
  case limit => exact limit ▸ set.limit
  case times => exact times ▸ set.times

theorem settings_sublist (effect : Effect) :
    (effect.settings.map (·.1)).Sublist settingNames := by
  change List.Sublist _ (["target"] ++ ["party"] ++ ["trigger"] ++ ["amount"] ++ ["stacks"] ++
    ["consume", "stack", "split"] ++ ["limit"] ++ ["times"])
  simp only [settings, List.map_append]
  apply_rules [List.Sublist.append, Value.member_sublist, List.Sublist.refl]

structure IsFinite (effect : Effect) : Prop where
  amount : ∀ formula ∈ effect.amount, formula.IsFinite
  stackCount : ∀ formula ∈ effect.stackCount, formula.IsFinite

theorem set_by_settings (origin : Value.Origin) (finite : effect.IsFinite) :
    effect.SetBy origin (IdMap.find · effect.settings) := by
  have party : Value.optional (PartyScope.ofValue? origin)
      (effect.party.map PartyScope.toValue) = some effect.party :=
    Value.optional_map fun scope _ =>
      ⟨by simp [PartyScope.toValue], PartyScope.ofValue?_toValue origin scope⟩
  have stackCount : Value.optional Formula.ofValue? (effect.stackCount.map Formula.toValue) =
      some effect.stackCount :=
    Value.optional_map fun formula given =>
      ⟨by simp [Formula.toValue], Formula.ofValue?_toValue (finite.stackCount formula given)⟩
  have limit : Value.optional (LimitScope.ofValue? origin)
      (effect.limit.map LimitScope.toValue) = some effect.limit :=
    Value.optional_map fun scope _ =>
      ⟨by simp [LimitScope.toValue], LimitScope.ofValue?_toValue origin scope⟩
  have times : Value.optional Value.count?
      (effect.times.map fun times => .int times.toInt) = some effect.times :=
    Value.optional_map fun times _ => ⟨by simp, Value.count?_int times⟩
  constructor <;>
    simp [settings, IdMap.find_append, Value.find_member, IdMap.find, Value.defaulted,
      Trigger.ofValue?_toValue, Selector.ofValue?_toValue, Value.bool?, party, stackCount,
      limit, times]

theorem amount_by_settings (finite : effect.IsFinite) :
    Value.optional Formula.ofValue? (IdMap.find "amount" effect.settings) =
      some effect.amount := by
  have found : IdMap.find "amount" effect.settings = effect.amount.map Formula.toValue := by
    simp [settings, IdMap.find_append, Value.find_member, IdMap.find]
  rw [found]
  apply Value.optional_map
  intro formula given
  exact ⟨by simp [Formula.toValue], Formula.ofValue?_toValue (finite.amount formula given)⟩

/-! ### Reading what was written -/

def memberNames (effect : Effect) : List String := effect.kind.memberNames ++ settingNames

theorem memberNames_nodup (effect : Effect) : effect.memberNames.Nodup := by
  unfold memberNames
  cases effect.kind <;> simp [EffectKind.memberNames, settingNames]

theorem kind_ne_setting {name setting : String} (ofKind : name ∈ effect.kind.memberNames)
    (ofSettings : setting ∈ settingNames) : name ≠ setting :=
  (List.nodup_append.mp effect.memberNames_nodup).2.2 name ofKind setting ofSettings

theorem ToldBy.congr (told : effect.ToldBy origin member)
    (same : ∀ name ∈ effect.memberNames, name ≠ "type" → name ≠ "amount" →
      other name = member name) : effect.ToldBy origin other := by
  constructor
  case toSetBy =>
    apply told.toSetBy.congr
    intro name named noAmount
    have noType := (kind_ne_setting effect.kind.type_mem_memberNames named).symm
    exact same name (List.mem_append_right _ named) noType noAmount
  case kind =>
    apply told.kind.congr
    intro name named noType
    have noAmount : name ≠ "amount" := kind_ne_setting named (by decide)
    exact same name (List.mem_append_left _ named) noType noAmount

def members (effect : Effect) : List (String × Value) := effect.kind.members ++ effect.settings

theorem members_sublist (effect : Effect) :
    (effect.members.map (·.1)).Sublist effect.memberNames := by
  rw [members, List.map_append]
  exact effect.kind.members_sublist.append effect.settings_sublist

theorem find_kind {name : String} (named : name ∈ effect.kind.memberNames) :
    IdMap.find name effect.members = IdMap.find name effect.kind.members := by
  have absent : name ∉ effect.settings.map (·.1) := by
    intro written
    exact kind_ne_setting named (effect.settings_sublist.subset written) rfl
  rw [members, IdMap.find_append, IdMap.find_eq_none absent, Option.or_none]

theorem find_setting {name : String} (named : name ∈ settingNames) :
    IdMap.find name effect.members = IdMap.find name effect.settings := by
  have absent : name ∉ effect.kind.members.map (·.1) := by
    intro written
    exact kind_ne_setting (effect.kind.members_sublist.subset written) named rfl
  rw [members, IdMap.find_append, IdMap.find_eq_none absent, Option.none_or]

theorem told_by_members (origin : Value.Origin) (finite : effect.IsFinite) :
    effect.ToldBy origin (IdMap.find · effect.members) where
  toSetBy := (set_by_settings origin finite).congr fun _ named _ => find_setting named
  kind := (EffectKind.told_by_members origin effect.kind).congr fun _ named _ => find_kind named

/-- Whatever answers alike to the names of an effect's members reads as the effect. -/
theorem ofEntries?_of_alike (origin : Value.Origin) (finite : effect.IsFinite)
    {entries : List (String × Value)}
    (alike : ∀ name ∈ effect.memberNames,
      IdMap.find name entries = IdMap.find name effect.members) :
    ofEntries? origin entries = some effect := by
  have typed := effect.kind.type_mem_memberNames
  have amount : "amount" ∈ settingNames := by decide
  rw [ofEntries?_eq_some_iff, alike "type" (List.mem_append_left _ typed), find_kind typed,
    alike "amount" (List.mem_append_right _ amount), find_setting amount]
  refine ⟨effect.kind.typeOfValue?_typeName origin, ?_, amount_by_settings finite⟩
  exact (told_by_members origin finite).congr fun name named _ _ => alike name named

/-- An effect of finite numbers reads back from what it writes, in any order and with any other
members beside. -/
theorem reads_back (effect : Effect) (finite : effect.IsFinite) :
    ofValue? .json effect.toValue = some effect ∧
      ∀ entries : List (String × Value),
        (entries.filter (·.1 ∈ effect.memberNames)).Perm
          (effect.kind.members ++ effect.settings) →
        ofValue? .json (.table entries) = some effect := by
  refine ⟨ofEntries?_of_alike .json finite fun _ _ => rfl, ?_⟩
  intro entries same
  -- no name is written twice, so neither the order nor what else stands there matters
  have distinct : (effect.members.map (·.1)).Nodup :=
    effect.members_sublist.nodup effect.memberNames_nodup
  apply ofEntries?_of_alike .json finite
  intro name named
  rw [← IdMap.find_filter named entries]
  exact (IdMap.find_perm distinct same.symm name).symm

/-! Names that are not known, a formula that scales, and members of other kinds beside. -/

def omen : Effect where
  kind := .statModifier "luck" true
  target := .unknown
  trigger := .other
  amount := some ((Formula.flat 0.5).withScaling "wit" 0.25)
  times := some 3

def crowded : List (String × Value) :=
  ("id", .null) :: ("mode", .int 3) :: (omen.settings ++ omen.kind.members)

theorem reads_back_omen :
    omen.IsFinite ∧ ofValue? .json omen.toValue = some omen ∧
      (crowded.filter (·.1 ∈ omen.memberNames)).Perm (omen.kind.members ++ omen.settings) ∧
      ofValue? .json (.table crowded) = some omen := by
  have amount : ((Formula.flat 0.5).withScaling "wit" 0.25).IsFinite := by
    refine ⟨by decide +kernel, ?_⟩
    intro entry listed
    obtain rfl := List.mem_singleton.mp listed
    decide +kernel
  have finite : omen.IsFinite := by
    refine ⟨?_, nofun⟩
    rintro formula ⟨⟩
    exact amount
  have kept : crowded.filter (·.1 ∈ omen.memberNames) = omen.settings ++ omen.kind.members := rfl
  have same : (crowded.filter (·.1 ∈ omen.memberNames)).Perm
      (omen.kind.members ++ omen.settings) := by
    rw [kept]
    exact List.perm_append_comm
  obtain ⟨itself, others⟩ := reads_back omen finite
  exact ⟨finite, itself, same, others crowded same⟩

end Effect
end Combat
