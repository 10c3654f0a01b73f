import Combat.Mastery.Reward
import Combat.Proofs.Effect.Codec

/-!
Rewards as effects. A reward is an effect where its type is that of one and its parameters tell the
rest. Its value becomes the amount as long as it is finite; an infinite one is lost.
-/

namespace Combat

theorem EffectType.ofName?_eq_some_iff {s : String} {type : EffectType} :
    ofName? s = some type ↔ type.name = s := by
  constructor
  · intro found
    have named := List.find?_some found
    exact of_decide_eq_true named
  · rintro rfl
    cases type with
    | applyAura kind => cases kind <;> rfl
    | removeAura kind => cases kind <;> rfl
    | _ => rfl

namespace Reward
variable {reward : Reward} {effect : Effect}

/-- The effect is of the type that the reward names. -/
def Names (reward : Reward) (effect : Effect) : Prop :=
  ∃ type, effect.type? = some type ∧ type.name = reward.type

def amount? (reward : Reward) : Option Formula :=
  if Binary64.isFinite reward.value then some (.flat reward.value) else none

/-! ### The members of the effect -/

theorem find_effectEntries (reward : Reward) (name : String) :
    IdMap.find name reward.effectEntries =
      if "amount" = name then some (Value.ofFloat reward.value)
      else if "type" = name then some (.text reward.type)
      else reward.params.get? name := by
  rw [← IdMap.get?_insert, ← IdMap.get?_insert]
  rfl

theorem find_param {name : String} (noType : name ≠ "type") (noAmount : name ≠ "amount") :
    IdMap.find name reward.effectEntries = reward.params.get? name := by
  rw [find_effectEntries, if_neg noAmount.symm, if_neg noType.symm]

theorem optional_ofFloat (x : Float) :
    Value.optional Formula.ofValue? (some (Value.ofFloat x)) =
      some (if Binary64.isFinite x then some (.flat x) else none) := by
  unfold Value.ofFloat
  split <;> rfl

theorem told_iff : effect.ToldBy .json (IdMap.find · reward.effectEntries) ↔
    effect.ToldBy .json reward.params.get? := by
  constructor
  · intro told
    exact told.congr fun _ _ noType noAmount => (find_param noType noAmount).symm
  · intro told
    exact told.congr fun _ _ noType noAmount => find_param noType noAmount

theorem ofEntries?_effectEntries :
    Effect.ofEntries? .json reward.effectEntries = some effect ↔
      EffectType.ofName? reward.type = effect.type? ∧
        effect.ToldBy .json reward.params.get? ∧ effect.amount = reward.amount? := by
  have typed : IdMap.find "type" reward.effectEntries = some (.text reward.type) := by
    simp [find_effectEntries]
  have valued : IdMap.find "amount" reward.effectEntries = some (Value.ofFloat reward.value) := by
    simp [find_effectEntries]
  rw [Effect.ofEntries?_eq_some_iff, told_iff, typed, valued, optional_ofFloat]
  constructor
  · rintro ⟨type, told, amount⟩
    exact ⟨Option.some.inj type, told, (Option.some.inj amount).symm⟩
  · rintro ⟨type, told, amount⟩
    exact ⟨congrArg some type, told, congrArg some amount.symm⟩

/-! ### Conversion -/

theorem effect?_eq_some_iff : reward.effect? = some effect ↔
    reward.Names effect ∧ effect.ToldBy .json reward.params.get? ∧
      effect.amount = reward.amount? := by
  constructor
  · intro converted
    obtain ⟨read, found, made⟩ := Option.bind_eq_some_iff.mp converted
    split at made
    · rename_i known
      obtain rfl := Option.some.inj made
      obtain ⟨named, told, amount⟩ := ofEntries?_effectEntries.mp found
      obtain ⟨type, typed⟩ := Option.isSome_iff_exists.mp known
      have same := EffectType.ofName?_eq_some_iff.mp (named.trans typed)
      exact ⟨⟨type, typed, same⟩, told, amount⟩
    · cases made
  · rintro ⟨⟨type, typed, same⟩, told, amount⟩
    have named := (EffectType.ofName?_eq_some_iff.mpr same).trans typed.symm
    have found := ofEntries?_effectEntries.mpr ⟨named, told, amount⟩
    have known : effect.type?.isSome = true := by rw [typed]; rfl
    apply Option.bind_eq_some_iff.mpr
    exact ⟨effect, found, if_pos known⟩

/-- An entry for the type or the amount is passed over. -/
theorem effect?_insert {key : String} (passed : key = "type" ∨ key = "amount") (value : Value) :
    { reward with params := reward.params.insert key value }.effect? = reward.effect? := by
  have same : ∀ name, name ≠ "type" → name ≠ "amount" →
      (reward.params.insert key value).get? name = reward.params.get? name := by
    intro name noType noAmount
    rw [IdMap.get?_insert, if_neg]
    rintro rfl
    exact passed.elim noType noAmount
  apply Option.ext
  intro effect
  rw [effect?_eq_some_iff, effect?_eq_some_iff]
  constructor
  · rintro ⟨named, told, amount⟩
    exact ⟨named, told.congr fun name _ noType noAmount => (same name noType noAmount).symm, amount⟩
  · rintro ⟨named, told, amount⟩
    exact ⟨named, told.congr fun name _ => same name, amount⟩

/-- A reward is an effect exactly where its type is the name of one and its parameters tell the rest
of it, apart from entries for the type and the amount. It has that type, what the parameters tell,
and the value as a flat amount, or no amount where the value is not finite. -/
theorem effect_of_reward (reward : Reward) :
    ((∃ effect, reward.effect? = some effect) ↔
        ∃ effect, reward.Names effect ∧ effect.ToldBy .json reward.params.get?) ∧
      (∀ effect, reward.effect? = some effect ↔
        reward.Names effect ∧ effect.ToldBy .json reward.params.get? ∧
          effect.amount =
            if Binary64.isFinite reward.value then some (.flat reward.value) else none) ∧
      ∀ value,
        { reward with params := reward.params.insert "type" value }.effect? = reward.effect? ∧
          { reward with params := reward.params.insert "amount" value }.effect? =
            reward.effect? := by
  refine ⟨⟨?_, ?_⟩, fun _ => effect?_eq_some_iff, fun value => ?_⟩
  · rintro ⟨effect, converted⟩
    obtain ⟨named, told, -⟩ := effect?_eq_some_iff.mp converted
    exact ⟨effect, named, told⟩
  · rintro ⟨effect, named, told⟩
    refine ⟨{ effect with amount := reward.amount? }, effect?_eq_some_iff.mpr ⟨named, ?_, rfl⟩⟩
    exact ⟨⟨told.target, told.party, told.trigger, told.stackCount, told.consume, told.stack,
      told.split, told.limit, told.times⟩, told.kind⟩
  · exact ⟨effect?_insert (.inl rfl) value, effect?_insert (.inr rfl) value⟩

/-! A finite value that grows beyond the finite ones with the level. -/

def overflowing : Reward := { type := "heal", value := 1e308 }

theorem effect_without_amount :
    Binary64.isFinite overflowing.value = true ∧
      ∃ effect, (overflowing.scaledBy 99).effect? = some effect ∧
        effect.amount ≠ some (.flat (overflowing.scaledBy 99).value) := by
  have unlimited : (overflowing.scaledBy 99).amount? = none := by
    have infinite : Binary64.isFinite (overflowing.scaledBy 99).value = false := by decide +kernel
    rw [amount?, infinite]
    rfl
  refine ⟨by decide +kernel, { kind := .heal .flat }, ?_, nofun⟩
  apply effect?_eq_some_iff.mpr
  refine ⟨⟨.heal, rfl, rfl⟩, ?_, unlimited.symm⟩
  exact ⟨⟨rfl, rfl, rfl, rfl, rfl, rfl, rfl, rfl, rfl⟩, rfl⟩

end Reward
end Combat
