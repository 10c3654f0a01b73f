import Combat.Proofs.Resolution.Frame
import Combat.Proofs.Sides.Characters

/-!
Targets with the sides exchanged. Every selector finds on the exchanged sides whom it found before,
and an effect reads the same stats there.
-/

namespace Combat
open Checked

/-! ### Encounters and targets -/

namespace Encounter

theorem get_swapSides (encounter : Encounter) (seat : Seat) :
    encounter.swapSides.get seat.swapSides = (encounter.get seat).swapSides := by
  rcases seat with ⟨side, position⟩
  cases side <;> cases position <;> rfl

theorem set_swapSides (encounter : Encounter) (seat : Seat) (c : Character) :
    encounter.swapSides.set seat.swapSides c.swapSides = (encounter.set seat c).swapSides := by
  rcases seat with ⟨side, position⟩
  cases side <;> cases position <;> rfl

theorem occupant_swapSides (encounter : Encounter) (seat : Option Seat) :
    encounter.swapSides.occupant (seat.map Seat.swapSides) =
      (encounter.occupant seat).map Character.swapSides := by
  have fights : Character.inCombat ∘ Character.swapSides = Character.inCombat := rfl
  have seated : encounter.swapSides.get ∘ Seat.swapSides = Character.swapSides ∘ encounter.get :=
    funext (get_swapSides encounter)
  unfold occupant
  rw [Option.map_map, seated, ← Option.map_map, Option.filter_map, fights]

end Encounter

namespace Aim

def swapSides (aim : Aim) : Aim where
  encounter := aim.encounter.swapSides
  party := aim.party.opponent
  self := aim.self.map Seat.swapSides
  attacker := aim.attacker.map Seat.swapSides
  target := aim.target.map Seat.swapSides
  exclude := aim.exclude.map Seat.swapSides
  allowDead := aim.allowDead

variable (aim : Aim)

theorem contains_swapSides (seat : Seat) :
    (aim.exclude.map Seat.swapSides).contains seat.swapSides = aim.exclude.contains seat := by
  rw [Bool.eq_iff_iff]
  simp [List.mem_map, Seat.swapSides_inj]

theorem isEligible_swapSides (seat : Seat) :
    aim.swapSides.isEligible seat.swapSides = aim.isEligible seat := by
  unfold isEligible swapSides
  simp only [Encounter.get_swapSides, contains_swapSides]
  rfl

theorem eligible_comp_swapSides : aim.swapSides.isEligible ∘ Seat.swapSides = aim.isEligible :=
  funext aim.isEligible_swapSides

theorem eligible_swapSides : aim.swapSides.eligible = aim.eligible.map Seat.swapSides := by
  have seats : aim.swapSides.seats = aim.seats.map Seat.swapSides := rfl
  unfold eligible
  rw [seats, List.filter_map, eligible_comp_swapSides]

theorem role_swapSides (seat : Option Seat) :
    aim.swapSides.role (seat.map Seat.swapSides) = (aim.role seat).map Seat.swapSides := by
  have alive : (fun seat => aim.swapSides.allowDead ||
      (aim.swapSides.encounter.get seat).isAlive) ∘ Seat.swapSides =
      fun seat => aim.allowDead || (aim.encounter.get seat).isAlive := by
    funext seat
    simp only [Function.comp, swapSides, Encounter.get_swapSides]
    rfl
  unfold role
  rw [Option.filter_map, alive, Option.toList_map]

theorem positional_swapSides (position : Position) :
    aim.swapSides.positional position = (aim.positional position).map Seat.swapSides := by
  have across : position.fallback.map (Seat.mk aim.swapSides.party) =
      (position.fallback.map (Seat.mk aim.party)).map Seat.swapSides := by
    rw [List.map_map]
    rfl
  unfold positional
  rw [across, List.find?_map, eligible_comp_swapSides, Option.toList_map]

theorem leastBy_swapSides {α : Type} (less : α → α → Bool) {key key' : Seat → α}
    (same : ∀ seat, key' seat.swapSides = key seat) (seats : List Seat) :
    leastBy less key' (seats.map Seat.swapSides) =
      (leastBy less key seats).map Seat.swapSides := by
  cases seats with
  | nil => rfl
  | cons first rest =>
    simp only [leastBy, List.map_cons, List.foldl_map, Option.map_some, Option.some.injEq, same]
    induction rest generalizing first with
    | nil => rfl
    | cons next rest ih =>
      simp only [List.foldl_cons, same]
      split
      · exact ih next
      · exact ih first

theorem lowest_swapSides (α : Type) [Arithmetic α] :
    aim.swapSides.lowest α = (aim.lowest α).map Seat.swapSides := by
  unfold lowest
  rw [eligible_swapSides, ← Option.toList_map]
  refine congrArg _ (leastBy_swapSides _ (fun seat => ?_) _)
  change (aim.encounter.swapSides.get seat.swapSides).hitpointsFraction α = _
  rw [Encounter.get_swapSides]
  rfl

/-- Only the number of those eligible matters to a draw. -/
theorem drawOne_swapSides (random : RandomSource) :
    aim.swapSides.drawOne random =
      ((aim.drawOne random).1.map Seat.swapSides, (aim.drawOne random).2) := by
  unfold drawOne
  rw [eligible_swapSides]
  cases aim.eligible with
  | nil => rfl
  | cons first rest =>
    simp only [List.map_cons, List.length_cons, List.length_map]
    rw [← List.map_cons, List.getElem?_map, Option.toList_map]

theorem deadMembers_swapSides :
    aim.swapSides.deadMembers = aim.deadMembers.map Seat.swapSides := by
  have seats : aim.swapSides.seats = aim.seats.map Seat.swapSides := rfl
  unfold deadMembers
  rw [seats, List.filter_map]
  refine congrArg _ (List.filter_congr fun seat _ => ?_)
  simp only [Function.comp, swapSides, Encounter.get_swapSides, contains_swapSides]
  rfl

theorem resolve_swapSides (selector : Selector) (random : RandomSource) :
    aim.swapSides.resolve selector random =
      ((aim.resolve selector random).1.map Seat.swapSides, (aim.resolve selector random).2) := by
  have only : ∀ {seats seats' : List Seat}, seats' = seats.map Seat.swapSides →
      (seats', random) = (seats.map Seat.swapSides, random) := by
    rintro _ _ rfl
    rfl
  unfold resolve resolveIn
  cases selector with
  | self => exact only (aim.role_swapSides aim.self)
  | attacker => exact only (aim.role_swapSides aim.attacker)
  | target => exact only (aim.role_swapSides aim.target)
  | nobody => rfl
  | unknown => rfl
  | front => exact only (aim.positional_swapSides .front)
  | center => exact only (aim.positional_swapSides .center)
  | back => exact only (aim.positional_swapSides .back)
  | cleave =>
    have pair : [Position.front, .center].map (Seat.mk aim.swapSides.party) =
        ([Position.front, .center].map (Seat.mk aim.party)).map Seat.swapSides := rfl
    refine only ?_
    rw [pair, List.filter_map, eligible_comp_swapSides]
  | random => exact aim.drawOne_swapSides random
  | lowest => exact only (aim.lowest_swapSides Float)
  | all => exact only aim.eligible_swapSides
  | dead => exact only aim.deadMembers_swapSides

end Aim

/-! ### Contexts -/

namespace Context
variable (ctx : Context)

theorem get_swapSides (seat : Seat) :
    ctx.swapSides.get seat.swapSides = (ctx.get seat).swapSides :=
  Encounter.get_swapSides ..

theorem setCharacter_swapSides (seat : Seat) (c : Character) :
    ctx.swapSides.setCharacter seat.swapSides c.swapSides =
      (ctx.setCharacter seat c).swapSides := by
  change { ctx.swapSides with
    encounter := ctx.encounter.swapSides.set seat.swapSides c.swapSides } = _
  rw [Encounter.set_swapSides]
  rfl

theorem sourceStats_swapSides : ctx.swapSides.sourceStats = ctx.sourceStats := by
  change (ctx.encounter.swapSides.occupant (ctx.source.map Seat.swapSides)).map _ = _
  rw [Encounter.occupant_swapSides, Option.map_map]
  rfl

theorem amount_swapSides (effect : Effect) : ctx.swapSides.amount effect = ctx.amount effect := by
  rw [amount, sourceStats_swapSides, amount]

theorem stackCount_swapSides (effect : Effect) :
    ctx.swapSides.stackCount effect = ctx.stackCount effect := by
  rw [stackCount, sourceStats_swapSides, stackCount]

theorem damageSource_swapSides :
    ctx.swapSides.damageSource = ctx.damageSource.map Seat.swapSides := by
  change (ctx.credited.map Seat.swapSides <|> ctx.source.map Seat.swapSides) =
    (ctx.credited <|> ctx.source).map Seat.swapSides
  cases ctx.credited <;> rfl

/-- Without a source the heroes would count as the allies on either side. -/
theorem partyFor_swapSides (effect : Effect) (sourced : ctx.source.isSome = true) :
    ctx.swapSides.partyFor effect = (ctx.partyFor effect).opponent := by
  obtain ⟨seat, source⟩ := Option.isSome_iff_exists.mp sourced
  have source' : ctx.swapSides.source = some seat.swapSides := by
    change ctx.source.map _ = _
    rw [source]
    rfl
  unfold partyFor
  rw [source', source]
  cases effect.partyScope <;> rfl

theorem seek_swapSides (type : EffectType) (effect : Effect) (sourced : ctx.source.isSome = true) :
    ctx.swapSides.seek type effect =
      ((ctx.seek type effect).1.map Seat.swapSides, (ctx.seek type effect).2.swapSides) := by
  -- Without a source the party would not follow the sides: allies are then the heroes.
  have aims : ctx.swapSides.aim effect = (ctx.aim effect).swapSides := by
    unfold aim
    rw [partyFor_swapSides ctx effect sourced]
    rfl
  unfold seek resolveTargets
  split
  · rw [aims, Aim.resolve_swapSides]
    rfl
  · rfl

end Context

end Combat
