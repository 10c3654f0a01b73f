import Combat.Proofs.Aura.Shares
import Combat.Proofs.Resolution.Account

/-!
What selectors stand for. Every selector of positions chooses among the same seats: those of one
party whose characters take part, live and are not excluded. Only the random one draws.
-/

namespace Combat

/-- The part of its hitpoints that a character has left, as a fraction. -/
def Character.vitality (c : Character) : ℚ :=
  if c.maxHitpoints ≤ 0 then 0 else c.hitpoints / c.maxHitpoints

theorem Character.hitpointsFraction_eq (c : Character) : c.hitpointsFraction ℚ = c.vitality := by
  unfold hitpointsFraction vitality
  split
  · exact Int.cast_zero
  · rfl

namespace Aim

/-- Who takes part and is not excluded, front to back. -/
def contenders (aim : Aim) : List Seat :=
  aim.seats.filter fun seat => (aim.encounter.get seat).inCombat ∧ seat ∉ aim.exclude

def standing (aim : Aim) : List Seat :=
  aim.contenders.filter fun seat => (aim.encounter.get seat).dead = false

def fallen (aim : Aim) : List Seat :=
  aim.contenders.filter fun seat => (aim.encounter.get seat).dead = true

/-- The first along an order of positions who is standing. -/
def firstOf (aim : Aim) (order : List Position) : List Seat :=
  ((order.map (Seat.mk aim.party)).filter (· ∈ aim.standing)).take 1

/-- What a selector of one seat finds among those standing. -/
structure Finds (aim : Aim) (found : List Seat) : Prop where
  nobody : aim.standing = [] → found = []
  somebody : aim.standing ≠ [] → ∃ seat ∈ aim.standing, found = [seat]

/-- A seat has the least key of all, and is the first to have it. -/
def FirstLeast (key : Seat → ℚ) (seats : List Seat) (least : Seat) : Prop :=
  ∃ early late, seats = early ++ least :: late ∧ (∀ other ∈ early, key least < key other) ∧
    ∀ other ∈ late, key least ≤ key other

/-- What holds of the seats that selectors stand for and of the draws that finding them takes. -/
structure Lawful (aim : Aim) (random : RandomSource)
    (choose : Selector → List Seat × RandomSource) : Prop where
  all : (choose .all).1 = aim.standing
  dead : (choose .dead).1 = aim.fallen
  apart : (choose .all).1.Disjoint (choose .dead).1
  together : ((choose .all).1 ++ (choose .dead).1).Perm aim.contenders
  front : (choose .front).1 = aim.firstOf [.front, .center, .back]
  center : (choose .center).1 = aim.firstOf [.center, .front, .back]
  back : (choose .back).1 = aim.firstOf [.back, .center, .front]
  /-- Nobody stands in for a missing front or center. -/
  cleave : (choose .cleave).1 = aim.standing.filter (·.position ≠ .back)
  single : ∀ selector ∈ [Selector.front, .center, .back, .lowest, .random],
    aim.Finds (choose selector).1
  /-- The roles are not looked for in a party: their characters need not take part and may be
  excluded. -/
  roles : ∀ entry ∈ [(Selector.self, aim.self), (.attacker, aim.attacker), (.target, aim.target)],
    (choose entry.1).1 = entry.2.toList.filter fun seat =>
      aim.allowDead = true ∨ (aim.encounter.get seat).dead = false
  unnamed : (choose .nobody).1 = [] ∧ (choose .unknown).1 = []
  distinct : ∀ selector, (choose selector).1.Nodup
  drawn : aim.standing ≠ [] →
    (choose .random).1 = aim.standing[(random.below aim.standing.length).1]?.toList ∧
      (choose .random).2 = (random.below aim.standing.length).2
  undrawn : ∀ selector, selector ≠ .random ∨ aim.standing = [] → (choose selector).2 = random

/-! ### One set of seats behind every selector -/

section
variable (aim : Aim)

theorem isEligible_iff (seat : Seat) :
    aim.isEligible seat = true ↔ ((aim.encounter.get seat).inCombat = true ∧
      (aim.encounter.get seat).dead = false) ∧ seat ∉ aim.exclude := by
  simp [isEligible, Character.isAlive]

theorem eligible_eq : aim.eligible = aim.standing := by
  unfold eligible standing contenders
  rw [List.filter_filter]
  refine List.filter_congr fun seat _ => ?_
  rw [Bool.eq_iff_iff, isEligible_iff, Bool.and_eq_true, decide_eq_true_iff, decide_eq_true_iff]
  exact ⟨fun ⟨⟨part, alive⟩, inside⟩ => ⟨alive, part, inside⟩,
    fun ⟨alive, part, inside⟩ => ⟨⟨part, alive⟩, inside⟩⟩

theorem deadMembers_eq : aim.deadMembers = aim.fallen := by
  unfold deadMembers fallen contenders
  rw [List.filter_filter]
  refine List.filter_congr fun seat _ => ?_
  rw [Bool.eq_iff_iff]
  simp
  tauto

theorem mem_seats (seat : Seat) : seat ∈ aim.seats ↔ seat.side = aim.party := by
  rcases seat with ⟨side, position⟩
  unfold seats
  cases position <;> simp [Position.all, eq_comm]

theorem mem_standing (seat : Seat) :
    seat ∈ aim.standing ↔ seat.side = aim.party ∧ aim.isEligible seat = true := by
  rw [← eligible_eq, eligible, List.mem_filter, mem_seats]

theorem filter_isEligible (order : List Position) :
    (order.map (Seat.mk aim.party)).filter aim.isEligible =
      (order.map (Seat.mk aim.party)).filter (· ∈ aim.standing) := by
  refine List.filter_congr fun seat mem => ?_
  obtain ⟨position, -, rfl⟩ := List.mem_map.mp mem
  rw [Bool.eq_iff_iff, decide_eq_true_iff, mem_standing]
  exact ⟨fun eligible => ⟨rfl, eligible⟩, And.right⟩

theorem positional_eq (position : Position) :
    aim.positional position = aim.firstOf position.fallback := by
  unfold positional firstOf
  rw [← filter_isEligible, ← List.head?_filter]
  cases (position.fallback.map (Seat.mk aim.party)).filter aim.isEligible <;> rfl

theorem cleave_eq : ([Position.front, .center].map (Seat.mk aim.party)).filter aim.isEligible =
    aim.standing.filter (·.position ≠ .back) := by
  have pair : [Position.front, .center].map (Seat.mk aim.party) =
      aim.seats.filter (·.position ≠ .back) := rfl
  rw [← eligible_eq, eligible, pair, List.filter_comm]

theorem role_eq (role : Option Seat) : aim.role role = role.toList.filter fun seat =>
    aim.allowDead = true ∨ (aim.encounter.get seat).dead = false := by
  rw [Aim.role, Option.toList_filter]
  refine List.filter_congr fun seat _ => ?_
  rw [Bool.eq_iff_iff]
  simp [Character.isAlive]

theorem standing_append_fallen : (aim.standing ++ aim.fallen).Perm aim.contenders := by
  have fallen : aim.fallen = aim.contenders.filter fun seat =>
      !decide ((aim.encounter.get seat).dead = false) :=
    List.filter_congr fun seat _ => by cases (aim.encounter.get seat).dead <;> rfl
  rw [fallen]
  exact List.filter_append_perm ..

theorem standing_disjoint_fallen : aim.standing.Disjoint aim.fallen := by
  intro seat stands fell
  have alive := of_decide_eq_true (List.mem_filter.mp stands).2
  have dead := of_decide_eq_true (List.mem_filter.mp fell).2
  rw [alive] at dead
  cases dead

/-! ### Whether anyone is found -/

variable {aim}

theorem finds_toList {choice : Option Seat}
    (chosen : ∀ seat, choice = some seat → seat ∈ aim.standing)
    (missing : choice = none → aim.standing = []) : aim.Finds choice.toList where
  nobody nobody := by
    cases choice with
    | none => rfl
    | some seat => exact absurd (nobody ▸ chosen seat rfl) List.not_mem_nil
  somebody somebody := by
    cases choice with
    | none => exact absurd (missing rfl) somebody
    | some seat => exact ⟨seat, chosen seat rfl, rfl⟩

theorem finds_positional (position : Position) : aim.Finds (aim.positional position) := by
  refine finds_toList (fun seat found => ?_) fun missing => ?_
  · obtain ⟨_, -, rfl⟩ := List.mem_map.mp (List.mem_of_find?_eq_some found)
    exact (aim.mem_standing _).mpr ⟨rfl, List.find?_some found⟩
  · refine List.eq_nil_iff_forall_not_mem.mpr fun seat stands => ?_
    obtain ⟨here, eligible⟩ := (aim.mem_standing seat).mp stands
    refine List.find?_eq_none.mp missing seat ?_ eligible
    refine List.mem_map.mpr ⟨seat.position, ?_, by rw [← here]⟩
    cases position <;> cases seat.position <;> decide

/-! ### The draw -/

theorem drawOne_nobody (nobody : aim.standing = []) (random : RandomSource) :
    aim.drawOne random = ([], random) := by
  unfold drawOne
  rw [eligible_eq, nobody]

theorem drawOne_somebody (somebody : aim.standing ≠ []) (random : RandomSource) :
    aim.drawOne random = (aim.standing[(random.below aim.standing.length).1]?.toList,
      (random.below aim.standing.length).2) := by
  unfold drawOne
  rw [eligible_eq]
  split
  · contradiction
  · rfl

theorem finds_drawOne (random : RandomSource) : aim.Finds (aim.drawOne random).1 where
  nobody nobody := by rw [drawOne_nobody nobody]
  somebody somebody := by
    have within := random.below_lt (List.length_pos_iff.mpr somebody)
    rw [drawOne_somebody somebody, List.getElem?_eq_getElem within]
    exact ⟨_, List.getElem_mem within, rfl⟩

end

/-! ### The least of several -/

theorem leastBy_mem {α : Type} {less : α → α → Bool} {key : Seat → α} {seats : List Seat}
    {least : Seat} (found : leastBy less key seats = some least) : least ∈ seats := by
  cases seats with
  | nil => cases found
  | cons seat rest =>
    refine Option.some.inj found ▸ ?_
    clear found
    induction rest generalizing seat with
    | nil => exact List.mem_singleton_self seat
    | cons next rest ih =>
      rw [List.foldl_cons]
      split
      · exact List.mem_cons_of_mem _ (ih next)
      · rcases List.mem_cons.mp (ih seat) with same | later
        · rw [same]
          exact List.mem_cons_self
        · exact List.mem_cons_of_mem _ (List.mem_cons_of_mem _ later)

theorem leastBy_none {α : Type} {less : α → α → Bool} {key : Seat → α} {seats : List Seat}
    (none : leastBy less key seats = none) : seats = [] := by
  cases seats with
  | nil => rfl
  | cons => cases none

theorem finds_lowest (α : Type) [Arithmetic α] (aim : Aim) : aim.Finds (aim.lowest α) := by
  refine finds_toList (fun seat found => ?_) fun missing => ?_
  · exact aim.eligible_eq ▸ leastBy_mem found
  · exact aim.eligible_eq ▸ leastBy_none missing

theorem FirstLeast.append {key : Seat → ℚ} {seats : List Seat} {least : Seat}
    (first : FirstLeast key seats least) (next : Seat) :
    FirstLeast key (seats ++ [next]) (if key next < key least then next else least) := by
  obtain ⟨early, late, rfl, above, atLeast⟩ := first
  split
  case isTrue below =>
    refine ⟨early ++ least :: late, [], rfl, fun other mem => ?_, nofun⟩
    rcases List.mem_append.mp mem with mem | mem
    · exact below.trans (above other mem)
    rcases List.mem_cons.mp mem with rfl | mem
    · exact below
    · exact below.trans_le (atLeast other mem)
  case isFalse notBelow =>
    -- of two seats alike the earlier one stays
    refine ⟨early, late ++ [next], by simp, above, fun other mem => ?_⟩
    rcases List.mem_append.mp mem with mem | mem
    · exact atLeast other mem
    · rw [List.mem_singleton.mp mem]
      exact not_lt.mp notBelow

theorem FirstLeast.foldl {key : Seat → ℚ} (rest : List Seat) :
    ∀ {seats : List Seat} {least : Seat}, FirstLeast key seats least →
      FirstLeast key (seats ++ rest) (rest.foldl
        (fun best next => if Arithmetic.less (key next) (key best) then next else best) least) := by
  induction rest with
  | nil =>
    intro seats least first
    rwa [List.append_nil]
  | cons next rest ih =>
    intro seats least first
    have step := ih (first.append next)
    rw [List.append_assoc, List.singleton_append] at step
    simpa only [List.foldl_cons, Arithmetic.less, decide_eq_true_eq] using step

theorem leastBy_first {key : Seat → ℚ} {seats : List Seat} {least : Seat}
    (found : leastBy Arithmetic.less key seats = some least) : FirstLeast key seats least := by
  cases seats with
  | nil => cases found
  | cons seat rest =>
    rw [← Option.some.inj found]
    exact FirstLeast.foldl rest ⟨[], [], rfl, nofun, nofun⟩

/-! ### The laws -/

theorem lawful (α : Type) [Arithmetic α] (aim : Aim) (random : RandomSource) :
    aim.Lawful random (aim.resolveIn α · random) where
  all := aim.eligible_eq
  dead := aim.deadMembers_eq
  apart := by
    change aim.eligible.Disjoint aim.deadMembers
    rw [eligible_eq, deadMembers_eq]
    exact aim.standing_disjoint_fallen
  together := by
    change (aim.eligible ++ aim.deadMembers).Perm aim.contenders
    rw [eligible_eq, deadMembers_eq]
    exact aim.standing_append_fallen
  front := aim.positional_eq .front
  center := aim.positional_eq .center
  back := aim.positional_eq .back
  cleave := aim.cleave_eq
  single := by
    simp only [List.forall_mem_cons]
    exact ⟨finds_positional .front, finds_positional .center, finds_positional .back,
      finds_lowest α aim, finds_drawOne random, nofun⟩
  roles := by
    simp only [List.forall_mem_cons]
    exact ⟨aim.role_eq aim.self, aim.role_eq aim.attacker, aim.role_eq aim.target, nofun⟩
  unnamed := ⟨rfl, rfl⟩
  distinct selector := aim.resolveIn_nodup α selector random
  drawn somebody := Prod.ext_iff.mp (drawOne_somebody somebody random)
  undrawn selector undrawn := by
    cases selector with
    | random =>
      have nobody := undrawn.resolve_left fun other => other rfl
      exact congrArg Prod.snd (drawOne_nobody nobody random)
    | _ => rfl

/-- Every selector chooses among the same seats, in binary64 and in exact fractions; in exact
fractions the lowest of them is the first whose part of its hitpoints left is least. -/
theorem resolve_lawful (aim : Aim) (random : RandomSource) :
    aim.Lawful random (aim.resolve · random) ∧ aim.Lawful random (aim.resolveIn ℚ · random) ∧
      ∀ seat, (aim.resolveIn ℚ .lowest random).1 = [seat] →
        FirstLeast (fun seat => (aim.encounter.get seat).vitality) aim.standing seat := by
  refine ⟨lawful Float aim random, lawful ℚ aim random, fun seat found => ?_⟩
  have least : (leastBy Arithmetic.less
      (fun seat => (aim.encounter.get seat).hitpointsFraction ℚ) aim.eligible).toList = [seat] :=
    found
  rw [Option.toList_eq_singleton_iff, eligible_eq] at least
  simpa only [Character.hitpointsFraction_eq] using leastBy_first least

/-- The front, lowest of all, is excluded; center and back have half of their hitpoints each. -/
def wounded : Aim where
  encounter :=
    let fighter (hitpoints greatest : Int) : Character :=
      { id := "f", name := "F", role := some "fighter", hitpoints,
        stats := ({} : StatBlock).insert StatBlock.hitpoints greatest }
    { heroes := ⟨fighter 1 40, fighter 5 10, fighter 20 40⟩
      enemies := ⟨.empty, .empty, .empty⟩ }
  party := .heroes
  exclude := [⟨.heroes, .front⟩]

theorem resolve_lawful_wounded :
    (wounded.resolveIn ℚ .lowest ⟨[], 0⟩).1 = [⟨.heroes, .center⟩] ∧
      FirstLeast (fun seat => (wounded.encounter.get seat).vitality) wounded.standing
        ⟨.heroes, .center⟩ := by
  have found : (wounded.resolveIn ℚ .lowest ⟨[], 0⟩).1 = [⟨.heroes, .center⟩] := by decide +kernel
  exact ⟨found, (resolve_lawful wounded ⟨[], 0⟩).2.2 _ found⟩

end Aim
end Combat
