import Combat.Proofs.Binary64
import Combat.Proofs.Resolution.Account
import Combat.Proofs.Resolution.Pass
import Mathlib.Data.List.Forall2

/-!
The damage that aura effects deal. What is drawn from an aura scales with whoever applied it, but an
effect that deals a percentage of a stat is resolved with the carrier as its source, so the stat is
the carrier's.
-/

namespace Combat
open Checked

/-! ### Blows -/

/-- What a blow takes: no more than is left, and nothing from the dead. -/
def Character.loss (c : Character) (requested : Int) : Int :=
  if c.dead then 0 else min c.hitpoints (max requested 0)

theorem Character.takeDamage_loss {c after : Character} {requested : Int} {attacker : Option Seat}
    {blow : Blow} (h : c.takeDamage requested attacker = .ok (blow, after)) :
    blow.amount = c.loss requested := by
  unfold takeDamage at h
  unfold loss
  split at h
  · rename_i dead
    obtain ⟨rfl, -⟩ := pair_ok h
    rw [if_pos dead]
  · rename_i alive
    obtain ⟨left, subtracted, h⟩ := bind_ok h
    obtain ⟨lost, taken, h⟩ := bind_ok h
    obtain ⟨rfl, -⟩ := pair_ok h
    have remains := sub_ok subtracted
    have gone := sub_ok taken
    change lost = _
    rw [if_neg alive]
    omega

/-- What damage asks of each target: the amount, or that percentage of the stat it names. -/
def Handler.damageRequested (stat : Option String) (stats : StatBlock) (amount : Int) : Int :=
  match stat with
  | some stat => stats.value stat * amount / 100
  | none => amount

/-- So much is asked of each target in turn, and each loses what it has of that. -/
structure Context.Deals (ctx : Context) (requested : Int) (targets : List Seat)
    (changes : List Change) : Prop where
  asked : ∃ inside after, inside.encounter = ctx.encounter ∧
    Handler.forEach (Handler.damageOne requested) targets inside = .ok (changes, after)
  lost : List.Forall₂ (fun target change =>
    ∃ killing, change = .damage target ((ctx.get target).loss requested) killing) targets changes

namespace Handler
open Context

theorem damageOne_loss {requested : Int} {target : Seat} {ctx after : Context}
    {changes : List Change} (h : damageOne requested target ctx = .ok (changes, after)) :
    ∃ killing, changes = [.damage target ((ctx.get target).loss requested) killing] := by
  unfold damageOne at h
  obtain ⟨⟨blow, c⟩, taken, h⟩ := bind_ok h
  obtain ⟨rfl, -⟩ := pair_ok h
  exact ⟨blow.killing, by rw [Character.takeDamage_loss taken]⟩

/-- A blow lands on one target alone, so each loses what it would have lost at the start. -/
theorem forEach_lost {requested : Int} {targets : List Seat} {start ctx after : Context}
    {changes : List Change} (distinct : targets.Nodup)
    (same : ∀ target ∈ targets, ctx.get target = start.get target)
    (h : forEach (damageOne requested) targets ctx = .ok (changes, after)) :
    List.Forall₂ (fun target change =>
      ∃ killing, change = .damage target ((start.get target).loss requested) killing) targets
        changes := by
  induction targets generalizing ctx changes with
  | nil =>
    obtain ⟨rfl, -⟩ := pair_ok h
    exact .nil
  | cons target rest ih =>
    obtain ⟨⟨first, middle⟩, struck, h⟩ := bind_ok h
    obtain ⟨⟨more, last⟩, later, h⟩ := bind_ok h
    obtain ⟨rfl, rfl⟩ := pair_ok h
    obtain ⟨absent, distinct⟩ := List.nodup_cons.mp distinct
    obtain ⟨killing, rfl⟩ := damageOne_loss struck
    have still : ∀ other ∈ rest, middle.get other = start.get other := by
      intro other member
      have apart : other ∉ [target] := fun listed =>
        absent (List.mem_singleton.mp listed ▸ member)
      rw [(damageOne_evolves struck).others other apart]
      exact same other (List.mem_cons_of_mem _ member)
    have others := ih distinct still later
    rw [same target List.mem_cons_self]
    exact .cons ⟨killing, rfl⟩ others

theorem damageAmount_ok {effect : Effect} {stat : Option String} {ctx : Context} {stats : StatBlock}
    {requested : Int} (deals : effect.kind = .damage stat) (source : ctx.sourceStats = some stats)
    (h : damageAmount effect ctx = .ok requested) :
    requested = Handler.damageRequested stat stats (ctx.amount effect) := by
  unfold damageAmount at h
  rw [deals] at h
  cases stat with
  | none => exact (pure_ok h).symm
  | some stat =>
    dsimp only at h
    rw [source] at h
    unfold percentOf at h
    obtain ⟨product, multiplied, h⟩ := bind_ok h
    obtain rfl := pure_ok h
    rw [mul_ok multiplied]
    rfl

theorem damage_deals {effect : Effect} {stat : Option String} {targets : List Seat}
    {ctx after : Context} {stats : StatBlock} {changes : List Change}
    (deals : effect.kind = .damage stat) (source : ctx.sourceStats = some stats)
    (distinct : targets.Nodup) (h : damage effect targets ctx = .ok (changes, after)) :
    ctx.Deals (Handler.damageRequested stat stats (ctx.amount effect)) targets changes := by
  unfold damage at h
  obtain ⟨requested, asked, h⟩ := bind_ok h
  rw [← damageAmount_ok deals source asked]
  exact ⟨⟨ctx, after, rfl, h⟩, forEach_lost distinct (fun _ _ => rfl) h⟩

end Handler

theorem process_deals {handlers : Handlers} {effect : Effect} {stat : Option String}
    {ctx after : Context} {stats : StatBlock} {outcome : Outcome} (builtin : handlers.AllBuiltin)
    (deals : effect.kind = .damage stat) (source : ctx.sourceStats = some stats)
    (free : outcome.blocked = false)
    (h : process handlers effect ctx = .ok (some outcome, after)) :
    ctx.Deals (Handler.damageRequested stat stats (ctx.amount effect)) outcome.targets
      outcome.changes := by
  cases process_resolution h with
  | blocked => exact absurd free Bool.true_eq_false.mp
  | @resolved type _ _ _ _ typed known _ handling _ =>
    have damages : type = .damage := by
      rw [Effect.type?, deals] at typed
      exact (Option.some.inj typed).symm
    subst damages
    obtain rfl := builtin _ _ known
    have still : (ctx.seek .damage effect).2.sourceStats = some stats := by
      rw [Context.seek_rest]
      exact source
    have struck := Handler.damage_deals deals still (Context.seek_nodup ..) handling
    rw [Context.seek_rest] at struck
    exact ⟨struck.asked, struck.lost⟩

/-! ### Turns -/

namespace AuraPass
variable {handlers : Handlers} {owner : Seat} {source : String} {queued : QueuedEffect}
  {ctx after : Context}

/-- The amount with which an effect is resolved: what was drawn, as far as a float can tell, if the
effect names an amount or its aura stores one. -/
structure Carries (effect : Effect) (stored : Bool) (drawn amount : Int) : Prop where
  named : (effect.amount.isSome || stored) = true →
    amount = (Formula.flat (Float.ofInt drawn)).evaluate none
  exactly : (effect.amount.isSome || stored) = true → drawn.natAbs < 2 ^ 53 → amount = drawn
  unnamed : (effect.amount.isSome || stored) = false → amount = 0

theorem withAmount_amountValue (effect : Effect) (base : Float) (stats : Option StatBlock) :
    (effect.withAmount (.flat base)).amountValue stats = (Formula.flat base).evaluate none := rfl

theorem fired_carries (effect : Effect) (stored : Bool) (drawn : Int) (stats : Option StatBlock) :
    Carries effect stored drawn ((fired effect stored drawn).amountValue stats) := by
  have named : (effect.amount.isSome || stored) = true →
      (fired effect stored drawn).amountValue stats =
        (Formula.flat (Float.ofInt drawn)).evaluate none := fun named => by
    rw [fired, if_pos named, withAmount_amountValue]
  constructor
  case named => exact named
  case exactly =>
    intro names bound
    rw [named names, Formula.evaluate_flat bound]
  case unnamed =>
    intro unnamed
    have nothing : effect.amount = none := by
      rw [Bool.or_eq_false_iff, Option.isSome_eq_false_iff, Option.isNone_iff_eq_none] at unnamed
      exact unnamed.1
    rw [fired, if_neg (by rw [unnamed]; exact Bool.false_ne_true), Effect.amountValue, nothing,
      Option.map_none, Option.getD_none]

/-- The owner, as the source of what its auras do. -/
structure Attended (owner : Seat) (ctx : Context) : Prop where
  source : ctx.source = some owner
  inCombat : (ctx.get owner).inCombat = true
  uncredited : ctx.credited = none

theorem TurnCase.attended {outcome : Option Outcome} (builtin : handlers.AllBuiltin)
    (attended : Attended owner ctx) (h : TurnCase handlers owner source queued ctx outcome after) :
    Attended owner after := by
  have evolves := h.evolves builtin attended.uncredited
  constructor
  case source =>
    rw [evolves.rest]
    exact attended.source
  case inCombat =>
    rw [(evolves.acted owner).inCombat]
    exact attended.inCombat
  case uncredited =>
    rw [evolves.rest]
    exact attended.uncredited

/-- An effect of damage draws its amount from its slot, and with the stats that are read it deals
that, or that percentage of the stat it names, to each target. -/
def Turn.Strikes (owner : Seat) (turn : Turn) (stat : Option String) (outcome : Outcome)
    (reads : AuraSlot → Character → StatBlock) : Prop :=
  ∃ slot drawn drained amount,
    (turn.before.get owner).auras.slots[turn.queued.slot]? = some slot ∧
    turn.queued.isFrom slot = true ∧
    (turn.before.get owner).withAuras (·.draw turn.queued.slot turn.queued.effect
      (turn.queued.effect.amountValue (some (scalingStats owner slot turn.before)))) =
        .ok (drawn, drained) ∧
    Carries turn.queued.effect slot.amount.isSome drawn amount ∧
    (turn.before.setCharacter owner drained).Deals
      (Handler.damageRequested stat (reads slot drained) amount) outcome.targets outcome.changes

theorem Attended.sourceStats {drained : Character} (attended : Attended owner ctx)
    (becomes : (ctx.get owner).Becomes drained) (limits : Option LimitTracker)
    (credited : Option Seat) :
    Context.sourceStats { ctx.setCharacter owner drained with limits, credited } =
      some drained.stats := by
  have here : (ctx.encounter.set owner drained).get owner = drained := Encounter.get_set_self ..
  have fights : drained.inCombat = true := becomes.inCombat.trans attended.inCombat
  simp [Context.sourceStats, Context.sourceCharacter, Encounter.occupant, Context.setCharacter,
    attended.source, here, fights]

theorem TurnCase.strikes {turn : Turn} {stat : Option String} {outcome : Outcome}
    (builtin : handlers.AllBuiltin) (attended : Attended owner turn.before)
    (deals : turn.queued.effect.kind = .damage stat) (answered : turn.outcome = some outcome)
    (free : outcome.blocked = false)
    (h : TurnCase handlers owner source turn.queued turn.before turn.outcome turn.after) :
    turn.Strikes owner stat outcome fun _ drained => drained.stats := by
  rw [answered] at h
  generalize answer : some outcome = result at h
  generalize turn.after = after at h
  cases h with
  | skipped => cases answer
  | stopped =>
    obtain ⟨type, -, rfl⟩ := Option.map_eq_some_iff.mp answer.symm
    exact absurd free Bool.true_eq_false.mp
  | @fires slot _ drawn drained _ _ _ here waits _ firing =>
    subst answer
    have becomes : (turn.before.get owner).Becomes drained :=
      Character.withAuras_becomes
        (fun changed => .single (AuraSlots.Action.draw turn.queued.slot turn.queued.effect _)
          (snd_ok changed)) firing.drew
    -- the draw scaled with the applier, but the handler reads the stats of the pass's source
    have struck := process_deals builtin ((fired_kind ..).trans deals)
      (attended.sourceStats becomes none (creditedFor slot turn.before)) free firing.resolving
    exact ⟨slot, drawn, drained, _, here, waits, firing.drew, fired_carries ..,
      ⟨struck.asked, struck.lost⟩⟩

end AuraPass

/-- The amount of damage is drawn with the stats of whoever applied the aura, while that character
keeps its seat. A percentage of a stat is taken of the owner's value, whoever applied the aura. -/
theorem aura_damage_reads_owner {handlers : Handlers} {owner : Seat} {trigger : Trigger}
    {ctx after : Context} {outcomes : List Outcome} (builtin : handlers.AllBuiltin)
    (h : triggerAuras handlers owner trigger ctx = .ok (outcomes, after)) :
    ∃ turns last, AuraPass.turnsOf handlers owner trigger ctx = .ok (turns, last) ∧
      outcomes = turns.filterMap (·.outcome) ∧
      ∀ turn ∈ turns, ∀ stat outcome, turn.queued.effect.kind = .damage stat →
        turn.outcome = some outcome → outcome.blocked = false →
        turn.Strikes owner stat outcome fun _ drained => drained.stats := by
  rw [AuraPass.triggerAuras_eq_turnsOf] at h
  obtain ⟨⟨turns, last⟩, taken, h⟩ := map_ok h
  obtain ⟨rfl, -⟩ := Prod.mk.inj h
  refine ⟨turns, last, taken, rfl, fun turn member stat outcome deals answered free => ?_⟩
  have entry : turn.queued ∈ AuraPass.queue owner trigger ctx := by
    rw [← AuraPass.turns_queued taken]
    exact List.mem_map_of_mem member
  have fights := AuraPass.inCombat_of_mem_queue entry
  have start : AuraPass.Attended owner (AuraPass.enter owner ctx) := ⟨rfl, fights, rfl⟩
  have attended := (AuraPass.turns_keep (fun attended turnCase =>
    turnCase.attended builtin attended) start taken).1 turn member
  exact (AuraPass.turns_turnCase taken turn member).strikes builtin attended deals answered free

/-! A knight of little strength under the curse of a strong enemy. -/

namespace AuraPass

def strengthOf (strength : Int) : StatBlock :=
  (({} : StatBlock).insert "hitpoints" 100).insert "strength" strength

def curse : Effect :=
  { selfEffect (.damage (some "strength")) with amount := some (.flat 100) }

def cursed : QueuedEffect := ⟨0, ⟨0, { id := "curse", name := "Curse", effects := [curse] }⟩, curse⟩

def cursedContext : Context where
  encounter :=
    ⟨⟨{ id := "knight", name := "Knight", role := some "fighter", innate := strengthOf 10
        stats := strengthOf 10, hitpoints := 100
        auras := { slots := [.setAura cursed.held 1 none (some ⟨.enemies, .front⟩)] } },
        .empty, .empty⟩,
      ⟨{ id := "witch", name := "Witch", role := some "fighter", innate := strengthOf 50
         stats := strengthOf 50, hitpoints := 100 }, .empty, .empty⟩⟩
  content := { auras := {} }

/-- A hundred percent of ten, and not of fifty. -/
def cursedOutcome : Outcome :=
  { type := .damage, targets := [⟨.heroes, .front⟩]
    changes := [.damage ⟨.heroes, .front⟩ 10 false] }

theorem cursed_turn : ∃ turn last,
    turnsOf Handlers.builtin ⟨.heroes, .front⟩ .turnStart cursedContext = .ok ([turn], last) ∧
      turn.queued = cursed ∧ turn.before.encounter = cursedContext.encounter ∧
      turn.outcome = some cursedOutcome := by
  have told := Checked.holds_ok (P := fun result : List Turn × Context =>
      result.1.map (fun turn => (turn.queued, turn.before.encounter, turn.outcome)) =
        [(cursed, cursedContext.encounter, some cursedOutcome)])
    (x := turnsOf Handlers.builtin ⟨.heroes, .front⟩ .turnStart cursedContext)
    (by decide +kernel)
  obtain ⟨⟨turns, last⟩, taken, told⟩ := told
  obtain ⟨turn, rfl, entry⟩ := List.map_eq_singleton_iff.mp told
  obtain ⟨queued, entry⟩ := Prod.mk.inj entry
  obtain ⟨encounter, answered⟩ := Prod.mk.inj entry
  exact ⟨turn, last, taken, queued, encounter, answered⟩

end AuraPass

theorem aura_damage_reads_owner_cursed :
    Handlers.builtin.AllBuiltin ∧ ∃ outcomes after turn last,
      triggerAuras Handlers.builtin ⟨.heroes, .front⟩ .turnStart AuraPass.cursedContext =
        .ok (outcomes, after) ∧
      AuraPass.turnsOf Handlers.builtin ⟨.heroes, .front⟩ .turnStart AuraPass.cursedContext =
        .ok ([turn], last) ∧
      turn.outcome = some AuraPass.cursedOutcome ∧
      turn.Strikes ⟨.heroes, .front⟩ (some "strength") AuraPass.cursedOutcome
        fun _ drained => drained.stats := by
  obtain ⟨turn, last, taken, queued, -, answered⟩ := AuraPass.cursed_turn
  have passed : triggerAuras Handlers.builtin ⟨.heroes, .front⟩ .turnStart
      AuraPass.cursedContext =
        .ok ([turn].filterMap (·.outcome), AuraPass.leave AuraPass.cursedContext last) := by
    rw [AuraPass.triggerAuras_eq_turnsOf, taken]
    rfl
  obtain ⟨_, _, again, -, strikes⟩ := aura_damage_reads_owner Handlers.builtin_allBuiltin passed
  rw [taken] at again
  obtain ⟨rfl, rfl⟩ := Prod.mk.inj (Except.ok.inj again)
  have deals : turn.queued.effect.kind = .damage (some "strength") := by
    rw [queued]
    rfl
  exact ⟨Handlers.builtin_allBuiltin, _, _, turn, last, passed, taken, answered,
    strikes turn List.mem_cons_self _ _ deals answered rfl⟩

/-- The witch's strength would ask for fifty. -/
theorem aura_damage_reads_applier_not :
    ¬∀ (owner : Seat) (trigger : Trigger) (ctx last : Context) (turns : List AuraPass.Turn),
      AuraPass.turnsOf Handlers.builtin owner trigger ctx = .ok (turns, last) →
      ∀ turn ∈ turns, ∀ (stat : String) (outcome : Outcome) (slot : AuraSlot)
        (applier drained : Character) (drawn : Int),
        turn.queued.effect.kind = .damage (some stat) → turn.outcome = some outcome →
        outcome.blocked = false →
        (turn.before.get owner).auras.slots[turn.queued.slot]? = some slot →
        turn.before.encounter.occupant slot.source = some applier →
        (turn.before.get owner).withAuras (·.draw turn.queued.slot turn.queued.effect
          (turn.queued.effect.amountValue (some applier.stats))) = .ok (drawn, drained) →
        (turn.before.setCharacter owner drained).Deals (applier.stats.value stat * drawn / 100)
          outcome.targets outcome.changes := by
  intro reads
  obtain ⟨turn, last, taken, queued, encounter, answered⟩ := AuraPass.cursed_turn
  have knight : turn.before.get ⟨.heroes, .front⟩ =
      AuraPass.cursedContext.get ⟨.heroes, .front⟩ := by
    rw [Context.get, encounter]
    rfl
  have drew := Checked.holds_ok (P := fun result : Int × Character =>
      result.1 = 100 ∧ result.2.dead = false ∧ result.2.hitpoints = 100)
    (x := (AuraPass.cursedContext.get ⟨.heroes, .front⟩).withAuras
      (·.draw 0 AuraPass.curse (AuraPass.curse.amountValue (some (AuraPass.strengthOf 50)))))
    (by decide +kernel)
  obtain ⟨⟨_, drained⟩, drew, rfl, alive, hitpoints⟩ := drew
  have struck := reads ⟨.heroes, .front⟩ .turnStart _ _ _ taken turn List.mem_cons_self "strength"
    _ (.setAura AuraPass.cursed.held 1 none (some ⟨.enemies, .front⟩))
    (AuraPass.cursedContext.get ⟨.enemies, .front⟩) drained 100 (by rw [queued]; rfl) answered rfl
    (by rw [knight, queued]; rfl) (by rw [encounter]; rfl) (by rw [knight, queued]; exact drew)
  cases struck.lost with
  | cons first _ =>
    obtain ⟨killing, same⟩ := first
    rw [Context.get_setCharacter_self] at same
    have lost := (Change.damage.inj same).2.1
    have fifty : (AuraPass.cursedContext.get ⟨.enemies, .front⟩).stats.value "strength" = 50 := rfl
    rw [fifty, Character.loss, alive, hitpoints] at lost
    exact absurd lost (by decide)

end Combat
