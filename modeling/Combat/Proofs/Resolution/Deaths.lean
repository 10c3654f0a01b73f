import Combat.Proofs.Resolution.Account
import Combat.Proofs.Resolution.Pass

/-!
Deaths. The killing blows that outcomes record are the deaths by damage: each is the life of one
character that ended while one effect was resolved, whatever became of the character later.
-/

namespace Combat
open Checked

namespace Context

/-- The seats of those who lived before and lie dead after. -/
def deaths (before after : Context) : List Seat :=
  Seat.all.filter fun seat => !(before.get seat).dead && (after.get seat).dead

theorem deaths_nodup (before after : Context) : (before.deaths after).Nodup := by
  have once : Seat.all.Nodup := by decide
  exact once.filter _

theorem mem_deaths {before after : Context} {seat : Seat} :
    seat ∈ before.deaths after ↔
      (before.get seat).dead = false ∧ (after.get seat).dead = true := by
  simp [deaths, Seat.mem_all]

def SameLives (before after : Context) : Prop :=
  ∀ seat, (after.get seat).dead = (before.get seat).dead

theorem sameLives_setCharacter {ctx : Context} {seat : Seat} {c : Character}
    (life : c.dead = (ctx.get seat).dead) : SameLives ctx (ctx.setCharacter seat c) :=
  setCharacter_relates (R := fun c after => after.dead = c.dead) (fun _ => rfl) life

/-- Whoever died outside a stretch in which lives changed died within it. -/
theorem SameLives.deaths_eq {before opened closed after : Context}
    (opening : before.SameLives opened) (closing : closed.SameLives after) :
    before.deaths after = opened.deaths closed := by
  apply List.filter_congr
  intro seat _
  rw [opening seat, closing seat]

end Context

/-! ### What is recorded of deaths -/

def Change.killed? : Change → Option Seat
  | .damage seat _ true => some seat
  | _ => none

theorem Change.killed?_iff {change : Change} {seat : Seat} :
    change.killed? = some seat ↔ ∃ amount, change = .damage seat amount true := by
  constructor
  · intro h
    cases change with
    | damage target amount killing =>
      cases killing with
      | true =>
        cases h
        exact ⟨amount, rfl⟩
      | false => cases h
    | _ => cases h
  · rintro ⟨amount, rfl⟩
    rfl

/-- The targets of the killing blows. -/
def killed (outcomes : List Outcome) : List Seat :=
  (outcomes.flatMap (·.changes)).filterMap Change.killed?

theorem killed_append (first second : List Outcome) :
    killed (first ++ second) = killed first ++ killed second := by
  simp only [killed, List.flatMap_append, List.filterMap_append]

theorem mem_killed {outcome : Outcome} {seat : Seat} :
    seat ∈ killed [outcome] ↔ ∃ amount, .damage seat amount true ∈ outcome.changes := by
  rw [killed, List.flatMap_singleton, List.mem_filterMap]
  simp only [Change.killed?_iff]
  constructor
  · rintro ⟨_, recorded, amount, rfl⟩
    exact ⟨amount, recorded⟩
  · rintro ⟨amount, recorded⟩
    exact ⟨_, recorded, amount, rfl⟩

/-! ### Episodes -/

/-- One effect of a run, what came of it, and the contexts that it found and left. -/
structure Episode where
  effect : Effect
  before : Context
  outcome : Option Outcome
  after : Context

namespace Episode

/-- Whom the effect killed by damage. -/
def deaths (episode : Episode) : List Seat :=
  if episode.effect.type? = some .damage then episode.before.deaths episode.after else []

/-- The killing blows on record are the deaths. -/
def Told (episode : Episode) : Prop := episode.deaths.Perm (killed episode.outcome.toList)

end Episode

def outcomesOf (episodes : List Episode) : List Outcome := episodes.filterMap (·.outcome)

/-- Whom damage killed, once for every death. -/
def deathsOf (episodes : List Episode) : List Seat := episodes.flatMap (·.deaths)

/-- What is answered of episodes. -/
def answer {α : Type} (result : List Episode × α) : List Outcome × α :=
  (outcomesOf result.1, result.2)

theorem outcomesOf_append (early late : List Episode) :
    outcomesOf (early ++ late) = outcomesOf early ++ outcomesOf late := List.filterMap_append

theorem deathsOf_perm_killed {episodes : List Episode} (told : ∀ episode ∈ episodes, episode.Told) :
    (deathsOf episodes).Perm (killed (outcomesOf episodes)) := by
  induction episodes with
  | nil => exact .nil
  | cons episode rest ih =>
    rw [List.forall_mem_cons] at told
    have split : killed (outcomesOf (episode :: rest)) =
        killed episode.outcome.toList ++ killed (outcomesOf rest) := by
      rw [← killed_append, outcomesOf, List.filterMap_cons]
      cases episode.outcome <;> rfl
    rw [split]
    exact told.1.append (ih told.2)

section
variable {handlers : Handlers}

/-! ### Resolving effects -/

theorem Told.killing {target : Seat} {before after : Character} {type : EffectType}
    {changes : List Change} (h : Told target before after type changes) {seat : Seat} {amount : Int}
    (blow : .damage seat amount true ∈ changes) :
    type = .damage ∧ seat = target ∧ before.dead = false ∧ after.dead = true := by
  cases h with
  | damaged =>
    rw [List.mem_singleton, Change.damage.injEq] at blow
    obtain ⟨same, -, fatal⟩ := blow
    have life : before.dead = false ∧ after.dead = true := by simpa using fatal.symm
    exact ⟨rfl, same, life⟩
  | _ => simp at blow

theorem mem_killed_process {effect : Effect} {ctx after : Context} {outcome : Outcome}
    {seat : Seat} (builtin : handlers.AllBuiltin)
    (h : process handlers effect ctx = .ok (some outcome, after)) :
    seat ∈ killed [outcome] ↔ outcome.type = .damage ∧ seat ∈ ctx.deaths after := by
  rw [mem_killed, Context.mem_deaths]
  by_cases lands : outcome.type.targetsCharacters = true
  · obtain ⟨parts, recorded, told⟩ := process_told builtin h lands
    rw [recorded]
    constructor
    · rintro ⟨amount, blow⟩
      obtain ⟨target, hit, part⟩ := List.mem_flatMap.mp blow
      obtain ⟨typed, rfl, life⟩ := (told target hit).killing part
      exact ⟨typed, life⟩
    · rintro ⟨-, alive, dead⟩
      have hit : seat ∈ outcome.targets := by
        by_contra unlisted
        have untouched := (process_evolves builtin h).others seat (by simpa using unlisted)
        rw [untouched, alive] at dead
        cases dead
      obtain ⟨amount, part⟩ := (told seat hit).died alive dead
      exact ⟨amount, List.mem_flatMap.mpr ⟨seat, hit, part⟩⟩
  · -- An effect that lands on nobody records nothing of anybody.
    obtain ⟨-, -, impersonal⟩ := process_apart builtin h (Bool.eq_false_iff.mpr lands)
    constructor
    · rintro ⟨amount, blow⟩
      cases impersonal _ blow
    · rintro ⟨typed, -⟩
      rw [typed] at lands
      exact absurd rfl lands

theorem killed_damage_nodup {targets : List Seat} (distinct : targets.Nodup) (amount : Seat → Int)
    (killing : Seat → Bool) :
    ((targets.map fun seat => Change.damage seat (amount seat) (killing seat)).filterMap
      Change.killed?).Nodup := by
  have same : (targets.map fun seat => Change.damage seat (amount seat) (killing seat)).filterMap
      Change.killed? = targets.filter killing := by
    rw [List.filterMap_map, ← List.filterMap_eq_filter]
    refine List.filterMap_congr fun seat _ => ?_
    cases fatal : killing seat <;> simp [Change.killed?, Option.guard, fatal]
  rw [same]
  exact distinct.filter _

theorem killed_process_nodup {effect : Effect} {ctx after : Context} {outcome : Outcome}
    (builtin : handlers.AllBuiltin) (h : process handlers effect ctx = .ok (some outcome, after)) :
    (killed [outcome]).Nodup := by
  by_cases damage : outcome.type = .damage
  · have lands : outcome.type.targetsCharacters = true := by rw [damage]; rfl
    obtain ⟨parts, recorded, told⟩ := process_told builtin h lands
    rw [damage] at told
    rw [killed, List.flatMap_singleton, recorded,
      flatMap_singletons fun target hit => (told target hit).damage_eq]
    exact killed_damage_nodup (process_distinct h) _ _
  · have none : killed [outcome] = [] := by
      refine List.eq_nil_iff_forall_not_mem.mpr fun seat died => ?_
      exact damage ((mem_killed_process builtin h).mp died).1
    rw [none]
    exact .nil

theorem process_episode {effect : Effect} {ctx after : Context} {outcome : Option Outcome}
    (builtin : handlers.AllBuiltin) (h : process handlers effect ctx = .ok (outcome, after)) :
    (Episode.mk effect ctx outcome after).Told := by
  unfold Episode.Told Episode.deaths
  dsimp only
  cases outcome with
  | none =>
    have none : ctx.deaths after = [] := by
      apply List.filter_eq_nil_iff.mpr
      intro seat _
      rw [(process_evolves builtin h).others seat List.not_mem_nil]
      simp
    rw [none, ite_self]
    exact .nil
  | some result =>
    have died : ∀ seat, seat ∈ killed [result] ↔
        result.type = .damage ∧ seat ∈ ctx.deaths after :=
      fun _ => mem_killed_process builtin h
    rw [process_type h, Option.toList_some]
    split
    · rename_i damage
      refine (List.perm_ext_iff_of_nodup (Context.deaths_nodup ..)
        (killed_process_nodup builtin h)).mpr fun seat => ?_
      rw [died, Option.some.inj damage]
      exact (and_iff_right rfl).symm
    · rename_i other
      have none : killed [result] = [] := by
        refine List.eq_nil_iff_forall_not_mem.mpr fun seat killed => ?_
        exact other (congrArg some ((died seat).mp killed).1)
      rw [none]

/-! ### Lists of effects -/

/-- The effects of a list, an episode each. -/
def episodes (handlers : Handlers) : List Effect → Context → Checked (List Episode × Context)
  | [], ctx => return ([], ctx)
  | effect :: rest, ctx => do
    let (outcome, after) ← process handlers effect ctx
    let (more, last) ← episodes handlers rest after
    return ({ effect, before := ctx, outcome, after } :: more, last)

theorem processEach_eq_episodes (effects : List Effect) (ctx : Context) :
    processEach handlers effects ctx =
      (fun result => (result.1.map (·.outcome), result.2)) <$> episodes handlers effects ctx := by
  induction effects generalizing ctx with
  | nil => rfl
  | cons effect rest ih =>
    simp only [processEach, episodes, ih, map_bind, bind_map_left, map_pure, List.map_cons]

theorem processAll_eq_episodes (effects : List Effect) (ctx : Context) :
    processAll handlers effects ctx = answer <$> episodes handlers effects ctx := by
  rw [processAll, processEach_eq_episodes, bind_map_left, ← bind_pure_comp]
  simp only [List.filterMap_map, answer, outcomesOf, Function.comp_def, id]

theorem episodes_told {effects : List Effect} {ctx last : Context} {taken : List Episode}
    (builtin : handlers.AllBuiltin) (h : episodes handlers effects ctx = .ok (taken, last)) :
    ∀ episode ∈ taken, episode.Told := by
  induction effects generalizing ctx taken with
  | nil =>
    obtain ⟨rfl, -⟩ := pair_ok h
    exact fun _ member => nomatch member
  | cons effect rest ih =>
    obtain ⟨⟨outcome, middle⟩, first, h⟩ := bind_ok h
    obtain ⟨⟨more, last⟩, later, h⟩ := bind_ok h
    obtain ⟨rfl, rfl⟩ := pair_ok h
    exact List.forall_mem_cons.mpr ⟨process_episode builtin first, ih later⟩

/-! ### Aura passes -/

namespace AuraPass
variable {owner : Seat} {source : String} {queued : QueuedEffect} {ctx after : Context}

theorem consume_sameLives {count : Count} (h : consume owner queued count ctx = .ok after) :
    ctx.SameLives after := by
  rw [consume_eq] at h
  obtain ⟨⟨_, c⟩, changed, h⟩ := bind_ok h
  obtain rfl := pure_ok h
  exact Context.sameLives_setCharacter (Character.withAuras_dead changed)

def Turn.episode (turn : Turn) : Episode :=
  { effect := turn.queued.effect, before := turn.before, outcome := turn.outcome
    after := turn.after }

theorem Firing.told {slot : AuraSlot} {outcome : Option Outcome} {drawn : Int}
    {drained : Character} {resolved counted : Context} (builtin : handlers.AllBuiltin)
    (h : Firing handlers owner source queued slot ctx outcome after drawn drained resolved
      counted) :
    (Episode.mk queued.effect ctx outcome after).Told := by
  -- Drawing and consuming change auras, so whoever dies does so while the effect is resolved.
  have opening : ctx.SameLives (opened owner slot drained ctx) :=
    Context.sameLives_setCharacter (Character.withAuras_dead h.drew)
  have closing : resolved.SameLives after := by
    intro seat
    have consuming := h.consuming
    have same : counted.get seat = resolved.get seat := by
      rw [h.counted_rest]
      rfl
    split at consuming
    · rw [consume_sameLives consuming seat, same]
    · obtain rfl := Except.ok.inj consuming
      rw [same]
  have resolving := process_episode builtin h.resolving
  unfold Episode.Told Episode.deaths at resolving ⊢
  rw [fired_type] at resolving
  dsimp only at resolving ⊢
  rw [opening.deaths_eq closing]
  exact resolving

theorem TurnCase.told {outcome : Option Outcome} (builtin : handlers.AllBuiltin)
    (h : TurnCase handlers owner source queued ctx outcome after) :
    (Episode.mk queued.effect ctx outcome after).Told := by
  have still : ∀ outcome : Option Outcome, killed outcome.toList = [] →
      (Episode.mk queued.effect ctx outcome ctx).Told := by
    intro outcome silent
    have none : ctx.deaths ctx = [] := List.filter_eq_nil_iff.mpr (by simp)
    rw [Episode.Told, Episode.deaths, silent, none, ite_self]
  cases h with
  | skipped => exact still none rfl
  | stopped =>
    refine still _ ?_
    cases queued.effect.type? <;> rfl
  | fires _ _ _ firing => exact firing.told builtin

/-- The turns of a pass, an episode each. -/
def passEpisodes (handlers : Handlers) (owner : Seat) (trigger : Trigger) (ctx : Context) :
    Checked (List Episode × Context) :=
  (fun result => (result.1.map Turn.episode, leave ctx result.2)) <$>
    turnsOf handlers owner trigger ctx

theorem triggerAuras_eq_passEpisodes (owner : Seat) (trigger : Trigger) (ctx : Context) :
    triggerAuras handlers owner trigger ctx =
      answer <$> passEpisodes handlers owner trigger ctx := by
  rw [triggerAuras_eq_turnsOf, passEpisodes, Functor.map_map]
  simp only [answer, outcomesOf, List.filterMap_map]
  rfl

theorem passEpisodes_told {trigger : Trigger} {last : Context} {taken : List Episode}
    (builtin : handlers.AllBuiltin)
    (h : passEpisodes handlers owner trigger ctx = .ok (taken, last)) :
    ∀ episode ∈ taken, episode.Told := by
  obtain ⟨⟨turns, _⟩, ran, h⟩ := map_ok h
  obtain ⟨rfl, -⟩ := Prod.mk.inj h
  intro episode member
  obtain ⟨turn, listed, rfl⟩ := List.mem_map.mp member
  exact (turns_turnCase ran turn listed).told builtin

end AuraPass
end
end Combat
