import Combat.Proofs.Resolution.Deaths
import Combat.Skirmish.Battle

/-!
The course of a skirmish. A skirmish is a sequence of parts: openings, the drill, aura passes, turns
and what is written down between them. Each part that is played makes a scene, with the effects that
it resolves; played one after another, the parts make the skirmish.
-/

namespace Combat
open Checked

namespace Battle

/-! ### Resolving, told effect by effect -/

def watch (roles : Context → Context) (resolve : Context → Checked (List Episode × Context))
    (battle : Battle) : Checked (List Episode × Battle) := do
  let (episodes, after) ← resolve (roles battle.ctx)
  let ctx := { after with source := none, attacker := none }
  return (episodes, { battle with ctx }.record (.resolved (outcomesOf episodes)))

theorem act_eq_watch {roles : Context → Context}
    {resolve : Context → Checked (List Outcome × Context)}
    {watched : Context → Checked (List Episode × Context)}
    (same : ∀ ctx, resolve ctx = answer <$> watched ctx) (battle : Battle) :
    battle.act roles resolve = answer <$> battle.watch roles watched := by
  rw [act, watch, same, bind_map_left, map_bind]
  rfl

def watchEffects (source : Seat) (effects : List Effect) (battle : Battle) :
    Checked (List Episode × Battle) :=
  battle.watch (asSource source) (episodes .builtin effects)

theorem useEffects_eq_watch (source : Seat) (effects : List Effect) (battle : Battle) :
    battle.useEffects source effects = answer <$> battle.watchEffects source effects :=
  act_eq_watch (processAll_eq_episodes effects) battle

def watchTrigger (owner : Seat) (trigger : Trigger) (battle : Battle) :
    Checked (List Episode × Battle) :=
  battle.watch id (AuraPass.passEpisodes .builtin owner trigger)

theorem trigger_eq_watch (owner : Seat) (trigger : Trigger) (battle : Battle) :
    battle.trigger owner trigger = answer <$> battle.watchTrigger owner trigger :=
  act_eq_watch (AuraPass.triggerAuras_eq_passEpisodes owner trigger) battle

/-- Aura passes on one seat after another. -/
def watchTriggers (trigger : Trigger) : List Seat → Battle → Checked (List Episode × Battle)
  | [], battle => return ([], battle)
  | seat :: rest, battle => do
    let (first, battle) ← battle.watchTrigger seat trigger
    let (more, battle) ← watchTriggers trigger rest battle
    return (first ++ more, battle)

theorem triggerAll_eq_watch (trigger : Trigger) (battle : Battle) :
    battle.triggerAll trigger = (·.2) <$> watchTriggers trigger Seat.all battle := by
  rw [triggerAll]
  induction Seat.all generalizing battle with
  | nil => rfl
  | cons seat rest ih =>
    rw [List.foldlM_cons, trigger_eq_watch]
    simp only [ih, watchTriggers, map_bind, bind_map_left, map_pure, bind_assoc, pure_bind, answer]
    simp only [bind_pure_comp]

def watchAbility (roster : Roster) (actor : Seat) (battle : Battle) :
    Checked (List Episode × Battle) := do
  let (id, random) ← ability roster actor battle.ctx.random
  let battle := { battle with ctx := { battle.ctx with random } }
  match id.bind roster.abilities.get? with
  | some effects => battle.watchEffects actor effects
  | none => return ([], battle)

theorem useAbility_eq_watch (roster : Roster) (actor : Seat) (battle : Battle) :
    battle.useAbility roster actor = answer <$> battle.watchAbility roster actor := by
  rw [useAbility, watchAbility, map_bind]
  apply bind_congr
  rintro ⟨id, random⟩
  dsimp only
  cases id.bind roster.abilities.get? with
  | none => rfl
  | some effects => exact useEffects_eq_watch ..

def watchReactions (attacker : Seat) : List Seat → Battle → Checked (List Episode × Battle)
  | [], battle => return ([], battle)
  | hit :: rest, battle => do
    let (first, battle) ← battle.watch (fun ctx => { ctx with attacker := some attacker })
      (AuraPass.passEpisodes .builtin hit .afterDamageReceived)
    let (more, battle) ← watchReactions attacker rest battle
    return (first ++ more, battle)

theorem react_eq_watch (attacker : Seat) (hit : List Seat) (battle : Battle) :
    react attacker hit battle = answer <$> watchReactions attacker hit battle := by
  induction hit generalizing battle with
  | nil => rfl
  | cons seat rest ih =>
    rw [react, watchReactions, act_eq_watch (AuraPass.triggerAuras_eq_passEpisodes seat _)]
    simp only [ih, map_bind, bind_map_left, map_pure, answer, outcomesOf_append]

/-! ### Turns -/

/-- Whether the turn is passed over. -/
def sitsOut (actor : Seat) (battle : Battle) : Bool :=
  battle.isFinished || !(battle.ctx.get actor).isAlive

/-- All that a turn resolves before loot is handed out: auras at its start, the ability, reactions
and auras at its end. -/
def phases (roster : Roster) (actor : Seat) (battle : Battle) :
    Checked (List Episode × Battle) := do
  let (started, battle) ← (battle.resetLimits .turn).watchTrigger actor .turnStart
  let (used, battle) ←
    if (battle.ctx.get actor).isAlive then battle.watchAbility roster actor else pure ([], battle)
  let (reacted, battle) ←
    watchReactions actor (damaged false (outcomesOf (started ++ used))) battle
  let (ended, battle) ← battle.watchTrigger actor .turnEnd
  return (started ++ used ++ reacted ++ ended, battle)

def watchTurn (roster : Roster) (actor : Seat) (battle : Battle) :
    Checked (List Episode × Battle) :=
  if battle.sitsOut actor then return ([], battle)
  else do
    let (episodes, closed) ← battle.phases roster actor
    let last ← closed.loot roster (damaged true (outcomesOf episodes))
    return (episodes, last.flush)

theorem turn_eq_watch (roster : Roster) (actor : Seat) (battle : Battle) :
    battle.turn roster actor = (·.2) <$> battle.watchTurn roster actor := by
  rw [turn, watchTurn, sitsOut]
  split
  · rfl
  · rw [phases, trigger_eq_watch, bind_map_left, bind_assoc, map_bind]
    apply bind_congr
    rintro ⟨started, opened⟩
    dsimp only [answer]
    have ability : (if (opened.ctx.get actor).isAlive then opened.useAbility roster actor
        else pure ([], opened)) =
        answer <$> if (opened.ctx.get actor).isAlive then opened.watchAbility roster actor
          else pure ([], opened) := by
      split
      · exact useAbility_eq_watch ..
      · rfl
    rw [ite_bind, ite_bind, ability]
    simp only [trigger_eq_watch, react_eq_watch, map_bind, bind_map_left, map_pure, bind_assoc,
      pure_bind, answer, outcomesOf_append]

/-! ### Parts and scenes -/

/-- What is written down while nothing is resolved. -/
inductive Note where
  | begun
  /-- The messages of what was resolved before the first round. -/
  | ready
  | round (number : Nat)
  | standings
  | ended (rounds : Nat)

inductive Part where
  | note (entry : Note)
  /-- The hero in the seat uses its opening. -/
  | opening (seat : Seat) (hero : Hero)
  | drill
  /-- Aura passes on every seat. -/
  | auras (trigger : Trigger)
  | turn (actor : Seat)

def Note.write : Note → Battle → Battle
  | .begun, battle => battle.record .begun
  | .ready, battle => battle.flush
  | .round number, battle => (battle.record (.round number)).resetLimits .round
  | .standings, battle => (battle.flush.recordStandings .heroes).recordStandings .enemies
  | .ended rounds, battle => battle.close rounds

def Part.play (mastery : MasteryRegistry) (roster : Roster) :
    Part → Battle → Checked (List Episode × Battle)
  | .note entry, battle => return ([], entry.write battle)
  | .opening seat hero, battle => battle.watchEffects seat hero.opening
  | .drill, battle => battle.watchEffects ⟨.heroes, .front⟩ (drillEffects mastery)
  | .auras trigger, battle => watchTriggers trigger Seat.all battle
  | .turn actor, battle => battle.watchTurn roster actor

/-- A part as it was played: the effects that it resolved, loot apart, and the battles that it found
and left. -/
structure Scene where
  part : Part
  before : Battle
  episodes : List Episode
  after : Battle

/-- Plays the parts one after another. -/
def scenes (mastery : MasteryRegistry) (roster : Roster) :
    List Part → Battle → Checked (List Scene × Battle)
  | [], battle => return ([], battle)
  | part :: rest, battle => do
    let (episodes, after) ← part.play mastery roster battle
    let (more, last) ← scenes mastery roster rest after
    return ({ part, before := battle, episodes, after } :: more, last)

def Part.opened (roster : Roster) : List Part :=
  .note .begun :: ((seats .heroes).zip roster.heroes).map (fun (seat, hero) => .opening seat hero) ++
    [.drill, .auras .encounterStart, .note .ready]

def Part.round (number : Nat) : List Part :=
  .note (.round number) :: .auras .roundStart :: Seat.all.map .turn ++
    [.auras .roundEnd, .note .standings]

/-- The rounds after those played. -/
def Part.rounds (played count : Nat) : List Part :=
  (List.range' (played + 1) count).flatMap Part.round

/-- The parts of a skirmish of so many rounds. -/
def Part.all (roster : Roster) (rounds : Nat) : List Part :=
  Part.opened roster ++ Part.rounds 0 rounds ++ [.auras .encounterEnd, .note (.ended rounds)]

section
variable {mastery : MasteryRegistry} {roster : Roster}

/-- One part, without what it resolves. -/
def Part.perform (mastery : MasteryRegistry) (roster : Roster) (battle : Battle) (part : Part) :
    Checked Battle :=
  (·.2) <$> part.play mastery roster battle

theorem scenes_eq_foldlM (parts : List Part) (battle : Battle) :
    (·.2) <$> scenes mastery roster parts battle =
      parts.foldlM (Part.perform mastery roster) battle := by
  induction parts generalizing battle with
  | nil => rfl
  | cons part rest ih =>
    rw [List.foldlM_cons, Part.perform, bind_map_left, scenes, map_bind]
    apply bind_congr
    rintro ⟨episodes, after⟩
    rw [← ih, map_bind, ← bind_pure_comp]
    rfl

/-! ### The parts of a skirmish -/

theorem useOpenings_eq_foldlM (openings : List (Seat × Hero)) (battle : Battle) :
    battle.useOpenings openings =
      (openings.map fun (seat, hero) => Part.opening seat hero).foldlM
        (Part.perform mastery roster) battle := by
  induction openings generalizing battle with
  | nil => rfl
  | cons opening rest ih =>
    rw [List.map_cons, List.foldlM_cons, useOpenings, useEffects_eq_watch, bind_map_left,
      Part.perform, Part.play, bind_map_left]
    apply bind_congr
    intro result
    exact ih result.2

theorem perform_note (entry : Note) (battle : Battle) :
    Part.perform mastery roster battle (.note entry) = pure (entry.write battle) := rfl

theorem perform_auras (trigger : Trigger) (battle : Battle) :
    Part.perform mastery roster battle (.auras trigger) = battle.triggerAll trigger :=
  (triggerAll_eq_watch trigger battle).symm

theorem perform_turn (actor : Seat) (battle : Battle) :
    Part.perform mastery roster battle (.turn actor) = battle.turn roster actor :=
  (turn_eq_watch roster actor battle).symm

theorem perform_drill (battle : Battle) :
    Part.perform mastery roster battle .drill =
      (·.2) <$> battle.useEffects ⟨.heroes, .front⟩ (drillEffects mastery) := by
  rw [useEffects_eq_watch, Functor.map_map]
  rfl

theorem start_eq_foldlM (battle : Battle) :
    battle.start mastery roster =
      (Part.opened roster).foldlM (Part.perform mastery roster) battle := by
  rw [start, Part.opened, List.cons_append, List.foldlM_cons, perform_note, pure_bind,
    List.foldlM_append, useOpenings_eq_foldlM]
  apply bind_congr
  intro opened
  simp only [List.foldlM_cons, List.foldlM_nil, perform_drill, perform_auras, perform_note,
    bind_map_left, bind_pure]
  rfl

theorem playRound_eq_foldlM (number : Nat) (battle : Battle) :
    battle.playRound roster number =
      (Part.round number).foldlM (Part.perform mastery roster) battle := by
  have turns (battle : Battle) :
      (Seat.all.map Part.turn).foldlM (Part.perform mastery roster) battle =
        Seat.all.foldlM (fun battle seat => battle.turn roster seat) battle := by
    rw [List.foldlM_map]
    simp only [perform_turn]
  rw [playRound, Part.round, List.cons_append, List.cons_append, List.foldlM_cons, perform_note,
    pure_bind, List.foldlM_cons, perform_auras]
  apply bind_congr
  intro opened
  rw [List.foldlM_append, turns]
  apply bind_congr
  intro played
  simp only [List.foldlM_cons, List.foldlM_nil, perform_auras, perform_note, bind_pure]
  rfl

/-- As many rounds as are played, and no more than may be. -/
theorem playRounds_foldlM (mastery : MasteryRegistry) {left played rounds : Nat}
    {battle after : Battle} (h : playRounds roster left played battle = .ok (rounds, after)) :
    ∃ count, count ≤ left ∧ rounds = played + count ∧
      (Part.rounds played count).foldlM (Part.perform mastery roster) battle = .ok after := by
  induction left generalizing played battle with
  | zero =>
    obtain ⟨rfl, rfl⟩ := pair_ok h
    exact ⟨0, Nat.le_refl _, rfl, rfl⟩
  | succ left ih =>
    unfold playRounds at h
    split at h
    · obtain ⟨rfl, rfl⟩ := pair_ok h
      exact ⟨0, Nat.zero_le _, rfl, rfl⟩
    · obtain ⟨next, round, h⟩ := bind_ok h
      obtain ⟨count, few, rfl, later⟩ := ih h
      refine ⟨count + 1, by omega, by omega, ?_⟩
      rw [playRound_eq_foldlM] at round
      rw [Part.rounds, List.range'_succ, List.flatMap_cons, List.foldlM_append, round]
      exact later

theorem finish_eq_foldlM (mastery : MasteryRegistry) (roster : Roster) (rounds : Nat)
    (battle : Battle) :
    battle.finish rounds =
      [Part.auras .encounterEnd, .note (.ended rounds)].foldlM (Part.perform mastery roster)
        battle := by
  simp only [List.foldlM_cons, List.foldlM_nil, perform_auras, perform_note, bind_pure]
  rfl

theorem finish_ended {rounds : Nat} {battle last : Battle} (h : battle.finish rounds = .ok last) :
    ∃ verdict, .ended verdict rounds ∈ last.events := by
  obtain ⟨closing, -, h⟩ := bind_ok h
  obtain rfl := pure_ok h
  refine ⟨(closing.resetLimits .combat).flush.verdict, ?_⟩
  exact List.mem_append_left _ (List.mem_append_right _ (List.mem_singleton_self _))

/-- A skirmish plays its parts, and ends with a verdict after its rounds. -/
theorem play_scenes {battle last : Battle} (h : battle.play mastery roster = .ok last) :
    ∃ rounds verdict taken, rounds ≤ maxRounds ∧
      scenes mastery roster (Part.all roster rounds) battle = .ok (taken, last) ∧
      .ended verdict rounds ∈ last.events := by
  obtain ⟨opened, starting, h⟩ := bind_ok h
  obtain ⟨⟨rounds, played⟩, playing, finishing⟩ := bind_ok h
  dsimp only at finishing
  obtain ⟨count, few, same, between⟩ := playRounds_foldlM mastery playing
  rw [Nat.zero_add] at same
  subst same
  obtain ⟨verdict, ended⟩ := finish_ended finishing
  rw [start_eq_foldlM] at starting
  rw [finish_eq_foldlM mastery roster] at finishing
  have whole : (Part.all roster rounds).foldlM (Part.perform mastery roster) battle =
      .ok last := by
    rw [Part.all, List.foldlM_append, List.foldlM_append, starting]
    change (Part.rounds 0 rounds).foldlM (Part.perform mastery roster) opened >>= _ = _
    rw [between]
    exact finishing
  rw [← scenes_eq_foldlM] at whole
  obtain ⟨⟨taken, _⟩, acted, rfl⟩ := map_ok whole
  exact ⟨rounds, verdict, taken, few, acted, ended⟩

end
end Battle
end Combat
