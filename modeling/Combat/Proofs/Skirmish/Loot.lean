import Combat.Proofs.Skirmish.Course

/-!
Loot. An enemy that a turn kills leaves its loot once, at the end of the turn, however often it died
in it; and loot is handed out for no reason but a death.
-/

namespace Combat
open Checked

def Event.looted? : Event → Option Seat
  | .looted seat => some seat
  | _ => none

namespace Battle

/-- The enemies whose loot was handed out, once for each time. -/
def payments (battle : Battle) : List Seat := battle.events.filterMap Event.looted?

theorem payments_append {before after : Battle} {more : List Event}
    (added : after.events = before.events ++ more) (silent : ∀ event ∈ more, event.looted? = none) :
    after.payments = before.payments := by
  rw [payments, added, List.filterMap_append, List.filterMap_eq_nil_iff.mpr silent, List.append_nil]
  rfl

theorem payments_record (battle : Battle) (event : Event) (silent : event.looted? = none) :
    (battle.record event).payments = battle.payments :=
  payments_append rfl fun _ member => List.mem_singleton.mp member ▸ silent

theorem payments_flush (battle : Battle) : battle.flush.payments = battle.payments := by
  refine payments_append rfl fun event member => ?_
  obtain ⟨text, -, rfl⟩ := List.mem_map.mp member
  rfl

theorem Note.write_payments (entry : Note) (battle : Battle) :
    (entry.write battle).payments = battle.payments := by
  cases entry with
  | begun => exact payments_record battle _ rfl
  | ready => exact payments_flush battle
  | round number => exact payments_record battle _ rfl
  | standings =>
    exact ((payments_record _ _ rfl).trans (payments_record _ _ rfl)).trans (payments_flush battle)
  | ended rounds =>
    have noted := (payments_record _ (.ended (battle.resetLimits .combat).flush.verdict rounds)
      rfl).trans (payments_flush (battle.resetLimits .combat))
    refine (payments_append rfl fun event member => ?_).trans noted
    obtain ⟨gain, -, rfl⟩ := List.mem_map.mp member
    rfl

/-! ### What is resolved apart from loot -/

/-- From one battle to the next some effects were resolved. Their killing blows are on record, and
no loot was handed out. -/
structure Plain (before : Battle) (episodes : List Episode) (after : Battle) : Prop where
  told : ∀ episode ∈ episodes, episode.Told
  unpaid : after.payments = before.payments

theorem Plain.idle (battle : Battle) : Plain battle [] battle := ⟨List.forall_mem_nil _, rfl⟩

theorem Plain.trans {first second third : Battle} {early late : List Episode}
    (h₁ : Plain first early second) (h₂ : Plain second late third) :
    Plain first (early ++ late) third where
  told := List.forall_mem_append.mpr ⟨h₁.told, h₂.told⟩
  unpaid := h₂.unpaid.trans h₁.unpaid

section
variable {roster : Roster} {battle after : Battle} {episodes : List Episode}

theorem watch_plain {roles : Context → Context}
    {resolve : Context → Checked (List Episode × Context)}
    (told : ∀ {ctx episodes last}, resolve ctx = .ok (episodes, last) →
      ∀ episode ∈ episodes, episode.Told)
    (h : battle.watch roles resolve = .ok (episodes, after)) : Plain battle episodes after := by
  obtain ⟨⟨taken, last⟩, resolved, h⟩ := bind_ok h
  obtain ⟨rfl, rfl⟩ := pair_ok h
  exact ⟨told resolved, payments_record _ _ rfl⟩

theorem watchEffects_plain {source : Seat} {effects : List Effect}
    (h : battle.watchEffects source effects = .ok (episodes, after)) :
    Plain battle episodes after :=
  watch_plain (episodes_told Handlers.builtin_allBuiltin) h

theorem watchTrigger_plain {owner : Seat} {trigger : Trigger}
    (h : battle.watchTrigger owner trigger = .ok (episodes, after)) :
    Plain battle episodes after :=
  watch_plain (AuraPass.passEpisodes_told Handlers.builtin_allBuiltin) h

theorem watchTriggers_plain {trigger : Trigger} {seats : List Seat}
    (h : watchTriggers trigger seats battle = .ok (episodes, after)) :
    Plain battle episodes after := by
  induction seats generalizing battle episodes with
  | nil =>
    obtain ⟨rfl, rfl⟩ := pair_ok h
    exact .idle _
  | cons seat rest ih =>
    obtain ⟨⟨first, middle⟩, triggered, h⟩ := bind_ok h
    obtain ⟨⟨more, last⟩, later, h⟩ := bind_ok h
    obtain ⟨rfl, rfl⟩ := pair_ok h
    exact (watchTrigger_plain triggered).trans (ih later)

theorem watchAbility_plain {actor : Seat}
    (h : battle.watchAbility roster actor = .ok (episodes, after)) :
    Plain battle episodes after := by
  obtain ⟨⟨id, random⟩, -, h⟩ := bind_ok h
  have drawn : Plain battle [] { battle with ctx := { battle.ctx with random } } :=
    ⟨List.forall_mem_nil _, rfl⟩
  dsimp only at h
  split at h
  · exact drawn.trans (watchEffects_plain h)
  · obtain ⟨rfl, rfl⟩ := pair_ok h
    exact drawn

theorem watchReactions_plain {attacker : Seat} {hit : List Seat}
    (h : watchReactions attacker hit battle = .ok (episodes, after)) :
    Plain battle episodes after := by
  induction hit generalizing battle episodes with
  | nil =>
    obtain ⟨rfl, rfl⟩ := pair_ok h
    exact .idle _
  | cons seat rest ih =>
    obtain ⟨⟨first, middle⟩, triggered, h⟩ := bind_ok h
    obtain ⟨⟨more, last⟩, later, h⟩ := bind_ok h
    obtain ⟨rfl, rfl⟩ := pair_ok h
    have reacted : Plain battle first middle :=
      watch_plain (AuraPass.passEpisodes_told Handlers.builtin_allBuiltin) triggered
    exact reacted.trans (ih later)

theorem phases_plain {actor : Seat} (h : battle.phases roster actor = .ok (episodes, after)) :
    Plain battle episodes after := by
  obtain ⟨⟨started, opened⟩, starting, h⟩ := bind_ok h
  dsimp only at h
  rw [ite_bind] at h
  obtain ⟨⟨used, acted⟩, acting, h⟩ := bind_ok h
  obtain ⟨⟨reacted, answered⟩, reacting, h⟩ := bind_ok h
  obtain ⟨⟨ended, closed⟩, ending, h⟩ := bind_ok h
  obtain ⟨rfl, rfl⟩ := pair_ok h
  -- An actor that fell to its own auras uses no ability.
  have ability : Plain opened used acted := by
    split at acting
    · exact watchAbility_plain acting
    · obtain ⟨rfl, rfl⟩ := pair_ok acting
      exact .idle _
  have begun : Plain battle started opened := by
    obtain ⟨told, unpaid⟩ := watchTrigger_plain starting
    exact ⟨told, unpaid⟩
  exact ((begun.trans ability).trans (watchReactions_plain reacting)).trans
    (watchTrigger_plain ending)

end

/-! ### Whoever was killed -/

/-- Some seats and then others, as far as they are new. -/
def gather (seats more : List Seat) : List Seat :=
  more.foldl (fun seats seat => if seats.contains seat then seats else seats ++ [seat]) seats

theorem gather_once (more : List Seat) {seats : List Seat} (distinct : seats.Nodup) :
    (gather seats more).Nodup ∧ ∀ seat, seat ∈ gather seats more ↔ seat ∈ seats ∨ seat ∈ more := by
  induction more generalizing seats with
  | nil => simp [gather, distinct]
  | cons next rest ih =>
    rw [gather, List.foldl_cons]
    by_cases listed : next ∈ seats
    · rw [if_pos (by simpa using listed)]
      obtain ⟨nodup, member⟩ := ih distinct
      refine ⟨nodup, fun seat => ?_⟩
      rw [← gather, member, List.mem_cons]
      constructor
      · rintro (early | late)
        · exact .inl early
        · exact .inr (.inr late)
      · rintro (early | rfl | late)
        · exact .inl early
        · exact .inl listed
        · exact .inr late
    · rw [if_neg (by simpa using listed)]
      have fresh : (seats ++ [next]).Nodup := by
        rw [List.nodup_append]
        refine ⟨distinct, by simp, ?_⟩
        rintro seat member _ once rfl
        rw [List.mem_singleton] at once
        exact listed (once ▸ member)
      obtain ⟨nodup, member⟩ := ih fresh
      refine ⟨nodup, fun seat => ?_⟩
      rw [← gather, member, List.mem_append, List.mem_singleton, List.mem_cons, or_assoc]

theorem damaged_eq_gather (outcomes : List Outcome) :
    damaged true outcomes = gather [] (killed outcomes) := by
  rw [gather, killed, List.foldl_filterMap]
  refine congrArg (fun step => List.foldl step [] _) ?_
  funext seats change
  cases change with
  | damage target amount killing =>
    cases killing with
    | true => by_cases listed : target ∈ seats <;> simp [Change.killed?, listed]
    | false => rfl
  | _ => rfl

/-- Each once, however often it was killed. -/
theorem damaged_once (outcomes : List Outcome) :
    (damaged true outcomes).Nodup ∧
      ∀ seat, seat ∈ damaged true outcomes ↔ seat ∈ killed outcomes := by
  obtain ⟨distinct, member⟩ := gather_once (killed outcomes) List.nodup_nil
  rw [damaged_eq_gather]
  refine ⟨distinct, fun seat => ?_⟩
  rw [member]
  simp

/-! ### Handing out loot -/

/-- The loot lists of enemies are resolved one after another, each with its enemy as the source. -/
inductive Pays (roster : Roster) : List Seat → Battle → Battle → Prop where
  | nobody (battle : Battle) : Pays roster [] battle battle
  | next {seat : Seat} {rest : List Seat} {enemy : Enemy} {outcomes : List Outcome}
    {battle middle after : Battle} (side : seat.side = .enemies)
    (listed : roster.enemies[seat.position.index]? = some enemy)
    (looting : battle.useEffects seat enemy.loot = .ok (outcomes, middle))
    (others : Pays roster rest (middle.record (.looted seat)) after) :
    Pays roster (seat :: rest) battle after

theorem loot_pays {roster : Roster} {fallen : List Seat} {battle after : Battle}
    (three : roster.enemies.length = 3) (h : battle.loot roster fallen = .ok after) :
    Pays roster (fallen.filter (·.side = .enemies)) battle after := by
  induction fallen generalizing battle with
  | nil =>
    obtain rfl := pure_ok h
    exact .nobody _
  | cons seat rest ih =>
    unfold loot at h
    split at h
    · rename_i enemy side listed
      obtain ⟨⟨outcomes, middle⟩, looting, h⟩ := bind_ok h
      rw [List.filter_cons_of_pos (by simpa using side)]
      exact .next side listed looting (ih h)
    · rename_i other
      -- Each enemy's seat has an entry in the roster, so only heroes are passed over.
      have hero : seat.side ≠ .enemies := by
        intro side
        have bound : seat.position.index < roster.enemies.length := by
          rw [three]
          cases seat.position <;> decide
        exact other _ side (List.getElem?_eq_getElem bound)
      rw [List.filter_cons_of_neg (by simpa using hero)]
      exact ih h

theorem useEffects_payments {source : Seat} {effects : List Effect} {battle after : Battle}
    {outcomes : List Outcome} (h : battle.useEffects source effects = .ok (outcomes, after)) :
    after.payments = battle.payments := by
  rw [useEffects_eq_watch] at h
  obtain ⟨⟨taken, _⟩, watched, h⟩ := map_ok h
  obtain ⟨-, rfl⟩ := Prod.mk.inj h
  exact (watchEffects_plain watched).unpaid

theorem Pays.payments {roster : Roster} {paid : List Seat} {battle after : Battle}
    (h : Pays roster paid battle after) : after.payments = battle.payments ++ paid := by
  induction h with
  | nobody => exact (List.append_nil _).symm
  | @next seat rest _ _ battle middle _ side listed looting others ih =>
    have noted : (middle.record (.looted seat)).payments = battle.payments ++ [seat] := by
      rw [← useEffects_payments looting]
      simp [Battle.payments, record, Event.looted?]
    rw [ih, noted, List.append_assoc]
    rfl

/-! ### Scene by scene -/

/-- Whose loot was handed out in the scene, once for each time. -/
def Scene.paid (scene : Scene) : List Seat :=
  scene.after.payments.drop scene.before.payments.length

/-- What holds of loot in a scene. -/
structure Scene.Settled (roster : Roster) (scene : Scene) : Prop where
  recorded : scene.after.payments = scene.before.payments ++ scene.paid
  once : scene.paid.Nodup
  /-- Loot is handed out in turns only. -/
  only : scene.paid ≠ [] → ∃ actor, scene.part = .turn actor
  /-- In a turn that is passed over nothing happens. -/
  idle : ∀ actor, scene.part = .turn actor → scene.before.sitsOut actor = true →
    scene.episodes = [] ∧ scene.after = scene.before
  /-- In any other, after its phases, the loot lists of those who are paid for are resolved, one
  after another, and nothing else is. -/
  looted : ∀ actor, scene.part = .turn actor → scene.before.sitsOut actor = false →
    ∃ closed last, scene.before.phases roster actor = .ok (scene.episodes, closed) ∧
      Pays roster scene.paid closed last ∧ scene.after = last.flush
  /-- A turn pays for the enemies that damage killed in its phases. -/
  owed : ∀ actor, scene.part = .turn actor → ∀ seat,
    seat ∈ scene.paid ↔ seat.side = .enemies ∧ seat ∈ deathsOf scene.episodes

theorem Scene.paid_of_append {scene : Scene} {paid : List Seat}
    (recorded : scene.after.payments = scene.before.payments ++ paid) : scene.paid = paid := by
  rw [Scene.paid, recorded, List.drop_left]

theorem Scene.paid_eq_nil {scene : Scene} (unpaid : scene.after.payments = scene.before.payments) :
    scene.paid = [] := by
  rw [Scene.paid, unpaid, List.drop_length]

section
variable {mastery : MasteryRegistry} {roster : Roster}

theorem Scene.Settled.of_unpaid {scene : Scene}
    (unpaid : scene.after.payments = scene.before.payments)
    (between : ∀ actor, scene.part ≠ .turn actor) : scene.Settled roster := by
  have paid := Scene.paid_eq_nil unpaid
  constructor
  case recorded => rw [paid, unpaid, List.append_nil]
  case once =>
    rw [paid]
    exact .nil
  case only => exact fun pays => absurd paid pays
  case idle => exact fun actor turn => absurd turn (between actor)
  case looted => exact fun actor turn => absurd turn (between actor)
  case owed => exact fun actor turn => absurd turn (between actor)

theorem Scene.Settled.of_idle {actor : Seat} (battle : Battle)
    (idle : battle.sitsOut actor = true) :
    (Scene.mk (.turn actor) battle [] battle).Settled roster := by
  have paid : (Scene.mk (.turn actor) battle [] battle).paid = [] := Scene.paid_eq_nil rfl
  constructor
  case recorded => rw [paid, List.append_nil]
  case once =>
    rw [paid]
    exact .nil
  case only => exact fun _ => ⟨actor, rfl⟩
  case idle => exact fun _ _ _ => ⟨rfl, rfl⟩
  case looted =>
    rintro other ⟨⟩ playing
    rw [idle] at playing
    cases playing
  case owed =>
    intro other _ seat
    rw [paid]
    simp [deathsOf]

theorem Scene.Settled.of_looted {actor : Seat} {battle closed last : Battle}
    {episodes : List Episode} (three : roster.enemies.length = 3)
    (playing : battle.sitsOut actor = false)
    (phases : battle.phases roster actor = .ok (episodes, closed))
    (looting : closed.loot roster (damaged true (outcomesOf episodes)) = .ok last) :
    (Scene.mk (.turn actor) battle episodes last.flush).Settled roster := by
  have plain := phases_plain phases
  have pays := loot_pays three looting
  have recorded : last.flush.payments = battle.payments ++
      (damaged true (outcomesOf episodes)).filter (·.side = .enemies) := by
    rw [payments_flush, pays.payments, plain.unpaid]
  have paid : (Scene.mk (.turn actor) battle episodes last.flush).paid =
      (damaged true (outcomesOf episodes)).filter (·.side = .enemies) := paid_of_append recorded
  obtain ⟨distinct, member⟩ := damaged_once (outcomesOf episodes)
  constructor
  case recorded => rw [paid, recorded]
  case once =>
    rw [paid]
    exact distinct.filter _
  case only => exact fun _ => ⟨actor, rfl⟩
  case idle =>
    rintro other ⟨⟩ idle
    rw [idle] at playing
    cases playing
  case looted =>
    rintro other ⟨⟩ -
    refine ⟨closed, last, phases, ?_, rfl⟩
    rw [paid]
    exact pays
  case owed =>
    intro other _ seat
    -- The list that is paid through is that of the killing blows, and those are the deaths.
    rw [paid, List.mem_filter, member, ← (deathsOf_perm_killed plain.told).mem_iff,
      decide_eq_true_eq, and_comm]

theorem Part.settled {part : Part} {battle after : Battle} {episodes : List Episode}
    (three : roster.enemies.length = 3)
    (h : part.play mastery roster battle = .ok (episodes, after)) :
    (Scene.mk part battle episodes after).Settled roster := by
  cases part with
  | note entry =>
    obtain ⟨-, rfl⟩ := pair_ok h
    exact .of_unpaid (entry.write_payments battle) nofun
  | opening seat hero => exact .of_unpaid (watchEffects_plain h).unpaid nofun
  | drill => exact .of_unpaid (watchEffects_plain h).unpaid nofun
  | auras trigger => exact .of_unpaid (watchTriggers_plain h).unpaid nofun
  | turn actor =>
    change battle.watchTurn roster actor = _ at h
    unfold watchTurn at h
    split at h
    · rename_i idle
      obtain ⟨rfl, rfl⟩ := pair_ok h
      exact .of_idle battle idle
    · rename_i playing
      obtain ⟨⟨taken, closed⟩, phases, h⟩ := bind_ok h
      obtain ⟨last, looting, h⟩ := bind_ok h
      obtain ⟨rfl, rfl⟩ := pair_ok h
      exact .of_looted three (Bool.eq_false_iff.mpr playing) phases looting

theorem scenes_settled {parts : List Part} {battle last : Battle} {taken : List Scene}
    (three : roster.enemies.length = 3)
    (h : scenes mastery roster parts battle = .ok (taken, last)) :
    (∀ scene ∈ taken, scene.Settled roster) ∧
      last.payments = battle.payments ++ taken.flatMap (·.paid) := by
  induction parts generalizing battle taken with
  | nil =>
    obtain ⟨rfl, rfl⟩ := pair_ok h
    exact ⟨List.forall_mem_nil _, (List.append_nil _).symm⟩
  | cons part rest ih =>
    obtain ⟨⟨episodes, after⟩, played, h⟩ := bind_ok h
    obtain ⟨⟨more, _⟩, later, h⟩ := bind_ok h
    obtain ⟨rfl, rfl⟩ := pair_ok h
    have settled := Part.settled three played
    obtain ⟨others, payments⟩ := ih later
    refine ⟨List.forall_mem_cons.mpr ⟨settled, others⟩, ?_⟩
    rw [payments, List.flatMap_cons, ← List.append_assoc]
    exact congrArg (· ++ _) settled.recorded

end
end Battle

/-! ### Whole skirmishes -/

namespace Roster
variable {roster : Roster} {content : Content} {mastery : MasteryRegistry} {random : RandomSource}

theorem lineUp_ok {first : Battle} (h : roster.lineUp content random = .ok (.ok first)) :
    roster.enemies.length = 3 ∧ first.events = [] := by
  unfold lineUp at h
  split at h
  · rename_i heroes enemies
    obtain ⟨party, _, h⟩ := bind_ok (Except.ok.inj h)
    obtain ⟨opponents, _, h⟩ := bind_ok h
    obtain rfl := pure_ok h
    exact ⟨by rw [enemies]; rfl, rfl⟩
  · cases h

theorem skirmish_ok {last : Battle}
    (h : roster.skirmish content mastery random = .ok (.ok last)) :
    ∃ first, roster.lineUp content random = .ok (.ok first) ∧
      first.play mastery roster = .ok last := by
  unfold skirmish at h
  cases lined : roster.lineUp content random with
  | error fault =>
    rw [lined] at h
    cases h
  | ok fight =>
    rw [lined] at h
    obtain ⟨first, rfl, played⟩ := bind_ok (Except.ok.inj h)
    exact ⟨first, rfl, played⟩

end Roster

/-- Scene by scene of a skirmish: each turn hands out the loot of the enemies that damage killed in
its phases, once for each however often it died, and loot is handed out for nothing else. -/
theorem Roster.loot_answers_deaths {roster : Roster} {content : Content}
    {mastery : MasteryRegistry} {random : RandomSource} {last : Battle}
    (h : roster.skirmish content mastery random = .ok (.ok last)) :
    ∃ first rounds verdict scenes,
      roster.lineUp content random = .ok (.ok first) ∧
      Battle.scenes mastery roster (Battle.Part.all roster rounds) first = .ok (scenes, last) ∧
      rounds ≤ Battle.maxRounds ∧ .ended verdict rounds ∈ last.events ∧
      last.payments = scenes.flatMap (·.paid) ∧
      ∀ scene ∈ scenes, scene.Settled roster := by
  obtain ⟨first, lined, played⟩ := skirmish_ok h
  obtain ⟨three, blank⟩ := lineUp_ok lined
  obtain ⟨rounds, verdict, scenes, few, acted, ended⟩ := Battle.play_scenes played
  obtain ⟨settled, payments⟩ := Battle.scenes_settled three acted
  have none : first.payments = [] := by rw [Battle.payments, blank, List.filterMap_nil]
  rw [none, List.nil_append] at payments
  exact ⟨first, rounds, verdict, scenes, lined, acted, few, ended, payments, settled⟩

/-! An ambush that ends in its first turn, in which the goblin in front dies twice. -/

namespace Roster

def strike (selector : Selector) : Effect :=
  { kind := .damage none, target := selector, amount := some (.flat 10) }

/-- Strikes one down, raises it and strikes everyone down. -/
def torment : List Effect :=
  [strike .front,
    { kind := .revive, target := .dead, party := some .enemy, amount := some (.flat 50) },
    strike .all]

def squire : Hero where
  fighter :=
    { id := "squire", name := "Squire", role := "squire"
      stats := ({} : StatBlock).insert "hitpoints" 10 }
  ability := "torment"

def goblin : Enemy where
  fighter :=
    { id := "goblin", name := "Goblin", role := "skirmisher"
      stats := ({} : StatBlock).insert "hitpoints" 6 }
  abilities := .ofEntries []
  loot := [{ kind := .grantMaterial "goblin_ear" }]

def ambush : Roster where
  heroes := [squire, squire, squire]
  enemies := [goblin, goblin, goblin]
  abilities := ({} : IdMap (List Effect)).insert "torment" torment

def spoils : Content := Content.addMaterial {} { id := "goblin_ear", name := "Goblin Ear" }

def ended? : Event → Option Nat
  | .ended _ rounds => some rounds
  | _ => none

/-- The scenes of the ambush, as one round of it makes them. -/
def ambushScenes : Option (List Battle.Scene × Battle) := do
  let lined ← (ambush.lineUp spoils { script := [] }).toOption
  let first ← lined.toOption
  (Battle.scenes {} ambush (Battle.Part.all ambush 1) first).toOption

theorem ambush_told {taken : List Battle.Scene} {last : Battle}
    (h : ambushScenes = some (taken, last)) :
    (deathsOf (taken.flatMap (·.episodes))).count ⟨.enemies, .front⟩ = 2 ∧
      taken.flatMap (·.paid) = [⟨.enemies, .front⟩, ⟨.enemies, .center⟩, ⟨.enemies, .back⟩] := by
  have told : ambushScenes.all (fun result =>
      decide ((deathsOf (result.1.flatMap (·.episodes))).count ⟨.enemies, .front⟩ = 2 ∧
        result.1.flatMap (·.paid) =
          [⟨.enemies, .front⟩, ⟨.enemies, .center⟩, ⟨.enemies, .back⟩])) = true := by
    decide +kernel
  rw [h] at told
  exact of_decide_eq_true told

theorem ambush_rounds :
    ∃ last, ambush.skirmish spoils {} { script := [] } = .ok (.ok last) ∧
      last.events.filterMap ended? = [1] := by
  have fought : ((ambush.skirmish spoils {} { script := [] }).toOption.bind (·.toOption)).any
      (fun battle => decide (battle.events.filterMap ended? = [1])) = true := by
    decide +kernel
  cases fight : ambush.skirmish spoils {} { script := [] } with
  | error fault =>
    rw [fight] at fought
    cases fought
  | ok battle =>
    rw [fight] at fought
    obtain ⟨last, rfl, rounds⟩ := Checked.holds_ok fought
    exact ⟨last, rfl, rounds⟩

theorem ambush_fought :
    ∃ first last scenes,
      ambush.skirmish spoils {} { script := [] } = .ok (.ok last) ∧
      ambush.lineUp spoils { script := [] } = .ok (.ok first) ∧
      Battle.scenes {} ambush (Battle.Part.all ambush 1) first = .ok (scenes, last) ∧
      (deathsOf (scenes.flatMap (·.episodes))).count ⟨.enemies, .front⟩ = 2 ∧
      last.payments = [⟨.enemies, .front⟩, ⟨.enemies, .center⟩, ⟨.enemies, .back⟩] := by
  obtain ⟨last, fought, once⟩ := ambush_rounds
  obtain ⟨first, lined, played⟩ := skirmish_ok fought
  obtain ⟨three, blank⟩ := lineUp_ok lined
  obtain ⟨rounds, verdict, scenes, -, acted, ended⟩ := Battle.play_scenes played
  have one : rounds ∈ last.events.filterMap ended? := List.mem_filterMap.mpr ⟨_, ended, rfl⟩
  obtain rfl : rounds = 1 := by simpa [once] using one
  have told : ambushScenes = some (scenes, last) := by
    rw [ambushScenes, lined]
    simp [Except.toOption, acted]
  obtain ⟨deaths, paid⟩ := ambush_told told
  have none : first.payments = [] := by rw [Battle.payments, blank, List.filterMap_nil]
  have payments := (Battle.scenes_settled three acted).2
  rw [none, List.nil_append, paid] at payments
  exact ⟨first, last, scenes, fought, lined, acted, deaths, payments⟩

end Roster

theorem Roster.loot_answers_deaths_ambush :
    ∃ first last rounds scenes,
      ambush.skirmish spoils {} { script := [] } = .ok (.ok last) ∧
      ambush.lineUp spoils { script := [] } = .ok (.ok first) ∧
      Battle.scenes {} ambush (Battle.Part.all ambush rounds) first = .ok (scenes, last) ∧
      scenes.flatMap (·.paid) = [⟨.enemies, .front⟩, ⟨.enemies, .center⟩, ⟨.enemies, .back⟩] ∧
      ∀ scene ∈ scenes, scene.Settled ambush := by
  obtain ⟨_, last, _, fought, -, -, -, payments⟩ := ambush_fought
  obtain ⟨first, rounds, _, scenes, lined, acted, -, -, paid, settled⟩ := loot_answers_deaths fought
  exact ⟨first, last, rounds, scenes, fought, lined, acted, paid.symm.trans payments, settled⟩

/-- Deaths in one turn are merged: two of the goblin in front are paid for once. -/
theorem Roster.deaths_outnumber_loot :
    ∃ first last scenes,
      ambush.skirmish spoils {} { script := [] } = .ok (.ok last) ∧
      ambush.lineUp spoils { script := [] } = .ok (.ok first) ∧
      Battle.scenes {} ambush (Battle.Part.all ambush 1) first = .ok (scenes, last) ∧
      (deathsOf (scenes.flatMap (·.episodes))).count ⟨.enemies, .front⟩ = 2 ∧
      last.payments.count ⟨.enemies, .front⟩ = 1 := by
  obtain ⟨first, last, scenes, fought, lined, acted, deaths, payments⟩ := ambush_fought
  refine ⟨first, last, scenes, fought, lined, acted, deaths, ?_⟩
  rw [payments]
  decide

end Combat
