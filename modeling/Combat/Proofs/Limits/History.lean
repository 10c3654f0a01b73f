import Combat.Proofs.Limits.Tracker

/-!
Limits are exact. Over every history of effects, passes and resets that share a tracker, an effect
is blocked exactly when it has fired as often as its limit allows since its span began.
-/

namespace Combat
open Checked

structure Ask where
  effect : Effect
  source : Source
  outcome : Option Outcome

namespace Ask

def blocked (ask : Ask) : Bool := ask.outcome.any (·.blocked)

def fired (ask : Ask) : Bool := ask.outcome.any (!·.blocked)

end Ask

/-- What happens to a tracker. -/
inductive LimitEvent where
  | asked (ask : Ask)
  | reset (scope : LimitScope)

namespace LimitEvent

def clears (scope : LimitScope) : LimitEvent → Bool
  | .asked _ => false
  | .reset cleared => cleared = scope || cleared = .combat

/-- How often a signature fired for a source within the present span; the latest event comes
first. -/
def firings (scope : LimitScope) (signature : Signature) (source : Source) : List LimitEvent → Nat
  | [] => 0
  | .reset cleared :: earlier =>
    if cleared = scope ∨ cleared = .combat then 0 else firings scope signature source earlier
  | .asked ask :: earlier =>
    firings scope signature source earlier +
      if ask.fired ∧ ask.effect.limit = some scope ∧ ask.source = source ∧
        ask.effect.signature = signature then 1 else 0

def isFiring (effect : Effect) (source : Source) : LimitEvent → Bool
  | .asked ask => ask.fired && ask.effect = effect && ask.source = source
  | .reset _ => false

end LimitEvent
open LimitEvent

def Ask.Spent (ask : Ask) (earlier : List LimitEvent) : Prop :=
  ∃ scope, ask.effect.limit = some scope ∧
    ask.effect.allowance.val ≤ firings scope ask.effect.signature ask.source earlier

namespace AuraPass

def Turn.reached (owner : Seat) (turn : Turn) : Bool :=
  (turn.before.get owner).auras.slots[turn.queued.slot]?.any turn.queued.isFrom

def Turn.ask (source : Source) (turn : Turn) : LimitEvent :=
  .asked { effect := turn.queued.effect, source, outcome := turn.outcome }

/-- The effects that a pass reached, the latest first. -/
def asks (owner : Seat) (source : Source) (turns : List Turn) : List LimitEvent :=
  ((turns.filter (·.reached owner)).map (·.ask source)).reverse

theorem Turn.reached_iff {owner : Seat} {turn : Turn} :
    turn.reached owner = true ↔ Reached owner turn.queued turn.before := by
  rw [Turn.reached, Option.any_eq_true]
  rfl

theorem asks_cons_reached {owner : Seat} {source : Source} {turn : Turn} {rest : List Turn}
    (reached : turn.reached owner = true) (events : List LimitEvent) :
    asks owner source (turn :: rest) ++ events =
      asks owner source rest ++ turn.ask source :: events := by
  rw [asks, List.filter_cons_of_pos reached, List.map_cons, List.reverse_cons, List.append_assoc]
  rfl

theorem asks_cons_gone {owner : Seat} {source : Source} {turn : Turn} {rest : List Turn}
    (gone : ¬turn.reached owner = true) :
    asks owner source (turn :: rest) = asks owner source rest := by
  rw [asks, List.filter_cons_of_neg gone]
  rfl

end AuraPass

/-- The histories of a tracker that starts empty and stays attached: single effects, whole passes
and resets, each call in any context. -/
inductive LimitHistory (handlers : Handlers) : List LimitEvent → LimitTracker → Prop where
  | start : LimitHistory handlers [] {}
  | processed {events : List LimitEvent} {tracker : LimitTracker} {effect : Effect}
    {ctx after : Context} {outcome : Option Outcome}
    (earlier : LimitHistory handlers events tracker) (attached : ctx.limits = some tracker)
    (h : process handlers effect ctx = .ok (outcome, after)) :
    LimitHistory handlers (.asked { effect, source := ctx.limitSource, outcome } :: events)
      (after.limits.getD tracker)
  | passed {events : List LimitEvent} {tracker : LimitTracker} {owner : Seat} {trigger : Trigger}
    {ctx after last : Context} {outcomes : List Outcome} {turns : List AuraPass.Turn}
    (earlier : LimitHistory handlers events tracker) (attached : ctx.limits = some tracker)
    (h : triggerAuras handlers owner trigger ctx = .ok (outcomes, after))
    (taken : AuraPass.turnsOf handlers owner trigger ctx = .ok (turns, last)) :
    LimitHistory handlers
      (AuraPass.asks owner (AuraPass.enter owner ctx).limitSource turns ++ events)
      (after.limits.getD tracker)
  | reset {events : List LimitEvent} {tracker : LimitTracker}
    (earlier : LimitHistory handlers events tracker) (scope : LimitScope) :
    LimitHistory handlers (.reset scope :: events) (tracker.reset scope)

/-! ### One effect -/

/-- What a tracker makes of an effect that is asked for. -/
inductive Served (handlers : Handlers) (tracker : LimitTracker) (ask : Ask) :
    LimitTracker → Prop where
  | idle (unknown : ask.effect.type?.bind handlers = none) (silent : ask.outcome = none) :
    Served handlers tracker ask tracker
  | stopped (spent : tracker.canFire ask.effect ask.source.key = false)
    (said : ask.outcome = ask.effect.type?.map .blockedBy) : Served handlers tracker ask tracker
  | fires {next : LimitTracker} (free : tracker.canFire ask.effect ask.source.key = true)
    (fired : ask.fired = true)
    (recorded : tracker.record ask.effect ask.source.key = .ok next) :
    Served handlers tracker ask next

theorem process_served {handlers : Handlers} {effect : Effect} {ctx after : Context}
    {outcome : Option Outcome} {tracker : LimitTracker} (builtin : handlers.AllBuiltin)
    (attached : ctx.limits = some tracker)
    (h : process handlers effect ctx = .ok (outcome, after)) :
    ∃ next, after.limits = some next ∧
      Served handlers tracker { effect, source := ctx.limitSource, outcome } next := by
  cases process_resolution h with
  | unhandled unknown => exact ⟨tracker, attached, .idle unknown rfl⟩
  | blocked typed known spent =>
    refine ⟨tracker, attached, .stopped ?_ ?_⟩
    · rw [Context.isBlocked, attached, Context.sourceKey_eq] at spent
      simpa using spent
    · rw [typed]
      rfl
  | @resolved type _ _ handled _ typed known free handling counted =>
    obtain rfl := builtin _ _ known
    have kept : handled.limits = some tracker := by
      rw [(Handler.builtin_keeps handling).1, Context.seek_rest]
      exact attached
    rw [Context.recordUse, kept, Context.sourceKey_eq] at counted
    obtain ⟨next, recorded, counted⟩ := bind_ok counted
    obtain rfl := pure_ok counted
    rw [Context.sourceKey_eq] at free
    exact ⟨next, rfl, .fires (Context.isBlocked_eq_false.mp free tracker attached) rfl recorded⟩

theorem AuraPass.TurnCase.served {handlers : Handlers} {owner : Seat} {source : Source}
    {queued : QueuedEffect} {ctx after : Context} {outcome : Option Outcome}
    {tracker : LimitTracker} (attached : ctx.limits = some tracker)
    (reached : Reached owner queued ctx)
    (h : TurnCase handlers owner source.key queued ctx outcome after) :
    ∃ next, after.limits = some next ∧
      Served handlers tracker { effect := queued.effect, source, outcome } next := by
  obtain ⟨next, kept, counted⟩ := h.limited attached
  cases h with
  | skipped gone => exact absurd reached gone
  | stopped here waits spent =>
    refine ⟨tracker, attached, .stopped ?_ rfl⟩
    rw [Context.isBlocked, attached] at spent
    simpa using spent
  | fires here waits free firing =>
    refine ⟨next, kept, ?_⟩
    cases outcome with
    | none =>
      obtain rfl := Except.ok.inj counted
      refine .idle ?_ rfl
      cases process_resolution firing.resolving with
      | unhandled unknown =>
        rw [fired_type] at unknown
        exact unknown
    | some result =>
      have unblocked : result.blocked = false := process_unlimited rfl firing.resolving
      have fired : (some result).any (!·.blocked) = true := by
        rw [Option.any_some, unblocked]
        rfl
      rw [if_pos fired] at counted
      exact .fires (Context.isBlocked_eq_false.mp free tracker attached) fired counted

/-! ### Whole histories -/

/-- The counts are the firings, and every effect was answered by them. -/
structure LimitsExact (handlers : Handlers) (events : List LimitEvent) (tracker : LimitTracker) :
    Prop where
  counted : ∀ scope signature source,
    tracker.uses scope signature (Source.key source) = firings scope signature source events
  /-- An effect that has a handler is answered, and blocked just when its limit was used up. -/
  answered : ∀ ask earlier, (.asked ask :: earlier) <:+ events →
    (ask.effect.type?.bind handlers).isSome →
    ask.outcome.isSome ∧ (ask.blocked = true ↔ ask.Spent earlier)
  /-- Nothing fires whose limit was used up. -/
  withheld : ∀ ask earlier, (.asked ask :: earlier) <:+ events → ask.fired = true →
    ¬ask.Spent earlier

section
variable {handlers : Handlers} {events : List LimitEvent} {tracker next : LimitTracker}

theorem LimitsExact.start : LimitsExact handlers [] {} := by
  constructor
  case counted =>
    intro scope signature source
    cases scope <;> rfl
  case answered =>
    intro ask earlier suffix
    exact absurd (List.suffix_nil.mp suffix) (List.cons_ne_nil _ _)
  case withheld =>
    intro ask earlier suffix
    exact absurd (List.suffix_nil.mp suffix) (List.cons_ne_nil _ _)

theorem LimitsExact.canFire_iff (exact : LimitsExact handlers events tracker) (ask : Ask) :
    tracker.canFire ask.effect ask.source.key = true ↔ ¬ask.Spent events := by
  rw [LimitTracker.canFire_iff, Ask.Spent, not_exists]
  refine forall_congr' fun scope => ?_
  rw [exact.counted, not_and, Nat.not_le]

theorem Served.counted {ask : Ask} (exact : LimitsExact handlers events tracker)
    (h : Served handlers tracker ask next) (scope : LimitScope) (signature : Signature)
    (source : Source) :
    next.uses scope signature source.key =
      firings scope signature source (.asked ask :: events) := by
  rw [firings, ← exact.counted]
  cases h with
  | idle unknown silent =>
    have unfired : ask.fired = false := by rw [Ask.fired, silent]; rfl
    simp [unfired]
  | stopped spent said =>
    have unfired : ask.fired = false := by
      rw [Ask.fired, said]
      cases ask.effect.type? <;> rfl
    simp [unfired]
  | fires free fired recorded =>
    rw [LimitTracker.uses_record recorded]
    have keys : ask.source.key = source.key ↔ ask.source = source :=
      ⟨Source.key_injective, fun same => by rw [same]⟩
    simp only [fired, keys, true_and]

theorem Served.answered {ask : Ask} (exact : LimitsExact handlers events tracker)
    (h : Served handlers tracker ask next) (handled : (ask.effect.type?.bind handlers).isSome) :
    ask.outcome.isSome ∧ (ask.blocked = true ↔ ask.Spent events) := by
  have spent := exact.canFire_iff ask
  cases h with
  | idle unknown silent =>
    rw [unknown] at handled
    cases handled
  | stopped refused said =>
    obtain ⟨type, typed⟩ : ∃ type, ask.effect.type? = some type := by
      cases typed : ask.effect.type? with
      | none =>
        rw [typed] at handled
        cases handled
      | some type => exact ⟨type, rfl⟩
    rw [typed] at said
    rw [refused] at spent
    have blocked : ask.blocked = true := by rw [Ask.blocked, said]; rfl
    have used : ask.Spent events :=
      Classical.byContradiction fun unspent => Bool.false_ne_true (spent.mpr unspent)
    exact ⟨by rw [said]; rfl, fun _ => used, fun _ => blocked⟩
  | fires free fired recorded =>
    obtain ⟨outcome, answer, unblocked⟩ := (Option.any_eq_true ..).mp fired
    have open' : ask.blocked = false := by
      rw [Ask.blocked, answer, Option.any_some]
      simpa using unblocked
    refine ⟨by rw [answer]; rfl, fun blocked => ?_, fun used => absurd used (spent.mp free)⟩
    rw [open'] at blocked
    exact absurd blocked Bool.false_ne_true

theorem Served.withheld {ask : Ask} (exact : LimitsExact handlers events tracker)
    (h : Served handlers tracker ask next) (fired : ask.fired = true) : ¬ask.Spent events := by
  cases h with
  | idle unknown silent =>
    rw [Ask.fired, silent] at fired
    cases fired
  | stopped spent said =>
    rw [Ask.fired, said] at fired
    cases typed : ask.effect.type? <;> rw [typed] at fired <;> cases fired
  | fires free => exact (exact.canFire_iff ask).mp free

theorem LimitsExact.serve {ask : Ask} (exact : LimitsExact handlers events tracker)
    (h : Served handlers tracker ask next) :
    LimitsExact handlers (.asked ask :: events) next := by
  constructor
  case counted => exact fun scope signature source => h.counted exact scope signature source
  case answered =>
    intro other earlier suffix handled
    rcases List.suffix_cons_iff.mp suffix with same | suffix
    · cases same
      exact h.answered exact handled
    · exact exact.answered other earlier suffix handled
  case withheld =>
    intro other earlier suffix fired
    rcases List.suffix_cons_iff.mp suffix with same | suffix
    · cases same
      exact h.withheld exact fired
    · exact exact.withheld other earlier suffix fired

theorem LimitsExact.clear (exact : LimitsExact handlers events tracker) (scope : LimitScope) :
    LimitsExact handlers (.reset scope :: events) (tracker.reset scope) := by
  constructor
  case counted =>
    intro other signature source
    rw [LimitTracker.uses_reset, exact.counted]
    rfl
  case answered =>
    intro ask earlier suffix handled
    rcases List.suffix_cons_iff.mp suffix with same | suffix
    · cases same
    · exact exact.answered ask earlier suffix handled
  case withheld =>
    intro ask earlier suffix fired
    rcases List.suffix_cons_iff.mp suffix with same | suffix
    · cases same
    · exact exact.withheld ask earlier suffix fired

theorem LimitsExact.turns {owner : Seat} {source : Source} {queue : List QueuedEffect}
    {ctx last : Context} {taken : List AuraPass.Turn}
    (exact : LimitsExact handlers events tracker) (attached : ctx.limits = some tracker)
    (h : AuraPass.turns handlers owner source.key queue ctx = .ok (taken, last)) :
    ∃ next, last.limits = some next ∧
      LimitsExact handlers (AuraPass.asks owner source taken ++ events) next := by
  induction queue generalizing ctx taken events tracker with
  | nil =>
    obtain ⟨rfl, rfl⟩ := pair_ok h
    exact ⟨tracker, attached, exact⟩
  | cons queued rest ih =>
    obtain ⟨turn, more, rfl, rfl, rfl, turnCase, later⟩ := AuraPass.turns_cons h
    by_cases reached : AuraPass.Reached owner turn.queued turn.before
    · obtain ⟨middle, kept, served⟩ := turnCase.served attached reached
      obtain ⟨next, left, exact⟩ := ih (exact.serve served) kept later
      refine ⟨next, left, ?_⟩
      rw [AuraPass.asks_cons_reached (AuraPass.Turn.reached_iff.mpr reached)]
      exact exact
    · obtain ⟨-, unchanged⟩ := turnCase.skips reached
      obtain ⟨next, left, exact⟩ := ih exact (unchanged ▸ attached) later
      refine ⟨next, left, ?_⟩
      rw [AuraPass.asks_cons_gone fun here => reached (AuraPass.Turn.reached_iff.mp here)]
      exact exact

theorem LimitHistory.exact (builtin : handlers.AllBuiltin)
    (history : LimitHistory handlers events tracker) : LimitsExact handlers events tracker := by
  induction history with
  | start => exact LimitsExact.start
  | processed earlier attached h exact =>
    obtain ⟨next, left, served⟩ := process_served builtin attached h
    rw [left]
    exact exact.serve served
  | @passed _ tracker owner trigger ctx _ last _ _ earlier attached h taken exact =>
    rw [AuraPass.triggerAuras_eq_turnsOf, taken] at h
    obtain ⟨-, rfl⟩ := Prod.mk.inj (Except.ok.inj h)
    rw [AuraPass.turnsOf, Context.sourceKey_eq] at taken
    have inside : (AuraPass.enter owner ctx).limits = some tracker := attached
    obtain ⟨next, left, exact⟩ := exact.turns inside taken
    have final : (AuraPass.leave ctx last).limits = some next := left
    rw [final]
    exact exact
  | reset earlier scope exact => exact exact.clear scope

theorem countP_isFiring_le {effect : Effect} {source : Source} {scope : LimitScope}
    (limited : effect.limit = some scope) (span earlier : List LimitEvent)
    (unbroken : span.any (clears scope) = false) :
    span.countP (isFiring effect source) ≤
      firings scope effect.signature source (span ++ earlier) := by
  induction span with
  | nil => exact Nat.zero_le _
  | cons event rest ih =>
    rw [List.any_cons, Bool.or_eq_false_iff] at unbroken
    have later := ih unbroken.2
    cases event with
    | reset cleared =>
      have kept : ¬(cleared = scope ∨ cleared = .combat) := by simpa [clears] using unbroken.1
      rw [List.cons_append, firings, if_neg kept, List.countP_cons_of_neg (by simp [isFiring])]
      exact later
    | asked ask =>
      rw [List.cons_append, firings, List.countP_cons]
      refine Nat.add_le_add later ?_
      by_cases counted : isFiring effect source (.asked ask) = true
      · have firing := counted
        simp only [isFiring, Bool.and_eq_true, decide_eq_true_eq] at firing
        obtain ⟨⟨fired, rfl⟩, rfl⟩ := firing
        refine Nat.le_of_eq ?_
        rw [if_pos counted, if_pos ⟨fired, limited, rfl, rfl⟩]
      · rw [if_neg counted]
        exact Nat.zero_le _

/-- In a span an effect fires no more often for a source than its limit allows. -/
theorem LimitsExact.bounded (exact : LimitsExact handlers events tracker) {effect : Effect}
    {source : Source} {scope : LimitScope} (limited : effect.limit = some scope)
    (span earlier : List LimitEvent) (within : span ++ earlier <:+ events)
    (unbroken : span.any (clears scope) = false) :
    span.countP (isFiring effect source) ≤ effect.allowance.val := by
  induction span with
  | nil => exact Nat.zero_le _
  | cons event rest ih =>
    have below : rest ++ earlier <:+ events := (List.suffix_cons _ _).trans within
    rw [List.any_cons, Bool.or_eq_false_iff] at unbroken
    have later := ih below unbroken.2
    by_cases counted : isFiring effect source event = true
    · cases event with
      | reset cleared => cases counted
      | asked ask =>
        have firing := counted
        simp only [isFiring, Bool.and_eq_true, decide_eq_true_eq] at firing
        obtain ⟨⟨fired, rfl⟩, rfl⟩ := firing
        -- It fired, so its signature had room left, and its own firings are among those counted.
        have unspent := exact.withheld ask (rest ++ earlier) within fired
        have room : firings scope ask.effect.signature ask.source (rest ++ earlier) <
            ask.effect.allowance.val := by
          refine Nat.not_le.mp fun full => unspent ⟨scope, limited, full⟩
        have listed : rest.countP (isFiring ask.effect ask.source) ≤ _ :=
          countP_isFiring_le limited rest earlier unbroken.2
        rw [List.countP_cons_of_pos counted]
        omega
    · rw [List.countP_cons_of_neg counted]
      exact later

end

/-- A pass that faults does so in a turn that faults without limits as well. -/
theorem triggerAuras_fault {handlers : Handlers} {owner : Seat} {trigger : Trigger}
    {ctx : Context} {fault : Fault} (h : triggerAuras handlers owner trigger ctx = .error fault) :
    ∃ early queued late taken inside,
      AuraPass.queue owner trigger ctx = early ++ queued :: late ∧
      AuraPass.turns handlers owner (AuraPass.enter owner ctx).sourceKey early
        (AuraPass.enter owner ctx) = .ok (taken, inside) ∧
      AuraPass.step handlers owner (AuraPass.enter owner ctx).sourceKey queued
        { inside with limits := none } = .error fault := by
  rw [AuraPass.triggerAuras_eq_turnsOf] at h
  cases taken : AuraPass.turnsOf handlers owner trigger ctx with
  | ok result =>
    rw [taken] at h
    cases h
  | error other =>
    rw [taken] at h
    cases h
    obtain ⟨early, queued, late, taken, inside, whole, ran, stopped⟩ := AuraPass.turns_fault taken
    exact ⟨early, queued, late, taken, inside, whole, ran, AuraPass.step_fault stopped⟩

/-- Limits are exact over every history: the counts are the firings, effects are blocked by them
alone, none fires too often in a span, and no call faults that would not fault without limits. -/
theorem limits_exact {handlers : Handlers} {events : List LimitEvent} {tracker : LimitTracker}
    (builtin : handlers.AllBuiltin) (history : LimitHistory handlers events tracker) :
    LimitsExact handlers events tracker ∧
      (∀ effect source scope span earlier, effect.limit = some scope →
        span ++ earlier <:+ events → span.any (clears scope) = false →
        span.countP (isFiring effect source) ≤ effect.allowance.val) ∧
      (∀ effect ctx fault, ctx.limits = some tracker →
        process handlers effect ctx = .error fault →
        process handlers effect { ctx with limits := none } = .error fault) ∧
      ∀ owner trigger ctx fault, ctx.limits = some tracker →
        triggerAuras handlers owner trigger ctx = .error fault →
        ∃ early queued late taken inside,
          AuraPass.queue owner trigger ctx = early ++ queued :: late ∧
          AuraPass.turns handlers owner (AuraPass.enter owner ctx).sourceKey early
            (AuraPass.enter owner ctx) = .ok (taken, inside) ∧
          AuraPass.step handlers owner (AuraPass.enter owner ctx).sourceKey queued
            { inside with limits := none } = .error fault := by
  have exact := history.exact builtin
  refine ⟨exact, ?_, ?_, ?_⟩
  · intro effect source scope span earlier limited within unbroken
    exact exact.bounded limited span earlier within unbroken
  · intro effect ctx fault _ h
    exact process_fault builtin h
  · intro owner trigger ctx fault _ h
    exact triggerAuras_fault h

/-! An effect that may fire once a turn is asked for twice, and once more on the next turn. -/

namespace LimitHistory

def onceEffect : Effect :=
  { kind := .removeAura .buff "ward", target := .self, limit := some .turn }

def onceContext (tracker : LimitTracker) : Context :=
  { encounter := ⟨⟨{ id := "knight", name := "Knight", role := some "fighter" }, .empty, .empty⟩,
      ⟨.empty, .empty, .empty⟩⟩
    content := {}
    source := some ⟨.heroes, .front⟩
    limits := some tracker }

def onceTracker : LimitTracker := { turn := [(("knight#0", onceEffect.signature), 1)] }

def onceAsk (outcome : Outcome) : LimitEvent :=
  .asked { effect := onceEffect, source := some ("knight", ⟨.heroes, .front⟩), outcome }

def onceFired : Outcome :=
  { type := .removeAura .buff, targets := [⟨.heroes, .front⟩], changes := [] }

def onceEvents : List LimitEvent :=
  [onceAsk onceFired, .reset .turn, onceAsk (.blockedBy (.removeAura .buff)), onceAsk onceFired]

end LimitHistory

theorem limits_exact_once :
    Handlers.builtin.AllBuiltin ∧
      LimitHistory Handlers.builtin LimitHistory.onceEvents LimitHistory.onceTracker ∧
      LimitsExact Handlers.builtin LimitHistory.onceEvents LimitHistory.onceTracker := by
  have fires : process Handlers.builtin LimitHistory.onceEffect (LimitHistory.onceContext {}) =
      .ok (some LimitHistory.onceFired,
        LimitHistory.onceContext LimitHistory.onceTracker) := rfl
  have stops : process Handlers.builtin LimitHistory.onceEffect
      (LimitHistory.onceContext LimitHistory.onceTracker) =
      .ok (some (.blockedBy (.removeAura .buff)),
        LimitHistory.onceContext LimitHistory.onceTracker) := rfl
  have history : LimitHistory Handlers.builtin LimitHistory.onceEvents LimitHistory.onceTracker :=
    .processed (.reset (.processed (.processed .start rfl fires) rfl stops) .turn) rfl fires
  exact ⟨Handlers.builtin_allBuiltin, history, (limits_exact Handlers.builtin_allBuiltin history).1⟩

end Combat
