import Combat.Proofs.Resolution.Blind
import Combat.Proofs.Resolution.Pass

/-!
Limit trackers: what counting a use changes, which sources share a count, and that counting never
faults, so an effect or a turn that faults does so without limits as well.
-/

namespace Combat
open Checked

/-! ### Counting uses -/

namespace UseCounts

theorem count_record {key other : LimitKey} {counts next : UseCounts}
    (h : counts.record key = .ok next) :
    (next.count other).val = (counts.count other).val + if key = other then 1 else 0 := by
  induction counts generalizing next with
  | nil =>
    obtain rfl := Except.ok.inj h
    simp only [count]
    split <;> rfl
  | cons entry rest ih =>
    obtain ⟨k, n⟩ := entry
    rw [record] at h
    split at h
    · rename_i same
      obtain ⟨sum, added, h⟩ := bind_ok h
      obtain rfl := pure_ok h
      have raised : sum.val = n.val + 1 := Count.addChecked_ok added
      simp only [count, same]
      split
      · exact raised
      · rfl
    · rename_i different
      obtain ⟨more, recorded, h⟩ := bind_ok h
      obtain rfl := pure_ok h
      simp only [count]
      split
      · rename_i same
        rw [if_neg fun equal => different (same.trans equal.symm), Nat.add_zero]
      · exact ih recorded

theorem record_ok {key : LimitKey} {counts : UseCounts}
    (small : (counts.count key).val < Count.greatest) : ∃ next, counts.record key = .ok next := by
  induction counts with
  | nil => exact ⟨_, rfl⟩
  | cons entry rest ih =>
    obtain ⟨k, n⟩ := entry
    rw [record]
    rw [count] at small
    split
    · rename_i same
      rw [if_pos same] at small
      have fits : n.val + (1 : Count).val ≤ 4294967295 := small
      rw [Count.addChecked, dif_pos fits]
      exact ⟨_, rfl⟩
    · rename_i different
      rw [if_neg different] at small
      obtain ⟨next, recorded⟩ := ih small
      rw [recorded]
      exact ⟨_, rfl⟩

end UseCounts

namespace LimitTracker

def uses (tracker : LimitTracker) (scope : LimitScope) (signature : Signature) (source : String) :
    Nat :=
  ((tracker.counts scope).count (source, signature)).val

theorem counts_setCounts (tracker : LimitTracker) (scope other : LimitScope) (counts : UseCounts) :
    (tracker.setCounts scope counts).counts other =
      if scope = other then counts else tracker.counts other := by
  cases scope <;> cases other <;> rfl

theorem canFire_iff {tracker : LimitTracker} {effect : Effect} {source : String} :
    tracker.canFire effect source = true ↔ ∀ scope, effect.limit = some scope →
      tracker.uses scope effect.signature source < effect.allowance.val := by
  unfold canFire
  split
  · rename_i unlimited
    simp [unlimited]
  · rename_i scope limited
    simp only [limited, Option.some.injEq, forall_eq', decide_eq_true_eq]
    rfl

/-- Where an effect may fire once more, one more use can be counted. -/
theorem record_ok {tracker : LimitTracker} {effect : Effect} {source : String}
    (free : tracker.canFire effect source = true) :
    ∃ next, tracker.record effect source = .ok next := by
  unfold record
  split
  · exact ⟨tracker, rfl⟩
  · rename_i scope limited
    have below := canFire_iff.mp free scope limited
    have small := Nat.lt_of_lt_of_le below effect.allowance.le_greatest
    obtain ⟨next, recorded⟩ := UseCounts.record_ok small
    rw [recorded]
    exact ⟨_, rfl⟩

theorem uses_record {tracker next : LimitTracker} {effect : Effect} {source : String}
    (h : tracker.record effect source = .ok next) (scope : LimitScope) (signature : Signature)
    (other : String) :
    next.uses scope signature other =
      tracker.uses scope signature other +
        if effect.limit = some scope ∧ source = other ∧ effect.signature = signature then 1
        else 0 := by
  unfold record at h
  unfold uses
  split at h
  · rename_i unlimited
    obtain rfl := pure_ok h
    simp [unlimited]
  · rename_i limit limited
    obtain ⟨counts, recorded, h⟩ := bind_ok h
    obtain rfl := pure_ok h
    rw [counts_setCounts]
    split
    · rename_i same
      subst same
      rw [UseCounts.count_record recorded]
      simp [limited]
    · rename_i different
      simp [limited, different]

theorem uses_reset (tracker : LimitTracker) (cleared scope : LimitScope) (signature : Signature)
    (source : String) :
    (tracker.reset cleared).uses scope signature source =
      if cleared = scope ∨ cleared = .combat then 0 else tracker.uses scope signature source := by
  cases cleared <;> cases scope <;> rfl

end LimitTracker

/-! ### Sources -/

/-- A character in its seat; nobody stands for every source that is absent or takes no part. -/
abbrev Source := Option (String × Seat)

namespace Source

def key : Source → String
  | some (id, seat) => s!"{id}#{seat.index}"
  | none => "global"

def digit (seat : Seat) : Char := Char.ofNat (48 + seat.index)

theorem key_some (id : String) (seat : Seat) :
    (key (some (id, seat))).toList = (id.toList ++ ['#']) ++ [digit seat] := by
  rcases seat with ⟨side, position⟩
  cases side <;> cases position <;> simp [key, digit] <;> rfl

theorem digit_injective {a b : Seat} (h : digit a = digit b) : a = b := by
  rcases a with ⟨side, position⟩
  rcases b with ⟨side', position'⟩
  revert h
  cases side <;> cases position <;> cases side' <;> cases position' <;> decide

theorem key_none_ne (id : String) (seat : Seat) :
    (key none).toList ≠ (id.toList ++ ['#']) ++ [digit seat] := by
  intro same
  have last : (key none).toList.getLast? = some (digit seat) := by
    rw [same, List.getLast?_concat]
  revert last
  rcases seat with ⟨side, position⟩
  cases side <;> cases position <;> decide

/-- No two sources share a key, whatever the ids of their characters look like. -/
theorem key_injective {a b : Source} (h : key a = key b) : a = b := by
  have same : (key a).toList = (key b).toList := by rw [h]
  cases a with
  | none =>
    cases b with
    | none => rfl
    | some found =>
      obtain ⟨id, seat⟩ := found
      rw [key_some] at same
      exact absurd same (key_none_ne id seat)
  | some found =>
    obtain ⟨id, seat⟩ := found
    cases b with
    | none =>
      rw [key_some] at same
      exact absurd same.symm (key_none_ne id seat)
    | some other =>
      obtain ⟨id', seat'⟩ := other
      rw [key_some, key_some] at same
      obtain ⟨marked, digits⟩ := List.append_inj' same rfl
      obtain ⟨ids, -⟩ := List.append_inj' marked rfl
      rw [String.toList_inj.mp ids, digit_injective (List.cons.inj digits).1]

end Source

namespace Context

/-- The source of an effect as limits tell sources apart. -/
def limitSource (ctx : Context) : Source :=
  match ctx.source, ctx.sourceCharacter with
  | some seat, some c => some (c.id, seat)
  | _, _ => none

theorem sourceKey_eq (ctx : Context) : ctx.sourceKey = ctx.limitSource.key := by
  unfold sourceKey limitSource
  cases ctx.source with
  | none => rfl
  | some seat => cases ctx.sourceCharacter <;> rfl

end Context

/-! ### Counting never faults -/

theorem Context.isBlocked_eq_false {ctx : Context} {effect : Effect} {source : String} :
    ctx.isBlocked effect source = false ↔
      ∀ tracker, ctx.limits = some tracker → tracker.canFire effect source = true := by
  unfold isBlocked
  cases ctx.limits <;> simp

theorem Context.recordUse_ok {ctx : Context} {effect : Effect} {source : String}
    (free : ctx.isBlocked effect source = false) :
    ∃ after, ctx.recordUse effect source = .ok after := by
  unfold recordUse
  split
  · rename_i tracker attached
    have fires := Context.isBlocked_eq_false.mp free tracker attached
    obtain ⟨next, recorded⟩ := LimitTracker.record_ok fires
    rw [recorded]
    exact ⟨_, rfl⟩
  · exact ⟨ctx, rfl⟩

theorem Context.seek_unlimited (ctx : Context) (type : EffectType) (effect : Effect) :
    ({ ctx with limits := none } : Context).seek type effect =
      ((ctx.seek type effect).1, { (ctx.seek type effect).2 with limits := none }) := by
  unfold seek
  split <;> rfl

theorem process_handled {handlers : Handlers} {effect : Effect} {type : EffectType}
    {handler : Handler} (typed : effect.type? = some type) (known : handlers type = some handler)
    (ctx : Context) :
    process handlers effect ctx =
      if ctx.isBlocked effect ctx.sourceKey then .ok (some (.blockedBy type), ctx)
      else do
        let (changes, handled) ←
          handler effect (ctx.seek type effect).1 (ctx.seek type effect).2
        let after ← handled.recordUse effect ctx.sourceKey
        return (some { type, targets := (ctx.seek type effect).1, changes }, after) := by
  unfold process
  rw [typed]
  dsimp only
  rw [known]
  rfl

/-- An effect that faults does so without limits as well. -/
theorem process_fault {handlers : Handlers} {effect : Effect} {ctx : Context} {fault : Fault}
    (builtin : handlers.AllBuiltin) (h : process handlers effect ctx = .error fault) :
    process handlers effect { ctx with limits := none } = .error fault := by
  cases typed : effect.type? with
  | none =>
    rw [process, typed] at h
    cases h
  | some type =>
    cases known : handlers type with
    | none =>
      rw [process, typed] at h
      dsimp only at h
      rw [known] at h
      cases h
    | some handler =>
      obtain rfl := builtin _ _ known
      rw [process_handled typed known] at h ⊢
      split at h
      · cases h
      · rename_i free
        rw [if_neg (by simp [Context.isBlocked]), Context.seek_unlimited]
        rcases bind_error h with stopped | ⟨⟨changes, handled⟩, handling, h⟩
        · have apart := Handler.builtin_blind type effect (ctx.seek type effect).1 none
            (ctx.seek type effect).2.random (ctx.seek type effect).2
          rw [stopped] at apart
          change (Handler.builtin type effect (ctx.seek type effect).1
            ((ctx.seek type effect).2.aside none (ctx.seek type effect).2.random) >>= _) = _
          rw [apart]
          rfl
        · have same : handled.limits = ctx.limits := by
            rw [(Handler.builtin_keeps handling).1, Context.seek_rest]
          have still : handled.isBlocked effect ctx.sourceKey = false := by
            rw [Context.isBlocked_eq_false, same, ← Context.isBlocked_eq_false]
            exact Bool.eq_false_iff.mpr free
          obtain ⟨after, recorded⟩ := Context.recordUse_ok still
          dsimp only at h
          rw [recorded] at h
          cases h

namespace AuraPass

theorem consume_fault {owner : Seat} {queued : QueuedEffect} {count : Count}
    {ctx other : Context} {fault : Fault} (same : other.encounter = ctx.encounter)
    (h : consume owner queued count ctx = .error fault) :
    consume owner queued count other = .error fault := by
  unfold consume at h ⊢
  rcases bind_error h with stopped | ⟨_, _, done⟩
  · rw [Context.get, same, ← Context.get, stopped]
    rfl
  · cases done

/-- What is left of a turn once its effect is resolved: it is counted, and it consumes. -/
def settle (owner : Seat) (source : String) (queued : QueuedEffect) (count : Count)
    (limits : Option LimitTracker) (outcome : Option Outcome) (resolved : Context) :
    Checked (List Outcome × Context) := do
  let ctx := { resolved with limits, credited := none }
  let ctx ← if outcome.isSome then ctx.recordUse queued.effect source else pure ctx
  let ctx ← if queued.effect.consume then consume owner queued count ctx else pure ctx
  return (outcome.toList, ctx)

/-- Limits take no part in a turn before it is settled. -/
theorem fire_eq (handlers : Handlers) (owner : Seat) (source : String) (queued : QueuedEffect)
    (slot : AuraSlot) (ctx : Context) (limits : Option LimitTracker) :
    fire handlers owner source queued slot { ctx with limits } = (do
      let stats := scalingStats owner slot ctx
      let (drawn, drained) ← (ctx.get owner).withAuras
        (·.draw queued.slot queued.effect (queued.effect.amountValue (some stats)))
      let (outcome, resolved) ← process handlers (fired queued.effect slot.amount.isSome drawn)
        { ctx.setCharacter owner drained with limits := none, credited := creditedFor slot ctx }
      settle owner source queued (Count.ofInt (queued.effect.stacksValue (some stats))) limits
        outcome resolved) := rfl

theorem settle_fault {owner : Seat} {source : String} {queued : QueuedEffect} {count : Count}
    {limits : Option LimitTracker} {outcome : Option Outcome} {resolved : Context} {fault : Fault}
    (free : ∀ tracker, limits = some tracker → tracker.canFire queued.effect source = true)
    (h : settle owner source queued count limits outcome resolved = .error fault) :
    settle owner source queued count none outcome resolved = .error fault := by
  unfold settle at h ⊢
  dsimp only at h ⊢
  rw [ite_bind] at h ⊢
  rcases bind_error h with stopped | ⟨counted, counting, h⟩
  · -- Counting cannot stop it: the effect was let through by the same limits.
    split at stopped
    · have unblocked : Context.isBlocked { resolved with limits, credited := none } queued.effect
          source = false := Context.isBlocked_eq_false.mpr free
      obtain ⟨after, recorded⟩ := Context.recordUse_ok unblocked
      rw [recorded] at stopped
      cases stopped
    · cases stopped
  · have same : counted.encounter = resolved.encounter := by
      split at counting
      · rw [Context.recordUse_rest counting]
      · rw [← pure_ok counting]
    have uncounted : (if outcome.isSome then
        Context.recordUse { resolved with limits := none, credited := none } queued.effect source
      else pure { resolved with limits := none, credited := none }) =
        .ok { resolved with limits := none, credited := none } := by
      split <;> rfl
    rw [uncounted]
    rw [ite_bind] at h
    rcases bind_error h with stopped | ⟨_, _, done⟩
    · split at stopped
      · rename_i consumes
        have unlimited : consume owner queued count
            { resolved with limits := none, credited := none } = .error fault :=
          consume_fault same.symm stopped
        change (if queued.effect.consume = true then _ >>= _ else _) = _
        rw [if_pos consumes, unlimited]
        rfl
      · cases stopped
    · cases done

theorem fire_fault {handlers : Handlers} {owner : Seat} {source : String} {queued : QueuedEffect}
    {slot : AuraSlot} {ctx : Context} {fault : Fault}
    (free : ctx.isBlocked queued.effect source = false)
    (h : fire handlers owner source queued slot ctx = .error fault) :
    fire handlers owner source queued slot { ctx with limits := none } = .error fault := by
  change fire handlers owner source queued slot { ctx with limits := ctx.limits } = _ at h
  rw [fire_eq] at h ⊢
  dsimp only at h ⊢
  rcases bind_error h with stopped | ⟨⟨drawn, drained⟩, drew, h⟩
  · rw [stopped]
    rfl
  · rw [drew]
    rcases bind_error h with stopped | ⟨⟨outcome, resolved⟩, resolving, h⟩
    · change (process handlers _ _ >>= _) = _
      rw [stopped]
      rfl
    · change (process handlers _ _ >>= _) = _
      rw [resolving]
      exact settle_fault (Context.isBlocked_eq_false.mp free) h

theorem step_fault {handlers : Handlers} {owner : Seat} {source : String} {queued : QueuedEffect}
    {ctx : Context} {fault : Fault} (h : step handlers owner source queued ctx = .error fault) :
    step handlers owner source queued { ctx with limits := none } = .error fault := by
  unfold step at h ⊢
  have same : ({ ctx with limits := none } : Context).get owner = ctx.get owner := rfl
  rw [same]
  split at h
  · cases h
  · rename_i slot found
    split at h
    · cases h
    · rename_i free
      rw [if_neg (by simp [Context.isBlocked])]
      exact fire_fault (Bool.eq_false_iff.mpr free) h

end AuraPass

end Combat
