import Combat.Proofs.Aggregation
import Combat.Proofs.Limits.Tracker
import Combat.Proofs.Resolution.Account
import Combat.Proofs.Resolution.Order

/-!
The stash under a run of effects. What the effects recorded, taken in turn, is what became of each
count; an effect that records nothing of a material leaves it alone, and a material of which nothing
is left is listed no more.
-/

namespace Combat
open Checked

namespace Change

/-- The material whose count changed. -/
def material? : Change → Option String
  | .materialGranted id _ | .materialConsumed id _ => some id
  | _ => none

/-- What a change makes of the count of a material. -/
def tally (id : String) (held : Nat) : Change → Nat
  | .materialGranted other amount =>
    if other = id then Nat.min (held + amount.val) 4294967295 else held
  | .materialConsumed other amount => if other = id then held - amount.val else held
  | _ => held

/-- The count of a material after changes to an empty stash. -/
def tallyAll (id : String) (changes : List Change) : Nat := changes.foldl (tally id) 0

theorem tally_other {change : Change} {id : String} (other : change.material? ≠ some id)
    (held : Nat) : tally id held change = held := by
  cases change with
  | materialGranted | materialConsumed => exact if_neg fun same => other (congrArg some same)
  | _ => rfl

theorem foldl_tally_other {changes : List Change} {id : String}
    (others : ∀ change ∈ changes, change.material? ≠ some id) (held : Nat) :
    changes.foldl (tally id) held = held := by
  induction changes with
  | nil => rfl
  | cons change rest ih =>
    obtain ⟨first, later⟩ := List.forall_mem_cons.mp others
    rw [List.foldl_cons, tally_other first]
    exact ih later

end Change
open Change

/-! ### One change -/

namespace Stash
variable {stash left : Stash} {id : String} {amount : Count}

theorem count_add (stash : Stash) (id other : String) (amount : Count) :
    (stash.add id amount).count other =
      if id = other then (stash.count id).add amount else stash.count other := by
  rw [count, add, IdMap.get?_insert]
  split <;> rfl

/-- A removal finds at least what it takes. A material of which nothing is left goes, any other
stays with what is left, and the rest is as before. -/
theorem remove_cases (h : stash.remove id amount = .ok left) :
    ∃ available, stash.counts.get? id = some available ∧ amount.val ≤ available.val ∧
      ∀ other, left.counts.get? other =
        if id = other then (if available = amount then none else some (available.sub amount))
        else stash.counts.get? other := by
  unfold remove at h
  split at h
  · cases h
  · rename_i available found
    split at h
    · cases h
    · rename_i enough
      refine ⟨available, found, Nat.not_lt.mp enough, fun other => ?_⟩
      split at h
      · rename_i whole
        obtain rfl := Except.ok.inj h
        rw [IdMap.get?_erase, if_pos whole]
      · rename_i partly
        obtain rfl := Except.ok.inj h
        rw [IdMap.get?_insert, if_neg partly]

/-- A removal finds at least what it takes, and takes it from that material alone. -/
theorem remove_ok (h : stash.remove id amount = .ok left) :
    amount.val ≤ (stash.count id).val ∧
      ∀ other, left.count other =
        if id = other then (stash.count id).sub amount else stash.count other := by
  obtain ⟨available, found, enough, after⟩ := remove_cases h
  have here : stash.count id = available := by rw [count, found]; rfl
  rw [here]
  refine ⟨enough, fun other => ?_⟩
  rw [count, after]
  split
  · split
    · rename_i whole
      rw [whole]
      exact Count.ext (by rw [Count.val_sub, Nat.sub_self]; rfl)
    · rfl
  · rfl

theorem remove_ok_iff :
    (∃ left, stash.remove id amount = .ok left) ↔
      (stash.counts.get? id).isSome ∧ amount.val ≤ (stash.count id).val := by
  constructor
  · rintro ⟨left, h⟩
    refine ⟨?_, (remove_ok h).1⟩
    cases found : stash.counts.get? id with
    | none =>
      rw [remove, found] at h
      cases h
    | some available => rfl
  · rintro ⟨listed, enough⟩
    obtain ⟨available, found⟩ := Option.isSome_iff_exists.mp listed
    have here : stash.count id = available := by rw [count, found]; rfl
    rw [here] at enough
    rw [remove, found]
    dsimp only
    rw [if_neg (Nat.not_lt.mpr enough)]
    split
    · exact ⟨_, rfl⟩
    · exact ⟨_, rfl⟩

/-- Nothing is listed of which there is nothing. -/
def Tidy (stash : Stash) : Prop := ∀ id count, stash.counts.get? id = some count → 0 < count.val

theorem Tidy.empty : Tidy {} := fun _ _ found => nomatch found

theorem Tidy.add (tidy : stash.Tidy) (positive : 0 < amount.val) :
    (stash.add id amount).Tidy := by
  intro other held found
  rw [Stash.add, IdMap.get?_insert] at found
  split at found
  · obtain rfl := Option.some.inj found
    rw [Count.val_add]
    exact Nat.lt_min.mpr ⟨Nat.add_pos_right _ positive, by decide⟩
  · exact tidy other held found

theorem Tidy.remove (tidy : stash.Tidy) (h : stash.remove id amount = .ok left) : left.Tidy := by
  obtain ⟨available, -, enough, after⟩ := remove_cases h
  intro other held found
  rw [after] at found
  split at found
  · split at found
    · cases found
    · -- what is left is positive since the removal did not take all
      rename_i partly
      obtain rfl := Option.some.inj found
      have apart : available.val ≠ amount.val := fun same => partly (Count.ext same)
      rw [Count.val_sub]
      omega
  · exact tidy other held found

theorem Tidy.get?_isSome (tidy : stash.Tidy) :
    (stash.counts.get? id).isSome ↔ 0 < (stash.count id).val := by
  rw [count]
  cases found : stash.counts.get? id with
  | none => simp
  | some held => simpa using tidy id held found

/-- A tidy stash lists just the materials of which there is something. -/
theorem Tidy.mem_toList (tidy : stash.Tidy) :
    (id, amount) ∈ stash.counts.toList ↔ stash.count id = amount ∧ 0 < amount.val := by
  rw [IdMap.toList, IdMap.mem_entries, count]
  constructor
  · intro found
    exact ⟨by rw [found]; rfl, tidy id amount found⟩
  · rintro ⟨same, positive⟩
    cases found : stash.counts.get? id with
    | none =>
      rw [found] at same
      rw [← same] at positive
      exact absurd positive (Nat.lt_irrefl 0)
    | some held =>
      rw [found] at same
      exact congrArg some same

end Stash

/-! ### One effect -/

/-- What recorded changes make of a stash: they are silent on materials, or one is granted, or one
is taken. -/
inductive Stash.Moved (stash : Stash) : List Change → Stash → Prop where
  | still {changes : List Change} (silent : ∀ change ∈ changes, change.material? = none) :
    Moved stash changes stash
  | granted {id : String} {amount : Count} (positive : 0 < amount.val) :
    Moved stash [.materialGranted id amount] (stash.add id amount)
  | consumed {id : String} {amount : Count} {left : Stash}
    (removed : stash.remove id amount = .ok left) :
    Moved stash [.materialConsumed id amount] left

namespace Stash.Moved
variable {stash left : Stash} {changes : List Change}

theorem tidy (h : stash.Moved changes left) (tidy : stash.Tidy) : left.Tidy := by
  cases h with
  | still => exact tidy
  | granted positive => exact tidy.add positive
  | consumed removed => exact tidy.remove removed

theorem counts (h : stash.Moved changes left) (id : String) :
    (left.count id).val = changes.foldl (tally id) (stash.count id).val := by
  cases h with
  | still silent =>
    refine (foldl_tally_other (fun change member same => ?_) _).symm
    rw [silent change member] at same
    cases same
  | @granted other amount =>
    rw [List.foldl_cons, List.foldl_nil, tally, count_add]
    split
    · rename_i same
      subst same
      exact Count.val_add ..
    · rfl
  | @consumed other amount _ removed =>
    rw [List.foldl_cons, List.foldl_nil, tally, (remove_ok removed).2]
    split
    · rename_i same
      subst same
      exact Count.val_sub ..
    · rfl

theorem covered (h : stash.Moved changes left) {early late : List Change} {id : String}
    {amount : Count} (here : changes = early ++ .materialConsumed id amount :: late) :
    early = [] ∧ amount.val ≤ (stash.count id).val := by
  cases h with
  | still silent =>
    have told := silent (.materialConsumed id amount) (by rw [here]; simp)
    cases told
  | granted =>
    obtain ⟨rfl, same⟩ | ⟨_, _, same⟩ := List.cons_eq_append_iff.mp here
    · cases same
    · simp at same
  | consumed removed =>
    obtain ⟨rfl, same⟩ | ⟨_, _, same⟩ := List.cons_eq_append_iff.mp here
    · cases same
      exact ⟨rfl, (remove_ok removed).1⟩
    · simp at same

theorem unmoved (h : stash.Moved changes left)
    (silent : ∀ change ∈ changes, change.material? = none) : left = stash := by
  cases h with
  | still => rfl
  | granted => exact nomatch silent _ (List.mem_singleton_self _)
  | consumed => exact nomatch silent _ (List.mem_singleton_self _)

end Stash.Moved

theorem Told.silent {target : Seat} {before after : Character} {type : EffectType}
    {changes : List Change} (h : Told target before after type changes) :
    ∀ change ∈ changes, change.material? = none := by
  cases h <;> simp [material?]

namespace Handler
variable {type : EffectType} {effect : Effect} {targets : List Seat} {ctx after : Context}
  {changes : List Change}

theorem builtin_stash (lands : type.targetsCharacters = true)
    (h : Handler.builtin type effect targets ctx = .ok (changes, after)) :
    after.stash = ctx.stash := by
  obtain ⟨step, deed, separate, steps⟩ := builtin_separate lands h
  rw [steps] at h
  refine forEach_relates (R := fun before after => after.stash = before.stash) (fun _ => rfl)
    (fun first second => second.trans first) (fun stepped => ?_) h
  rw [separate] at stepped
  obtain ⟨dealt, -, moved⟩ := map_ok stepped
  rw [← (Prod.mk.inj moved).2]
  rfl

theorem builtin_moved {stash : Stash} (attached : ctx.stash = some stash) (distinct : targets.Nodup)
    (h : Handler.builtin type effect targets ctx = .ok (changes, after)) :
    ∃ left, after.stash = some left ∧ stash.Moved changes left := by
  by_cases lands : type.targetsCharacters = true
  · refine ⟨stash, (builtin_stash lands h).trans attached, .still ?_⟩
    obtain ⟨parts, rfl, told⟩ := builtin_told lands distinct h
    intro change member
    obtain ⟨target, hit, part⟩ := List.mem_flatMap.mp member
    exact (told target hit).silent change part
  · cases type with
    | statModifier =>
      change statModifier effect targets ctx = _ at h
      obtain ⟨rfl | ⟨_, _, rfl⟩, rfl⟩ := statModifier_ok h
      · exact ⟨stash, attached, .still (by simp)⟩
      · exact ⟨stash, attached, .still (by simp [material?])⟩
    | grantMaterial =>
      change grantMaterial effect targets ctx = _ at h
      obtain ⟨rfl, rfl⟩ | ⟨id, _, held, _, here, positive, rfl, rfl⟩ := grantMaterial_ok h
      · exact ⟨stash, attached, .still (by simp)⟩
      · obtain rfl := Option.some.inj (attached.symm.trans here)
        exact ⟨_, rfl, .granted (Nat.pos_of_ne_zero positive)⟩
    | consumeMaterial =>
      change consumeMaterial effect targets ctx = _ at h
      obtain ⟨rfl, rfl⟩ | ⟨id, _, held, left, _, here, removed, rfl, rfl⟩ := consumeMaterial_ok h
      · exact ⟨stash, attached, .still (by simp)⟩
      · obtain rfl := Option.some.inj (attached.symm.trans here)
        exact ⟨left, rfl, .consumed removed⟩
    | _ => exact absurd rfl lands

end Handler

namespace Handler
variable {effect : Effect} {targets : List Seat} {ctx after : Context} {changes : List Change}
  {id : String} {stash : Stash}

/-- An amount below zero counts as zero, and one beyond every count as the greatest. -/
theorem quantity_val (effect : Effect) (ctx : Context) :
    (quantity effect ctx).val =
      if effect.amount.isSome then Nat.min (ctx.amount effect).toNat 4294967295 else 1 := by
  unfold quantity
  cases effect.amount <;> rfl

theorem grantMaterial_told (grants : effect.kind = .grantMaterial id)
    (attached : ctx.stash = some stash)
    (h : grantMaterial effect targets ctx = .ok (changes, after)) :
    changes =
      if (ctx.content.material? id).isSome ∧ 0 < (quantity effect ctx).val then
        [.materialGranted id (quantity effect ctx)]
      else [] := by
  unfold grantMaterial at h
  rw [grants, attached] at h
  dsimp only at h
  cases known : ctx.content.material? id with
  | none =>
    rw [known] at h
    exact (pair_ok h).1.symm
  | some material =>
    rw [known] at h
    dsimp only at h
    split at h
    · rename_i nothing
      rw [if_neg fun asked => absurd nothing (Nat.ne_of_gt asked.2)]
      exact (pair_ok h).1.symm
    · rename_i positive
      rw [if_pos ⟨rfl, Nat.pos_of_ne_zero positive⟩]
      exact (pair_ok h).1.symm

theorem consumeMaterial_told (tidy : stash.Tidy) (uses : effect.kind = .consumeMaterial id)
    (attached : ctx.stash = some stash)
    (h : consumeMaterial effect targets ctx = .ok (changes, after)) :
    changes =
      if (ctx.content.material? id).isSome ∧ 0 < (stash.count id).val ∧
          (quantity effect ctx).val ≤ (stash.count id).val then
        [.materialConsumed id (quantity effect ctx)]
      else [] := by
  have removable : (∃ left, stash.remove id (quantity effect ctx) = .ok left) ↔
      0 < (stash.count id).val ∧ (quantity effect ctx).val ≤ (stash.count id).val := by
    rw [Stash.remove_ok_iff, tidy.get?_isSome]
  unfold consumeMaterial at h
  rw [uses, attached] at h
  dsimp only at h
  cases known : ctx.content.material? id with
  | none =>
    rw [known] at h
    exact (pair_ok h).1.symm
  | some material =>
    rw [known] at h
    dsimp only at h
    split at h
    · rename_i left removed
      rw [if_pos ⟨rfl, removable.mp ⟨left, removed⟩⟩]
      exact (pair_ok h).1.symm
    · rename_i failed
      have short : ¬(0 < (stash.count id).val ∧
          (quantity effect ctx).val ≤ (stash.count id).val) := by
        intro enough
        obtain ⟨left, removed⟩ := removable.mpr enough
        rw [removed] at failed
        cases failed
      rw [if_neg fun known => short known.2]
      exact (pair_ok h).1.symm

end Handler

/-- What resolving an effect does with a stash. -/
structure Stash.Served (stash : Stash) (effect : Effect) (ctx : Context) (outcome : Option Outcome)
    (left : Stash) : Prop where
  /-- Where no record tells of a material, the stash is as it was. -/
  silent : (∀ change ∈ outcome.toList.flatMap (·.changes), change.material? = none) → left = stash
  others : ∀ id, (∀ change ∈ outcome.toList.flatMap (·.changes), change.material? ≠ some id) →
    left.count id = stash.count id
  quantity : (Handler.quantity effect ctx).val =
    if effect.amount.isSome then Nat.min (ctx.amount effect).toNat 4294967295 else 1
  /-- An effect that fires grants a known material, unless the quantity is none. -/
  grants : ∀ id, effect.kind = .grantMaterial id → outcome.any (!·.blocked) →
    outcome.toList.flatMap (·.changes) =
      if (ctx.content.material? id).isSome ∧ 0 < (Handler.quantity effect ctx).val then
        [.materialGranted id (Handler.quantity effect ctx)]
      else []
  /-- An effect that fires takes of a known material, if there is any of it and enough. -/
  uses : ∀ id, effect.kind = .consumeMaterial id → outcome.any (!·.blocked) →
    outcome.toList.flatMap (·.changes) =
      if (ctx.content.material? id).isSome ∧ 0 < (stash.count id).val ∧
          (Handler.quantity effect ctx).val ≤ (stash.count id).val then
        [.materialConsumed id (Handler.quantity effect ctx)]
      else []

section
variable {handlers : Handlers} {effect : Effect} {ctx after : Context} {outcome : Option Outcome}
  {stash : Stash}

theorem process_moved (builtin : handlers.AllBuiltin) (attached : ctx.stash = some stash)
    (h : process handlers effect ctx = .ok (outcome, after)) :
    ∃ left, after.stash = some left ∧
      stash.Moved (outcome.toList.flatMap (·.changes)) left := by
  cases process_resolution h with
  | unhandled => exact ⟨stash, attached, .still (by simp)⟩
  | blocked => exact ⟨stash, attached, .still (by simp [Outcome.blockedBy])⟩
  | @resolved type _ changes handled _ typed known free handling counted =>
    obtain rfl := builtin _ _ known
    have held : (ctx.seek type effect).2.stash = some stash := by
      rw [Context.seek_rest]
      exact attached
    obtain ⟨left, here, moved⟩ := Handler.builtin_moved held (Context.seek_nodup ..) handling
    refine ⟨left, ?_, ?_⟩
    · rw [Context.recordUse_rest counted]
      exact here
    · rw [Option.toList_some, List.flatMap_singleton]
      exact moved

/-- An effect that fires records what the handler of its type does. -/
theorem process_fired {type : EffectType} (builtin : handlers.AllBuiltin)
    (typed : effect.type? = some type) (h : process handlers effect ctx = .ok (outcome, after))
    (fired : outcome.any (!·.blocked) = true) :
    ∃ changes handled,
      Handler.builtin type effect (ctx.seek type effect).1 (ctx.seek type effect).2 =
        .ok (changes, handled) ∧ outcome.toList.flatMap (·.changes) = changes := by
  cases process_resolution h with
  | unhandled => cases fired
  | blocked => cases fired
  | @resolved other _ changes handled _ named known _ handling _ =>
    obtain rfl := builtin _ _ known
    obtain rfl : type = other := Option.some.inj (typed.symm.trans named)
    exact ⟨changes, handled, handling, List.flatMap_singleton ..⟩

theorem process_serves (builtin : handlers.AllBuiltin) (tidy : stash.Tidy)
    (attached : ctx.stash = some stash) (h : process handlers effect ctx = .ok (outcome, after)) :
    ∃ left, after.stash = some left ∧ stash.Served effect ctx outcome left := by
  obtain ⟨left, here, moved⟩ := process_moved builtin attached h
  refine ⟨left, here, ?_⟩
  constructor
  case silent => exact moved.unmoved
  case others =>
    intro id others
    refine Count.ext ?_
    rw [moved.counts, foldl_tally_other others]
  case quantity => exact Handler.quantity_val effect ctx
  case grants =>
    intro id grants fired
    have typed : effect.type? = some .grantMaterial := congrArg EffectKind.type? grants
    obtain ⟨changes, handled, handling, told⟩ := process_fired builtin typed h fired
    have granting : Handler.grantMaterial effect [] ctx = .ok (changes, handled) := handling
    rw [told]
    exact Handler.grantMaterial_told grants attached granting
  case uses =>
    intro id uses fired
    have typed : effect.type? = some .consumeMaterial := congrArg EffectKind.type? uses
    obtain ⟨changes, handled, handling, told⟩ := process_fired builtin typed h fired
    have taking : Handler.consumeMaterial effect [] ctx = .ok (changes, handled) := handling
    rw [told]
    exact Handler.consumeMaterial_told tidy uses attached taking

end

/-! ### Effects on materials go through -/

def EffectType.onMaterials : EffectType → Bool
  | .grantMaterial | .consumeMaterial => true
  | _ => false

theorem Handler.material_finishes {type : EffectType} (material : type.onMaterials = true)
    (effect : Effect) (targets : List Seat) (ctx : Context) :
    (Handler.builtin type effect targets ctx).Finishes := by
  cases type with
  | grantMaterial =>
    show (grantMaterial effect targets ctx).Finishes
    unfold grantMaterial
    split
    · split
      · dsimp only
        split <;> exact finishes_ok _
      · exact finishes_ok _
    · exact finishes_ok _
  | consumeMaterial =>
    show (consumeMaterial effect targets ctx).Finishes
    unfold consumeMaterial
    split
    · split
      · dsimp only
        split <;> exact finishes_ok _
      · exact finishes_ok _
    · exact finishes_ok _
  | _ => cases material

theorem process_material_finishes {handlers : Handlers} (builtin : handlers.AllBuiltin)
    {effect : Effect} (material : effect.type?.any (·.onMaterials) = true) (ctx : Context) :
    (process handlers effect ctx).Finishes := by
  obtain ⟨type, typed, material⟩ := (Option.any_eq_true ..).mp material
  cases ran : process handlers effect ctx with
  | ok result => exact finishes_ok result
  | error fault =>
    -- without limits it would fault as well, but there it goes through
    have faults := process_fault builtin ran
    have finishes : (process handlers effect { ctx with limits := none }).Finishes := by
      cases known : handlers type with
      | none =>
        rw [process, typed]
        dsimp only
        rw [known]
        exact finishes_ok _
      | some handler =>
        obtain rfl := builtin _ _ known
        rw [process_handled typed known, if_neg (by simp [Context.isBlocked])]
        refine (Handler.material_finishes material ..).bind fun result handling => ?_
        obtain ⟨changes, handled⟩ := result
        have unlimited : handled.limits = none := by
          rw [(Handler.builtin_keeps handling).1, Context.seek_unlimited]
        dsimp only
        rw [Context.recordUse_unlimited unlimited]
        exact finishes_ok _
    obtain ⟨result, done⟩ := finishes
    rw [faults] at done
    cases done

/-! ### Whole histories -/

/-- The histories of a stash that begins empty: effects resolved one by one, each in any context
that holds the stash, with the changes recorded so far. -/
inductive StashHistory (handlers : Handlers) : List Change → Stash → Prop where
  | start : StashHistory handlers [] {}
  | resolved {changes : List Change} {stash left : Stash} {effect : Effect} {ctx after : Context}
    {outcome : Option Outcome} (earlier : StashHistory handlers changes stash)
    (attached : ctx.stash = some stash)
    (h : process handlers effect ctx = .ok (outcome, after)) (kept : after.stash = some left) :
    StashHistory handlers (changes ++ outcome.toList.flatMap (·.changes)) left

/-- A stash is what the changes make of an empty one. -/
structure Stash.Replays (changes : List Change) (stash : Stash) : Prop where
  counted : ∀ id, (stash.count id).val = tallyAll id changes
  /-- No more is taken than there is. -/
  covered : ∀ early late id amount, changes = early ++ .materialConsumed id amount :: late →
    amount.val ≤ tallyAll id early
  /-- The materials of which there is something are listed, once each. -/
  listed : ∀ id amount, (id, amount) ∈ stash.counts.toList ↔
    stash.count id = amount ∧ 0 < amount.val
  once : stash.counts.ids.Nodup

namespace StashHistory
variable {handlers : Handlers} {changes : List Change} {stash : Stash}

theorem tidy (builtin : handlers.AllBuiltin) (history : StashHistory handlers changes stash) :
    stash.Tidy := by
  induction history with
  | start => exact .empty
  | resolved earlier attached h kept tidy =>
    obtain ⟨left, here, moved⟩ := process_moved builtin attached h
    obtain rfl := Option.some.inj (kept.symm.trans here)
    exact moved.tidy tidy

theorem counted (builtin : handlers.AllBuiltin) (history : StashHistory handlers changes stash)
    (id : String) : (stash.count id).val = tallyAll id changes := by
  induction history with
  | start => rfl
  | resolved earlier attached h kept counted =>
    obtain ⟨left, here, moved⟩ := process_moved builtin attached h
    obtain rfl := Option.some.inj (kept.symm.trans here)
    rw [moved.counts, counted, tallyAll, tallyAll, List.foldl_append]

theorem covered (builtin : handlers.AllBuiltin) (history : StashHistory handlers changes stash)
    {early late : List Change} {id : String} {amount : Count}
    (here : changes = early ++ .materialConsumed id amount :: late) :
    amount.val ≤ tallyAll id early := by
  induction history generalizing late with
  | start => simp at here
  | @resolved changes stash _ _ _ _ outcome earlier attached h kept covered =>
    obtain ⟨left, -, moved⟩ := process_moved builtin attached h
    obtain ⟨rest, rfl, new⟩ | ⟨rest, rfl, old⟩ := List.append_eq_append_iff.mp here
    · obtain ⟨rfl, enough⟩ := moved.covered new
      rw [List.append_nil, ← earlier.counted builtin]
      exact enough
    · cases rest with
      | nil =>
        rw [List.append_nil] at earlier
        have new : outcome.toList.flatMap (·.changes) = [] ++ .materialConsumed id amount :: late :=
          old.symm
        rw [← earlier.counted builtin]
        exact (moved.covered new).2
      | cons change rest =>
        obtain ⟨rfl, -⟩ := List.cons.inj old
        exact covered rfl

end StashHistory

/-- A stash is what the recorded changes make of an empty one, whatever was resolved, and it lists
what there is. An effect moves the material it records and no other; grants and uses go through. -/
theorem stash_replays_changes {handlers : Handlers} (builtin : handlers.AllBuiltin)
    {changes : List Change} {stash : Stash} (history : StashHistory handlers changes stash) :
    stash.Replays changes ∧
      (∀ effect ctx after outcome, ctx.stash = some stash →
        process handlers effect ctx = .ok (outcome, after) →
        ∃ left, after.stash = some left ∧ stash.Served effect ctx outcome left) ∧
      ∀ effect ctx, effect.type?.any (·.onMaterials) = true →
        (process handlers effect ctx).Finishes := by
  have tidy := history.tidy builtin
  refine ⟨?_, ?_, ?_⟩
  · constructor
    case counted => exact history.counted builtin
    case covered => exact fun early late id amount here => history.covered builtin here
    case listed => exact fun id amount => tidy.mem_toList
    case once =>
      refine List.pairwise_map.mpr (stash.counts.sorted.imp fun {a b} below same => ?_)
      exact String.lt_irrefl b.1 (same ▸ below)
  · intro effect ctx after outcome attached h
    exact process_serves builtin tidy attached h
  · intro effect ctx material
    exact process_material_finishes builtin material ctx

/-! A mine that yields more ore than can be counted, and a furnace that uses up what there is. -/

namespace StashHistory

def mine (amount : Float) : Effect :=
  { kind := .grantMaterial "ore", amount := some (.flat amount) }

def smelt (amount : Float) : Effect :=
  { kind := .consumeMaterial "ore", amount := some (.flat amount) }

def camp (stash : Stash) : Context where
  encounter := ⟨⟨.empty, .empty, .empty⟩, ⟨.empty, .empty, .empty⟩⟩
  content := Content.addMaterial {} { id := "ore", name := "Ore" }
  stash := some stash

def smelted : List Change :=
  [.materialGranted "ore" 4294967295, .materialGranted "ore" 3, .materialConsumed "ore" 4294967295]

theorem resolve {changes told : List Change} {stash left : Stash} (effect : Effect)
    (earlier : StashHistory Handlers.builtin changes stash)
    (done : (process Handlers.builtin effect (camp stash)).toOption.any (fun result =>
      decide (result.1.toList.flatMap (·.changes) = told ∧ result.2.stash = some left)) = true) :
    StashHistory Handlers.builtin (changes ++ told) left := by
  obtain ⟨⟨outcome, after⟩, h, rfl, kept⟩ := holds_ok done
  exact .resolved earlier rfl h kept

end StashHistory
open StashHistory

theorem stash_replays_changes_smelted :
    Handlers.builtin.AllBuiltin ∧ StashHistory Handlers.builtin smelted {} ∧
      Stash.Replays smelted {} ∧
      ∃ outcome after, process Handlers.builtin (smelt 1) (camp {}) = .ok (some outcome, after) ∧
        outcome.changes = [] ∧ after.stash = some {} := by
  have builtin := Handlers.builtin_allBuiltin
  have mined : StashHistory Handlers.builtin [.materialGranted "ore" 4294967295]
      (Stash.add {} "ore" 4294967295) := resolve (mine 5000000000) .start (by decide +kernel)
  have more : StashHistory Handlers.builtin
      [.materialGranted "ore" 4294967295, .materialGranted "ore" 3]
      (Stash.add {} "ore" 4294967295) := resolve (mine 3) mined (by decide +kernel)
  have gone : StashHistory Handlers.builtin smelted {} :=
    resolve (smelt 4294967295) more (by decide +kernel)
  obtain ⟨replays, served, -⟩ := stash_replays_changes builtin gone
  obtain ⟨⟨outcome, after⟩, h, fired⟩ : ∃ result,
      process Handlers.builtin (smelt 1) (camp {}) = .ok result ∧
        result.1.any (!·.blocked) = true := holds_ok (by decide +kernel)
  obtain ⟨outcome, rfl, -⟩ := (Option.any_eq_true ..).mp fired
  obtain ⟨left, kept, serves⟩ := served (smelt 1) (camp {}) after _ rfl h
  have told : outcome.changes = [] := by
    rw [← List.flatMap_singleton (·.changes) outcome]
    exact serves.uses "ore" rfl fired
  obtain rfl := serves.silent (by
    rw [Option.toList_some, List.flatMap_singleton, told]
    exact fun _ member => absurd member List.not_mem_nil)
  exact ⟨builtin, gone, replays, outcome, after, h, told, kept⟩

end Combat
