import Combat.Proofs.Aura.Places
import Combat.Proofs.Keeping

/-!
Applying an aura again. Applications that merge go to one slot, whatever other auras take and keep
beside it; its stacks and its amount are what the policies of the aura make of all that was given.
-/

namespace Combat
open Checked

/-! ### What the policies come to -/

/-- The stacks after counts applied in turn. -/
def StackPolicy.total : StackPolicy → List Nat → Nat
  | .stack, counts => min Count.greatest (counts.foldl (· + ·) 0)
  | .refresh, counts => counts.getLast?.getD 0
  | .keep, counts => counts.foldl max 0

/-- The amount stored after amounts given in turn. -/
def AmountPolicy.total : AmountPolicy → List Float → Option Float
  | .accumulate, [] => none
  | .accumulate, first :: rest => some (rest.foldl (· + ·) first)
  | .overwrite, amounts => amounts.getLast?
  | .keep, amounts => amounts.head?

theorem StackPolicy.total_concat (policy : StackPolicy) (counts : List Nat) (held applied : Count)
    (same : held.val = policy.total counts) :
    (policy.merge held applied).val = policy.total (counts ++ [applied.val]) := by
  cases policy with
  | stack =>
    rw [merge, Count.val_add, same, total, total, List.foldl_append, List.foldl_cons,
      List.foldl_nil]
    simp only [Nat.min_def]
    grind
  | refresh => simp [merge, total]
  | keep => rw [merge, Count.val_max, same, total, total, List.foldl_append]; rfl

theorem StackPolicy.total_singleton (policy : StackPolicy) (applied : Count) :
    policy.total [applied.val] = applied.val := by
  have bound : applied.val ≤ Count.greatest := applied.le_greatest
  cases policy with
  | stack => simpa [total] using Nat.min_eq_right bound
  | refresh => rfl
  | keep => simp [total]

theorem StackPolicy.merge_pos (policy : StackPolicy) {held applied : Count} (stacked : 0 < held.val)
    (more : applied.val ≠ 0) : 0 < (policy.merge held applied).val := by
  cases policy with
  | stack =>
    rw [merge, Count.val_add]
    simp only [Nat.min_def, Count.greatest]
    grind
  | refresh => exact Nat.pos_of_ne_zero more
  | keep =>
    rw [merge, Count.val_max]
    simp only [Nat.max_def]
    grind

theorem AmountPolicy.total_append (policy : AmountPolicy) (amounts : List Float)
    (applied : Option Float) :
    policy.merge (policy.total amounts) applied = policy.total (amounts ++ applied.toList) := by
  cases applied with
  | none =>
    rw [Option.toList_none, List.append_nil]
    cases policy with
    | accumulate => cases amounts <;> rfl
    | overwrite => rfl
    | keep => cases amounts <;> rfl
  | some amount =>
    cases policy with
    | accumulate =>
      cases amounts with
      | nil => rfl
      | cons first rest => simp [merge, total]
    | overwrite => simp [merge, total]
    | keep => cases amounts <;> rfl

theorem AmountPolicy.total_toList (policy : AmountPolicy) (applied : Option Float) :
    policy.total applied.toList = applied := by
  cases applied <;> cases policy <;> rfl

/-! ### One application -/

namespace AuraSlots

/-- No active slot has the id. -/
def Absent (id : String) (slots : List AuraSlot) : Prop :=
  ∀ slot ∈ slots, slot.carries id = false

/-- The one active slot that has the id. -/
structure Alone (id : String) (index : Nat) (slot : AuraSlot) (slots : List AuraSlot) : Prop where
  here : slots[index]? = some slot
  carries : slot.carries id = true
  only : ∀ (other : Nat) (there : AuraSlot), slots[other]? = some there →
    there.carries id = true → other = index

theorem carries_inj {slot : AuraSlot} {id other : String} (first : slot.carries id = true)
    (second : slot.carries other = true) : id = other := by
  obtain ⟨-, _, holds, rfl⟩ := AuraSlot.carries_iff.mp first
  obtain ⟨-, _, again, rfl⟩ := AuraSlot.carries_iff.mp second
  rw [Option.some.inj (holds.symm.trans again)]

theorem merges_carries {held : RegisteredAura} {application : AuraApplication} {slot : AuraSlot}
    (merging : merges held application slot = true) : slot.carries held.id = true := by
  rw [merges, Bool.and_eq_true] at merging
  exact merging.1

theorem Applied.frame {held : RegisteredAura} {application : AuraApplication}
    {before after : List AuraSlot} {index : Nat}
    (applied : Applied held application before index after) {other : Nat} (apart : other ≠ index) :
    after[other]? = before[other]? := by
  cases applied with
  | merged => rw [List.getElem?_modify_ne _ _ (Ne.symm apart)]
  | placed placed => exact placed.frame other apart

/-- An application changes a slot of its own id, or one that is not active. -/
theorem Applied.elsewhere {held : RegisteredAura} {application : AuraApplication}
    {before after : List AuraSlot} {index : Nat}
    (applied : Applied held application before index after) {id : String} (apart : held.id ≠ id)
    (other : Nat) {slot : AuraSlot} (carries : slot.carries id = true) :
    after[other]? = some slot ↔ before[other]? = some slot := by
  by_cases at_index : other = index
  · subst at_index
    -- neither the slot that the application found nor the one it left has the other id
    cases applied with
    | @merged slot₀ here merging =>
      have found := merges_carries merging
      rw [List.getElem?_modify_eq, here]
      constructor
      · intro there
        obtain rfl := Option.some.inj there
        have left := (AuraSlot.Remains.mergeInto merging).carries carries
        exact absurd (carries_inj found left) apart
      · intro there
        obtain rfl := Option.some.inj there
        exact absurd (carries_inj found carries) apart
    | placed placed =>
      constructor
      · intro there
        obtain rfl := Option.some.inj (placed.here.symm.trans there)
        exact absurd (fresh_carries carries) apart
      · intro there
        have idle := placed.idle slot there
        rw [(AuraSlot.carries_iff.mp carries).1] at idle
        cases idle
  · rw [applied.frame at_index]

theorem Applied.absent {held : RegisteredAura} {application : AuraApplication}
    {before after : List AuraSlot} {index : Nat}
    (applied : Applied held application before index after) {id : String} (apart : held.id ≠ id)
    (absent : Absent id before) : Absent id after := by
  intro slot member
  obtain ⟨other, there⟩ := List.mem_iff_getElem?.mp member
  refine Bool.eq_false_iff.mpr fun carries => ?_
  have was := (applied.elsewhere apart other carries).mp there
  rw [absent slot (List.mem_of_getElem? was)] at carries
  cases carries

theorem Applied.alone {held : RegisteredAura} {application : AuraApplication}
    {before after : List AuraSlot} {index place : Nat} {slot : AuraSlot}
    (applied : Applied held application before index after) {id : String} (apart : held.id ≠ id)
    (alone : Alone id place slot before) : Alone id place slot after where
  here := (applied.elsewhere apart place alone.carries).mpr alone.here
  carries := alone.carries
  only other _ there carries :=
    alone.only other _ ((applied.elsewhere apart other carries).mp there) carries

/-- The first application of an aura takes a slot of its own. -/
theorem Applied.first {held : RegisteredAura} {application : AuraApplication}
    {before after : List AuraSlot} {index : Nat} (stacked : application.stackCount.val ≠ 0)
    (absent : Absent held.id before) (applied : Applied held application before index after) :
    Alone held.id index (fresh held application) after := by
  cases applied with
  | merged here merging =>
    have carries := merges_carries merging
    rw [absent _ (List.mem_of_getElem? here)] at carries
    cases carries
  | placed placed =>
    refine ⟨placed.here, ?_, fun other slot there carries => ?_⟩
    · exact AuraSlot.carries_iff.mpr ⟨fresh_isActive stacked held, held, rfl, rfl⟩
    · by_contra apart
      rw [placed.frame other apart] at there
      rw [absent slot (List.mem_of_getElem? there)] at carries
      cases carries

theorem mergeInto_eq {slot : AuraSlot} {held : RegisteredAura} (holds : slot.held = some held)
    (application : AuraApplication) :
    mergeInto held application slot = { slot with
      stackCount := held.aura.stackPolicy.merge slot.stackCount application.stackCount
      amount := held.aura.amountPolicy.merge slot.amount application.amount } := by
  rw [mergeInto, AuraSlot.set, if_neg (by rw [AuraSlot.isEmpty, holds]; exact Bool.false_ne_true)]

/-- Any later one that merges goes to that slot. -/
theorem Applied.again {held : RegisteredAura} {application : AuraApplication}
    {before after : List AuraSlot} {index place : Nat} {slot : AuraSlot}
    (stacked : application.stackCount.val ≠ 0) (holds : slot.held = some held)
    (alone : Alone held.id place slot before) (merging : merges held application slot = true)
    (applied : Applied held application before index after) :
    index = place ∧ Alone held.id place (mergeInto held application slot) after := by
  cases applied with
  | placed placed =>
    rw [placed.apart slot (List.mem_of_getElem? alone.here)] at merging
    cases merging
  | @merged found here finds =>
    obtain rfl := alone.only index found here (merges_carries finds)
    obtain rfl := Option.some.inj (alone.here.symm.trans here)
    refine ⟨rfl, ?_, ?_, fun other there at_other carries => ?_⟩
    · rw [List.getElem?_modify_eq, here]
      rfl
    · have active := (AuraSlot.carries_iff.mp alone.carries).1
      rw [AuraSlot.isActive, Bool.and_eq_true, decide_eq_true_eq] at active
      rw [mergeInto_eq holds, AuraSlot.carries_iff]
      refine ⟨?_, held, holds, rfl⟩
      rw [AuraSlot.isActive, Bool.and_eq_true, decide_eq_true_eq]
      exact ⟨active.1, held.aura.stackPolicy.merge_pos active.2 stacked⟩
    · by_contra apart
      rw [List.getElem?_modify_ne _ _ (Ne.symm apart)] at at_other
      exact apart (alone.only other there at_other carries)

/-! ### Applications in turn -/

/-- Applies the aura, or one of another id. -/
def Action.AppliesBeside (held : RegisteredAura) : Action → Prop
  | .add other _ => other = held ∨ other.id ≠ held.id
  | _ => False

/-- What the action applies of the aura; without stacks nothing is. -/
def Action.given? (held : RegisteredAura) : Action → Option AuraApplication
  | .add other application =>
    if other = held ∧ application.stackCount.val ≠ 0 then some application else none
  | _ => none

def given (held : RegisteredAura) (actions : List Action) : List AuraApplication :=
  actions.filterMap (·.given? held)

/-- The instance of an aura after applications of it in turn. -/
structure Gathered (held : RegisteredAura) (first : AuraApplication) (rest : List AuraApplication)
    (slot : AuraSlot) : Prop where
  holds : slot.held = some held
  source : slot.source = first.source
  stackCount : slot.stackCount.val =
    held.aura.stackPolicy.total ((first :: rest).map (·.stackCount.val))
  amount : slot.amount = held.aura.amountPolicy.total ((first :: rest).filterMap (·.amount))

theorem filterMap_amount (application : AuraApplication) :
    [application].filterMap (·.amount) = application.amount.toList := by
  rw [List.filterMap_cons]
  cases application.amount <;> rfl

theorem gathered_fresh (held : RegisteredAura) (application : AuraApplication) :
    Gathered held application [] (fresh held application) where
  holds := rfl
  source := rfl
  stackCount := (held.aura.stackPolicy.total_singleton application.stackCount).symm
  amount := by
    rw [filterMap_amount, AmountPolicy.total_toList]
    rfl

theorem Gathered.merge {held : RegisteredAura} {first : AuraApplication}
    {rest : List AuraApplication} {slot : AuraSlot} (gathered : Gathered held first rest slot)
    (application : AuraApplication) :
    Gathered held first (rest ++ [application]) (mergeInto held application slot) := by
  rw [mergeInto_eq gathered.holds]
  refine ⟨gathered.holds, gathered.source, ?_, ?_⟩
  · rw [← List.cons_append, List.map_append]
    exact held.aura.stackPolicy.total_concat _ _ _ gathered.stackCount
  · rw [← List.cons_append, List.filterMap_append, filterMap_amount, ← AmountPolicy.total_append,
      ← gathered.amount]

theorem given_concat (held : RegisteredAura) (actions : List Action) (action : Action) :
    given held (actions ++ [action]) = given held actions ++ (action.given? held).toList := by
  rw [given, List.filterMap_append, List.filterMap_cons]
  cases action.given? held <;> rfl

/-- What an application not of the aura leaves alone. -/
theorem act_beside {held : RegisteredAura} {action : Action} {before after : AuraSlots}
    (beside : action.AppliesBeside held) (other : action.given? held = none)
    (h : act action before = .ok after) :
    after = before ∨ ∃ index application aura, aura.id ≠ held.id ∧
      Applied aura application before.slots index after.slots := by
  cases action with
  | add aura application =>
    obtain ⟨-, same⟩ | ⟨stacked, index, -, applied⟩ := act_add h
    · exact .inl same
    · obtain rfl | apart := beside
      · rw [Action.given?, if_pos ⟨rfl, stacked⟩] at other
        cases other
      · exact .inr ⟨index, application, aura, apart, applied⟩
  | _ => exact beside.elim

theorem given?_eq_some {held : RegisteredAura} {action : Action} {application : AuraApplication}
    (h : action.given? held = some application) :
    action = .add held application ∧ application.stackCount.val ≠ 0 := by
  cases action with
  | add other applied =>
    rw [Action.given?] at h
    split at h
    · rename_i own
      obtain rfl := Option.some.inj h
      exact ⟨by rw [own.1], own.2⟩
    · cases h
  | _ => cases h

/-- Every application of the aura so far went to one slot and changed no other. -/
def WentTo (held : RegisteredAura) (index : Nat) (actions : List Action) (auras : AuraSlots) :
    Prop :=
  ∀ early application, early ++ [.add held application] <+: actions →
    application.stackCount.val ≠ 0 → ∀ before, play act early auras = .ok before →
      ∃ next, before.add held application = .ok (some index, next) ∧
        ∀ other, other ≠ index → next.slots[other]? = before.slots[other]?

theorem WentTo.of_none {held : RegisteredAura} {actions : List Action}
    (none : given held actions = []) (index : Nat) (auras : AuraSlots) :
    WentTo held index actions auras := by
  intro early application part stacked
  have member : application ∈ given held actions := by
    refine List.mem_filterMap.mpr ⟨.add held application, part.subset (by simp), ?_⟩
    exact if_pos ⟨rfl, stacked⟩
  rw [none] at member
  cases member

theorem WentTo.beside {held : RegisteredAura} {index : Nat} {actions : List Action}
    {auras : AuraSlots} (went : WentTo held index actions auras) {action : Action}
    (other : action.given? held = none) : WentTo held index (actions ++ [action]) auras := by
  intro early application part stacked
  obtain same | part := List.prefix_concat_iff.mp part
  · obtain ⟨-, last⟩ := List.append_inj' same rfl
    obtain rfl := (List.cons.inj last).1
    rw [Action.given?, if_pos ⟨rfl, stacked⟩] at other
    cases other
  · exact went early application part stacked

theorem WentTo.own {held : RegisteredAura} {index : Nat} {actions : List Action}
    {auras middle after : AuraSlots} {application : AuraApplication}
    (went : WentTo held index actions auras) (reached : play act actions auras = .ok middle)
    (added : middle.add held application = .ok (some index, after))
    (frame : ∀ other, other ≠ index → after.slots[other]? = middle.slots[other]?) :
    WentTo held index (actions ++ [.add held application]) auras := by
  intro early applied part stacked before played
  obtain same | part := List.prefix_concat_iff.mp part
  · obtain ⟨rfl, last⟩ := List.append_inj' same rfl
    cases last
    obtain rfl := Except.ok.inj (reached.symm.trans played)
    exact ⟨after, added, frame⟩
  · exact went early applied part stacked before played

theorem merges_alike {held : RegisteredAura} {first : AuraApplication}
    {rest : List AuraApplication} {slot : AuraSlot} {application : AuraApplication}
    (alike : held.aura.combine = true ∨ application.source = first.source)
    (gathered : Gathered held first rest slot) (carries : slot.carries held.id = true) :
    merges held application slot = true := by
  rw [merges, carries, Bool.true_and, Bool.or_eq_true, decide_eq_true_eq, gathered.source]
  exact alike.imp_right Eq.symm

/-- The one slot that the applications of an aura went to, as they have left it. -/
def GatheredAt (held : RegisteredAura) (first : AuraApplication) (rest : List AuraApplication)
    (index : Nat) (slots : List AuraSlot) : Prop :=
  ∃ slot, Alone held.id index slot slots ∧ Gathered held first rest slot

/-- They all merge: from one source, or of an aura that combines. -/
def Alike (held : RegisteredAura) (applications : List AuraApplication) : Prop :=
  held.aura.combine = true ∨
    ∃ source, ∀ application ∈ applications, application.source = source

theorem Alike.early {held : RegisteredAura} {first second : List AuraApplication}
    (alike : Alike held (first ++ second)) : Alike held first :=
  alike.imp_right fun ⟨source, same⟩ =>
    ⟨source, fun application member => same application (List.mem_append_left second member)⟩

theorem Alike.last {held : RegisteredAura} {first last : AuraApplication}
    {rest : List AuraApplication} (alike : Alike held (first :: rest ++ [last])) :
    held.aura.combine = true ∨ last.source = first.source := by
  refine alike.imp_right fun ⟨source, same⟩ => ?_
  rw [same last (by simp), same first (by simp)]

/-- What the applications of an aura come to in a run. -/
structure Gathers (held : RegisteredAura) (auras : AuraSlots) (actions : List Action)
    (after : AuraSlots) : Prop where
  absent : given held actions = [] → Absent held.id after.slots
  gathered : ∀ first rest, given held actions = first :: rest →
    ∃ index, GatheredAt held first rest index after.slots ∧ WentTo held index actions auras

theorem Gathers.beside {held : RegisteredAura} {auras middle after : AuraSlots}
    {actions : List Action} (gathers : Gathers held auras actions middle) {action : Action}
    (beside : action.AppliesBeside held) (other : action.given? held = none)
    (done : act action middle = .ok after) : Gathers held auras (actions ++ [action]) after := by
  have unchanged : given held (actions ++ [action]) = given held actions := by
    rw [given_concat, other, Option.toList_none, List.append_nil]
  have stays := act_beside beside other done
  refine ⟨fun none => ?_, fun first rest some => ?_⟩
  · rw [unchanged] at none
    obtain rfl | ⟨_, _, _, apart, applied⟩ := stays
    · exact gathers.absent none
    · exact applied.absent apart (gathers.absent none)
  · rw [unchanged] at some
    obtain ⟨index, ⟨slot, alone, gathered⟩, went⟩ := gathers.gathered first rest some
    refine ⟨index, ⟨slot, ?_, gathered⟩, went.beside other⟩
    obtain rfl | ⟨_, _, _, apart, applied⟩ := stays
    · exact alone
    · exact applied.alone apart alone

theorem Gathers.own {held : RegisteredAura} {auras middle after : AuraSlots}
    {actions : List Action} (gathers : Gathers held auras actions middle)
    {application : AuraApplication} (stacked : application.stackCount.val ≠ 0)
    (alike : Alike held (given held actions ++ [application]))
    (reached : play act actions auras = .ok middle)
    (done : act (.add held application) middle = .ok after) :
    Gathers held auras (actions ++ [.add held application]) after := by
  have more : given held (actions ++ [.add held application]) =
      given held actions ++ [application] := by
    rw [given_concat, Action.given?, if_pos ⟨rfl, stacked⟩, Option.toList_some]
  obtain ⟨none, -⟩ | ⟨-, index, added, applied⟩ := act_add done
  · exact absurd none stacked
  · refine ⟨fun none => absurd (more.symm.trans none) (by simp), fun first rest split => ?_⟩
    rw [more] at split
    cases before : given held actions with
    | nil =>
      rw [before] at split
      cases split
      refine ⟨index, ⟨_, applied.first stacked (gathers.absent before), gathered_fresh ..⟩, ?_⟩
      exact (WentTo.of_none before index auras).own reached added
        fun other apart => applied.frame apart
    | cons one others =>
      rw [before] at split alike
      obtain ⟨rfl, rfl⟩ := List.cons.inj split
      obtain ⟨place, ⟨slot, alone, gathered⟩, went⟩ := gathers.gathered one others before
      obtain ⟨rfl, alone⟩ := applied.again stacked gathered.holds alone
        (merges_alike alike.last gathered alone.carries)
      exact ⟨index, ⟨_, alone, gathered.merge application⟩,
        went.own reached added fun other apart => applied.frame apart⟩

theorem play_gathers {held : RegisteredAura} {auras : AuraSlots}
    (absent : Absent held.id auras.slots) {actions : List Action}
    (beside : ∀ action ∈ actions, action.AppliesBeside held)
    (alike : Alike held (given held actions)) {after : AuraSlots}
    (run : play act actions auras = .ok after) : Gathers held auras actions after := by
  -- on the last action: what was given before it tells a first application from a later one
  induction actions using List.reverseRecOn generalizing after with
  | nil =>
    obtain rfl := pure_ok run
    exact ⟨fun _ => absent, fun _ _ none => by cases none⟩
  | append_singleton actions action ih =>
    obtain ⟨middle, reached, done⟩ := play_concat_ok run
    rw [given_concat] at alike
    have gathers := ih (fun other member => beside other (List.mem_append_left _ member))
      alike.early reached
    cases own : action.given? held with
    | none => exact gathers.beside (beside action (by simp)) own done
    | some application =>
      rw [own] at alike
      obtain ⟨rfl, stacked⟩ := given?_eq_some own
      exact gathers.own stacked alike reached done

theorem add_finishes {auras : AuraSlots} {held : RegisteredAura} {application : AuraApplication} :
    (auras.add held application).Finishes ↔ (application.stackCount.val ≠ 0 →
      ∀ slot ∈ (apply held application auras.slots).2, slot.Fits) := by
  unfold add
  split
  · rename_i nothing
    exact iff_of_true (finishes_ok _) fun stacked => absurd nothing stacked
  · rename_i stacked
    rw [finishes_return, finishes_ofSlots]
    exact ⟨fun fits _ => fits, fun fits => fits stacked⟩

/-- No application of the run leaves a slot of which a modifier leaves its range. -/
def FitsThroughout (actions : List Action) (auras : AuraSlots) : Prop :=
  ∀ early held application before, early ++ [.add held application] <+: actions →
    play act early auras = .ok before → application.stackCount.val ≠ 0 →
      ∀ slot ∈ (apply held application before.slots).2, slot.Fits

theorem play_finishes {held : RegisteredAura} {auras : AuraSlots} {actions : List Action}
    (beside : ∀ action ∈ actions, action.AppliesBeside held) :
    (play act actions auras).Finishes ↔ FitsThroughout actions auras := by
  induction actions using List.reverseRecOn with
  | nil =>
    refine iff_of_true (finishes_ok auras) fun early held application before part => ?_
    exact absurd (List.prefix_nil.mp part) (by simp)
  | append_singleton actions action ih =>
    have ih := ih fun other member => beside other (List.mem_append_left _ member)
    have applies := beside action (by simp)
    cases action with
    | add other application =>
      constructor
      · rintro ⟨after, run⟩ early own applied before part played
        obtain ⟨middle, reached, done⟩ := play_concat_ok run
        obtain same | part := List.prefix_concat_iff.mp part
        · obtain ⟨rfl, last⟩ := List.append_inj' same rfl
          cases last
          obtain rfl := Except.ok.inj (reached.symm.trans played)
          obtain ⟨result, added, -⟩ := bind_ok done
          exact add_finishes.mp ⟨result, added⟩
        · exact ih.mp ⟨middle, reached⟩ early own applied before part played
      · intro fits
        obtain ⟨middle, reached⟩ := ih.mpr fun early own applied before part =>
          fits early own applied before (part.trans (List.prefix_append ..))
        obtain ⟨⟨slot, after⟩, added⟩ := add_finishes.mpr
          (fits actions other application middle (List.prefix_refl _) reached)
        have done : act (.add other application) middle = .ok after := snd_ok added
        refine ⟨after, ?_⟩
        rw [play_concat, reached]
        exact done
    | _ => exact applies.elim

/-- Applications of an aura that has no active instance yet, all of one source or combining, with
applications of other auras in between. The run goes through unless a modifier leaves its range.
Applications without stacks do nothing; all others of the aura go to one slot, change no other, and
leave there what its policies make of them, from the source of the first. -/
theorem applications_gather {held : RegisteredAura} {auras : AuraSlots} {actions : List Action}
    (absent : Absent held.id auras.slots)
    (beside : ∀ action ∈ actions, action.AppliesBeside held)
    (alike : Alike held (given held actions)) :
    ((play act actions auras).Finishes ↔ FitsThroughout actions auras) ∧
      (∀ (application : AuraApplication) (before : AuraSlots), application.stackCount.val = 0 →
        before.add held application = .ok (none, before)) ∧
      ∀ after, play act actions auras = .ok after → Gathers held auras actions after :=
  ⟨play_finishes beside, fun _ _ nothing => if_pos nothing, fun _ run =>
    play_gathers absent beside alike run⟩

/-! An ember that is used up, fed three times more and once with nothing. -/

def ember : RegisteredAura :=
  ⟨2, { id := "ember", name := "Ember", stackPolicy := .stack, amountPolicy := .accumulate }⟩

def ashes : AuraSlots where
  slots := [.setAura ember 0 (some 7) (some ⟨.enemies, .back⟩)]

def spark : AuraApplication :=
  { stackCount := 2, amount := some 10, source := some ⟨.heroes, .front⟩ }

def fuel : List AuraApplication :=
  [{ stackCount := 3, source := some ⟨.heroes, .front⟩ },
    { stackCount := 4294967295, amount := some 5, source := some ⟨.heroes, .front⟩ }]

def kindling : List Action :=
  [.add ember spark, .add ember { stackCount := 0, amount := some 99 },
    .add mark { stackCount := 1 }] ++ fuel.map (.add ember)

def kindled : AuraSlots where
  slots := [.setAura ember 4294967295 (some 15) (some ⟨.heroes, .front⟩), .setAura mark 1 none none]

theorem applications_gather_ember :
    Absent ember.id ashes.slots ∧ (∀ action ∈ kindling, action.AppliesBeside ember) ∧
      given ember kindling = spark :: fuel ∧ play act kindling ashes = .ok kindled ∧
      ∃ index, GatheredAt ember spark fuel index kindled.slots ∧
        WentTo ember index kindling ashes := by
  have absent : Absent ember.id ashes.slots := by
    unfold Absent
    decide
  have beside : ∀ action ∈ kindling, action.AppliesBeside ember := by
    simp [kindling, fuel, Action.AppliesBeside]
    decide
  have split : given ember kindling = spark :: fuel := by decide +kernel
  have alike : ∀ application ∈ given ember kindling,
      application.source = some ⟨.heroes, .front⟩ := by
    rw [split]
    decide
  have run : play act kindling ashes = .ok kindled := by decide +kernel
  obtain ⟨-, -, gathers⟩ := applications_gather absent beside (.inr ⟨_, alike⟩)
  exact ⟨absent, beside, split, run, (gathers kindled run).gathered spark fuel split⟩

end AuraSlots
end Combat
