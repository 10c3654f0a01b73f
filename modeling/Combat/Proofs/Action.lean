import Combat.Character

/-!
What can be done to a character and to its aura slots, as data, so that statements can range over
every history. An action that faults has no state after it; what an action that goes through keeps,
a run of actions keeps.
-/

namespace Combat

/-- Actions taken in turn, ended by the first that faults. -/
def Checked.play {α σ : Type} (act : α → σ → Checked σ) (actions : List α) (state : σ) :
    Checked σ :=
  actions.foldlM (fun state action => act action state) state

/-- Some run of actions leads from one state to the other. -/
def Checked.Leads {α σ : Type} (act : α → σ → Checked σ) (before after : σ) : Prop :=
  ∃ actions, play act actions before = .ok after

namespace Checked

/-! ### Results of steps -/

theorem pair_ok {α β : Type} {a a' : α} {b b' : β}
    (h : (pure (a, b) : Checked (α × β)) = .ok (a', b')) : a = a' ∧ b = b' :=
  Prod.mk.inj (pure_ok h)

/-- The state that an operation leaves beside its answer. -/
theorem snd_ok {α β : Type} {x : Checked (α × β)} {a : α} {b : β} (h : x = .ok (a, b)) :
    (do return (← x).2 : Checked β) = .ok b := by
  rw [h]
  rfl

theorem map_ok {α β : Type} {x : Checked α} {f : α → β} {b : β}
    (h : f <$> x = .ok b) : ∃ a, x = .ok a ∧ f a = b := by
  cases x with
  | error fault => cases h
  | ok a => exact ⟨a, rfl, Except.ok.inj h⟩

instance {α : Type} [DecidableEq α] : DecidableEq (Checked α)
  | .ok a, .ok b => decidable_of_iff (a = b) ⟨congrArg _, Except.ok.inj⟩
  | .error a, .error b => decidable_of_iff (a = b) ⟨congrArg _, Except.error.inj⟩
  | .ok _, .error _ => isFalse nofun
  | .error _, .ok _ => isFalse nofun

/-- For closed calculations, of which this can be decided. -/
theorem holds_ok {α : Type} {x : Checked α} {P : α → Prop} [DecidablePred P]
    (h : x.toOption.any (fun a => decide (P a)) = true) : ∃ a, x = .ok a ∧ P a := by
  cases x with
  | error fault => cases h
  | ok a => exact ⟨a, rfl, of_decide_eq_true h⟩

theorem error_of_map {α β : Type} {x : Checked α} {f : α → β} {fault : Fault}
    (h : f <$> x = .error fault) : x = .error fault := by
  cases x with
  | error other => exact congrArg Except.error (Except.error.inj h)
  | ok a => cases h

theorem bind_error {α β : Type} {x : Checked α} {f : α → Checked β} {fault : Fault}
    (h : (x >>= f) = .error fault) : x = .error fault ∨ ∃ a, x = .ok a ∧ f a = .error fault := by
  cases x with
  | error other =>
    cases h
    exact .inl rfl
  | ok a => exact .inr ⟨a, rfl, h⟩

/-- A choice of what comes first, before one continuation. -/
theorem ite_bind {α β : Type} (choice : Prop) [Decidable choice] (x y : Checked α)
    (next : α → Checked β) :
    (if choice then x >>= next else y >>= next) = (if choice then x else y) >>= next := by
  split <;> rfl

theorem mapM_ok {α β : Type} {f : α → Checked β} {g : α → β} {xs : List α} {ys : List β}
    (each : ∀ {x y}, f x = .ok y → y = g x) (h : xs.mapM f = .ok ys) : ys = xs.map g := by
  induction xs generalizing ys with
  | nil =>
    rw [List.mapM_nil] at h
    exact (pure_ok h).symm
  | cons x rest ih =>
    rw [List.mapM_cons] at h
    obtain ⟨y, first, h⟩ := bind_ok h
    obtain ⟨more, later, h⟩ := bind_ok h
    obtain rfl := pure_ok h
    rw [List.map_cons, each first, ih later]

/-! ### Calculations that finish -/

/-- It ends with an answer and not with a fault. -/
def Finishes {α : Type} (x : Checked α) : Prop := ∃ a, x = .ok a

theorem finishes_ok {α : Type} (a : α) : Finishes (.ok a) := ⟨a, rfl⟩

theorem Finishes.bind {α β : Type} {x : Checked α} {f : α → Checked β} (first : x.Finishes)
    (next : ∀ a, x = .ok a → (f a).Finishes) : (x >>= f).Finishes := by
  obtain ⟨a, rfl⟩ := first
  exact next a rfl

theorem Finishes.of_bind {α β : Type} {x : Checked α} {f : α → Checked β}
    (h : (x >>= f).Finishes) : x.Finishes := by
  obtain ⟨b, h⟩ := h
  obtain ⟨a, first, -⟩ := bind_ok h
  exact ⟨a, first⟩

/-- What is done with an answer without a fault does not matter. -/
theorem finishes_return {α β : Type} {x : Checked α} {f : α → β} :
    (do return f (← x) : Checked β).Finishes ↔ x.Finishes :=
  ⟨.of_bind, fun first => first.bind fun a _ => finishes_ok (f a)⟩

theorem finishes_int {n : Int} : (int n).Finishes ↔ least ≤ n ∧ n ≤ greatest := by
  constructor
  · rintro ⟨m, h⟩
    exact (int_ok h).2
  · intro bounds
    exact ⟨n, if_pos bounds⟩

theorem finishes_mapM {α β : Type} {f : α → Checked β} {xs : List α} :
    (xs.mapM f).Finishes ↔ ∀ x ∈ xs, (f x).Finishes := by
  induction xs with
  | nil => simp [finishes_ok, pure, Except.pure]
  | cons x rest ih =>
    rw [List.mapM_cons, List.forall_mem_cons]
    constructor
    · intro whole
      obtain ⟨y, first⟩ := whole.of_bind
      rw [first] at whole
      exact ⟨⟨y, first⟩, ih.mp (Finishes.of_bind whole)⟩
    · rintro ⟨first, more⟩
      exact first.bind fun y _ => (ih.mpr more).bind fun ys _ => finishes_ok (y :: ys)

theorem Finishes.foldlM {α σ : Type} {f : σ → α → Checked σ} {xs : List α} {state : σ}
    (each : ∀ x ∈ xs, ∀ state, (f state x).Finishes) : (xs.foldlM f state).Finishes := by
  induction xs generalizing state with
  | nil => exact finishes_ok state
  | cons x rest ih =>
    rw [List.foldlM_cons]
    refine (each x List.mem_cons_self state).bind fun middle _ => ?_
    exact ih fun y member => each y (List.mem_cons_of_mem x member)

/-! ### Runs -/

section
variable {α σ : Type} {act : α → σ → Checked σ}

theorem play_append (first second : List α) (state : σ) :
    play act (first ++ second) state = play act first state >>= play act second := by
  unfold play
  rw [List.foldlM_append]

theorem play_concat (actions : List α) (last : α) (state : σ) :
    play act (actions ++ [last]) state = play act actions state >>= act last := by
  rw [play_append]
  unfold play
  simp only [List.foldlM_cons, List.foldlM_nil, bind_pure]

theorem play_concat_ok {actions : List α} {last : α} {before after : σ}
    (h : play act (actions ++ [last]) before = .ok after) :
    ∃ middle, play act actions before = .ok middle ∧ act last middle = .ok after := by
  rw [play_concat] at h
  exact bind_ok h

/-- What each action of a run keeps, the run keeps. -/
theorem play_keeps_listed {P : σ → Prop} {actions : List α}
    (keeps : ∀ action ∈ actions, ∀ before after, P before → act action before = .ok after → P after)
    {before after : σ} (start : P before) (h : play act actions before = .ok after) : P after := by
  induction actions generalizing before with
  | nil =>
    obtain rfl := pure_ok h
    exact start
  | cons action rest ih =>
    obtain ⟨keeps, later⟩ := List.forall_mem_cons.mp keeps
    unfold play at h
    rw [List.foldlM_cons] at h
    obtain ⟨middle, first, h⟩ := bind_ok h
    exact ih later (keeps before middle start first) h

theorem play_keeps {P : σ → Prop}
    (keeps : ∀ action before after, P before → act action before = .ok after → P after)
    {actions : List α} {before after : σ} (start : P before)
    (h : play act actions before = .ok after) : P after :=
  play_keeps_listed (fun action _ => keeps action) start h

theorem Leads.refl (state : σ) : Leads act state state := ⟨[], rfl⟩

theorem Leads.single (action : α) {before after : σ} (h : act action before = .ok after) :
    Leads act before after := by
  refine ⟨[action], ?_⟩
  unfold play
  rw [List.foldlM_cons, h]
  rfl

theorem Leads.trans {first second third : σ} (h₁ : Leads act first second)
    (h₂ : Leads act second third) : Leads act first third := by
  obtain ⟨early, h₁⟩ := h₁
  obtain ⟨late, h₂⟩ := h₂
  refine ⟨early ++ late, ?_⟩
  rw [play_append, h₁]
  exact h₂

theorem Leads.keeps {P : σ → Prop}
    (keeps : ∀ action before after, P before → act action before = .ok after → P after)
    {before after : σ} (start : P before) (h : Leads act before after) : P after := by
  obtain ⟨actions, h⟩ := h
  exact play_keeps keeps start h

end
end Checked

/-! ### Aura slots -/

inductive AuraSlots.Action where
  | add (held : RegisteredAura) (application : AuraApplication)
  | remove (id : String)
  | removeStacks (id : String) (count : Count)
  | setAuraAt (index : Nat) (held : RegisteredAura) (stackCount : Count) (amount : Option Float)
    (source : Option Seat)
  | setAt (index : Nat) (stackCount : Count) (amount : Option Float)
  | removeAt (index : Nat)
  | removeStacksAt (index : Nat) (count : Count)
  | draw (index : Nat) (effect : Effect) (evaluated : Int)
  /-- Puts slots that were kept in the place of these. -/
  | load (catalog : AuraCatalog) (saved : List SavedAura)

def AuraSlots.act : AuraSlots.Action → AuraSlots → Checked AuraSlots
  | .add held application, auras => do return (← auras.add held application).2
  | .remove id, auras => do return (← auras.remove id).2
  | .removeStacks id count, auras => do return (← auras.removeStacks id count).2
  | .setAuraAt index held stackCount amount source, auras =>
    auras.setAuraAt index held stackCount amount source
  | .setAt index stackCount amount, auras => auras.setAt index stackCount amount
  | .removeAt index, auras => auras.removeAt index
  | .removeStacksAt index count, auras => auras.removeStacksAt index count
  | .draw index effect evaluated, auras => do return (← auras.draw index effect evaluated).2
  | .load catalog saved, _ => AuraSlots.load catalog saved

/-! ### What an action does to aura slots -/

namespace AuraSlots
open Checked

theorem add_ok {auras after : AuraSlots} {held : RegisteredAura} {application : AuraApplication}
    {slot : Option Nat} (h : auras.add held application = .ok (slot, after)) :
    (application.stackCount.val = 0 ∧ slot = none ∧ after = auras) ∨
      (application.stackCount.val ≠ 0 ∧ slot = some (apply held application auras.slots).1 ∧
        ofSlots (apply held application auras.slots).2 = .ok after) := by
  unfold add at h
  split at h
  · rename_i nothing
    obtain ⟨rfl, rfl⟩ := pair_ok h
    exact .inl ⟨nothing, rfl, rfl⟩
  · rename_i something
    obtain ⟨last, worked, h⟩ := bind_ok h
    obtain ⟨rfl, rfl⟩ := pair_ok h
    exact .inr ⟨something, rfl, worked⟩

theorem remove_ok {auras after : AuraSlots} {id : String} {removed : Bool}
    (h : auras.remove id = .ok (removed, after)) :
    removed = auras.slots.any (·.carries id) ∧
      ((removed = false ∧ after = auras) ∨ (removed = true ∧
        ofSlots (auras.slots.map fun slot => if slot.carries id then .empty else slot) =
          .ok after)) := by
  unfold remove at h
  split at h
  · rename_i carried
    obtain ⟨last, worked, h⟩ := bind_ok h
    obtain ⟨rfl, rfl⟩ := pair_ok h
    exact ⟨carried.symm, .inr ⟨rfl, worked⟩⟩
  · rename_i absent
    obtain ⟨rfl, rfl⟩ := pair_ok h
    exact ⟨(Bool.eq_false_iff.mpr absent).symm, .inl ⟨rfl, rfl⟩⟩

theorem modifyAt_ok {auras after : AuraSlots} {index : Nat} {change : AuraSlot → AuraSlot}
    (h : auras.modifyAt index change = .ok after) :
    (auras.slots.length ≤ index ∧ after = auras) ∨
      (index < auras.slots.length ∧ ofSlots (auras.slots.modify index change) = .ok after) := by
  unfold modifyAt at h
  split at h
  · rename_i bound
    exact .inr ⟨bound, h⟩
  · rename_i beyond
    exact .inl ⟨Nat.le_of_not_lt beyond, (pure_ok h).symm⟩

theorem removeStacks_ok {auras after : AuraSlots} {id : String} {count : Count} {removed : Bool}
    (h : auras.removeStacks id count = .ok (removed, after)) :
    (auras.slots.findIdx? (·.carries id) = none ∧ removed = false ∧ after = auras) ∨
      ∃ index, auras.slots.findIdx? (·.carries id) = some index ∧ removed = true ∧
        auras.removeStacksAt index count = .ok after := by
  unfold removeStacks at h
  split at h
  · rename_i index found
    obtain ⟨last, worked, h⟩ := bind_ok h
    obtain ⟨rfl, rfl⟩ := pair_ok h
    exact .inr ⟨index, found, rfl, worked⟩
  · rename_i absent
    obtain ⟨rfl, rfl⟩ := pair_ok h
    exact .inl ⟨absent, rfl, rfl⟩

theorem draw_ok {auras after : AuraSlots} {index : Nat} {effect : Effect} {evaluated drawn : Int}
    (h : auras.draw index effect evaluated = .ok (drawn, after)) :
    (drawn = 0 ∧ after = auras) ∨
      ∃ slot, auras.slots[index]? = some slot ∧ slot.isActive = true ∧
        drawn = (slot.draw effect evaluated).1 ∧
        ofSlots (auras.slots.set index (slot.draw effect evaluated).2) = .ok after := by
  unfold draw at h
  split at h
  · rename_i slot here
    split at h
    · rename_i active
      obtain ⟨last, worked, h⟩ := bind_ok h
      obtain ⟨rfl, rfl⟩ := pair_ok h
      exact .inr ⟨slot, here, active, rfl, worked⟩
    · obtain ⟨rfl, rfl⟩ := pair_ok h
      exact .inl ⟨rfl, rfl⟩
  · obtain ⟨rfl, rfl⟩ := pair_ok h
    exact .inl ⟨rfl, rfl⟩

/-- Slots stay as they are or have their modifiers worked out anew. -/
theorem act_ok {action : Action} {before after : AuraSlots} (h : act action before = .ok after) :
    after = before ∨ ∃ slots, ofSlots slots = .ok after := by
  have modified : ∀ {index change}, before.modifyAt index change = .ok after →
      after = before ∨ ∃ slots, ofSlots slots = .ok after := by
    intro index change h
    obtain ⟨-, rfl⟩ | ⟨-, worked⟩ := modifyAt_ok h
    · exact .inl rfl
    · exact .inr ⟨_, worked⟩
  cases action with
  | add held application =>
    obtain ⟨⟨slot, auras⟩, added, h⟩ := bind_ok h
    obtain rfl := pure_ok h
    obtain ⟨-, -, same⟩ | ⟨-, -, worked⟩ := add_ok added
    · exact .inl same
    · exact .inr ⟨_, worked⟩
  | remove id =>
    obtain ⟨⟨removed, auras⟩, done, h⟩ := bind_ok h
    obtain rfl := pure_ok h
    obtain ⟨-, ⟨-, same⟩ | ⟨-, worked⟩⟩ := remove_ok done
    · exact .inl same
    · exact .inr ⟨_, worked⟩
  | removeStacks id count =>
    obtain ⟨⟨removed, auras⟩, done, h⟩ := bind_ok h
    obtain rfl := pure_ok h
    obtain ⟨-, -, same⟩ | ⟨index, -, -, worked⟩ := removeStacks_ok done
    · exact .inl same
    · exact modified worked
  | setAuraAt index held stackCount amount source => exact .inr ⟨_, h⟩
  | setAt index stackCount amount => exact modified h
  | removeAt index => exact modified h
  | removeStacksAt index count => exact modified h
  | draw index effect evaluated =>
    obtain ⟨⟨drawn, auras⟩, done, h⟩ := bind_ok h
    obtain rfl := pure_ok h
    obtain ⟨-, same⟩ | ⟨slot, -, -, -, worked⟩ := draw_ok done
    · exact .inl same
    · exact .inr ⟨_, worked⟩
  | load catalog saved => exact .inr ⟨_, h⟩

end AuraSlots

/-! ### Characters -/

inductive Character.Action where
  | withInnate (stats : StatBlock)
  | setInnate (stats : StatBlock)
  | equip (slot : GearSlot) (item : StatBlock)
  | unequip (slot : GearSlot)
  | rebuild
  | takeDamage (amount : Int) (attacker : Option Seat)
  | heal (amount : Int)
  | restoreEnergy (amount : Int)
  | revive (percent : Int)
  /-- One change of the auras, made of any number of actions on the slots. -/
  | changeAuras (actions : List AuraSlots.Action)

def Character.act : Character.Action → Character → Checked Character
  | .withInnate stats, c => c.withInnate stats
  | .setInnate stats, c => c.setInnate stats
  | .equip slot item, c => c.equip slot item
  | .unequip slot, c => do return (← c.unequip slot).2
  | .rebuild, c => c.rebuild
  | .takeDamage amount attacker, c => do return (← c.takeDamage amount attacker).2
  | .heal amount, c => do return (← c.heal amount).2
  | .restoreEnergy amount, c => do return (← c.restoreEnergy amount).2
  | .revive percent, c => do return (← c.revive percent).2
  | .changeAuras actions, c => do
    return (← c.withAuras fun auras => do
      return ((), ← Checked.play AuraSlots.act actions auras)).2

/-! ### What an action does to a character -/

namespace Character
open Checked

theorem rebuild_ok {c after : Character} (h : c.rebuild = .ok after) :
    StatBlock.ofSources c.sources = .ok after.stats ∧
      after = { c with stats := after.stats, hitpoints := min c.hitpoints after.maxHitpoints } := by
  unfold rebuild at h
  obtain ⟨stats, worked, h⟩ := bind_ok h
  obtain rfl := pure_ok h
  exact ⟨worked, rfl⟩

theorem withAuras_ok {α : Type} {c after : Character} {result : α}
    {change : AuraSlots → Checked (α × AuraSlots)}
    (h : c.withAuras change = .ok (result, after)) :
    ∃ auras, change c.auras = .ok (result, auras) ∧ { c with auras }.rebuild = .ok after := by
  unfold withAuras at h
  obtain ⟨⟨_, auras⟩, changed, h⟩ := bind_ok h
  obtain ⟨rebuilt, worked, h⟩ := bind_ok h
  obtain ⟨rfl, rfl⟩ := pair_ok h
  exact ⟨auras, changed, worked⟩

theorem withAuras_dead {α : Type} {c after : Character} {result : α}
    {change : AuraSlots → Checked (α × AuraSlots)}
    (h : c.withAuras change = .ok (result, after)) : after.dead = c.dead := by
  obtain ⟨auras, _, worked⟩ := withAuras_ok h
  rw [(rebuild_ok worked).2]

/-- A blow tells the hitpoints lost and whether they were the last; the dead stay dead. -/
theorem takeDamage_ok {c after : Character} {amount : Int} {attacker : Option Seat} {blow : Blow}
    (h : c.takeDamage amount attacker = .ok (blow, after)) :
    after = { c with
      hitpoints := after.hitpoints, lastAttacker := after.lastAttacker, dead := after.dead } ∧
    blow.amount = c.hitpoints - after.hitpoints ∧ blow.killing = (!c.dead && after.dead) ∧
    (c.dead = true → after.dead = true) := by
  unfold takeDamage at h
  split at h
  · rename_i dead
    obtain ⟨rfl, rfl⟩ := pair_ok h
    refine ⟨rfl, (Int.sub_self _).symm, ?_, fun dead => dead⟩
    rw [dead]
    rfl
  · rename_i alive
    obtain ⟨left, _, h⟩ := bind_ok h
    obtain ⟨lost, subtracted, h⟩ := bind_ok h
    obtain ⟨rfl, rfl⟩ := pair_ok h
    refine ⟨rfl, sub_ok subtracted, ?_, fun dead => absurd dead alive⟩
    rw [Bool.eq_false_iff.mpr alive]
    rfl

theorem heal_ok {c after : Character} {amount healed : Int}
    (h : c.heal amount = .ok (healed, after)) :
    after = { c with hitpoints := after.hitpoints } ∧
      healed = after.hitpoints - c.hitpoints := by
  unfold heal at h
  split at h
  · obtain ⟨rfl, rfl⟩ := pair_ok h
    exact ⟨rfl, (Int.sub_self _).symm⟩
  · obtain ⟨sum, _, h⟩ := bind_ok h
    obtain ⟨gained, subtracted, h⟩ := bind_ok h
    obtain ⟨rfl, rfl⟩ := pair_ok h
    exact ⟨rfl, sub_ok subtracted⟩

theorem restoreEnergy_ok {c after : Character} {amount restored : Int}
    (h : c.restoreEnergy amount = .ok (restored, after)) :
    after = { c with energy := after.energy } ∧ restored = after.energy - c.energy := by
  unfold restoreEnergy at h
  obtain ⟨sum, _, h⟩ := bind_ok h
  obtain ⟨energy, _, h⟩ := bind_ok h
  obtain ⟨gained, subtracted, h⟩ := bind_ok h
  obtain ⟨rfl, rfl⟩ := pair_ok h
  exact ⟨rfl, sub_ok subtracted⟩

theorem revive_ok {c after : Character} {percent : Int} {revived : Option Int}
    (h : c.revive percent = .ok (revived, after)) :
    (revived = none ∧ after = c) ∨ ∃ hitpoints, revived = some hitpoints ∧ c.dead = true ∧
      after = { c with dead := false, hitpoints } := by
  unfold revive at h
  split at h
  · obtain ⟨rfl, rfl⟩ := pair_ok h
    exact .inl ⟨rfl, rfl⟩
  · rename_i may
    obtain ⟨whole, _, h⟩ := bind_ok h
    obtain ⟨hitpoints, _, h⟩ := bind_ok h
    obtain ⟨rfl, rfl⟩ := pair_ok h
    have dead : c.dead = true := by
      cases dead : c.dead
      · simp [dead] at may
      · rfl
    exact .inr ⟨hitpoints, rfl, dead, rfl⟩

/-- What an action did: most work the stats out anew after a change of their sources. -/
inductive Acted (before after : Character) : Action → Prop where
  | made {stats : StatBlock} (done : before.withInnate stats = .ok after) :
    Acted before after (.withInnate stats)
  | rebuilt {action : Action} (innate : StatBlock) (gear : List (GearSlot × StatBlock))
    (auras : AuraSlots) (worked : rebuild { before with innate, gear, auras } = .ok after) :
    Acted before after action
  /-- Nothing was worn there. -/
  | kept {slot : GearSlot} (same : after = before) : Acted before after (.unequip slot)
  | damaged {amount : Int} {attacker : Option Seat} {blow : Blow}
    (taken : before.takeDamage amount attacker = .ok (blow, after)) :
    Acted before after (.takeDamage amount attacker)
  | healed {amount gained : Int} (restored : before.heal amount = .ok (gained, after)) :
    Acted before after (.heal amount)
  | energized {amount gained : Int} (restored : before.restoreEnergy amount = .ok (gained, after)) :
    Acted before after (.restoreEnergy amount)
  | revived {percent : Int} {hitpoints : Option Int}
    (done : before.revive percent = .ok (hitpoints, after)) : Acted before after (.revive percent)

theorem act_acted {action : Action} {before after : Character} (h : act action before = .ok after) :
    Acted before after action := by
  cases action with
  | withInnate stats => exact .made h
  | setInnate stats => exact .rebuilt stats before.gear before.auras h
  | equip slot item => exact .rebuilt before.innate (wear slot item before.gear) before.auras h
  | unequip slot =>
    obtain ⟨⟨item, c⟩, done, h⟩ := bind_ok h
    obtain rfl := pure_ok h
    unfold unequip at done
    split at done
    · obtain ⟨rebuilt, worked, done⟩ := bind_ok done
      obtain ⟨-, rfl⟩ := pair_ok done
      exact .rebuilt before.innate (before.gear.filter (·.1 ≠ slot)) before.auras worked
    · exact .kept (pair_ok done).2.symm
  | rebuild => exact .rebuilt before.innate before.gear before.auras h
  | takeDamage amount attacker =>
    obtain ⟨⟨blow, c⟩, taken, h⟩ := bind_ok h
    obtain rfl := pure_ok h
    exact .damaged taken
  | heal amount =>
    obtain ⟨⟨gained, c⟩, restored, h⟩ := bind_ok h
    obtain rfl := pure_ok h
    exact .healed restored
  | restoreEnergy amount =>
    obtain ⟨⟨gained, c⟩, restored, h⟩ := bind_ok h
    obtain rfl := pure_ok h
    exact .energized restored
  | revive percent =>
    obtain ⟨⟨hitpoints, c⟩, done, h⟩ := bind_ok h
    obtain rfl := pure_ok h
    exact .revived done
  | changeAuras actions =>
    obtain ⟨⟨_, c⟩, changed, h⟩ := bind_ok h
    obtain rfl := pure_ok h
    obtain ⟨auras, -, worked⟩ := withAuras_ok changed
    exact .rebuilt before.innate before.gear auras worked

end Character

/-- One character comes from another by actions of its own. -/
abbrev Character.Becomes : Character → Character → Prop := Checked.Leads Character.act

/-- A change of the auras that is made of actions on the slots is an action of the character. -/
theorem Character.withAuras_becomes {α : Type} {c after : Character} {result : α}
    {change : AuraSlots → Checked (α × AuraSlots)}
    (acts : ∀ {result auras}, change c.auras = .ok (result, auras) →
      Checked.Leads AuraSlots.act c.auras auras)
    (h : c.withAuras change = .ok (result, after)) : c.Becomes after := by
  obtain ⟨auras, changed, worked⟩ := withAuras_ok h
  obtain ⟨actions, played⟩ := acts changed
  refine Checked.Leads.single (.changeAuras actions) ?_
  simp only [act, withAuras, played, worked, bind, Except.bind, pure, Except.pure]

namespace Character
open Checked

/-- The auras of a character change by actions on the slots alone. -/
theorem act_auras (action : Action) (before after : Character)
    (h : act action before = .ok after) :
    Leads AuraSlots.act before.auras after.auras := by
  have same : after.auras = before.auras →
      Leads AuraSlots.act before.auras after.auras := fun same => by
    rw [same]
    exact .refl _
  cases action with
  | withInnate stats =>
    obtain ⟨c, worked, h⟩ := bind_ok h
    obtain rfl := pure_ok h
    exact same (by rw [(rebuild_ok worked).2])
  | setInnate stats => exact same (by rw [(rebuild_ok h).2])
  | equip slot item => exact same (by rw [(rebuild_ok h).2])
  | unequip slot =>
    obtain ⟨⟨item, c⟩, done, h⟩ := bind_ok h
    obtain rfl := pure_ok h
    unfold unequip at done
    split at done
    · obtain ⟨rebuilt, worked, done⟩ := bind_ok done
      obtain ⟨-, rfl⟩ := pair_ok done
      exact same (by rw [(rebuild_ok worked).2])
    · obtain ⟨-, rfl⟩ := pair_ok done
      exact .refl _
  | rebuild => exact same (by rw [(rebuild_ok h).2])
  | takeDamage amount attacker =>
    obtain ⟨⟨blow, c⟩, taken, h⟩ := bind_ok h
    obtain rfl := pure_ok h
    exact same (by rw [(takeDamage_ok taken).1])
  | heal amount =>
    obtain ⟨⟨gained, c⟩, restored, h⟩ := bind_ok h
    obtain rfl := pure_ok h
    exact same (by rw [(heal_ok restored).1])
  | restoreEnergy amount =>
    obtain ⟨⟨gained, c⟩, restored, h⟩ := bind_ok h
    obtain rfl := pure_ok h
    exact same (by rw [(restoreEnergy_ok restored).1])
  | revive percent =>
    obtain ⟨⟨hitpoints, c⟩, done, h⟩ := bind_ok h
    obtain rfl := pure_ok h
    obtain ⟨-, rfl⟩ | ⟨_, -, -, rfl⟩ := revive_ok done
    · exact .refl _
    · exact .refl _
  | changeAuras actions =>
    obtain ⟨⟨_, c⟩, changed, h⟩ := bind_ok h
    obtain rfl := pure_ok h
    obtain ⟨auras, run, worked⟩ := withAuras_ok changed
    obtain ⟨last, played, run⟩ := bind_ok run
    obtain ⟨-, rfl⟩ := pair_ok run
    rw [(rebuild_ok worked).2]
    exact ⟨actions, played⟩

theorem act_role (action : Action) (before after : Character) (h : act action before = .ok after) :
    after.role = before.role := by
  cases act_acted h with
  | made done =>
    unfold withInnate at done
    obtain ⟨c, worked, done⟩ := bind_ok done
    obtain rfl := pure_ok done
    rw [(rebuild_ok worked).2]
  | rebuilt innate gear auras worked => rw [(rebuild_ok worked).2]
  | kept same => rw [same]
  | damaged taken => rw [(takeDamage_ok taken).1]
  | healed restored => rw [(heal_ok restored).1]
  | energized restored => rw [(restoreEnergy_ok restored).1]
  | revived done =>
    obtain ⟨-, rfl⟩ | ⟨_, -, -, rfl⟩ := revive_ok done
    · rfl
    · rfl

/-- Nothing that is done to a character brings it into the fight or takes it out. -/
theorem Becomes.inCombat {c after : Character} (h : c.Becomes after) :
    after.inCombat = c.inCombat := by
  have role : after.role = c.role :=
    h.keeps (P := fun other => other.role = c.role)
      (fun action before after same done => (act_role action before after done).trans same) rfl
  rw [Character.inCombat, Character.inCombat, role]

end Character
end Combat
