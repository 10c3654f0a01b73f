import Combat.Formula

/-!
Effects: what an ability, an aura or a reward does, to whom, when and how often. An effect is a
description; resolving it is another matter.
-/

namespace Combat

/-- When an effect fires. -/
inductive Trigger where
  /-- As soon as the ability is used. -/
  | immediate
  /-- Always on, as part of the stats. -/
  | passive
  | turnStart | turnEnd | roundStart | roundEnd | encounterStart | encounterEnd
  | beforeDamageDelivered | afterDamageDelivered | beforeDamageReceived | afterDamageReceived
  | death
  /-- A name that is not known. -/
  | other
  deriving DecidableEq, Repr

namespace Trigger

def all : List Trigger :=
  [.immediate, .passive, .turnStart, .turnEnd, .roundStart, .roundEnd, .encounterStart,
    .encounterEnd, .beforeDamageDelivered, .afterDamageDelivered, .beforeDamageReceived,
    .afterDamageReceived, .death, .other]

def name : Trigger → String
  | .immediate => "immediate"
  | .passive => "passive"
  | .turnStart => "turn_start"
  | .turnEnd => "turn_end"
  | .roundStart => "round_start"
  | .roundEnd => "round_end"
  | .encounterStart => "encounter_start"
  | .encounterEnd => "encounter_end"
  | .beforeDamageDelivered => "before_damage_delivered"
  | .afterDamageDelivered => "after_damage_delivered"
  | .beforeDamageReceived => "before_damage_received"
  | .afterDamageReceived => "after_damage_received"
  | .death => "death"
  | .other => "other"

def ofName (s : String) : Trigger := (all.find? (·.name = s)).getD .other

end Trigger

/-- Whom an effect lands on. -/
inductive Selector where
  | self | attacker | target | nobody
  | front | center | back
  /-- Front and center, each on its own. -/
  | cleave
  | random
  /-- The least part of hitpoints left. -/
  | lowest
  | all | dead
  /-- A name that is not known. -/
  | unknown
  deriving DecidableEq, Repr

namespace Selector

def every : List Selector :=
  [.self, .attacker, .target, .nobody, .front, .center, .back, .cleave, .random, .lowest, .all,
    .dead, .unknown]

def name : Selector → String
  | .self => "self"
  | .attacker => "attacker"
  | .target => "target"
  | .nobody => "none"
  | .front => "front"
  | .center => "center"
  | .back => "back"
  | .cleave => "cleave"
  | .random => "random"
  | .lowest => "lowest"
  | .all => "all"
  | .dead => "dead"
  | .unknown => "unknown"

/-- `aoe` is a second name of `all`. -/
def ofName (s : String) : Selector :=
  if s = "aoe" then .all else (every.find? (·.name = s)).getD .unknown

end Selector

/-- The span in which uses are counted. -/
inductive LimitScope where
  | combat | round | turn
  deriving DecidableEq, Repr

namespace LimitScope

def all : List LimitScope := [.combat, .round, .turn]

def name : LimitScope → String
  | .combat => "combat"
  | .round => "round"
  | .turn => "turn"

end LimitScope

/-- The party that positions are sought in, seen from the source. -/
inductive PartyScope where
  | ally | enemy
  deriving DecidableEq, Repr

namespace PartyScope

def all : List PartyScope := [.ally, .enemy]

def name : PartyScope → String
  | .ally => "ally"
  | .enemy => "enemy"

end PartyScope

/-- What the amount of a heal counts. -/
inductive HealMode where
  | flat
  /-- Percent of the hitpoints that are missing. -/
  | missingHitpoints
  /-- Percent of the greatest hitpoints. -/
  | greatestHitpoints
  deriving DecidableEq, Repr

namespace HealMode

def all : List HealMode := [.flat, .missingHitpoints, .greatestHitpoints]

def name : HealMode → String
  | .flat => "flat"
  | .missingHitpoints => "missing_hp"
  | .greatestHitpoints => "max_hp_percent"

end HealMode

/-- Whether an aura helps or hinders. -/
inductive AuraKind where
  | buff | debuff
  deriving DecidableEq, Repr

/-- What an effect does, without its details: the key of its handler. -/
inductive EffectType where
  | damage | heal | restoreEnergy | revive
  | applyAura (kind : AuraKind)
  | removeAura (kind : AuraKind)
  | statModifier | grantMaterial | consumeMaterial
  deriving DecidableEq, Repr

namespace EffectType

def all : List EffectType :=
  [.damage, .heal, .restoreEnergy, .revive, .applyAura .buff, .applyAura .debuff,
    .removeAura .buff, .removeAura .debuff, .statModifier, .grantMaterial, .consumeMaterial]

def name : EffectType → String
  | .damage => "damage"
  | .heal => "heal"
  | .restoreEnergy => "restore_energy"
  | .revive => "revive"
  | .applyAura .buff => "apply_buff"
  | .applyAura .debuff => "apply_debuff"
  | .removeAura .buff => "remove_buff"
  | .removeAura .debuff => "remove_debuff"
  | .statModifier => "stat_modifier"
  | .grantMaterial => "grant_material"
  | .consumeMaterial => "consume_material"

/-- Whether it acts on characters. -/
def targetsCharacters : EffectType → Bool
  | .statModifier | .grantMaterial | .consumeMaterial => false
  | _ => true

/-- The party it is meant for when the effect does not say. -/
def defaultParty : EffectType → PartyScope
  | .damage | .applyAura .debuff | .removeAura .buff => .enemy
  | _ => .ally

end EffectType

/-- What an effect does. -/
inductive EffectKind where
  /-- With a stat, the amount is a percentage of the source's value of it. -/
  | damage (stat : Option String)
  | heal (mode : HealMode)
  | restoreEnergy
  /-- The amount is a percentage of the greatest hitpoints. -/
  | revive
  | applyAura (kind : AuraKind) (id : String)
  | removeAura (kind : AuraKind) (id : String)
  | statModifier (stat : String) (percent : Bool)
  | grantMaterial (id : String)
  | consumeMaterial (id : String)
  /-- A type that is not known. -/
  | unknown
  deriving DecidableEq, Repr

namespace EffectKind

def type? : EffectKind → Option EffectType
  | .damage _ => some .damage
  | .heal _ => some .heal
  | .restoreEnergy => some .restoreEnergy
  | .revive => some .revive
  | .applyAura kind _ => some (.applyAura kind)
  | .removeAura kind _ => some (.removeAura kind)
  | .statModifier .. => some .statModifier
  | .grantMaterial _ => some .grantMaterial
  | .consumeMaterial _ => some .consumeMaterial
  | .unknown => none

/-- The aura or material it names. -/
def reference? : EffectKind → Option String
  | .applyAura _ id | .removeAura _ id | .grantMaterial id | .consumeMaterial id => some id
  | _ => none

/-- The stat it names. -/
def stat? : EffectKind → Option String
  | .damage stat => stat
  | .statModifier stat _ => some stat
  | _ => none

def isStatModifier : EffectKind → Bool
  | .statModifier .. => true
  | _ => false

end EffectKind

structure Effect where
  kind : EffectKind
  target : Selector := .target
  party : Option PartyScope := none
  trigger : Trigger := .immediate
  amount : Option Formula := none
  stackCount : Option Formula := none
  /-- Takes stacks off its aura after firing. -/
  consume : Bool := false
  /-- Counts once per stack of its aura. -/
  stack : Bool := false
  /-- Hands out its aura's stored amount in shares. -/
  split : Bool := false
  limit : Option LimitScope := none
  times : Option Count := none
  deriving DecidableEq

namespace Effect

def type? (effect : Effect) : Option EffectType := effect.kind.type?

/-- Zero without an amount. -/
def amountValue (effect : Effect) (source : Option StatBlock) : Int :=
  (effect.amount.map (·.evaluate source)).getD 0

/-- One without a stack count. -/
def stacksValue (effect : Effect) (source : Option StatBlock) : Int :=
  (effect.stackCount.map (·.evaluate source)).getD 1

def partyScope (effect : Effect) : PartyScope :=
  match effect.party, effect.type? with
  | some party, _ => party
  | none, some type => type.defaultParty
  | none, none => .ally

/-- How often it may fire in one span of its limit. -/
def allowance (effect : Effect) : Count := effect.times.getD 1

def withAmount (effect : Effect) (amount : Formula) : Effect :=
  { effect with amount := some amount }

def withStackCount (effect : Effect) (stackCount : Formula) : Effect :=
  { effect with stackCount := some stackCount }

def withTarget (effect : Effect) (selector : Selector) : Effect :=
  { effect with target := selector }

def withParty (effect : Effect) (party : PartyScope) : Effect := { effect with party := some party }

def withTrigger (effect : Effect) (trigger : Trigger) : Effect := { effect with trigger }

def withLimit (effect : Effect) (scope : LimitScope) (times : Count) : Effect :=
  { effect with limit := some scope, times := some times }

end Effect
end Combat
