import Combat.Content.Declaration

/-!
The content that comes with the library.
-/

namespace Combat.Bundled

def stats : List NamedItem :=
  [⟨"hitpoints", "Hitpoints"⟩, ⟨"strength", "Strength"⟩, ⟨"dexterity", "Dexterity"⟩,
    ⟨"intelligence", "Intelligence"⟩, ⟨"wisdom", "Wisdom"⟩, ⟨"defence", "Defence"⟩,
    ⟨"speed", "Speed"⟩]

def materials : List NamedItem :=
  [⟨"copper_ore", "Copper Ore"⟩, ⟨"iron_ore", "Iron Ore"⟩, ⟨"healing_herb", "Healing Herb"⟩,
    ⟨"goblin_ear", "Goblin Ear"⟩, ⟨"ancient_bone", "Ancient Bone"⟩]

def buffs : List AuraDeclaration :=
  [{ id := "might"
     name := "Might"
     description := "+3 strength per stack"
     stack := true
     effects := [{
       kind := .statModifier "strength" false
       amount := some (.flat 3.0)
       stack := true }] },
   { id := "fortify"
     name := "Fortify"
     description := "20% increased defence"
     combine := true
     refresh := true
     effects := [{ kind := .statModifier "defence" true, amount := some (.flat 20.0) }] },
   { id := "regeneration"
     name := "Regeneration"
     description := "Heals at the start of each turn"
     refresh := true
     effects := [{
       kind := .heal .flat
       trigger := .turnStart
       target := .self
       amount := some ((Formula.flat 2.0).withScaling "wisdom" 0.5)
       stack := true }] },
   { id := "mending_pool"
     name := "Mending Pool"
     description := "Releases stored healing at the end of each turn"
     stack := true
     accumulate := true
     effects := [{
       kind := .heal .flat
       trigger := .turnEnd
       target := .self
       amount := some (.flat 2.0)
       split := true }] },
   { id := "second_wind"
     name := "Second Wind"
     description := "Heals once per round after taking damage"
     stack := true
     effects := [{
       kind := .heal .missingHitpoints
       trigger := .afterDamageReceived
       target := .self
       amount := some (.flat 25.0)
       consume := true
       limit := some .round
       times := some 1 }] }]

def debuffs : List AuraDeclaration :=
  [{ id := "poison"
     name := "Poison"
     description := "Damage per stack at the end of each turn"
     stack := true
     combine := true
     effects := [{
       kind := .damage none
       trigger := .turnEnd
       target := .self
       amount := some (.flat 2.0)
       stack := true }] },
   { id := "burn"
     name := "Burn"
     description := "Damage at the start of each turn, fading by one stack"
     refresh := true
     effects := [{
       kind := .damage none
       trigger := .turnStart
       target := .self
       amount := some ((Formula.flat 3.0).withScaling "intelligence" 0.25)
       consume := true }] },
   { id := "weaken"
     name := "Weaken"
     description := "-2 strength per stack"
     stack := true
     effects := [{
       kind := .statModifier "strength" false
       amount := some (.flat (-2.0))
       stack := true }] }]

def declaration : ContentDeclaration := { stats, materials, auras := { buffs, debuffs } }

/-- Nothing, should the declaration be refused. -/
def content : Content :=
  match declaration.content with
  | .ok content => content
  | .error _ => {}

end Combat.Bundled
