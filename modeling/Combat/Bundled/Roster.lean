import Combat.Skirmish.Roster

/-!
The skirmish that comes with the library: three heroes against three enemies.
-/

namespace Combat.Bundled

def knight : Hero where
  fighter := {
    id := "knight"
    name := "Knight"
    role := "fighter"
    stats := .ofList [("hitpoints", 120), ("strength", 14), ("defence", 6)]
    gear := [(.weapon, .ofList [("strength", 4)]), (.body, .ofList [("hitpoints", 20)])] }
  ability := "sweeping_strike"
  opening :=
    [{ kind := .applyAura .buff "second_wind", target := .self, stackCount := some (.flat 2.0) }]

def cleric : Hero where
  fighter := {
    id := "cleric"
    name := "Cleric"
    role := "healer"
    stats := .ofList [("hitpoints", 80), ("wisdom", 16)]
    gear := [(.amulet, .ofList [("wisdom", 4)])] }
  ability := "prayer"
  opening := [{ kind := .applyAura .buff "fortify", target := .all }]

def ranger : Hero where
  fighter := {
    id := "ranger"
    name := "Ranger"
    role := "archer"
    stats := .ofList [("hitpoints", 90), ("dexterity", 12)] }
  ability := "volley"

def orc : Enemy where
  fighter := {
    id := "orc"
    name := "Orc Brute"
    role := "brute"
    stats := .ofList [("hitpoints", 90), ("strength", 12)] }
  abilities := .ofEntries [⟨"smash", 3⟩, ⟨"war_cry", 1⟩]
  loot := [{ kind := .grantMaterial "ancient_bone" }]

def goblin : Enemy where
  fighter := {
    id := "goblin"
    name := "Goblin"
    role := "skirmisher"
    stats := .ofList [("hitpoints", 50), ("strength", 6), ("dexterity", 10)] }
  abilities := .ofEntries [⟨"stab", 3⟩, ⟨"venom_spit", 2⟩]
  loot := [{ kind := .grantMaterial "goblin_ear", amount := some (.flat 2.0) }]

def shaman : Enemy where
  fighter := {
    id := "shaman"
    name := "Goblin Shaman"
    role := "caster"
    stats := .ofList [("hitpoints", 45), ("intelligence", 14), ("wisdom", 8)] }
  abilities := .ofEntries [⟨"firebolt", 2⟩, ⟨"mend", 1⟩]
  loot :=
    [{ kind := .grantMaterial "goblin_ear" },
     { kind := .grantMaterial "healing_herb", amount := some (.flat 3.0) }]

def abilities : IdMap (List Effect) :=
  let scaling (base : Float) (stat : String) (multiplier : Float) : Option Formula :=
    some ((Formula.flat base).withScaling stat multiplier)
  .ofList
    [("sweeping_strike",
        [{ kind := .damage none, target := .cleave, amount := scaling 4.0 "strength" 0.5 },
         { kind := .applyAura .debuff "weaken", target := .front }]),
     ("prayer",
        [{ kind := .heal .flat, target := .lowest, amount := scaling 5.0 "wisdom" 1.0 },
         { kind := .applyAura .buff "regeneration"
           target := .lowest
           stackCount := some (.flat 2.0) },
         { kind := .revive, target := .dead, amount := some (.flat 30.0) }]),
     ("volley",
        [{ kind := .damage none, target := .random, amount := scaling 3.0 "dexterity" 0.75 },
         { kind := .damage none, target := .back, amount := scaling 2.0 "dexterity" 0.5 }]),
     ("smash", [{ kind := .damage none, target := .front, amount := scaling 6.0 "strength" 0.5 }]),
     ("war_cry",
        [{ kind := .applyAura .buff "might"
           target := .all
           limit := some .round
           times := some 1 }]),
     ("stab", [{ kind := .damage none, target := .lowest, amount := scaling 3.0 "dexterity" 0.5 }]),
     ("venom_spit",
        [{ kind := .applyAura .debuff "poison"
           target := .front
           stackCount := some (.flat 2.0) }]),
     ("firebolt",
        [{ kind := .damage none, target := .back, amount := scaling 4.0 "intelligence" 0.5 },
         { kind := .applyAura .debuff "burn", target := .back, stackCount := some (.flat 2.0) }]),
     ("mend",
        [{ kind := .applyAura .buff "mending_pool"
           target := .lowest
           amount := some (.flat 12.0) },
         { kind := .removeAura .debuff "weaken", target := .all }])]

def roster : Roster :=
  { heroes := [knight, cleric, ranger], enemies := [orc, goblin, shaman], abilities }

end Combat.Bundled
