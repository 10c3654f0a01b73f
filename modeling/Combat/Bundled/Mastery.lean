import Combat.Mastery.Declaration

/-!
The mastery categories that come with the library.
-/

namespace Combat.Bundled

def swordsmanship : MasteryCategory :=
  .ofMilestones "swordsmanship" "Swordsmanship" 99
    [{ level := 1, scaling := true, rewards := [{ type := "damage_bonus", value := 0.2 }] },
     { level := 10, rewards := [{ type := "crit_chance", value := 5.0 }] },
     { level := 25
       rewards :=
         [{ type := "crit_chance", value := 8.0 },
          { type := "unlock_difficulty", params := .ofList [("difficulty", .text "heroic")] }] },
     { level := 50
       rewards :=
         [{ type := "unlock_difficulty", params := .ofList [("difficulty", .text "mythic")] },
          { type := "restore_energy"
            value := 10.0
            params := .ofList [("target", .text "self")] }] }]

def grantOne (material : String) : Reward :=
  { type := "grant_material", value := 1.0, params := .ofList [("id", .text material)] }

def mining : MasteryCategory :=
  .ofMilestones "mining" "Mining" 60
    [{ level := 1, scaling := true, rewards := [{ type := "gather_speed", value := 0.5 }] },
     { level := 15
       rewards := [grantOne "copper_ore"] },
     { level := 40
       rewards := [grantOne "iron_ore"] }]

def masteryDeclaration : MasteryDeclaration := { categories := [swordsmanship, mining] }

/-- Nothing, should the declaration be refused. -/
def mastery : MasteryRegistry :=
  match masteryDeclaration.registry with
  | .ok registry => registry
  | .error _ => {}

end Combat.Bundled
