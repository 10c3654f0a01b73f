import Combat.Bundled.Content
import Combat.Bundled.Mastery
import Combat.Bundled.Roster
import Combat.Skirmish.Report

/-!
The command line: plays the skirmish that comes with the library, always with the same random
words, and prints its report.
-/

namespace Combat.CommandLine

/-- So many words of a generator. -/
def randomWords : Nat → StdGen → List UInt64
  | 0, _ => []
  | n + 1, generator =>
    let (word, generator) := randNat generator 0 (RandomSource.words - 1)
    UInt64.ofNat word :: randomWords n generator

def seed : Nat := 42

/-- More words than the skirmish draws. -/
def words : Nat := 10000

def fail (message : String) : IO UInt32 := do
  IO.eprintln message
  return 1

def playBundled : IO UInt32 := do
  let random : RandomSource := { script := randomWords words (mkStdGen seed) }
  match Bundled.roster.skirmish Bundled.content Bundled.mastery random with
  | .error error => fail error.message
  | .ok (.error fault) => fail fault.message
  | .ok (.ok battle) =>
    for line in battle.report do
      IO.println line
    return 0

end Combat.CommandLine

def main : IO UInt32 := Combat.CommandLine.playBundled
