import Combat.Count
import Combat.IdMap

/-!
Stores of materials. A count that reaches zero by removal leaves the stash.
-/

namespace Combat

inductive StashError where
  | insufficient (id : String) (requested available : Count)
  | unknown (id : String)
  deriving DecidableEq

def StashError.message : StashError → String
  | .insufficient id requested available =>
    s!"not enough '{id}': need {requested.val}, have {available.val}"
  | .unknown id => s!"unknown material '{id}'"

structure Stash where
  counts : IdMap Count := {}
  deriving DecidableEq

namespace Stash

def count (stash : Stash) (id : String) : Count := (stash.counts.get? id).getD 0

/-- Adds, stopping at the greatest count. -/
def add (stash : Stash) (id : String) (amount : Count) : Stash :=
  ⟨stash.counts.insert id ((stash.count id).add amount)⟩

def remove (stash : Stash) (id : String) (amount : Count) : Except StashError Stash :=
  match stash.counts.get? id with
  | none => .error (.unknown id)
  | some available =>
    if available.val < amount.val then .error (.insufficient id amount available)
    else if available = amount then .ok ⟨stash.counts.erase id⟩
    else .ok ⟨stash.counts.insert id (available.sub amount)⟩

end Stash
end Combat
