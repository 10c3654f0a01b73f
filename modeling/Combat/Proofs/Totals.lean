import Combat.Proofs.Action
import Mathlib.Algebra.BigOperators.Group.List.Basic
import Mathlib.Algebra.Ring.Int.Defs

/-!
What totals come to, stat by stat: merging blocks adds up their values, and the finished stats are
those with a flat total, each raised by its percents.
-/

namespace Combat
open Checked

namespace IdMap

theorem find_above {α : Type} {id : String} {l : List (String × α)}
    (above : ∀ entry ∈ l, id < entry.1) : find id l = none := by
  cases found : find id l with
  | none => rfl
  | some value =>
    obtain ⟨value, listed⟩ := find_isSome.mp (by rw [found]; rfl)
    exact absurd (above _ listed) (String.lt_irrefl id)

theorem find_entry {α : Type} {entries : List (String × α)} {entry : String × α}
    (sorted : entries.Pairwise (fun a b => a.1 < b.1)) (member : entry ∈ entries) :
    find entry.1 entries = some entry.2 := by
  induction entries with
  | nil => exact absurd member List.not_mem_nil
  | cons head rest ih =>
    obtain ⟨above, tail⟩ := List.pairwise_cons.mp sorted
    rw [find]
    rcases List.mem_cons.mp member with rfl | later
    · exact if_pos rfl
    · have apart : head.1 ≠ entry.1 := fun same =>
        String.lt_irrefl entry.1 (same ▸ above entry later)
      rw [if_neg apart]
      exact ih tail later

end IdMap

namespace StatBlock

theorem value_insert (block : StatBlock) (stat other : String) (amount : Int) :
    value (block.insert stat amount) other = if stat = other then amount else block.value other := by
  rw [value, IdMap.get?_insert]
  split <;> rfl

theorem add_ok {block after : StatBlock} {stat : String} {amount : Int}
    (h : block.add stat amount = .ok after) (other : String) :
    after.value other = block.value other + if stat = other then amount else 0 := by
  unfold add at h
  obtain ⟨total, added, h⟩ := bind_ok h
  obtain rfl := pure_ok h
  rw [value_insert]
  split
  · rename_i same
    rw [Checked.add_ok added, same]
  · rw [Int.add_zero]

/-- What the pairs say of one stat, added up. -/
def total (stat : String) (pairs : List (String × Int)) : Int :=
  ((pairs.filter (·.1 = stat)).map (·.2)).sum

theorem total_cons (stat : String) (pair : String × Int) (rest : List (String × Int)) :
    total stat (pair :: rest) = (if pair.1 = stat then pair.2 else 0) + total stat rest := by
  unfold total
  rw [List.filter_cons]
  split <;> simp_all

theorem total_append (stat : String) (first second : List (String × Int)) :
    total stat (first ++ second) = total stat first + total stat second := by
  simp [total]

/-- A block lists a stat once. -/
theorem total_entries (block : StatBlock) (stat : String) :
    total stat block.entries = block.value stat := by
  obtain ⟨entries, sorted⟩ := block
  change total stat entries = (IdMap.find stat entries).getD 0
  induction entries with
  | nil => rfl
  | cons entry rest ih =>
    obtain ⟨id, amount⟩ := entry
    obtain ⟨above, tail⟩ := List.pairwise_cons.mp sorted
    rw [total_cons, ih tail, IdMap.find]
    split
    · rename_i same
      subst same
      rw [IdMap.find_above above]
      simp
    · simp

theorem addAll_append (block : StatBlock) (first second : List (String × Int)) :
    block.addAll (first ++ second) = block.addAll first >>= (·.addAll second) :=
  List.foldlM_append

theorem addAll_cons (block : StatBlock) (pair : String × Int) (rest : List (String × Int)) :
    block.addAll (pair :: rest) = block.add pair.1 pair.2 >>= (·.addAll rest) :=
  List.foldlM_cons

theorem addAll_ok {pairs : List (String × Int)} {block after : StatBlock}
    (h : block.addAll pairs = .ok after) (stat : String) :
    after.value stat = block.value stat + total stat pairs := by
  induction pairs generalizing block with
  | nil =>
    obtain rfl := pure_ok h
    exact (Int.add_zero _).symm
  | cons pair rest ih =>
    rw [addAll_cons] at h
    obtain ⟨middle, first, h⟩ := bind_ok h
    rw [ih h, add_ok first, total_cons, Int.add_assoc]

theorem merge_ok {block other after : StatBlock} (h : block.merge other = .ok after)
    (stat : String) : after.value stat = block.value stat + other.value stat := by
  rw [addAll_ok h, total_entries]

end StatBlock

namespace Totals

theorem raised_ok {flat percent value : Int} (h : raised flat percent = .ok value) :
    value = flat * (100 + percent) / 100 := by
  unfold raised at h
  obtain ⟨whole, added, h⟩ := bind_ok h
  obtain ⟨product, multiplied, h⟩ := bind_ok h
  obtain rfl := pure_ok h
  rw [mul_ok multiplied, Checked.add_ok added]

/-- One stat after another: each entry of the flat totals is raised and put in its place. -/
theorem raiseAll_ok {percent : StatBlock} {entries : List (String × Int)} {done after : StatBlock}
    (sorted : entries.Pairwise (fun a b => a.1 < b.1))
    (h : entries.foldlM (fun done entry => do
      return done.insert entry.1 (← raised entry.2 (percent.value entry.1))) done = .ok after)
    (stat : String) :
    after.get? stat = ((IdMap.find stat entries).map (· * (100 + percent.value stat) / 100)).or
      (done.get? stat) := by
  induction entries generalizing done with
  | nil =>
    obtain rfl := pure_ok h
    rfl
  | cons entry rest ih =>
    obtain ⟨id, flat⟩ := entry
    obtain ⟨above, tail⟩ := List.pairwise_cons.mp sorted
    rw [List.foldlM_cons] at h
    obtain ⟨middle, first, h⟩ := bind_ok h
    obtain ⟨value, worked, first⟩ := bind_ok first
    obtain rfl := pure_ok first
    rw [ih tail h, IdMap.get?_insert, IdMap.find]
    split
    · rename_i same
      subst same
      rw [IdMap.find_above above, raised_ok worked]
      rfl
    · rfl

theorem finish_ok {totals : Totals} {stats : StatBlock} (h : totals.finish = .ok stats)
    (stat : String) :
    stats.get? stat =
      (totals.flat.get? stat).map (· * (100 + totals.percent.value stat) / 100) :=
  (raiseAll_ok totals.flat.sorted h stat).trans Option.or_none

end Totals

/-- Without gear and auras the stats are the innate ones. -/
theorem StatBlock.ofSources_innate {innate stats : StatBlock}
    (h : StatBlock.ofSources [.innate innate, .auras []] = .ok stats) (stat : String) :
    stats.value stat = innate.value stat := by
  unfold StatBlock.ofSources at h
  obtain ⟨totals, added, finished⟩ := bind_ok h
  rw [List.foldlM_cons] at added
  obtain ⟨first, merged, added⟩ := bind_ok added
  obtain rfl := pure_ok added
  obtain ⟨flat, sum, first⟩ := bind_ok merged
  obtain rfl := pure_ok first
  have same : flat.value stat = innate.value stat := by
    rw [StatBlock.merge_ok sum]
    exact Int.zero_add _
  have unraised : ∀ amount : Int, amount * (100 + 0) / 100 = amount := by
    intro amount
    omega
  rw [← same, StatBlock.value, StatBlock.value, Totals.finish_ok finished]
  cases flat.get? stat with
  | none => rfl
  | some amount => exact unraised amount

end Combat
