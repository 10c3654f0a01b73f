import Combat.TagCache
import Mathlib.Data.List.Induction

/-!
Lazy eviction cannot be observed. What a reader sees of a cache is its visible entries and its
dirty tags, and a read changes neither. After any history, the value seen under a key is the one
set last, unless it was cleared away, swept while one of its tags was dirty, or has a dirty tag now.
-/

namespace Combat.TagCache
variable {κ ν : Type}

/-- Every key stands once. -/
def Distinct (cache : TagCache κ ν) : Prop := (cache.entries.map (·.1)).Nodup

theorem Distinct.filter {cache : TagCache κ ν} (distinct : cache.Distinct)
    (keep : κ × CacheEntry ν → Bool) (dirty : List String) :
    Distinct { entries := cache.entries.filter keep, dirty } :=
  distinct.sublist (List.filter_sublist.map _)

/-! ### Dirty tags -/

theorem hidden_iff {cache : TagCache κ ν} {entry : CacheEntry ν} :
    cache.hidden entry = true ↔ ∃ tag ∈ entry.tags, cache.isDirty tag = true := by
  simp [hidden]

theorem isDirty_invalidate {cache : TagCache κ ν} {tag other : String} :
    (cache.invalidate tag).isDirty other = true ↔ other = tag ∨ cache.isDirty other = true := by
  unfold invalidate
  cases already : cache.isDirty tag
  · simp [isDirty]
  · simp only [if_true]
    constructor
    · exact .inr
    · rintro (rfl | dirty)
      · exact already
      · exact dirty

theorem hidden_invalidate (cache : TagCache κ ν) (tag : String) (entry : CacheEntry ν) :
    (cache.invalidate tag).hidden entry = (entry.tags.contains tag || cache.hidden entry) := by
  rw [Bool.eq_iff_iff]
  simp only [hidden_iff, isDirty_invalidate, Bool.or_eq_true, List.contains_iff_mem]
  constructor
  · rintro ⟨other, listed, rfl | dirty⟩
    · exact .inl listed
    · exact .inr ⟨other, listed, dirty⟩
  · rintro (listed | ⟨other, listed, dirty⟩)
    · exact ⟨tag, listed, .inl rfl⟩
    · exact ⟨other, listed, .inr dirty⟩

/-! ### Entries -/

section
variable [DecidableEq κ]

/-- The entry that a read of the key finds. -/
def visible (cache : TagCache κ ν) (key : κ) : Option (CacheEntry ν) :=
  (find key cache.entries).filter (!cache.hidden ·)

theorem find_mem {key : κ} {entry : CacheEntry ν} {entries : List (κ × CacheEntry ν)}
    (found : find key entries = some entry) : (key, entry) ∈ entries := by
  induction entries with
  | nil => simp [find] at found
  | cons head rest ih =>
    obtain ⟨k, e⟩ := head
    by_cases same : k = key
    · subst same
      simp_all [find]
    · exact List.mem_cons_of_mem _ (ih (by simpa [find, same] using found))

theorem find_without (key other : κ) (entries : List (κ × CacheEntry ν)) :
    find other (without key entries) = if key = other then none else find other entries := by
  induction entries with
  | nil => simp [without, find]
  | cons head rest ih =>
    obtain ⟨k, e⟩ := head
    simp only [without, ne_eq, decide_not] at ih ⊢
    by_cases dropped : k = key
    · subst dropped
      by_cases same : k = other
      · subst same
        simpa using ih
      · simp [find, ih, same]
    · by_cases same : k = other
      · subst same
        simp [find, dropped, Ne.symm dropped]
      · simp [find, dropped, same, ih]

/-- Where every key stands once, dropping entries does not bring out others of the same key. -/
theorem find_filter (keep : CacheEntry ν → Bool) {entries : List (κ × CacheEntry ν)} (key : κ)
    (distinct : (entries.map (·.1)).Nodup) :
    find key (entries.filter fun entry => keep entry.2) = (find key entries).filter keep := by
  induction entries with
  | nil => rfl
  | cons head rest ih =>
    obtain ⟨k, e⟩ := head
    rw [List.map_cons, List.nodup_cons] at distinct
    have tail := ih distinct.2
    by_cases same : k = key
    · subst same
      have absent : find k rest = none := by
        cases found : find k rest with
        | none => rfl
        | some entry => exact absurd (List.mem_map_of_mem (find_mem found)) distinct.1
      rw [absent] at tail
      cases kept : keep e <;> simp [find, Option.filter_some, kept, tail]
    · cases kept : keep e <;> simp [find, same, kept, tail]

/-! ### What each operation does to what a reader sees -/

theorem get_fst (cache : TagCache κ ν) (key : κ) :
    (cache.get key).1 = (cache.visible key).map (·.value) := by
  unfold get visible
  split
  · rename_i absent
    rw [absent]
    rfl
  · rename_i entry found
    rw [found, Option.filter_some]
    cases hides : cache.hidden entry <;> simp

theorem isDirty_get (cache : TagCache κ ν) (key : κ) (tag : String) :
    (cache.get key).2.isDirty tag = cache.isDirty tag := by
  unfold get
  split
  · rfl
  · split <;> rfl

theorem visible_get (cache : TagCache κ ν) (key other : κ) :
    (cache.get key).2.visible other = cache.visible other := by
  unfold get
  split
  · rfl
  · rename_i entry found
    split
    · rename_i hides
      simp only [visible, find_without]
      split
      · -- the entry that is dropped was hidden already
        rename_i here
        subst here
        simp [found, Option.filter_some, hides]
      · rfl
    · rfl

theorem visible_set (cache : TagCache κ ν) (key other : κ) (value : ν) (tags : List String) :
    (cache.set key value tags).visible other =
      if key = other then (some ⟨value, tags⟩).filter (!cache.hidden ·)
      else cache.visible other := by
  by_cases here : key = other
  · simp only [visible, set, find, if_pos here]
    rfl
  · simp only [visible, set, find, find_without, if_neg here]
    rfl

/-- A value that is set is seen unless it is hidden at once. -/
theorem visible_set_self_iff {cache : TagCache κ ν} {key : κ} {value : ν} {tags : List String}
    {entry : CacheEntry ν} :
    (cache.set key value tags).visible key = some entry ↔
      entry = ⟨value, tags⟩ ∧ cache.hidden entry = false := by
  rw [visible_set, if_pos rfl, Option.filter_eq_some_iff, Option.some_inj, eq_comm,
    Bool.not_eq_true']

theorem visible_invalidate (cache : TagCache κ ν) (tag : String) (key : κ) :
    (cache.invalidate tag).visible key = (cache.visible key).filter (!·.tags.contains tag) := by
  have entries : (cache.invalidate tag).entries = cache.entries := rfl
  simp only [visible, entries, hidden_invalidate, Option.filter_filter, Bool.not_or, Bool.and_comm]

/-- Sweeping drops what was hidden and shows nothing new. -/
theorem visible_clearDirty {cache : TagCache κ ν} (distinct : cache.Distinct) (key : κ) :
    cache.clearDirty.visible key = cache.visible key := by
  have swept : find key cache.clearDirty.entries = cache.visible key :=
    find_filter (!cache.hidden ·) key distinct
  have shown : ∀ entry, cache.clearDirty.hidden entry = false := by
    intro entry
    simp [hidden, clearDirty, isDirty]
  rw [visible, swept]
  cases cache.visible key <;> simp [Option.filter_some, shown]

/-! ### Keys stay distinct -/

theorem Distinct.get {cache : TagCache κ ν} (distinct : cache.Distinct) (key : κ) :
    (cache.get key).2.Distinct := by
  unfold TagCache.get
  split
  · exact distinct
  · split
    · exact distinct.filter _ _
    · exact distinct

theorem Distinct.set {cache : TagCache κ ν} (distinct : cache.Distinct) (key : κ) (value : ν)
    (tags : List String) : (cache.set key value tags).Distinct := by
  have tail : ((without key cache.entries).map (·.1)).Nodup := distinct.filter _ []
  refine List.nodup_cons.mpr ⟨fun listed => ?_, tail⟩
  obtain ⟨entry, kept, same⟩ := List.mem_map.mp listed
  simp only [without, List.mem_filter, decide_eq_true_eq] at kept
  exact kept.2 same

end

/-! ### Histories -/

inductive Action (κ ν : Type) where
  | set (key : κ) (value : ν) (tags : List String)
  | get (key : κ)
  | invalidate (tag : String)
  | clearDirty
  | clear

def Action.isRead : Action κ ν → Bool
  | .get _ => true
  | _ => false

def withoutReads (history : List (Action κ ν)) : List (Action κ ν) :=
  history.filter (!·.isRead)

/-- The tag was invalidated after the latest sweep and the latest clearing. -/
def DirtyAfter (history : List (Action κ ν)) (tag : String) : Prop :=
  ∃ early late, history = early ++ .invalidate tag :: late ∧
    .clearDirty ∉ late ∧ .clear ∉ late

/-- The key was last set to the value under the tags, no clearing came after, and no sweep while
one of the tags was dirty. -/
def StoredAfter (history : List (Action κ ν)) (key : κ) (value : ν) (tags : List String) : Prop :=
  ∃ early late, history = early ++ .set key value tags :: late ∧
    (∀ other otherTags, .set key other otherTags ∉ late) ∧ .clear ∉ late ∧
    ∀ first second, late = first ++ .clearDirty :: second →
      ∀ tag ∈ tags, ¬DirtyAfter (early ++ .set key value tags :: first) tag

/-- Where an action stands in a history with one action more: at its end or before. -/
theorem concat_eq_split {α : Type} {history early late : List α} {action other : α} :
    history ++ [action] = early ++ other :: late ↔
      (late = [] ∧ early = history ∧ other = action) ∨
        ∃ rest, late = rest ++ [action] ∧ history = early ++ other :: rest := by
  constructor
  · intro h
    rcases List.eq_nil_or_concat late with rfl | ⟨rest, last, rfl⟩
    · obtain ⟨rfl, same⟩ := List.append_inj' h rfl
      exact .inl ⟨rfl, rfl, (List.cons.inj same).1.symm⟩
    · rw [List.concat_eq_append, ← List.cons_append, ← List.append_assoc] at h
      obtain ⟨rfl, same⟩ := List.append_inj' h rfl
      cases same
      exact .inr ⟨rest, List.concat_eq_append .., rfl⟩
  · rintro (⟨rfl, rfl, rfl⟩ | ⟨rest, rfl, rfl⟩)
    · rfl
    · simp

theorem dirtyAfter_concat {history : List (Action κ ν)} {action : Action κ ν} {tag : String} :
    DirtyAfter (history ++ [action]) tag ↔
      action = .invalidate tag ∨
        (action ≠ .clearDirty ∧ action ≠ .clear ∧ DirtyAfter history tag) := by
  constructor
  · rintro ⟨early, late, split, unswept, uncleared⟩
    obtain ⟨-, -, same⟩ | ⟨rest, rfl, rfl⟩ := concat_eq_split.mp split
    · exact .inl same.symm
    · simp only [List.mem_append, List.mem_singleton, not_or] at unswept uncleared
      exact .inr ⟨Ne.symm unswept.2, Ne.symm uncleared.2, early, rest, rfl, unswept.1, uncleared.1⟩
  · rintro (rfl | ⟨swept, cleared, early, late, rfl, unswept, uncleared⟩)
    · exact ⟨history, [], rfl, List.not_mem_nil, List.not_mem_nil⟩
    · refine ⟨early, late ++ [action], by simp, ?_, ?_⟩ <;>
        simp only [List.mem_append, List.mem_singleton, not_or]
      · exact ⟨unswept, Ne.symm swept⟩
      · exact ⟨uncleared, Ne.symm cleared⟩

theorem storedAfter_concat {history : List (Action κ ν)} {action : Action κ ν} {key : κ}
    {value : ν} {tags : List String} :
    StoredAfter (history ++ [action]) key value tags ↔
      action = .set key value tags ∨
        ((∀ other otherTags, action ≠ .set key other otherTags) ∧ action ≠ .clear ∧
          StoredAfter history key value tags ∧
          (action = .clearDirty → ∀ tag ∈ tags, ¬DirtyAfter history tag)) := by
  constructor
  · rintro ⟨early, late, split, last, uncleared, unswept⟩
    obtain ⟨-, -, same⟩ | ⟨rest, rfl, rfl⟩ := concat_eq_split.mp split
    · exact .inl same.symm
    · simp only [List.mem_append, List.mem_singleton, not_or] at last uncleared
      refine .inr ⟨fun other otherTags => Ne.symm (last other otherTags).2, Ne.symm uncleared.2,
        ⟨early, rest, rfl, fun other otherTags => (last other otherTags).1, uncleared.1, ?_⟩, ?_⟩
      · rintro first second rfl
        exact unswept first (second ++ [action]) (by simp)
      · rintro rfl
        exact unswept rest [] rfl
  · rintro (rfl | ⟨unset, cleared, ⟨early, late, rfl, last, uncleared, unswept⟩, clean⟩)
    · exact ⟨history, [], rfl, fun _ _ => List.not_mem_nil, List.not_mem_nil, by simp⟩
    · refine ⟨early, late ++ [action], by simp, ?_, ?_, ?_⟩
      · intro other otherTags
        simp only [List.mem_append, List.mem_singleton, not_or]
        exact ⟨last other otherTags, Ne.symm (unset other otherTags)⟩
      · simp only [List.mem_append, List.mem_singleton, not_or]
        exact ⟨uncleared, Ne.symm cleared⟩
      · intro first second split
        obtain ⟨rfl, rfl, swept⟩ | ⟨rest, rfl, rfl⟩ := concat_eq_split.mp split
        · exact clean swept.symm
        · exact unswept first rest rfl

/-! ### Reads leave no trace in a history -/

theorem withoutReads_concat (history : List (Action κ ν)) (action : Action κ ν) :
    withoutReads (history ++ [action]) =
      if action.isRead then withoutReads history else withoutReads history ++ [action] := by
  cases read : action.isRead <;> simp [withoutReads, read]

theorem dirtyAfter_withoutReads (history : List (Action κ ν)) (tag : String) :
    DirtyAfter (withoutReads history) tag ↔ DirtyAfter history tag := by
  induction history using List.reverseRecOn with
  | nil => rfl
  | append_singleton history action ih =>
    rw [withoutReads_concat]
    cases action <;> simp [Action.isRead, dirtyAfter_concat, ih]

theorem storedAfter_withoutReads (history : List (Action κ ν)) (key : κ) (value : ν)
    (tags : List String) :
    StoredAfter (withoutReads history) key value tags ↔ StoredAfter history key value tags := by
  induction history using List.reverseRecOn with
  | nil => rfl
  | append_singleton history action ih =>
    rw [withoutReads_concat]
    cases action <;> simp [Action.isRead, storedAfter_concat, dirtyAfter_withoutReads, ih]

/-! ### The cache after a history -/

section
variable [DecidableEq κ]

def act (cache : TagCache κ ν) : Action κ ν → TagCache κ ν
  | .set key value tags => cache.set key value tags
  | .get key => (cache.get key).2
  | .invalidate tag => cache.invalidate tag
  | .clearDirty => cache.clearDirty
  | .clear => cache.clear

/-- The cache that a history leaves, the latest action last. -/
def run (history : List (Action κ ν)) : TagCache κ ν := history.foldl act {}

theorem run_concat (history : List (Action κ ν)) (action : Action κ ν) :
    run (history ++ [action]) = act (run history) action := by
  simp [run]

theorem run_distinct (history : List (Action κ ν)) : (run history).Distinct := by
  induction history using List.reverseRecOn with
  | nil => exact List.nodup_nil
  | append_singleton history action ih =>
    rw [run_concat]
    cases action with
    | set key value tags => exact ih.set key value tags
    | get key => exact ih.get key
    | invalidate tag => exact ih
    | clearDirty => exact ih.filter _ _
    | clear => exact List.nodup_nil

theorem run_isDirty (history : List (Action κ ν)) (tag : String) :
    (run history).isDirty tag = true ↔ DirtyAfter history tag := by
  induction history using List.reverseRecOn with
  | nil => simp [run, isDirty, DirtyAfter]
  | append_singleton history action ih =>
    rw [run_concat, dirtyAfter_concat]
    cases action with
    | set key value tags =>
      have same : ((run history).set key value tags).isDirty tag = (run history).isDirty tag := rfl
      simpa [act, same] using ih
    | get key => simpa [act, isDirty_get] using ih
    | invalidate other => simpa [act, isDirty_invalidate, ih] using or_congr_left eq_comm
    | clearDirty => simp [act, clearDirty, isDirty]
    | clear => simp [act, clear, isDirty]

theorem run_hidden (history : List (Action κ ν)) (entry : CacheEntry ν) :
    (run history).hidden entry = true ↔ ∃ tag ∈ entry.tags, DirtyAfter history tag := by
  simp only [hidden_iff, run_isDirty]

theorem run_visible (history : List (Action κ ν)) (key : κ) (value : ν) (tags : List String) :
    (run history).visible key = some ⟨value, tags⟩ ↔
      StoredAfter history key value tags ∧ ∀ tag ∈ tags, ¬DirtyAfter history tag := by
  induction history using List.reverseRecOn with
  | nil => simp [run, visible, find, StoredAfter]
  | append_singleton history action ih =>
    rw [run_concat, storedAfter_concat]
    simp only [dirtyAfter_concat]
    cases action with
    | set other newValue newTags =>
      rw [act]
      by_cases here : other = key
      · subst here
        rw [visible_set_self_iff, ← Bool.not_eq_true, run_hidden]
        constructor
        · rintro ⟨same, clean⟩
          cases same
          exact ⟨.inl rfl, by simpa using clean⟩
        · rintro ⟨same | ⟨unset, -⟩, clean⟩
          · cases same
            exact ⟨rfl, by simpa using clean⟩
          · exact absurd rfl (unset _ _)
      · rw [visible_set, if_neg here, ih]
        simp [here]
    | get other => simpa [act, visible_get] using ih
    | invalidate tag =>
      rw [act, visible_invalidate, Option.filter_eq_some_iff, ih]
      constructor
      · rintro ⟨⟨stored, clean⟩, unlisted⟩
        refine ⟨.inr ⟨nofun, nofun, stored, nofun⟩, fun other listed => ?_⟩
        rintro (same | ⟨-, -, dirty⟩)
        · cases same
          simp [listed] at unlisted
        · exact clean other listed dirty
      · rintro ⟨set | ⟨-, -, stored, -⟩, clean⟩
        · cases set
        · refine ⟨⟨stored, fun other listed dirty => ?_⟩, ?_⟩
          · exact clean other listed (.inr ⟨nofun, nofun, dirty⟩)
          · simpa using fun listed => clean tag listed (.inl rfl)
    | clearDirty =>
      rw [act, visible_clearDirty (run_distinct history), ih]
      simp
    | clear => simp [act, clear, visible, find]

theorem get_run (history : List (Action κ ν)) (key : κ) (value : ν) :
    ((run history).get key).1 = some value ↔
      ∃ tags, StoredAfter history key value tags ∧ ∀ tag ∈ tags, ¬DirtyAfter history tag := by
  rw [get_fst, Option.map_eq_some_iff]
  constructor
  · rintro ⟨⟨_, tags⟩, seen, rfl⟩
    exact ⟨tags, (run_visible history key _ tags).mp seen⟩
  · rintro ⟨tags, kept⟩
    exact ⟨⟨value, tags⟩, (run_visible history key value tags).mpr kept, rfl⟩

/-- A read answers with the value set last, as long as nothing cleared or swept it away and none of
its tags is dirty, and reads put in or left out anywhere change no answer. -/
theorem get_run_law (history : List (Action κ ν)) (key : κ) :
    (∀ value, ((run history).get key).1 = some value ↔
      ∃ tags, StoredAfter history key value tags ∧ ∀ tag ∈ tags, ¬DirtyAfter history tag) ∧
    (∀ tag, (run history).isDirty tag = true ↔ DirtyAfter history tag) ∧
    ∀ other, withoutReads other = withoutReads history →
      ((run other).get key).1 = ((run history).get key).1 ∧
        ∀ tag, (run other).isDirty tag = (run history).isDirty tag := by
  refine ⟨get_run history key, run_isDirty history, fun other same => ?_⟩
  have dirty : ∀ tag, DirtyAfter other tag ↔ DirtyAfter history tag := by
    intro tag
    rw [← dirtyAfter_withoutReads other, same, dirtyAfter_withoutReads]
  have stored : ∀ value tags, StoredAfter other key value tags ↔
      StoredAfter history key value tags := by
    intro value tags
    rw [← storedAfter_withoutReads other, same, storedAfter_withoutReads]
  constructor
  · refine Option.ext fun value => ?_
    simp only [get_run, stored, dirty]
  · intro tag
    rw [Bool.eq_iff_iff, run_isDirty, run_isDirty, dirty]

end

/-- A value that is hidden as soon as it is set, and one that is set after the sweep. -/
def sweptHistory : List (Action String Nat) :=
  [.set "attack" 10 ["stats"], .invalidate "stats", .set "attack" 12 ["stats"], .clearDirty,
    .set "defence" 7 ["stats"]]

/-- The same with a read that drops the hidden value before the sweep does. -/
def sweptHistoryRead : List (Action String Nat) :=
  [.set "attack" 10 ["stats"], .invalidate "stats", .set "attack" 12 ["stats"], .get "attack",
    .clearDirty, .get "defence", .set "defence" 7 ["stats"]]

theorem get_run_law_swept :
    withoutReads sweptHistoryRead = withoutReads sweptHistory ∧
      ((run sweptHistory).get "attack").1 = none ∧ ((run sweptHistory).get "defence").1 = some 7 ∧
      ((run sweptHistoryRead).get "attack").1 = ((run sweptHistory).get "attack").1 ∧
      ∀ tag, (run sweptHistoryRead).isDirty tag = (run sweptHistory).isDirty tag := by
  have same : withoutReads sweptHistoryRead = withoutReads sweptHistory := rfl
  exact ⟨same, by decide, by decide, (get_run_law sweptHistory "attack").2.2 sweptHistoryRead same⟩

end Combat.TagCache
