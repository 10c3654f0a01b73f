/-!
Values kept under ids, in the order of the ids. Each id stands once and the order is strict, so
two maps that answer every id alike are equal.
-/

namespace Combat

structure IdMap (α : Type) where
  entries : List (String × α)
  sorted : entries.Pairwise (fun a b => a.1 < b.1)
  deriving DecidableEq

namespace IdMap
variable {α β : Type}

theorem lt_of_not_lt {a b : String} (h : ¬a < b) (ne : a ≠ b) : b < a := by
  refine String.not_le.mp fun le => ne ?_
  exact String.le_antisymm le (String.not_lt.mp h)

def empty : IdMap α := ⟨[], .nil⟩

instance : EmptyCollection (IdMap α) := ⟨empty⟩

instance : Inhabited (IdMap α) := ⟨empty⟩

def toList (m : IdMap α) : List (String × α) := m.entries

def ids (m : IdMap α) : List String := m.entries.map (·.1)

def values (m : IdMap α) : List α := m.entries.map (·.2)

def size (m : IdMap α) : Nat := m.entries.length

def isEmpty (m : IdMap α) : Bool := m.entries.isEmpty

/-- The value under an id in a list of entries. -/
def find (id : String) : List (String × α) → Option α
  | [] => none
  | (k, v) :: rest => if k = id then some v else find id rest

def get? (m : IdMap α) (id : String) : Option α := find id m.entries

def contains (m : IdMap α) (id : String) : Bool := (m.get? id).isSome

/-- The entries with one more, which replaces an entry of the same id. -/
def place (id : String) (value : α) : List (String × α) → List (String × α)
  | [] => [(id, value)]
  | (k, v) :: rest =>
    if id < k then (id, value) :: (k, v) :: rest
    else if id = k then (id, value) :: rest
    else (k, v) :: place id value rest

theorem mem_place {id : String} {value : α} {entry : String × α} {l : List (String × α)}
    (h : entry ∈ place id value l) : entry = (id, value) ∨ entry ∈ l := by
  induction l with
  | nil => simpa [place] using h
  | cons head rest ih =>
    obtain ⟨k, v⟩ := head
    simp only [place] at h
    split at h
    · simpa using h
    · split at h
      · rcases List.mem_cons.mp h with rfl | h
        · exact .inl rfl
        · exact .inr (List.mem_cons_of_mem _ h)
      · rcases List.mem_cons.mp h with rfl | h
        · exact .inr List.mem_cons_self
        · exact (ih h).imp_right (List.mem_cons_of_mem _)

theorem place_sorted (id : String) (value : α) {l : List (String × α)}
    (sorted : l.Pairwise (fun a b => a.1 < b.1)) :
    (place id value l).Pairwise (fun a b => a.1 < b.1) := by
  induction l with
  | nil => exact .cons (fun _ h => absurd h List.not_mem_nil) .nil
  | cons head rest ih =>
    obtain ⟨k, v⟩ := head
    obtain ⟨above, tail⟩ := List.pairwise_cons.mp sorted
    simp only [place]
    split
    · rename_i lt
      refine .cons (fun entry h => ?_) sorted
      rcases List.mem_cons.mp h with rfl | h
      · exact lt
      · exact String.lt_trans lt (above entry h)
    · split
      · rename_i same
        subst same
        exact .cons above tail
      · rename_i notLt ne
        refine .cons (fun entry h => ?_) (ih tail)
        rcases mem_place h with rfl | h
        · exact lt_of_not_lt notLt ne
        · exact above entry h

def insert (m : IdMap α) (id : String) (value : α) : IdMap α :=
  ⟨place id value m.entries, place_sorted id value m.sorted⟩

def erase (m : IdMap α) (id : String) : IdMap α :=
  ⟨m.entries.filter (fun entry => entry.1 ≠ id), m.sorted.filter _⟩

/-- Entries taken in turn; a later one replaces an earlier one of the same id. -/
def ofList (entries : List (String × α)) : IdMap α :=
  entries.foldl (fun m entry => m.insert entry.1 entry.2) empty

/-- The entries of both, those of the second map replacing those of the first. -/
def extend (m other : IdMap α) : IdMap α :=
  other.entries.foldl (fun m entry => m.insert entry.1 entry.2) m

def map (f : α → β) (m : IdMap α) : IdMap β :=
  ⟨m.entries.map (fun entry => (entry.1, f entry.2)), by
    simpa [List.pairwise_map] using m.sorted⟩

/-! ### Reading after writing -/

theorem find_place (id other : String) (value : α) (l : List (String × α)) :
    find other (place id value l) = if id = other then some value else find other l := by
  induction l with
  | nil => simp [place, find]
  | cons head rest ih =>
    obtain ⟨k, v⟩ := head
    simp only [place]
    split
    · rfl
    · split
      · rename_i same
        subst same
        simp only [find]
        split <;> rfl
      · rename_i ne
        simp only [find, ih]
        by_cases hk : k = other
        · subst hk
          simp [ne]
        · simp [hk]

@[simp] theorem get?_empty (id : String) : (empty : IdMap α).get? id = none := rfl

theorem get?_insert (m : IdMap α) (id other : String) (value : α) :
    (m.insert id value).get? other = if id = other then some value else m.get? other :=
  find_place ..

@[simp] theorem get?_insert_self (m : IdMap α) (id : String) (value : α) :
    (m.insert id value).get? id = some value := by simp [get?_insert]

theorem find_filter_ne (id other : String) (l : List (String × α)) :
    find other (l.filter (fun entry => entry.1 ≠ id)) =
      if id = other then none else find other l := by
  induction l with
  | nil => simp [find]
  | cons head rest ih =>
    obtain ⟨k, v⟩ := head
    by_cases hk : k = id
    · subst hk
      by_cases same : k = other
      · subst same
        simpa [find] using ih
      · simpa [find, same] using ih
    · by_cases same : id = other
      · subst same
        simpa [find, hk] using ih
      · simp only [List.filter_cons, ne_eq, hk, not_false_eq_true, decide_true, if_true, find, ih,
          same, if_false]

theorem get?_erase (m : IdMap α) (id other : String) :
    (m.erase id).get? other = if id = other then none else m.get? other :=
  find_filter_ne ..

theorem find_isSome {id : String} {l : List (String × α)} :
    (find id l).isSome ↔ ∃ value, (id, value) ∈ l := by
  induction l with
  | nil => simp [find]
  | cons head rest ih =>
    obtain ⟨k, v⟩ := head
    by_cases same : k = id
    · subst same
      simp [find]
    · simp [find, same, ih, Ne.symm same]

theorem ext {m n : IdMap α} (h : m.entries = n.entries) : m = n := by
  cases m
  cases n
  cases h
  rfl

end IdMap
end Combat
