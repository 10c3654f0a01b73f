/-!
A cache whose entries name the tags they depend on. An entry is hidden while one of its tags is
dirty. Reading drops a hidden entry; `clearDirty` drops all of them and makes every tag clean.
-/

namespace Combat

structure CacheEntry (ν : Type) where
  value : ν
  tags : List String

structure TagCache (κ ν : Type) where
  entries : List (κ × CacheEntry ν) := []
  dirty : List String := []

namespace TagCache
variable {κ ν : Type} [DecidableEq κ]

def isDirty (cache : TagCache κ ν) (tag : String) : Bool := cache.dirty.contains tag

def hidden (cache : TagCache κ ν) (entry : CacheEntry ν) : Bool := entry.tags.any cache.isDirty

def find (key : κ) : List (κ × CacheEntry ν) → Option (CacheEntry ν)
  | [] => none
  | (k, entry) :: rest => if k = key then some entry else find key rest

def without (key : κ) (entries : List (κ × CacheEntry ν)) : List (κ × CacheEntry ν) :=
  entries.filter (fun entry => entry.1 ≠ key)

/-- The value under a key, and the cache without the entry if it was hidden. -/
def get (cache : TagCache κ ν) (key : κ) : Option ν × TagCache κ ν :=
  match find key cache.entries with
  | none => (none, cache)
  | some entry =>
    if cache.hidden entry then (none, { cache with entries := without key cache.entries })
    else (some entry.value, cache)

def set (cache : TagCache κ ν) (key : κ) (value : ν) (tags : List String) : TagCache κ ν :=
  { cache with entries := (key, ⟨value, tags⟩) :: without key cache.entries }

/-- Makes a tag dirty. -/
def invalidate (cache : TagCache κ ν) (tag : String) : TagCache κ ν :=
  { cache with dirty := if cache.isDirty tag then cache.dirty else tag :: cache.dirty }

def clearDirty (cache : TagCache κ ν) : TagCache κ ν :=
  { entries := cache.entries.filter (fun entry => !cache.hidden entry.2), dirty := [] }

def clear (_ : TagCache κ ν) : TagCache κ ν := {}

/-- Entries kept, hidden ones included. -/
def size (cache : TagCache κ ν) : Nat := cache.entries.length

end TagCache
end Combat
