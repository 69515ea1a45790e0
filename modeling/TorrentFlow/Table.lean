/-!
# Finite tables

A table gives at most one value to a key and lists its keys in ascending order. It is a list of
pairs: `set` keeps the list sorted, `get?` answers the first value found. The two laws that matter,
`get?_set` and `get?_erase`, hold for any list, sorted or not.
-/

namespace TorrentFlow

/-- A finite map with its keys in ascending order. -/
structure Table (κ α : Type) where
  entries : List (κ × α) := []
deriving DecidableEq

namespace Table

variable {κ α : Type}

def empty : Table κ α := ⟨[]⟩

def isEmpty (t : Table κ α) : Bool := t.entries.isEmpty

def size (t : Table κ α) : Nat := t.entries.length

def keys (t : Table κ α) : List κ := t.entries.map (·.1)

def values (t : Table κ α) : List α := t.entries.map (·.2)

def filterKeys (keep : κ → Bool) (t : Table κ α) : Table κ α := ⟨t.entries.filter fun e => keep e.1⟩

section Lookup

variable [DecidableEq κ]

def find (k : κ) : List (κ × α) → Option α
  | [] => none
  | (k', v) :: rest => if k = k' then some v else find k rest

def get? (t : Table κ α) (k : κ) : Option α := find k t.entries

def contains (t : Table κ α) (k : κ) : Bool := (t.get? k).isSome

def erase (t : Table κ α) (k : κ) : Table κ α := ⟨t.entries.filter fun e => decide (e.1 ≠ k)⟩

variable [LT κ] [DecidableLT κ]

def put (k : κ) (v : α) : List (κ × α) → List (κ × α)
  | [] => [(k, v)]
  | (k', v') :: rest =>
    if k = k' then (k, v) :: rest
    else if k < k' then (k, v) :: (k', v') :: rest
    else (k', v') :: put k v rest

def set (t : Table κ α) (k : κ) (v : α) : Table κ α := ⟨put k v t.entries⟩

end Lookup

@[simp] theorem get?_empty [DecidableEq κ] (k : κ) : (empty : Table κ α).get? k = none := rfl

theorem find_put [DecidableEq κ] [LT κ] [DecidableLT κ] (k j : κ) (v : α) (l : List (κ × α)) :
    find j (put k v l) = if j = k then some v else find j l := by
  induction l with
  | nil => by_cases h : j = k <;> simp [put, find, h]
  | cons e rest ih =>
    obtain ⟨k', v'⟩ := e
    by_cases hk : k = k'
    · subst hk
      by_cases h : j = k <;> simp [put, find, h]
    · by_cases hlt : k < k'
      · by_cases h : j = k <;> simp [put, find, hk, hlt, h]
      · by_cases h : j = k'
        · have hjk : ¬ k' = k := fun e => hk e.symm
          simp [put, find, hk, hlt, h, hjk]
        · simp [put, find, hk, hlt, h, ih]

/-- **Reading after writing.** -/
@[simp] theorem get?_set [DecidableEq κ] [LT κ] [DecidableLT κ] (t : Table κ α) (k j : κ) (v : α) :
    (t.set k v).get? j = if j = k then some v else t.get? j :=
  find_put k j v t.entries

@[simp] theorem get?_erase [DecidableEq κ] (t : Table κ α) (k j : κ) :
    (t.erase k).get? j = if j = k then none else t.get? j := by
  obtain ⟨l⟩ := t
  simp only [get?, erase]
  induction l with
  | nil => by_cases h : j = k <;> simp [find, h]
  | cons e rest ih =>
    obtain ⟨k', v'⟩ := e
    by_cases hk : k' = k
    · subst hk
      by_cases h : j = k' <;> simp_all [find]
    · by_cases h : j = k
      · have hjk : ¬ k = k' := fun e => hk e.symm
        subst h
        simp_all [find]
      · simp_all [find]

end Table

end TorrentFlow
