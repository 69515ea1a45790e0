/-!
# Finite sets in ascending order

A set is the list of its elements, smallest first and each once. `ofList` sorts and drops
repetitions, so that two lists with the same elements give the same set.
-/

namespace TorrentFlow

/-- A finite set, listed in ascending order. -/
structure OrderedSet (α : Type) where
  elements : List α := []
deriving DecidableEq

namespace OrderedSet

variable {α : Type}

def empty : OrderedSet α := ⟨[]⟩

def isEmpty (s : OrderedSet α) : Bool := s.elements.isEmpty

section Membership

variable [DecidableEq α]

instance : Membership α (OrderedSet α) := ⟨fun s a => a ∈ s.elements⟩

instance (a : α) (s : OrderedSet α) : Decidable (a ∈ s) :=
  inferInstanceAs (Decidable (a ∈ s.elements))

def contains (s : OrderedSet α) (a : α) : Bool := decide (a ∈ s)

def erase (s : OrderedSet α) (a : α) : OrderedSet α := ⟨s.elements.filter fun b => decide (b ≠ a)⟩

def diff (s t : OrderedSet α) : OrderedSet α := ⟨s.elements.filter fun a => decide (a ∉ t)⟩

end Membership

section Order

variable [DecidableEq α] [LT α] [DecidableLT α]

/-- Puts an element in its place in a sorted list, unless it is there already. -/
def put (a : α) : List α → List α
  | [] => [a]
  | b :: rest => if a = b then b :: rest else if a < b then a :: b :: rest else b :: put a rest

def insert (s : OrderedSet α) (a : α) : OrderedSet α := ⟨put a s.elements⟩

def ofList (l : List α) : OrderedSet α := l.foldl insert empty

end Order

theorem mem_def [DecidableEq α] {a : α} {s : OrderedSet α} : a ∈ s ↔ a ∈ s.elements := Iff.rfl

theorem mem_put [DecidableEq α] [LT α] [DecidableLT α] {a b : α} {l : List α} :
    b ∈ put a l ↔ b = a ∨ b ∈ l := by
  induction l with
  | nil => simp [put]
  | cons c rest ih =>
    simp only [put]
    split
    · next h => subst h; simp
    · split
      · simp
      · simp only [List.mem_cons, ih]
        constructor
        · rintro (h | h | h) <;> simp [h]
        · rintro (h | h | h) <;> simp [h]

@[simp] theorem mem_insert [DecidableEq α] [LT α] [DecidableLT α] {s : OrderedSet α} {a b : α} :
    b ∈ s.insert a ↔ b = a ∨ b ∈ s := mem_put

@[simp] theorem mem_erase [DecidableEq α] {s : OrderedSet α} {a b : α} :
    b ∈ s.erase a ↔ b ∈ s ∧ b ≠ a := by
  simp [mem_def, erase]

@[simp] theorem mem_diff [DecidableEq α] {s t : OrderedSet α} {a : α} :
    a ∈ s.diff t ↔ a ∈ s ∧ a ∉ t := by
  simp [mem_def, diff]

/-- **A set has the elements of the list it was made from.** -/
@[simp] theorem mem_ofList [DecidableEq α] [LT α] [DecidableLT α] {l : List α} {a : α} :
    a ∈ ofList l ↔ a ∈ l := by
  suffices h : ∀ s : OrderedSet α, a ∈ l.foldl insert s ↔ a ∈ l ∨ a ∈ s by
    simpa [mem_def, ofList, empty] using h empty
  induction l with
  | nil => simp
  | cons b rest ih =>
    intro s
    simp only [List.foldl_cons, ih, mem_insert, List.mem_cons]
    constructor
    · rintro (h | h | h) <;> simp [h]
    · rintro ((h | h) | h) <;> simp [h]

end OrderedSet

end TorrentFlow
