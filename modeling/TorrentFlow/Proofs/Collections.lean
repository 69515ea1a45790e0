import Mathlib.Data.List.Nodup
import Mathlib.Data.Nat.Basic
import Mathlib.Order.RelClasses
import Mathlib.Tactic.Lemma
import Mathlib.Tactic.SplitIfs
import TorrentFlow.OrderedSet
import TorrentFlow.Table

/-!
Sets and tables stay in ascending order, and what follows from it: an element is listed once, a
key has one entry, and the entries that pass a test can be counted from one change to the next.
-/

namespace TorrentFlow

namespace OrderedSet

variable {α : Type}

/-- The elements stand in ascending order, so each of them once. -/
def Sorted [LT α] (s : OrderedSet α) : Prop := s.elements.Pairwise (· < ·)

lemma sorted_empty [LT α] : Sorted (empty : OrderedSet α) := List.Pairwise.nil

@[simp] lemma contains_iff [DecidableEq α] {s : OrderedSet α} {a : α} :
    s.contains a = true ↔ a ∈ s := by
  simp [contains]

@[simp] lemma not_mem_empty [DecidableEq α] {a : α} : a ∉ (empty : OrderedSet α) := by
  simp [mem_def, empty]

lemma isEmpty_iff [DecidableEq α] {s : OrderedSet α} : s.isEmpty = true ↔ ∀ a, a ∉ s := by
  obtain ⟨l⟩ := s
  simp [isEmpty, mem_def, List.eq_nil_iff_forall_not_mem]

lemma isEmpty_eq_false [DecidableEq α] {s : OrderedSet α} : s.isEmpty = false ↔ ∃ a, a ∈ s := by
  rw [← Bool.not_eq_true, isEmpty_iff, not_forall_not]

lemma eq_of_isEmpty {s : OrderedSet α} (h : s.isEmpty = true) : s = {} := by
  obtain ⟨l⟩ := s
  exact congrArg OrderedSet.mk (List.isEmpty_iff.mp h)

lemma Sorted.diff [DecidableEq α] [LT α] {s : OrderedSet α} (h : s.Sorted) (t : OrderedSet α) :
    (s.diff t).Sorted :=
  List.Pairwise.sublist List.filter_sublist h

lemma Sorted.nodup [LT α] [IsStrictTotalOrder α (· < ·)] {s : OrderedSet α} (h : s.Sorted) :
    s.elements.Nodup := by
  refine List.Pairwise.imp (fun {a b} hab => ?_) h
  rintro rfl
  exact irrefl_of (· < ·) a hab

/-- A sorted set is determined by its elements. -/
lemma eq_of_mem_iff [LT α] [IsStrictTotalOrder α (· < ·)] {s t : OrderedSet α} (hs : s.Sorted)
    (ht : t.Sorted) (h : ∀ a, a ∈ s ↔ a ∈ t) : s = t := by
  have hperm := (List.perm_ext_iff_of_nodup hs.nodup ht.nodup).mpr h
  have heq := hperm.eq_of_pairwise (fun a b _ _ hab hba => (asymm_of (· < ·) hab hba).elim) hs ht
  cases s
  cases t
  exact congrArg OrderedSet.mk heq

section Order

variable [DecidableEq α] [LT α] [DecidableLT α]

lemma length_put_le (a : α) (l : List α) : (put a l).length ≤ l.length + 1 := by
  induction l with
  | nil => exact Nat.le_refl 1
  | cons b rest ih =>
    unfold put
    split_ifs
    · exact Nat.le_succ _
    · exact Nat.le_refl _
    · exact Nat.succ_le_succ ih

lemma length_ofList_le (l : List α) : (ofList l).elements.length ≤ l.length := by
  suffices h : ∀ s : OrderedSet α, (l.foldl insert s).elements.length ≤
      s.elements.length + l.length by
    simpa [ofList, empty] using h empty
  induction l with
  | nil => exact fun s => Nat.le_refl _
  | cons a rest ih =>
    intro s
    have hput : (s.insert a).elements.length ≤ s.elements.length + 1 := length_put_le a s.elements
    have hrest := ih (s.insert a)
    rw [List.foldl_cons, List.length_cons]
    omega

variable [IsStrictTotalOrder α (· < ·)]

lemma pairwise_put {a : α} {l : List α} (h : l.Pairwise (· < ·)) : (put a l).Pairwise (· < ·) := by
  induction l with
  | nil => simp [put]
  | cons b rest ih =>
    obtain ⟨hb, hrest⟩ := List.pairwise_cons.mp h
    simp only [put]
    split_ifs with heq hlt
    · exact h
    · refine List.pairwise_cons.mpr ⟨fun c hc => ?_, h⟩
      rcases List.mem_cons.mp hc with rfl | hc
      · exact hlt
      · exact trans_of (· < ·) hlt (hb c hc)
    · refine List.pairwise_cons.mpr ⟨fun c hc => ?_, ih hrest⟩
      rcases mem_put.mp hc with rfl | hc
      · exact (trichotomous_of (· < ·) b c).resolve_right
          (fun h => h.elim (fun e => heq e.symm) hlt)
      · exact hb c hc

lemma sorted_insert {s : OrderedSet α} (h : s.Sorted) (a : α) : (s.insert a).Sorted :=
  pairwise_put h

lemma sorted_ofList (l : List α) : (ofList l).Sorted := by
  suffices h : ∀ s : OrderedSet α, s.Sorted → (l.foldl insert s).Sorted from h empty sorted_empty
  induction l with
  | nil => exact fun s h => h
  | cons a rest ih => exact fun s h => ih _ (sorted_insert h a)

end Order

end OrderedSet

namespace Table

variable {κ α : Type}

lemma eq_of_isEmpty {t : Table κ α} (h : t.isEmpty = true) : t = {} := by
  obtain ⟨l⟩ := t
  exact congrArg Table.mk (List.isEmpty_iff.mp h)

section Lookup

variable [DecidableEq κ]

lemma isEmpty_iff {t : Table κ α} : t.isEmpty = true ↔ ∀ k, t.get? k = none := by
  refine ⟨fun h k => by rw [eq_of_isEmpty h]; rfl, fun h => ?_⟩
  obtain ⟨_ | ⟨⟨k, v⟩, rest⟩⟩ := t
  · rfl
  · simpa [get?, find] using h k

lemma isEmpty_set [LT κ] [DecidableLT κ] (t : Table κ α) (k : κ) (v : α) :
    (t.set k v).isEmpty = false := by
  rw [← Bool.not_eq_true, isEmpty_iff]
  intro h
  simpa using h k

lemma contains_set [LT κ] [DecidableLT κ] {t : Table κ α} {k j : κ} {v : α} :
    (t.set k v).contains j = true ↔ j = k ∨ t.contains j = true := by
  unfold contains
  rw [get?_set]
  split_ifs with hj <;> simp [hj]

lemma contains_erase {t : Table κ α} {k j : κ} :
    (t.erase k).contains j = true ↔ t.contains j = true ∧ j ≠ k := by
  unfold contains
  rw [get?_erase]
  split_ifs with hj <;> simp [hj]

lemma mem_keys {t : Table κ α} {k : κ} : k ∈ t.keys ↔ (t.get? k).isSome = true := by
  obtain ⟨l⟩ := t
  simp only [keys, get?]
  induction l with
  | nil => simp [find]
  | cons e rest ih =>
    obtain ⟨k', v⟩ := e
    by_cases h : k = k'
    · simp [find, h]
    · simpa [find, h] using ih

lemma mem_of_find {k : κ} {v : α} {l : List (κ × α)} (h : find k l = some v) : (k, v) ∈ l := by
  induction l with
  | nil => simp [find] at h
  | cons e rest ih =>
    obtain ⟨k', v'⟩ := e
    by_cases hk : k = k'
    · subst hk
      simp only [find, if_true, Option.some.injEq] at h
      simp [h]
    · simp only [find, hk, if_false] at h
      exact List.mem_cons_of_mem _ (ih h)

lemma find_of_mem {k : κ} {v : α} {l : List (κ × α)} (hn : (l.map (·.1)).Nodup)
    (h : (k, v) ∈ l) : find k l = some v := by
  induction l with
  | nil => simp at h
  | cons e rest ih =>
    obtain ⟨k', v'⟩ := e
    obtain ⟨hk', hrest⟩ := List.nodup_cons.mp hn
    rcases List.mem_cons.mp h with heq | h
    · obtain ⟨rfl, rfl⟩ := Prod.mk.inj heq
      simp [find]
    · have hne : k ≠ k' := fun e => hk' (e ▸ List.mem_map_of_mem (f := (·.1)) h)
      simpa [find, hne] using ih hrest h

lemma find_eq_none {k : κ} {l : List (κ × α)} (h : k ∉ l.map (·.1)) : find k l = none := by
  have hk := mem_keys (t := ⟨l⟩) (k := k)
  simp only [keys, get?] at hk
  rw [hk] at h
  simpa using h

lemma find_map {β : Type} (g : α → β) (k : κ) (l : List (κ × α)) :
    find k (l.map fun e => (e.1, g e.2)) = (find k l).map g := by
  induction l with
  | nil => rfl
  | cons e rest ih =>
    obtain ⟨k', v⟩ := e
    by_cases hk : k = k' <;> simp [find, hk, ih]

lemma find_filter {keep : κ × α → Bool} {k : κ} {l : List (κ × α)} (hn : (l.map (·.1)).Nodup) :
    find k (l.filter keep) = (find k l).filter fun v => keep (k, v) := by
  induction l with
  | nil => rfl
  | cons e rest ih =>
    obtain ⟨k', v⟩ := e
    obtain ⟨hk', hrest⟩ := List.nodup_cons.mp hn
    by_cases hk : k = k'
    · subst hk
      by_cases h : keep (k, v) = true
      · simp [find, h, Option.filter]
      · simp [find, h, ih hrest, find_eq_none hk', Option.filter]
    · by_cases h : keep (k', v) = true <;> simp [find, h, hk, ih hrest]

@[simp] lemma get?_filterKeys (keep : κ → Bool) (t : Table κ α) (k : κ) :
    (t.filterKeys keep).get? k = if keep k then t.get? k else none := by
  obtain ⟨l⟩ := t
  simp only [get?, filterKeys]
  induction l with
  | nil => simp [find]
  | cons e rest ih =>
    obtain ⟨k', v⟩ := e
    by_cases hk : k = k'
    · subst hk
      by_cases h : keep k = true <;> simp_all [find]
    · by_cases h : keep k' = true <;> simp_all [find]

end Lookup

def Sorted [LT κ] (t : Table κ α) : Prop := t.keys.Pairwise (· < ·)

lemma sorted_empty [LT κ] : Sorted ({} : Table κ α) := List.Pairwise.nil

lemma Sorted.erase [DecidableEq κ] [LT κ] {t : Table κ α} (h : t.Sorted) (k : κ) :
    (t.erase k).Sorted :=
  List.Pairwise.sublist (List.Sublist.map _ List.filter_sublist) h

lemma Sorted.nodup [LT κ] [IsStrictTotalOrder κ (· < ·)] {t : Table κ α} (h : t.Sorted) :
    t.keys.Nodup := by
  refine List.Pairwise.imp (fun {a b} hab => ?_) h
  rintro rfl
  exact irrefl_of (· < ·) a hab

lemma mem_entries [DecidableEq κ] [LT κ] [IsStrictTotalOrder κ (· < ·)] {t : Table κ α}
    (h : t.Sorted) {k : κ} {v : α} : (k, v) ∈ t.entries ↔ t.get? k = some v :=
  ⟨find_of_mem h.nodup, mem_of_find⟩

/-- A sorted table is determined by what it answers. -/
lemma eq_of_get? [DecidableEq κ] [LT κ] [IsStrictTotalOrder κ (· < ·)] {t u : Table κ α}
    (ht : t.Sorted) (hu : u.Sorted) (h : ∀ k, t.get? k = u.get? k) : t = u := by
  have hmem : ∀ e, e ∈ t.entries ↔ e ∈ u.entries := fun ⟨k, v⟩ => by
    rw [mem_entries ht, mem_entries hu, h]
  have hperm := (List.perm_ext_iff_of_nodup (List.Nodup.of_map _ ht.nodup)
    (List.Nodup.of_map _ hu.nodup)).mpr hmem
  have heq := hperm.eq_of_pairwise (fun a b _ _ hab hba => (asymm_of (· < ·) hab hba).elim)
    (List.pairwise_map.mp ht) (List.pairwise_map.mp hu)
  cases t
  cases u
  exact congrArg Table.mk heq

lemma map_fst_put [DecidableEq κ] [LT κ] [DecidableLT κ] (k : κ) (v : α) (l : List (κ × α)) :
    (put k v l).map (·.1) = OrderedSet.put k (l.map (·.1)) := by
  induction l with
  | nil => simp [put, OrderedSet.put]
  | cons e rest ih =>
    obtain ⟨k', v'⟩ := e
    simp only [put, List.map_cons, OrderedSet.put]
    split_ifs with h1 h2
    · simp [h1]
    · simp
    · simp [ih]

lemma Sorted.set [DecidableEq κ] [LT κ] [DecidableLT κ] [IsStrictTotalOrder κ (· < ·)]
    {t : Table κ α} (h : t.Sorted) (k : κ) (v : α) : (t.set k v).Sorted := by
  simp only [Sorted, keys, Table.set, map_fst_put]
  exact OrderedSet.pairwise_put h

lemma set_set [DecidableEq κ] [LT κ] [DecidableLT κ] (t : Table κ α) (k : κ) (v w : α) :
    (t.set k v).set k w = t.set k w := by
  obtain ⟨l⟩ := t
  simp only [Table.set, Table.mk.injEq]
  induction l with
  | nil => simp [put]
  | cons e rest ih =>
    obtain ⟨k', v'⟩ := e
    by_cases h1 : k = k'
    · simp [put, h1]
    · by_cases h2 : k < k' <;> simp [put, h1, h2, ih]

/-! ### Counting the values that pass a test -/

/-- One if there is a value and it passes, else nothing. -/
def weight (f : α → Bool) : Option α → Nat
  | some v => if f v then 1 else 0
  | none => 0

@[simp] lemma weight_none (f : α → Bool) : weight f none = 0 := rfl

@[simp] lemma weight_some (f : α → Bool) (v : α) : weight f (some v) = if f v then 1 else 0 := rfl

def count (f : α → Bool) (t : Table κ α) : Nat := t.values.countP f

lemma count_pos [DecidableEq κ] {t : Table κ α} {f : α → Bool} {k : κ} {v : α}
    (h : t.get? k = some v) (hv : f v = true) : 0 < count f t :=
  List.countP_pos_iff.mpr ⟨v, List.mem_map_of_mem (f := (·.2)) (mem_of_find h), hv⟩

lemma exists_of_count_pos [DecidableEq κ] [LT κ] [IsStrictTotalOrder κ (· < ·)] {t : Table κ α}
    (hs : t.Sorted) {f : α → Bool} (h : 0 < count f t) :
    ∃ k v, t.get? k = some v ∧ f v = true := by
  obtain ⟨v, hv, hf⟩ := List.countP_pos_iff.mp h
  obtain ⟨⟨k, u⟩, he, rfl⟩ := List.mem_map.mp hv
  exact ⟨k, u, find_of_mem hs.nodup he, hf⟩

section Count

variable [DecidableEq κ] [LT κ] [IsStrictTotalOrder κ (· < ·)]

/-- **Forgetting changes a count by the old value.** -/
lemma count_erase {t : Table κ α} (h : t.Sorted) (f : α → Bool) (k : κ) :
    count f (t.erase k) + weight f (t.get? k) = count f t := by
  obtain ⟨l⟩ := t
  simp only [count, values, Table.erase, get?, Sorted, keys] at h ⊢
  induction l with
  | nil => simp [find]
  | cons e rest ih =>
    obtain ⟨k', v'⟩ := e
    obtain ⟨hk', hrest⟩ := List.pairwise_cons.mp h
    have ih := ih hrest
    by_cases h1 : k = k'
    · have hnone : find k rest = none := find_eq_none fun hmem =>
        irrefl_of (· < ·) k' (hk' k' (h1 ▸ hmem))
      rw [hnone] at ih
      simp only [weight_none, Nat.add_zero] at ih
      simp only [find, h1, if_true, weight_some, List.map_cons, List.countP_cons]
      rw [List.filter_cons_of_neg (by simp), ← h1, ih]
    · have hne : k' ≠ k := fun e => h1 e.symm
      rw [List.filter_cons_of_pos (by simpa using hne)]
      simp only [find, h1, if_false, List.map_cons, List.countP_cons]
      omega

/-- **Writing changes a count by the old value and the new one.** -/
lemma count_set [DecidableLT κ] {t : Table κ α} (h : t.Sorted) (f : α → Bool) (k : κ) (v : α) :
    count f (t.set k v) + weight f (t.get? k) = count f t + (if f v then 1 else 0) := by
  obtain ⟨l⟩ := t
  simp only [count, values, Table.set, get?, Sorted, keys] at h ⊢
  induction l with
  | nil => simp [put, find, List.countP_cons]
  | cons e rest ih =>
    obtain ⟨k', v'⟩ := e
    obtain ⟨hk', hrest⟩ := List.pairwise_cons.mp h
    have ih := ih hrest
    by_cases h1 : k = k'
    · simp only [put, find, h1, if_true, List.map_cons, List.countP_cons, weight_some]
      omega
    · by_cases h2 : k < k'
      · -- a key below the first one is nowhere in the table
        have hnone : find k rest = none := find_eq_none fun hmem =>
          irrefl_of (· < ·) k (trans_of (· < ·) h2 (hk' k hmem))
        simp [put, find, h1, h2, hnone, List.countP_cons]
      · simp only [put, find, h1, h2, if_false, List.map_cons, List.countP_cons]
        omega

end Count

end Table

end TorrentFlow
