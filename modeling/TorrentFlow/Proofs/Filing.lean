import Mathlib.Tactic.Tauto
import TorrentFlow.Delivery.Index
import TorrentFlow.Proofs.Collections

/-!
The index files a subscriber under its own routes and under no others, and an alert is looked up
under a route of every filter that accepts it. So the slice that a batch leaves for a subscriber is
what its filter accepts of the batch, in the order of the batch.
-/

namespace TorrentFlow

namespace Route

lemma mem_ofFilter {f : Filter} {r : Route} :
    r ∈ ofFilter f ↔ r.handle = f.handle ∧
      ((f.kinds.isEmpty = true ∧ r.kind = none) ∨
        (f.kinds.isEmpty = false ∧ ∃ k ∈ f.kinds, r.kind = some k)) := by
  obtain ⟨kind, handle⟩ := r
  unfold ofFilter
  by_cases he : f.kinds.isEmpty = true
  · simp [he, and_comm]
  · rw [if_neg he]
    simp only [he, OrderedSet.mem_def, List.mem_map, Route.mk.injEq]
    constructor
    · rintro ⟨k, hk, rfl, rfl⟩
      exact ⟨rfl, Or.inr ⟨by simp, k, hk, rfl⟩⟩
    · rintro ⟨rfl, ⟨hempty, -⟩ | ⟨-, k, hk, rfl⟩⟩
      · exact absurd hempty (by simp)
      · exact ⟨k, hk, rfl, rfl⟩

lemma mem_ofAlert {a : Alert} {r : Route} :
    r ∈ ofAlert a ↔ (r.kind = none ∨ r.kind = some a.kind) ∧
      (r.handle = none ∨ r.handle = a.handle?) := by
  obtain ⟨kind, handle⟩ := r
  unfold ofAlert
  rcases a.handle? with _ | h
  · simp only [List.mem_cons, List.not_mem_nil, or_false, Route.mk.injEq]
    tauto
  · simp only [List.mem_cons, List.not_mem_nil, or_false, Route.mk.injEq]
    tauto

end Route

lemma Filter.accepts_iff_parts (f : Filter) (a : Alert) :
    f.accepts a = true ↔ (f.kinds.isEmpty = true ∨ a.kind ∈ f.kinds) ∧
      (f.handle = none ∨ f.handle = a.handle?) := by
  simp only [accepts, Bool.and_eq_true, Bool.or_eq_true, OrderedSet.contains_iff]
  rcases f.handle with _ | g
  · simp
  · simp [eq_comm (a := some g)]

/-- **A filter accepts an alert exactly if they have a route in common.** -/
lemma Filter.accepts_iff (f : Filter) (a : Alert) :
    f.accepts a = true ↔ ∃ route ∈ Route.ofFilter f, route ∈ Route.ofAlert a := by
  simp only [f.accepts_iff_parts, Route.mem_ofFilter, Route.mem_ofAlert]
  constructor
  · rintro ⟨hk, hh⟩
    by_cases he : f.kinds.isEmpty = true
    · exact ⟨⟨none, f.handle⟩, ⟨rfl, Or.inl ⟨he, rfl⟩⟩, Or.inl rfl, hh⟩
    · have hmem := hk.resolve_left he
      exact ⟨⟨some a.kind, f.handle⟩, ⟨rfl, Or.inr ⟨by simpa using he, _, hmem, rfl⟩⟩,
        Or.inr rfl, hh⟩
  · rintro ⟨route, ⟨hf, hcase⟩, hk, hh⟩
    rw [hf] at hh
    refine ⟨?_, hh⟩
    rcases hcase with ⟨he, -⟩ | ⟨-, k, hmem, hrk⟩
    · exact Or.inl he
    · rw [hrk] at hk
      rcases hk with hk | hk
      · simp at hk
      · exact Or.inr (Option.some.inj hk ▸ hmem)

/-! ### One shelf -/

namespace Shelf

def Tidy (shelf : Shelf) : Prop :=
  ∀ handle bucket, shelf.get? handle = some bucket → bucket.isEmpty = false

lemma bucket_put (shelf : Shelf) (handle handle' : Option Handle) (id : Nat) :
    (shelf.put handle id).bucket handle' =
      if handle' = handle then (shelf.bucket handle').insert id else shelf.bucket handle' := by
  unfold put bucket
  rw [Table.get?_set]
  by_cases h : handle' = handle <;> simp [h]

/-- A bucket that is taken away was as good as empty. -/
lemma bucket_drop (shelf : Shelf) (handle handle' : Option Handle) (id : Nat) :
    (shelf.drop handle id).bucket handle' =
      if handle' = handle then (shelf.bucket handle').erase id else shelf.bucket handle' := by
  unfold drop bucket
  rcases hb : shelf.get? handle with _ | ids
  · split_ifs with h
    · rw [h, hb]
      rfl
    · rfl
  · by_cases he : (ids.erase id).isEmpty = true
    · simp only [he, if_true, Table.get?_erase]
      split_ifs with h
      · rw [h, hb, Option.getD_some, OrderedSet.eq_of_isEmpty he]
        rfl
      · rfl
    · simp only [he, Bool.false_eq_true, if_false, Table.get?_set]
      split_ifs with h
      · rw [h, hb]
        rfl
      · rfl

lemma Tidy.put {shelf : Shelf} (h : shelf.Tidy) (handle : Option Handle) (id : Nat) :
    (shelf.put handle id).Tidy := by
  intro handle' bucket hb
  rw [Shelf.put, Table.get?_set] at hb
  split_ifs at hb
  · obtain rfl := Option.some.inj hb
    exact OrderedSet.isEmpty_eq_false.mpr ⟨id, OrderedSet.mem_insert.mpr (.inl rfl)⟩
  · exact h handle' bucket hb

lemma Tidy.drop {shelf : Shelf} (h : shelf.Tidy) (handle : Option Handle) (id : Nat) :
    (shelf.drop handle id).Tidy := by
  intro handle' bucket hb
  unfold Shelf.drop at hb
  rcases hs : shelf.get? handle with _ | ids
  · rw [hs] at hb
    exact h handle' bucket hb
  · simp only [hs] at hb
    split_ifs at hb with he
    · rw [Table.get?_erase] at hb
      split_ifs at hb
      exact h handle' bucket hb
    · rw [Table.get?_set] at hb
      split_ifs at hb
      · obtain rfl := Option.some.inj hb
        simpa using he
      · exact h handle' bucket hb

end Shelf

namespace SubscriberIndex

/-! ### Filing under one route -/

/-- Nothing is kept empty, neither a bucket nor a whole shelf. -/
structure Tidy (x : SubscriberIndex) : Prop where
  shelves : ∀ kind shelf, x.shelves.get? kind = some shelf → shelf.isEmpty = false
  buckets : ∀ kind shelf, x.shelves.get? kind = some shelf → shelf.Tidy

lemma tidy_empty : Tidy {} := ⟨nofun, nofun⟩

lemma shelf_fileUnder (id : Nat) (x : SubscriberIndex) (route : Route) (kind : Option AlertKind) :
    (fileUnder id x route).shelf kind =
      if kind = route.kind then (x.shelf kind).put route.handle id else x.shelf kind := by
  unfold fileUnder shelf
  rw [Table.get?_set]
  by_cases h : kind = route.kind <;> simp [h]

lemma shelf_dropFrom (id : Nat) (x : SubscriberIndex) (route : Route) (kind : Option AlertKind) :
    (dropFrom id x route).shelf kind =
      if kind = route.kind then (x.shelf kind).drop route.handle id else x.shelf kind := by
  unfold dropFrom shelf
  rcases hs : x.shelves.get? route.kind with _ | shelf
  · split_ifs with h
    · rw [h, hs]
      rfl
    · rfl
  · by_cases he : (shelf.drop route.handle id).isEmpty = true
    · simp only [he, if_true, Table.get?_erase]
      split_ifs with h
      · rw [h, hs, Option.getD_some, Table.eq_of_isEmpty he]
        rfl
      · rfl
    · simp only [he, Bool.false_eq_true, if_false, Table.get?_set]
      split_ifs with h
      · rw [h, hs]
        rfl
      · rfl

lemma mem_filedUnder_fileUnder (id j : Nat) (x : SubscriberIndex) (route route' : Route) :
    j ∈ (fileUnder id x route).filedUnder route' ↔
      j ∈ x.filedUnder route' ∨ (j = id ∧ route' = route) := by
  obtain ⟨kind, handle⟩ := route
  obtain ⟨kind', handle'⟩ := route'
  simp only [filedUnder, ← OrderedSet.mem_def, shelf_fileUnder, Route.mk.injEq]
  by_cases hk : kind' = kind
  · rw [if_pos hk, Shelf.bucket_put]
    by_cases hh : handle' = handle
    · simp [hk, hh, or_comm]
    · simp [hh]
  · simp [hk]

lemma mem_filedUnder_dropFrom (id j : Nat) (x : SubscriberIndex) (route route' : Route) :
    j ∈ (dropFrom id x route).filedUnder route' ↔
      j ∈ x.filedUnder route' ∧ ¬ (j = id ∧ route' = route) := by
  obtain ⟨kind, handle⟩ := route
  obtain ⟨kind', handle'⟩ := route'
  simp only [filedUnder, ← OrderedSet.mem_def, shelf_dropFrom, Route.mk.injEq]
  by_cases hk : kind' = kind
  · rw [if_pos hk, Shelf.bucket_drop]
    by_cases hh : handle' = handle
    · simp [hk, hh]
    · simp [hh]
  · simp [hk]

lemma tidy_shelf {x : SubscriberIndex} (h : x.Tidy) (kind : Option AlertKind) :
    (x.shelf kind).Tidy := by
  unfold shelf
  rcases hs : x.shelves.get? kind with _ | shelf
  · exact nofun
  · exact h.buckets kind shelf hs

lemma tidy_fileUnder {x : SubscriberIndex} (h : x.Tidy) (id : Nat) (route : Route) :
    (fileUnder id x route).Tidy := by
  refine ⟨fun kind shelf hs => ?_, fun kind shelf hs => ?_⟩ <;>
    rw [fileUnder, Table.get?_set] at hs <;> split_ifs at hs
  · obtain rfl := Option.some.inj hs
    exact Table.isEmpty_set _ _ _
  · exact h.shelves kind shelf hs
  · obtain rfl := Option.some.inj hs
    exact (tidy_shelf h route.kind).put _ _
  · exact h.buckets kind shelf hs

lemma tidy_dropFrom {x : SubscriberIndex} (h : x.Tidy) (id : Nat) (route : Route) :
    (dropFrom id x route).Tidy := by
  unfold dropFrom
  rcases hs : x.shelves.get? route.kind with _ | shelf
  · exact h
  have hrest := (h.buckets _ shelf hs).drop route.handle id
  by_cases he : (shelf.drop route.handle id).isEmpty = true
  · simp only [he, if_true]
    refine ⟨fun kind shelf' hs' => ?_, fun kind shelf' hs' => ?_⟩ <;>
      rw [Table.get?_erase] at hs' <;> split_ifs at hs'
    · exact h.shelves kind shelf' hs'
    · exact h.buckets kind shelf' hs'
  · simp only [he, Bool.false_eq_true, if_false]
    refine ⟨fun kind shelf' hs' => ?_, fun kind shelf' hs' => ?_⟩ <;>
      rw [Table.get?_set] at hs' <;> split_ifs at hs'
    · obtain rfl := Option.some.inj hs'
      simpa using he
    · exact h.shelves kind shelf' hs'
    · obtain rfl := Option.some.inj hs'
      exact hrest
    · exact h.buckets kind shelf' hs'

/-! ### Filing under the routes of a filter -/

lemma Tidy.insert {x : SubscriberIndex} (h : x.Tidy) (id : Nat) (f : Filter) :
    (x.insert id f).Tidy :=
  List.foldlRecOn (motive := Tidy) _ _ h fun _ hx route _ => tidy_fileUnder hx id route

lemma Tidy.remove {x : SubscriberIndex} (h : x.Tidy) (id : Nat) (f : Filter) :
    (x.remove id f).Tidy :=
  List.foldlRecOn (motive := Tidy) _ _ h fun _ hx route _ => tidy_dropFrom hx id route

lemma mem_filedUnder_insert (x : SubscriberIndex) (id j : Nat) (f : Filter) (route : Route) :
    j ∈ (x.insert id f).filedUnder route ↔
      j ∈ x.filedUnder route ∨ (j = id ∧ route ∈ Route.ofFilter f) := by
  unfold insert
  induction Route.ofFilter f generalizing x with
  | nil => simp
  | cons r rest ih =>
    rw [List.foldl_cons, ih, mem_filedUnder_fileUnder, List.mem_cons, or_assoc, ← and_or_left]

lemma mem_filedUnder_remove (x : SubscriberIndex) (id j : Nat) (f : Filter) (route : Route) :
    j ∈ (x.remove id f).filedUnder route ↔
      j ∈ x.filedUnder route ∧ ¬ (j = id ∧ route ∈ Route.ofFilter f) := by
  unfold remove
  induction Route.ofFilter f generalizing x with
  | nil => simp
  | cons r rest ih =>
    rw [List.foldl_cons, ih, mem_filedUnder_dropFrom, List.mem_cons, and_assoc, ← not_or,
      ← and_or_left]

/-! ### Looking up and cutting -/

lemma mem_lookup {x : SubscriberIndex} {a : Alert} {j : Nat} :
    j ∈ x.lookup a ↔ ∃ route ∈ Route.ofAlert a, j ∈ x.filedUnder route := by
  simp [lookup]

def slice {α : Type} (slices : Table Nat (List α)) (j : Nat) : List α := (slices.get? j).getD []

lemma slice_addToSlice {α : Type} (item : α) (slices : Table Nat (List α)) (id j : Nat) :
    slice (addToSlice item slices id) j = slice slices j ++ if j = id then [item] else [] := by
  unfold slice addToSlice
  rw [Table.get?_set]
  split_ifs with h
  · simp [h]
  · simp

lemma foldl_addToSlice {α : Type} (item : α) (ids : List Nat) (hn : ids.Nodup)
    (slices : Table Nat (List α)) (hs : slices.Sorted) :
    (ids.foldl (addToSlice item) slices).Sorted ∧
      ∀ j, slice (ids.foldl (addToSlice item) slices) j =
        slice slices j ++ if j ∈ ids then [item] else [] := by
  induction ids generalizing slices with
  | nil => exact ⟨hs, fun j => by simp⟩
  | cons id rest ih =>
    obtain ⟨hid, hrest⟩ := List.nodup_cons.mp hn
    obtain ⟨hsorted, hslice⟩ := ih hrest (addToSlice item slices id) (hs.set _ _)
    refine ⟨hsorted, fun j => ?_⟩
    rw [List.foldl_cons, hslice, slice_addToSlice]
    by_cases hj : j = id
    · subst hj
      simp [hid]
    · simp [hj]

lemma foldl_route {α : Type} (x : SubscriberIndex) (alertOf : α → Alert) (batch : List α)
    (slices : Table Nat (List α)) (hs : slices.Sorted) :
    (batch.foldl (fun slices item =>
        (x.lookup (alertOf item)).elements.foldl (addToSlice item) slices) slices).Sorted ∧
      ∀ j, slice (batch.foldl (fun slices item =>
          (x.lookup (alertOf item)).elements.foldl (addToSlice item) slices) slices) j =
        slice slices j ++ batch.filter fun item => decide (j ∈ x.lookup (alertOf item)) := by
  induction batch generalizing slices with
  | nil => exact ⟨hs, fun j => by simp⟩
  | cons item rest ih =>
    obtain ⟨hs', hslice'⟩ := foldl_addToSlice item (x.lookup (alertOf item)).elements
      (OrderedSet.sorted_ofList _).nodup slices hs
    obtain ⟨hsorted, hslice⟩ := ih _ hs'
    refine ⟨hsorted, fun j => ?_⟩
    rw [List.foldl_cons, hslice, hslice', List.filter_cons]
    by_cases hj : j ∈ x.lookup (alertOf item)
    · simp [hj, OrderedSet.mem_def.mp hj]
    · have hj' : j ∉ (x.lookup (alertOf item)).elements := hj
      simp [hj, hj']

lemma sorted_route {α : Type} (x : SubscriberIndex) (alertOf : α → Alert) (batch : List α) :
    (x.route alertOf batch).Sorted :=
  (foldl_route x alertOf batch {} Table.sorted_empty).1

/-- **The slice of a subscriber is what is found for it in the batch, in batch order.** -/
lemma slice_route {α : Type} (x : SubscriberIndex) (alertOf : α → Alert) (batch : List α)
    (j : Nat) :
    slice (x.route alertOf batch) j =
      batch.filter fun item => decide (j ∈ x.lookup (alertOf item)) := by
  exact (foldl_route x alertOf batch {} Table.sorted_empty).2 j

end SubscriberIndex

end TorrentFlow
