import TorrentFlow.Proofs.Filing

/-!
The index against plain filtering. A subscriber that is filed while it is not live, and taken out
with the filter it was filed with, is found for exactly the alerts that its filter accepts in
between. A batch is cut as if every filter were asked about every alert of it, and nothing is kept
once nobody is left in it.
-/

namespace TorrentFlow

abbrev Roster := Table Nat Filter

namespace Roster

/-- The live subscribers whose filters accept an alert, found by asking them all. -/
def accepting (live : Roster) (a : Alert) : List Nat :=
  (live.entries.filter fun e => e.2.accepts a).map (·.1)

def share {α : Type} (alertOf : α → Alert) (batch : List α) (f : Filter) : List α :=
  batch.filter fun item => f.accepts (alertOf item)

/-- A batch cut by asking every filter about every alert. Those who get nothing are left out. -/
def cut {α : Type} (live : Roster) (alertOf : α → Alert) (batch : List α) : Table Nat (List α) :=
  ⟨(live.entries.map fun e => (e.1, share alertOf batch e.2)).filter fun e => !e.2.isEmpty⟩

lemma mem_accepting {live : Roster} (h : live.Sorted) {a : Alert} {id : Nat} :
    id ∈ live.accepting a ↔ ∃ f, live.get? id = some f ∧ f.accepts a = true := by
  unfold accepting
  rw [List.mem_map]
  constructor
  · rintro ⟨⟨id, f⟩, he, rfl⟩
    obtain ⟨hmem, hf⟩ := List.mem_filter.mp he
    exact ⟨f, (Table.mem_entries h).mp hmem, hf⟩
  · rintro ⟨f, hid, hf⟩
    exact ⟨(id, f), List.mem_filter.mpr ⟨(Table.mem_entries h).mpr hid, hf⟩, rfl⟩

lemma sorted_accepting {live : Roster} (h : live.Sorted) (a : Alert) :
    (live.accepting a).Pairwise (· < ·) :=
  List.Pairwise.sublist (List.filter_sublist.map _) h

section Cut

variable {α : Type} (alertOf : α → Alert) (batch : List α) {live : Roster}

lemma sorted_cut (h : live.Sorted) : (live.cut alertOf batch).Sorted := by
  refine List.Pairwise.sublist (List.filter_sublist.map _) ?_
  rw [List.map_map]
  exact h

lemma get?_cut (h : live.Sorted) (id : Nat) : (live.cut alertOf batch).get? id =
    ((live.get? id).map (share alertOf batch)).filter fun slice => !slice.isEmpty := by
  have hkeys : (live.entries.map fun e => (e.1, share alertOf batch e.2)).map (·.1) =
      live.keys := by
    rw [List.map_map]
    rfl
  unfold cut Table.get?
  rw [Table.find_filter (hkeys ▸ h.nodup), Table.find_map]

end Cut

end Roster

namespace SubscriberIndex

/-- An index and its live subscribers, as they come about: a subscriber is filed only while it is
not live, and taken out with the filter that it was filed with. -/
inductive Serves : SubscriberIndex → Roster → Prop
  | nobody : Serves {} {}
  | insert {x : SubscriberIndex} {live : Roster} {id : Nat} (f : Filter) (h : Serves x live)
      (hid : live.get? id = none) : Serves (x.insert id f) (live.set id f)
  | remove {x : SubscriberIndex} {live : Roster} {id : Nat} {f : Filter} (h : Serves x live)
      (hid : live.get? id = some f) : Serves (x.remove id f) (live.erase id)

/-- Nothing is kept empty, and every live subscriber is filed under the routes of its filter, and
nobody else is filed anywhere. -/
structure Filed (x : SubscriberIndex) (live : Roster) : Prop where
  sorted : live.Sorted
  tidy : x.Tidy
  filed : ∀ id route, id ∈ x.filedUnder route ↔
    ∃ f, live.get? id = some f ∧ route ∈ Route.ofFilter f

variable {x : SubscriberIndex} {live : Roster} {id : Nat} {f : Filter}

lemma Filed.insert (h : Filed x live) (hid : live.get? id = none) :
    Filed (x.insert id f) (live.set id f) where
  sorted := h.sorted.set id f
  tidy := h.tidy.insert id f
  filed j route := by
    have hnot : id ∉ x.filedUnder route := by
      rw [h.filed, hid]
      simp
    rw [mem_filedUnder_insert, Table.get?_set]
    by_cases hj : j = id
    · subst hj
      simp [hnot]
    · rw [if_neg hj, ← h.filed]
      simp [hj]

lemma Filed.remove (h : Filed x live) (hid : live.get? id = some f) :
    Filed (x.remove id f) (live.erase id) where
  sorted := h.sorted.erase id
  tidy := h.tidy.remove id f
  filed j route := by
    rw [mem_filedUnder_remove, Table.get?_erase]
    by_cases hj : j = id
    · -- whoever leaves was filed under the routes of its own filter, and is taken from all of them
      subst hj
      rw [h.filed, hid]
      simp
    · rw [if_neg hj, ← h.filed]
      simp [hj]

theorem Serves.filed (h : Serves x live) : Filed x live := by
  induction h with
  | nobody => exact ⟨Table.sorted_empty, tidy_empty, fun id route => by
      simp [filedUnder, shelf, Shelf.bucket, Table.get?, Table.find]⟩
  | insert f _ hid ih => exact ih.insert hid
  | remove _ hid ih => exact ih.remove hid

/-- **Whom the index finds for an alert is whom asking every filter finds.** -/
lemma Filed.lookup (h : Filed x live) (a : Alert) : x.lookup a = ⟨live.accepting a⟩ := by
  refine OrderedSet.eq_of_mem_iff (OrderedSet.sorted_ofList _) (Roster.sorted_accepting h.sorted a)
    fun id => ?_
  rw [OrderedSet.mem_def (s := ⟨live.accepting a⟩), Roster.mem_accepting h.sorted, mem_lookup]
  constructor
  · rintro ⟨route, ha, hr⟩
    obtain ⟨f, hid, hf⟩ := (h.filed id route).mp hr
    exact ⟨f, hid, (f.accepts_iff a).mpr ⟨route, hf, ha⟩⟩
  · rintro ⟨f, hid, hf⟩
    obtain ⟨route, hr, ha⟩ := (f.accepts_iff a).mp hf
    exact ⟨route, ha, (h.filed id route).mpr ⟨f, hid, hr⟩⟩

lemma route_ne_nil {α : Type} (x : SubscriberIndex) (alertOf : α → Alert) (batch : List α)
    (id : Nat) :
    (x.route alertOf batch).get? id ≠ some [] := by
  refine List.foldlRecOn (motive := fun slices : Table Nat (List α) => slices.get? id ≠ some [])
    batch _ nofun fun slices hslices item _ => ?_
  refine List.foldlRecOn (motive := fun slices : Table Nat (List α) => slices.get? id ≠ some []) _ _
    hslices fun slices hslices j _ => ?_
  rw [addToSlice, Table.get?_set]
  split_ifs
  · simp
  · exact hslices

/-- Of two slices that hold the same, the one that is never empty is there if the other has
anything. -/
lemma eq_filter_of_getD {α : Type} {o u : Option (List α)} (hne : o ≠ some [])
    (h : o.getD [] = u.getD []) : o = u.filter fun slice => !slice.isEmpty := by
  rcases o with _ | _ | ⟨item, rest⟩
  · rcases u with _ | slice
    · rfl
    · obtain rfl : [] = slice := h
      rfl
  · exact absurd rfl hne
  · rcases u with _ | slice
    · cases h
    · obtain rfl : item :: rest = slice := h
      rfl

/-- **The slices that the index cuts are those that asking every filter about every alert cuts.** -/
lemma Filed.route {α : Type} (h : Filed x live) (alertOf : α → Alert) (batch : List α) :
    x.route alertOf batch = live.cut alertOf batch := by
  refine Table.eq_of_get? (sorted_route _ _ _) (Roster.sorted_cut _ _ h.sorted) fun id => ?_
  have hslice : slice (x.route alertOf batch) id =
      ((live.get? id).map (Roster.share alertOf batch)).getD [] := by
    rw [slice_route]
    simp only [h.lookup, OrderedSet.mem_def, Roster.mem_accepting h.sorted]
    rcases live.get? id with _ | f
    · simp
    · simp [Roster.share]
  rw [Roster.get?_cut _ _ h.sorted]
  exact eq_filter_of_getD (route_ne_nil x alertOf batch id) hslice

lemma Tidy.isEmpty_iff (h : x.Tidy) : x.isEmpty = true ↔ ∀ id route, id ∉ x.filedUnder route := by
  constructor
  · intro hempty id route
    rw [filedUnder, shelf, Table.isEmpty_iff.mp hempty]
    exact List.not_mem_nil
  · intro hnobody
    refine Table.isEmpty_iff.mpr fun kind => ?_
    -- a shelf has a bucket, and a bucket has somebody in it
    rcases hs : x.shelves.get? kind with _ | shelf
    · rfl
    have hshelf := h.shelves kind shelf hs
    rw [← Bool.not_eq_true, Table.isEmpty_iff, not_forall] at hshelf
    obtain ⟨handle, hne⟩ := hshelf
    obtain ⟨bucket, hb⟩ := Option.ne_none_iff_exists'.mp hne
    obtain ⟨id, hid⟩ := OrderedSet.isEmpty_eq_false.mp (h.buckets kind shelf hs handle bucket hb)
    refine absurd ?_ (hnobody id ⟨kind, handle⟩)
    rw [filedUnder, SubscriberIndex.shelf, hs, Option.getD_some, Shelf.bucket, hb]
    exact hid

/-- Every filter has a route. -/
lemma exists_mem_ofFilter (f : Filter) : ∃ route, route ∈ Route.ofFilter f := by
  refine List.exists_mem_of_ne_nil _ ?_
  unfold Route.ofFilter
  by_cases he : f.kinds.isEmpty = true
  · simp [he]
  · rw [if_neg he]
    simpa [OrderedSet.isEmpty] using he

lemma Filed.isEmpty_iff (h : Filed x live) : x.isEmpty = true ↔ live.isEmpty = true := by
  rw [h.tidy.isEmpty_iff, Table.isEmpty_iff]
  constructor
  · intro hnobody id
    rcases hid : live.get? id with _ | f
    · rfl
    obtain ⟨route, hr⟩ := exists_mem_ofFilter f
    exact absurd ((h.filed id route).mpr ⟨f, hid, hr⟩) (hnobody id route)
  · intro hlive id route hmem
    obtain ⟨f, hid, -⟩ := (h.filed id route).mp hmem
    rw [hlive] at hid
    cases hid

/-- **The index agrees with plain filtering**, after any filing and taking out in which a subscriber
is filed only while it is not live and taken out with its own filter:

* an alert is looked up for exactly the live subscribers whose filters accept it;
* a batch leaves each of them that accepts something of it exactly that, in batch order, and nobody
  else a slice;
* no bucket and no shelf is kept empty, and the index is empty exactly if nobody is live. -/
theorem index_agrees (h : Serves x live) :
    (∀ a, (x.lookup a).elements = live.accepting a) ∧
      (∀ (α : Type) (alertOf : α → Alert) (batch : List α),
        x.route alertOf batch = live.cut alertOf batch) ∧
      x.Tidy ∧ (x.isEmpty = true ↔ live.isEmpty = true) := by
  have hfiled := h.filed
  refine ⟨fun a => ?_, fun α alertOf batch => hfiled.route alertOf batch, hfiled.tidy,
    hfiled.isEmpty_iff⟩
  rw [hfiled.lookup]

/-- Of two subscribers who share a bucket one leaves: the other is found as before, beside one who
wants everything. -/
theorem index_agrees_shared : ∃ (x : SubscriberIndex) (live : Roster), Serves x live ∧
    (x.lookup (.torrentRemoved ⟨0, 1⟩ "film")).elements = [2, 3] ∧
    (x.lookup (.log "late")).elements = [3] ∧
    x.route (fun a => a) [.log "early", .torrentRemoved ⟨0, 1⟩ "film",
      .torrentRemoved ⟨1, 1⟩ "song"] = ⟨[(2, [.torrentRemoved ⟨0, 1⟩ "film"]),
        (3, [.log "early", .torrentRemoved ⟨0, 1⟩ "film", .torrentRemoved ⟨1, 1⟩ "song"])]⟩ ∧
    x.Tidy ∧ x.isEmpty = false := by
  let f : Filter := .ofKinds [.torrentRemoved, .readPiece, .torrentRemoved] (some ⟨0, 1⟩)
  let g : Filter := .ofKinds [.torrentRemoved] (some ⟨0, 1⟩)
  have h : Serves ((((({} : SubscriberIndex).insert 1 f).insert 2 g).insert 3 {}).remove 1 f)
      (((((({} : Roster).set 1 f).set 2 g).set 3 {}).erase 1) : Roster) :=
    .remove (.insert _ (.insert _ (.insert _ .nobody rfl) rfl) rfl) rfl
  obtain ⟨hlookup, hroute, htidy, hempty⟩ := index_agrees h
  refine ⟨_, _, h, (hlookup _).trans (by decide), (hlookup _).trans (by decide),
    (hroute _ _ _).trans (by decide), htidy, ?_⟩
  rw [← Bool.not_eq_true, hempty]
  decide

end SubscriberIndex

end TorrentFlow
