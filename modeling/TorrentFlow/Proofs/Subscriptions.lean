import TorrentFlow.Delivery.Hub
import TorrentFlow.Proofs.Categories
import TorrentFlow.Proofs.Filing
import TorrentFlow.Proofs.Holders
import TorrentFlow.Proofs.Mailboxes

/-!
The hub as a table of subscriptions. The terms of a subscription never change; its mailbox does, and
no operation on one subscription reaches the mailbox of another.
-/

namespace TorrentFlow

open Table SubscriberIndex

/-- What a subscription was made with: its filter, its categories, and whether it is listed. -/
def Subscription.terms (s : Subscription) : Filter × Category × Bool := (s.filter, s.mask, s.listed)

namespace Hub

/-- How many subscriptions hold bit `i` of the mask. -/
def holders (h : Hub) (i : Nat) : Nat := h.subscriptions.count fun s => s.mask.has i

/-- Numbers are given out in order, and a subscription is filed under the routes of its filter as
long as it is listed. -/
structure Wf (h : Hub) : Prop where
  ids : ∀ id s, h.subscriptions.get? id = some s → id < h.nextId
  sorted : h.subscriptions.Sorted
  tidy : h.index.Tidy
  filed : ∀ id route, id ∈ h.index.filedUnder route ↔
    ∃ s, h.subscriptions.get? id = some s ∧ s.listed = true ∧ route ∈ Route.ofFilter s.filter

lemma wf_empty : Wf {} where
  ids id s h := by simp [get?, find] at h
  sorted := sorted_empty
  tidy := tidy_empty
  filed id route := by simp [filedUnder, shelf, Shelf.bucket, get?, find]

/-- **A listed subscription is found for the alerts that its filter accepts, and for no others.** -/
theorem Wf.mem_lookup {h : Hub} (hw : h.Wf) {id : Nat} {s : Subscription}
    (hs : h.subscriptions.get? id = some s) (hl : s.listed = true) (a : Alert) :
    id ∈ h.index.lookup a ↔ s.filter.accepts a = true := by
  simp only [SubscriberIndex.mem_lookup, s.filter.accepts_iff, hw.filed, hs, Option.some.injEq,
    exists_eq_left', hl, true_and]
  exact exists_congr fun _ => and_comm

/-- **The slice of a listed subscription is what its filter accepts of the batch.** -/
theorem Wf.slice_route {h : Hub} (hw : h.Wf) {j : Nat} {s : Subscription}
    (hs : h.subscriptions.get? j = some s) (hl : s.listed = true) (batch : List Alert) :
    slice (h.index.route id batch) j = batch.filter s.filter.accepts := by
  rw [SubscriberIndex.slice_route]
  refine List.filter_congr fun a _ => ?_
  rw [Bool.eq_iff_iff, decide_eq_true_iff]
  exact hw.mem_lookup hs hl a

/-- Whoever is found for an alert accepts it, listed or not. -/
lemma Wf.accepts_of_mem_slice {h : Hub} (hw : h.Wf) {j : Nat} {s : Subscription}
    (hs : h.subscriptions.get? j = some s) {batch : List Alert} {a : Alert}
    (ha : a ∈ slice (h.index.route id batch) j) : a ∈ batch ∧ s.filter.accepts a = true := by
  rw [SubscriberIndex.slice_route, List.mem_filter, decide_eq_true_iff] at ha
  obtain ⟨hmem, hfound⟩ := ha
  refine ⟨hmem, ?_⟩
  by_cases hl : s.listed = true
  · exact (hw.mem_lookup hs hl a).mp hfound
  · obtain ⟨route, -, hroute⟩ := SubscriberIndex.mem_lookup.mp hfound
    obtain ⟨s', hs', hl', -⟩ := (hw.filed j route).mp hroute
    rw [hs, Option.some.injEq] at hs'
    exact absurd (hs' ▸ hl') hl

/-! ### Hubs with the same terms -/

/-- Two hubs with the same subscriptions on the same terms. Their mailboxes may differ. -/
structure Alike (h h' : Hub) : Prop where
  index : h'.index = h.index
  nextId : h'.nextId = h.nextId
  sorted : h.subscriptions.Sorted → h'.subscriptions.Sorted
  terms : ∀ id, (h'.subscriptions.get? id).map Subscription.terms =
    (h.subscriptions.get? id).map Subscription.terms
  holders : h.subscriptions.Sorted → ∀ i, h'.holders i = h.holders i

lemma Alike.refl (h : Hub) : Alike h h := ⟨rfl, rfl, id, fun _ => rfl, fun _ _ => rfl⟩

lemma Alike.trans {h h' h'' : Hub} (a : Alike h h') (b : Alike h' h'') : Alike h h'' where
  index := b.index.trans a.index
  nextId := b.nextId.trans a.nextId
  sorted hs := b.sorted (a.sorted hs)
  terms id := (b.terms id).trans (a.terms id)
  holders hs i := (b.holders (a.sorted hs) i).trans (a.holders hs i)

lemma Alike.back {h h' : Hub} (a : Alike h h') {id : Nat} {s' : Subscription}
    (hs : h'.subscriptions.get? id = some s') :
    ∃ s, h.subscriptions.get? id = some s ∧ s.terms = s'.terms := by
  have ht := a.terms id
  rw [hs] at ht
  rcases hid : h.subscriptions.get? id with _ | s
  · simp [hid] at ht
  · rw [hid] at ht
    exact ⟨s, rfl, (Option.some.inj ht).symm⟩

lemma Alike.wf {h h' : Hub} (a : Alike h h') (hw : h.Wf) : h'.Wf where
  ids id s hs := by
    obtain ⟨s, hs, -⟩ := a.back hs
    rw [a.nextId]
    exact hw.ids id s hs
  sorted := a.sorted hw.sorted
  tidy := a.index ▸ hw.tidy
  filed id route := by
    rw [a.index, hw.filed]
    have ht := a.terms id
    revert ht
    rcases h.subscriptions.get? id with _ | s <;> rcases h'.subscriptions.get? id with _ | s'
    · simp
    · simp
    · simp
    · intro ht
      have ht : s'.terms = s.terms := Option.some.inj ht
      simp only [Subscription.terms, Prod.mk.injEq] at ht
      simp [ht.1, ht.2.2]

lemma alike_set {h : Hub} {id : Nat} {s : Subscription} (s' : Subscription)
    (hs : h.subscriptions.get? id = some s) (ht : s'.terms = s.terms) (busy : Nat) (closed : Bool) :
    Alike h { h with subscriptions := h.subscriptions.set id s', busy, closed } where
  index := rfl
  nextId := rfl
  sorted hso := hso.set id s'
  terms j := by
    rw [get?_set]
    split_ifs with hj
    · rw [hj, hs, Option.map_some, Option.map_some, ht]
    · rfl
  holders hso i := by
    have hc := count_set hso (fun s => s.mask.has i) id s'
    have hm : s'.mask = s.mask := congrArg (fun t => t.2.1) ht
    rw [hs, weight_some, hm] at hc
    simp only [Hub.holders]
    omega

/-! ### One mailbox -/

lemma get?_onMailbox (h : Hub) (id : Nat) (f : Mailbox → Nat → Mailbox × Nat) (j : Nat) :
    (h.onMailbox id f).subscriptions.get? j =
      if j = id then
        (h.subscriptions.get? id).map fun s => { s with mailbox := (f s.mailbox h.busy).1 }
      else h.subscriptions.get? j := by
  unfold onMailbox
  rcases hid : h.subscriptions.get? id with _ | s
  · split_ifs with hj
    · rw [hj, hid, Option.map_none]
    · rfl
  · simp only [get?_set, Option.map_some]

lemma alike_onMailbox (h : Hub) (id : Nat) (f : Mailbox → Nat → Mailbox × Nat) :
    Alike h (h.onMailbox id f) := by
  unfold onMailbox
  rcases hid : h.subscriptions.get? id with _ | s
  · exact Alike.refl h
  · exact alike_set { s with mailbox := (f s.mailbox h.busy).1 } hid rfl _ _

@[simp] lemma closed_onMailbox (h : Hub) (id : Nat) (f : Mailbox → Nat → Mailbox × Nat) :
    (h.onMailbox id f).closed = h.closed := by
  unfold onMailbox
  rcases h.subscriptions.get? id with _ | s <;> rfl

@[simp] lemma stopped_onMailbox (h : Hub) (id : Nat) (f : Mailbox → Nat → Mailbox × Nat) :
    (h.onMailbox id f).stopped = h.stopped := by
  unfold onMailbox
  rcases h.subscriptions.get? id with _ | s <;> rfl

/-! ### Many mailboxes -/

section Each

variable {α : Type} (f : α → Mailbox → Nat → Mailbox × Nat)

def onEach (l : List (Nat × α)) (h : Hub) : Hub :=
  l.foldl (fun h e => h.onMailbox e.1 (f e.2)) h

lemma alike_onEach (l : List (Nat × α)) (h : Hub) : Alike h (onEach f l h) := by
  induction l generalizing h with
  | nil => exact Alike.refl h
  | cons e rest ih => exact (alike_onMailbox h e.1 (f e.2)).trans (ih _)

@[simp] lemma closed_onEach (l : List (Nat × α)) (h : Hub) : (onEach f l h).closed = h.closed := by
  induction l generalizing h with
  | nil => rfl
  | cons e rest ih => exact (ih _).trans (closed_onMailbox h e.1 (f e.2))

@[simp] lemma stopped_onEach (l : List (Nat × α)) (h : Hub) :
    (onEach f l h).stopped = h.stopped := by
  induction l generalizing h with
  | nil => rfl
  | cons e rest ih => exact (ih _).trans (stopped_onMailbox h e.1 (f e.2))

variable {f}

/-- **Each mailbox meets its own entry of the list, once.** -/
lemma get?_onEach (hf : ∀ a m busy busy', (f a m busy).1 = (f a m busy').1) {l : List (Nat × α)}
    (hn : (l.map (·.1)).Nodup) (h : Hub) (j : Nat) :
    (onEach f l h).subscriptions.get? j =
      (h.subscriptions.get? j).map fun s =>
        match find j l with
        | none => s
        | some a => { s with mailbox := (f a s.mailbox 0).1 } := by
  induction l generalizing h with
  | nil => simp [onEach, find]
  | cons e rest ih =>
    obtain ⟨k, a⟩ := e
    obtain ⟨hk, hrest⟩ := List.nodup_cons.mp hn
    have hstep : onEach f ((k, a) :: rest) h = onEach f rest (h.onMailbox k (f a)) := rfl
    rw [hstep, ih hrest, get?_onMailbox]
    by_cases hj : j = k
    · subst hj
      simp only [if_true, find, find_eq_none hk, Option.map_map]
      refine Option.map_congr fun s _ => ?_
      simp only [Function.comp_apply, hf a s.mailbox h.busy 0]
    · simp only [hj, if_false, find]

end Each

lemma dispatch_eq (h : Hub) (batch : List Alert) :
    h.dispatch batch = onEach Mailbox.deliver (h.index.route id batch).entries h := rfl

lemma alike_dispatch (h : Hub) (batch : List Alert) : Alike h (h.dispatch batch) :=
  alike_onEach _ _ _

/-- **A batch goes into every mailbox as its slice.** -/
theorem get?_dispatch (h : Hub) (batch : List Alert) (j : Nat) :
    (h.dispatch batch).subscriptions.get? j = (h.subscriptions.get? j).map fun s =>
      { s with mailbox := (s.mailbox.deliver (slice (h.index.route id batch) j) 0).1 } := by
  rw [dispatch_eq, get?_onEach (fun a m => Mailbox.fst_deliver m a)
    (sorted_route h.index id batch).nodup]
  refine Option.map_congr fun s _ => ?_
  unfold slice get?
  rcases find j (h.index.route id batch).entries with _ | a
  · simp [Mailbox.deliver_nil]
  · rfl

lemma close_eq (h : Hub) :
    h.close = onEach (fun _ => Mailbox.close) (h.subscriptions.entries.filter fun e => e.2.listed)
      { h with closed := true } := by
  simp only [close, onEach, List.foldl_filter]

lemma alike_close (h : Hub) : Alike h h.close := by
  rw [close_eq]
  have hshut : Alike h { h with closed := true } := ⟨rfl, rfl, id, fun _ => rfl, fun _ _ => rfl⟩
  exact hshut.trans (alike_onEach _ _ _)

@[simp] lemma closed_close (h : Hub) : h.close.closed = true := by
  rw [close_eq, closed_onEach]

@[simp] lemma stopped_close (h : Hub) : h.close.stopped = h.stopped := by
  rw [close_eq, stopped_onEach]

/-- **Closing the hub leaves in the mailboxes what was queued there.** -/
theorem get?_close {h : Hub} (hs : h.subscriptions.Sorted) (j : Nat) :
    h.close.subscriptions.get? j = (h.subscriptions.get? j).map fun s =>
      if s.listed then { s with mailbox := (s.mailbox.close 0).1 } else s := by
  have hn : ((h.subscriptions.entries.filter fun e => e.2.listed).map (·.1)).Nodup :=
    List.Nodup.sublist (List.Sublist.map _ List.filter_sublist) hs.nodup
  have hclose : ∀ (_ : Subscription) (m : Mailbox) (busy busy' : Nat),
      (m.close busy).1 = (m.close busy').1 := fun _ m busy busy' => by
    rw [Mailbox.fst_close, Mailbox.fst_close]
  rw [close_eq, get?_onEach hclose hn]
  refine Option.map_congr fun s hj => ?_
  rw [find_filter hs.nodup]
  have hfind : find j h.subscriptions.entries = some s := hj
  rw [hfind]
  by_cases hl : s.listed = true <;> simp [hl, Option.filter]

/-! ### Coming and going -/

def newcomer (h : Hub) (r : Request) : Subscription where
  filter := r.filter
  mask := r.requiredMask
  mailbox := if h.closed then .shut else {}
  listed := !h.closed
  liveness :=
    match r.raiseIfRemoved, r.handle with
    | true, some handle => .unasked handle
    | _, _ => .settled

lemma add_eq (h : Hub) (r : Request) :
    h.add r = (h.nextId, { h with
      nextId := h.nextId + 1
      subscriptions := h.subscriptions.set h.nextId (h.newcomer r)
      index := if h.closed then h.index else h.index.insert h.nextId r.filter }) := rfl

lemma Wf.fresh {h : Hub} (hw : h.Wf) : h.subscriptions.get? h.nextId = none := by
  rcases hid : h.subscriptions.get? h.nextId with _ | s
  · rfl
  · exact absurd (hw.ids _ s hid) (Nat.lt_irrefl _)

lemma Wf.add {h : Hub} (hw : h.Wf) (r : Request) : (h.add r).2.Wf := by
  rw [add_eq]
  refine ⟨fun id s hs => ?_, hw.sorted.set _ _, ?_, fun id route => ?_⟩
  · rw [get?_set] at hs
    split_ifs at hs with hid
    · subst hid
      exact Nat.lt_succ_self _
    · exact Nat.lt_succ_of_lt (hw.ids id s hs)
  · by_cases hc : h.closed = true
    · rw [if_pos hc]
      exact hw.tidy
    · rw [if_neg hc]
      exact hw.tidy.insert _ _
  · simp only [get?_set]
    by_cases hid : id = h.nextId
    · subst hid
      have hnot : h.nextId ∉ h.index.filedUnder route := by
        rw [hw.filed, hw.fresh]
        simp
      by_cases hc : h.closed = true
      · simp [hc, hnot, newcomer]
      · simp [hc, mem_filedUnder_insert, hnot, newcomer]
    · rw [if_neg hid, ← hw.filed]
      by_cases hc : h.closed = true
      · simp [hc]
      · simp [hc, mem_filedUnder_insert, hid]

lemma holders_add {h : Hub} (hw : h.Wf) (r : Request) (i : Nat) :
    (h.add r).2.holders i = h.holders i + Holders.share r.requiredMask i := by
  have hc := count_set hw.sorted (fun s => s.mask.has i) h.nextId (h.newcomer r)
  rw [hw.fresh, weight_none] at hc
  rw [add_eq]
  exact hc

lemma remove_eq {h : Hub} {id : Nat} {s : Subscription} (hs : h.subscriptions.get? id = some s) :
    h.remove id = { h.onMailbox id Mailbox.release with
      subscriptions := (h.onMailbox id Mailbox.release).subscriptions.erase id
      index := if s.listed then h.index.remove id s.filter else h.index } := by
  simp only [remove, hs, (alike_onMailbox h id Mailbox.release).index]

lemma get?_remove (h : Hub) (id j : Nat) :
    (h.remove id).subscriptions.get? j = if j = id then none else h.subscriptions.get? j := by
  rcases hid : h.subscriptions.get? id with _ | s
  · simp only [remove, hid]
    split_ifs with hj
    · rw [hj, hid]
    · rfl
  · rw [remove_eq hid, get?_erase, get?_onMailbox]
    split_ifs <;> rfl

@[simp] lemma nextId_remove (h : Hub) (id : Nat) : (h.remove id).nextId = h.nextId := by
  rcases hid : h.subscriptions.get? id with _ | s
  · simp only [remove, hid]
  · rw [remove_eq hid]
    exact (alike_onMailbox h id Mailbox.release).nextId

@[simp] lemma closed_remove (h : Hub) (id : Nat) : (h.remove id).closed = h.closed := by
  rcases hid : h.subscriptions.get? id with _ | s
  · simp only [remove, hid]
  · rw [remove_eq hid]
    exact closed_onMailbox h id Mailbox.release

@[simp] lemma stopped_remove (h : Hub) (id : Nat) : (h.remove id).stopped = h.stopped := by
  rcases hid : h.subscriptions.get? id with _ | s
  · simp only [remove, hid]
  · rw [remove_eq hid]
    exact stopped_onMailbox h id Mailbox.release

lemma Wf.remove {h : Hub} (hw : h.Wf) (id : Nat) : (h.remove id).Wf := by
  rcases hid : h.subscriptions.get? id with _ | s
  · simp only [Hub.remove, hid]
    exact hw
  refine ⟨fun j t ht => ?_, ?_, ?_, fun j route => ?_⟩
  · rw [get?_remove] at ht
    split_ifs at ht
    rw [nextId_remove]
    exact hw.ids j t ht
  · rw [remove_eq hid]
    exact ((alike_onMailbox h id Mailbox.release).sorted hw.sorted).erase id
  · rw [remove_eq hid]
    by_cases hl : s.listed = true
    · rw [if_pos hl]
      exact hw.tidy.remove _ _
    · rw [if_neg hl]
      exact hw.tidy
  · rw [get?_remove]
    have hindex :
        (h.remove id).index = if s.listed then h.index.remove id s.filter else h.index := by
      rw [remove_eq hid]
    -- whoever is listed is filed exactly under the routes of its filter
    have hgone : id ∈ h.index.filedUnder route ↔
        s.listed = true ∧ route ∈ Route.ofFilter s.filter := by
      rw [hw.filed, hid]
      simp
    rw [hindex]
    by_cases hl : s.listed = true
    · simp only [hl, if_true]
      rw [mem_filedUnder_remove]
      by_cases hj : j = id
      · subst hj
        rw [hgone]
        simp [hl]
      · rw [if_neg hj, ← hw.filed]
        simp [hj]
    · simp only [hl]
      by_cases hj : j = id
      · subst hj
        simp [hgone, hl]
      · rw [if_neg hj, ← hw.filed]
        simp

lemma holders_remove {h : Hub} (hw : h.Wf) {id : Nat} {s : Subscription}
    (hs : h.subscriptions.get? id = some s) (i : Nat) :
    (h.remove id).holders i + Holders.share s.mask i = h.holders i := by
  have ha := alike_onMailbox h id Mailbox.release
  have hc := count_erase (ha.sorted hw.sorted) (fun s => s.mask.has i) id
  rw [get?_onMailbox, if_pos rfl, hs, Option.map_some, weight_some] at hc
  rw [remove_eq hs, ← ha.holders hw.sorted i]
  exact hc

/-! ### The subscriber's side -/

lemma poll_fst (h : Hub) (id : Nat) :
    (h.poll id).1 = (h.subscriptions.get? id).bind fun s => (s.mailbox.poll h.busy).1 := by
  unfold poll
  rcases h.subscriptions.get? id with _ | s <;> rfl

lemma poll_snd (h : Hub) (id : Nat) :
    (h.poll id).2 = h.onMailbox id fun m busy => (m.poll busy).2 := by
  unfold poll onMailbox
  rcases h.subscriptions.get? id with _ | s <;> rfl

end Hub

end TorrentFlow
