import TorrentFlow.Proofs.Delivery.ExactlyOnce
import TorrentFlow.Proofs.Services.Ledger

/-!
What a reader was promised is kept: each piece that it wants has come in, or is asked for at the
engine, or is on its way to the reader's mailbox; and if the torrent is gone, then word of that is
on its way, or has come as a failure. A promise may pass from one hand to the next, and nobody but
the reader takes it up.
-/

namespace TorrentFlow.Services

open Delivery (Note outstanding)
open Pipeline (readRequest)

def Brings (h : Handle) (x : Piece) : Alert → Prop
  | .readPiece g _ y _ _ => g = h ∧ y = x
  | _ => False

def Tells (h : Handle) : Alert → Prop
  | .torrentRemoved g _ => g = h
  | _ => False

/-- A reader has the piece, or it is asked for, or it is on its way. -/
def Promised (p : Pipeline Simulated) (r : Reader) (s : Subscription) (x : Piece) : Prop :=
  r.ready.contains x = true ∨ p.engine.Asked r.handle x ∨ ∃ a ∈ outstanding p s, Brings r.handle x a

/-- What a reader waits for is promised to it. -/
structure Waiting (p : Pipeline Simulated) (r : Reader) (s : Subscription) : Prop where
  here : ∀ t, p.engine.torrent? r.handle = some t → ∀ x ∈ r.current, t.HasPiece x ∧ Promised p r s x
  gone : p.engine.torrent? r.handle = none → ∀ x ∈ r.current,
    s.mailbox.failure ≠ none ∨ ∃ a ∈ outstanding p s, Tells r.handle a

/-- As long as the reader has not ended, it waits only for what is promised to it. -/
def Attentive (p : Pipeline Simulated) (id : Nat) : Prop :=
  ∀ r s, p.readers.get? id = some r → r.finished = false →
    p.hub.subscriptions.get? r.subscription = some s → Waiting p r s

lemma asked_congr {s s' : Simulated} {h : Handle} (ht : s'.torrent? h = s.torrent? h) {x : Piece}
    (ha : s.Asked h x) : s'.Asked h x := by
  unfold Simulated.Asked
  rw [ht]
  exact ha

/-! ### Passing promises on -/

/-- From `p` to `q`, while the reader goes from `r` to `r'` and its subscription from `s` to `s'`,
no promise is lost. -/
structure Onward (p q : Pipeline Simulated) (r r' : Reader) (s s' : Subscription) : Prop where
  handle : r'.handle = r.handle
  passed : s'.mailbox.failure = none → s.mailbox.failure = none ∧ ∀ a ∈ outstanding p s,
    a ∈ outstanding q s' ∨
      ¬ Tells r.handle a ∧ ∀ x ∈ r'.current, Brings r.handle x a → r'.ready.contains x = true
  fine : ∀ t, q.engine.torrent? r.handle = some t → s'.mailbox.failure = none
  kept : ∀ t', q.engine.torrent? r.handle = some t' →
    ∃ t, p.engine.torrent? r.handle = some t ∧ t'.payloads = t.payloads
  wants : ∀ t', q.engine.torrent? r.handle = some t' → ∀ x ∈ r'.current,
    x ∈ r.current ∧ (r.ready.contains x = true → r'.ready.contains x = true) ∨
      t'.HasPiece x ∧ Promised q r' s' x
  asked : ∀ t', q.engine.torrent? r.handle = some t' → ∀ x ∈ r'.current, x ∈ r.current →
    p.engine.Asked r.handle x → Promised q r' s' x
  stays : q.engine.torrent? r.handle = none → ∀ x ∈ r'.current, x ∈ r.current
  told : ∀ t, p.engine.torrent? r.handle = some t → q.engine.torrent? r.handle = none →
    s'.mailbox.failure = none → ∃ a ∈ outstanding q s', Tells r.handle a

theorem Waiting.onward {p q : Pipeline Simulated} {r r' : Reader} {s s' : Subscription}
    (hw : Waiting p r s) (ho : Onward p q r r' s s') : Waiting q r' s' where
  here t' ht' x hx := by
    rw [ho.handle] at ht'
    obtain ⟨t, ht, hpay⟩ := ho.kept t' ht'
    rcases ho.wants t' ht' x hx with ⟨hold, hready⟩ | hnew
    · obtain ⟨hhas, hpromised⟩ := hw.here t ht x hold
      refine ⟨hasPiece_of_payloads hpay hhas, ?_⟩
      -- the promise was kept already, or stands in the engine, or is on its way
      rcases hpromised with hr | ha | ⟨a, ha, hb⟩
      · exact Or.inl (hready hr)
      · exact ho.asked t' ht' x hx hold ha
      · rcases (ho.passed (ho.fine t' ht')).2 a ha with ha | ⟨-, hin⟩
        · exact Or.inr (Or.inr ⟨a, ha, ho.handle.symm ▸ hb⟩)
        · exact Or.inl (hin x hx hb)
    · exact hnew
  gone hnone x hx := by
    rw [ho.handle] at hnone ⊢
    rcases hfail : s'.mailbox.failure with _ | e
    · right
      obtain ⟨hfine, hpass⟩ := ho.passed hfail
      rcases ht : p.engine.torrent? r.handle with _ | t
      · -- it was gone before, so that the removal was on its way
        rcases hw.gone ht x (ho.stays hnone x hx) with hf | ⟨a, ha, hb⟩
        · exact absurd hfine hf
        · rcases hpass a ha with ha | ⟨hnot, -⟩
          · exact ⟨a, ha, hb⟩
          · exact absurd hb hnot
      · -- it goes with this step, which tells of it
        exact ho.told t ht hnone hfail
    · exact Or.inl (Option.some_ne_none e)

lemma onward_tended {p q : Pipeline Simulated} {r : Reader} {s s' : Subscription}
    (hpass : s'.mailbox.failure = none →
      s.mailbox.failure = none ∧ ∀ a ∈ outstanding p s, a ∈ outstanding q s')
    (hfine : ∀ t, q.engine.torrent? r.handle = some t → s'.mailbox.failure = none)
    (ht : p.engine.Tended q.engine)
    (ha : ∀ x ∈ r.current, p.engine.Asked r.handle x → q.engine.Asked r.handle x) :
    Onward p q r r s s' where
  handle := rfl
  passed hf := ⟨(hpass hf).1, fun a ha => Or.inl ((hpass hf).2 a ha)⟩
  fine := hfine
  kept _ := ht.back
  wants _ _ _ hx := Or.inl ⟨hx, fun hready => hready⟩
  asked _ _ x hx _ hasked := Or.inr (Or.inl (ha x hx hasked))
  stays _ _ hx := hx
  told t hp hq _ := by
    rw [(ht.none_iff _).mp hq] at hp
    cases hp

lemma mem_outstanding {p q : Pipeline Simulated} {s : Subscription} {a : Alert}
    (hp : q.pumps = p.pumps) (hq : ∀ a ∈ p.engine.queue, a ∈ q.engine.queue)
    (ha : a ∈ outstanding p s) :
    a ∈ outstanding q s := by
  simp only [outstanding, Delivery.undelivered, Delivery.inFlight, hp, List.mem_append,
    List.mem_filter] at ha ⊢
  exact ha.imp id fun h => h.imp (fun h => h.imp id (hq a)) id

/-- What is on its way to a subscription stays so while nothing is handed to it. -/
lemma passed_of_run {p q : Pipeline Simulated} {notes : List Note} (hinv : Delivery.Inv p)
    (hopen : p.hub.stopped = false) (hrun : Delivery.Run p notes q) (hn : Note.stopped ∉ notes)
    {sub : Nat} (hret : ∀ note ∈ notes, note.returned sub = []) (hid : sub < p.hub.nextId)
    {s' : Subscription} (hs' : q.hub.subscriptions.get? sub = some s') :
    ∃ s, p.hub.subscriptions.get? sub = some s ∧ (s'.mailbox.failure = none →
      s.mailbox.failure = none ∧ ∀ a ∈ outstanding p s, a ∈ outstanding q s') := by
  obtain ⟨s, hs, -, hcarry⟩ := (Delivery.run_carries hinv hopen hn hrun).back sub s' hs' hid
  refine ⟨s, hs, fun hf => ?_⟩
  obtain ⟨hfine, heq⟩ := hcarry hf
  refine ⟨hfine, fun a ha => ?_⟩
  rw [List.flatMap_eq_nil_iff.mpr hret, List.nil_append] at heq
  rw [heq]
  exact List.mem_append_left _ ha

lemma fine_of_tracked {trace : List Event} {p : Pipeline Simulated} (h : Tracked trace p) {id : Nat}
    {r : Reader} (hr : p.readers.get? id = some r) {s : Subscription}
    (hs : p.hub.subscriptions.get? r.subscription = some s) (t : SimulatedTorrent)
    (ht : p.engine.torrent? r.handle = some t) : s.mailbox.failure = none := by
  obtain ⟨s', hs', hw⟩ := h.watched id r hr
  rw [hs, Option.some.injEq] at hs'
  rcases hf : s.mailbox.failure with _ | e
  · rfl
  · have hnone := (hw.failure e (hs' ▸ hf)).2
    rw [ht] at hnone
    cases hnone

lemma subscription_lt {p : Pipeline Simulated} (hinv : Delivery.Inv p) (hst : Staffed p) {id : Nat}
    {r : Reader} (hr : p.readers.get? id = some r) : r.subscription < p.hub.nextId := by
  obtain ⟨s, hs, -⟩ := hst.subscribed id r hr
  exact hinv.hub.ids _ s hs

/-! ### Other readers -/

section Others

variable {trace : List Event} {p q : Pipeline Simulated} {id j : Nat} {r r₂ : Reader} {x : Piece}

lemma two_le_wanting (hs : p.readers.Sorted) (hr : p.readers.get? id = some r)
    (hr₂ : p.readers.get? j = some r₂) (hj : j ≠ id) (hh : r₂.handle = r.handle)
    (hx : x ∈ r.current) (hx₂ : x ∈ r₂.current) : 2 ≤ wanting p r.handle x := by
  let f : Reader → Bool := fun r₁ => decide (r₁.handle = r.handle) && r₁.current.contains x
  have herase := Table.count_erase hs f id
  have hother : (p.readers.erase id).get? j = some r₂ := by
    rw [Table.get?_erase, if_neg hj, hr₂]
  have hpos : 0 < Table.count f (p.readers.erase id) :=
    Table.count_pos hother (by simp [f, hh, hx₂])
  have hone : Table.weight f (p.readers.get? id) = 1 := by
    rw [hr, Table.weight_some, if_pos (by simp [f, hx])]
  have hcount : wanting p r.handle x = Table.count f p.readers := rfl
  omega

/-- **Nobody steals a request**: what another reader waits for is asked for after a move as
before. -/
lemma asked_move (hl : Ledger p) (hst : Staffed p) (hr : p.readers.get? id = some r)
    (hr₂ : p.readers.get? j = some r₂) (hj : j ≠ id) (r' : Reader) (new : OrderedSet Piece)
    (hx : x ∈ r₂.current) (ha : p.engine.Asked r₂.handle x) :
    ((p.putReader id r').moveClaims r.window r.current new).2.engine.Asked r₂.handle x := by
  obtain ⟨w, hw, hh⟩ := Option.map_eq_some_iff.mp (hst.window id r hr)
  have hw' : (p.putReader id r').windows.windows.get? r.window = some w := hw
  rw [moveClaims_some hw']
  show (w.delta r.current new p.engine).engine.Asked r₂.handle x
  by_cases hsame : r₂.handle = r.handle
  · refine w.asked_delta r.current new p.engine (hl.sorted id r hr) ha fun hold => Or.inr ?_
    obtain ⟨t, i, ht, -⟩ := ha
    rw [hsame] at ht
    have hb := hl.balanced _ t ht
    have hcounted := hb.counted x
    rw [claimed_of_window (hb.shared id r hr rfl) hw] at hcounted
    have htwo := two_le_wanting hst.sorted hr hr₂ hj hsame hold hx
    omega
  · obtain ⟨calls, hcalls, hall⟩ := w.calls_delta r.current new p.engine
    refine asked_congr ?_ ha
    rw [hcalls, EngineCall.torrent?_applyAll (hh.symm ▸ hsame) hall]

lemma asked_endReader (hl : Ledger p) (hst : Staffed p) (hr : p.readers.get? id = some r)
    (hr₂ : p.readers.get? j = some r₂) (hj : j ≠ id) (hx : x ∈ r₂.current)
    (ha : p.engine.Asked r₂.handle x) : (p.endReader id).engine.Asked r₂.handle x := by
  unfold Pipeline.endReader
  simp only [hr]
  split_ifs
  · unfold Pipeline.discardClaims
    split <;> exact ha
  · exact ha
  · exact asked_move hl hst hr hr₂ hj r.ended {} hx ha

lemma asked_slideReader (hl : Ledger p) (hst : Staffed p) (hr : p.readers.get? id = some r)
    (hr₂ : p.readers.get? j = some r₂) (hj : j ≠ id) (pieces : OrderedSet Piece)
    (hx : x ∈ r₂.current) (ha : p.engine.Asked r₂.handle x) :
    (p.slideReader id r pieces).2.engine.Asked r₂.handle x := by
  unfold Pipeline.slideReader
  split_ifs
  · exact ha
  · exact asked_move hl hst hr hr₂ hj (r.slide pieces) pieces hx ha

/-- A reader keeps its promises whatever delivery does, if it is not handed anything and what it
asks for is left. -/
lemma Attentive.carried (h : Attentive p j) (hinv : Delivery.Inv p) (hst : Staffed p)
    (hopen : p.hub.stopped = false) {notes : List Note} (hrun : Delivery.Run p notes q)
    (hn : Note.stopped ∉ notes) (hreader : q.readers.get? j = p.readers.get? j)
    (hret : ∀ r₂, p.readers.get? j = some r₂ → ∀ note ∈ notes, note.returned r₂.subscription = [])
    (hq : Tracked trace q) (htend : p.engine.Tended q.engine)
    (hasked : ∀ r₂, p.readers.get? j = some r₂ → ∀ x ∈ r₂.current, p.engine.Asked r₂.handle x →
      q.engine.Asked r₂.handle x) : Attentive q j := by
  intro r₂ s' hr₂ hf hs'
  have hfine := fine_of_tracked hq hr₂ hs'
  rw [hreader] at hr₂
  obtain ⟨s, hsub, hpass⟩ :=
    passed_of_run hinv hopen hrun hn (hret r₂ hr₂) (subscription_lt hinv hst hr₂) hs'
  exact (h r₂ s hr₂ hf hsub).onward (onward_tended hpass hfine htend (hasked r₂ hr₂))

/-- What is done with one reader keeps the promises of the others, if it leaves what they ask
for. -/
lemma Attentive.beside (h : Attentive p j) (hs : Sane trace p) (hopen : p.hub.stopped = false)
    (hr : p.readers.get? id = some r) (ha : Attended id r.subscription p q) (hj : j ≠ id)
    (hasked : ∀ r₂, p.readers.get? j = some r₂ → ∀ x ∈ r₂.current, p.engine.Asked r₂.handle x →
      q.engine.Asked r₂.handle x) : Attentive q j := by
  obtain ⟨notes, hrun, hown⟩ := ha.run
  refine h.carried hs.sound.inv hs.staffed hopen hrun (fun hn => hown _ hn) (ha.others j hj)
    (fun r₂ hr₂ note hn => ?_) (hs.attended hr ha).tracked
    (tended_run hrun fun note hn => (hown note hn).discreet) hasked
  refine Note.returned_eq_nil fun answer e => hj ?_
  have ho := hown note hn
  rw [e] at ho
  exact hs.staffed.apart j id r₂ r hr₂ hr ho

lemma running_run (hinv : Delivery.Inv p) (hopen : p.hub.stopped = false) {notes : List Note}
    (hrun : Delivery.Run p notes q) (hn : Note.stopped ∉ notes) : q.hub.stopped = false :=
  (Delivery.run_carries hinv hopen hn hrun).stopped.trans hopen

lemma running_attended (hinv : Delivery.Inv p) (hopen : p.hub.stopped = false) {sub : Nat}
    (ha : Attended id sub p q) : q.hub.stopped = false := by
  obtain ⟨notes, hrun, hown⟩ := ha.run
  exact running_run hinv hopen hrun fun hn => hown _ hn

end Others

/-! ### The reader itself -/

section Itself

variable {trace : List Event} {p q : Pipeline Simulated} {id : Nat} {r r' : Reader} {a : Alert}

lemma keeps_of_take (ht : r.take a = .ok r') {x : Piece} (hx : r.ready.contains x = true) :
    r'.ready.contains x = true := by
  cases a with
  | readPiece g name y data error =>
    simp only [Reader.take] at ht
    split_ifs at ht <;> cases ht
    · simp only [Table.contains, Table.get?_set] at hx ⊢
      split_ifs
      · rfl
      · exact hx
    · exact hx
  | torrentRemoved => cases ht
  | _ =>
    cases ht
    exact hx

lemma has_of_take (ht : r.take a = .ok r') {h : Handle} {x : Piece} (hx : x ∈ r.current)
    (hb : Brings h x a) : r'.ready.contains x = true := by
  cases a with
  | readPiece g name y data error =>
    obtain ⟨-, rfl⟩ := hb
    simp only [Reader.take, OrderedSet.contains_iff.mpr hx, if_true] at ht
    cases ht
    simp [Table.contains]
  | _ => cases hb

lemma not_tells_of_take (ht : r.take a = .ok r') (h : Handle) : ¬ Tells h a := by
  intro hb
  cases a with
  | torrentRemoved => cases ht
  | _ => cases hb

lemma Attentive.took (h : Attentive p id) (hb : Booked trace p) (hopen : p.hub.stopped = false)
    (hr : p.readers.get? id = some r)
    (hp : (p.pollSubscription r.subscription).1 = some (.ok a)) (ht : r.take a = .ok r') :
    Attentive ((p.pollSubscription r.subscription).2.putReader id r') id := by
  intro r₁ s' hr₁ hf hs'
  have hq := (hb.took hr hp ht).sane.tracked
  have hfine := fine_of_tracked hq hr₁ hs'
  obtain rfl : r' = r₁ := Option.some.inj ((get?_putReader_self _ _ _).symm.trans hr₁)
  obtain ⟨ready, rfl⟩ := Reader.take_ok ht
  have hrun : Delivery.Run p [.received r.subscription (p.pollSubscription r.subscription).1]
      (p.pollSubscription r.subscription).2 := .one (.receive p r.subscription)
  have hinv := hb.sane.sound.inv
  obtain ⟨s, hsub, -, hcarry⟩ :=
    (Delivery.run_carries hinv hopen (by simp) hrun).back r.subscription
    s' hs' (subscription_lt hinv hb.sane.staffed hr)
  refine (h r s hr hf hsub).onward ⟨rfl, fun hfail => ?_, hfine, fun t' ht' => ⟨t', ht', rfl⟩,
    fun _ _ x hx => Or.inl ⟨hx, fun hready => keeps_of_take ht hready⟩,
    fun _ _ x _ _ hx => Or.inr (Or.inl hx), fun _ x hx => hx, fun t ht' hnone _ => ?_⟩
  · -- what is on its way is what was before, less the alert that was taken
    obtain ⟨hfine, heq⟩ := hcarry hfail
    refine ⟨hfine, fun b hmem => ?_⟩
    simp only [hp, List.flatMap_cons, List.flatMap_nil, Delivery.Note.returned, if_true,
      Mailbox.handed, Delivery.Note.accepted, List.filter_nil, List.append_nil] at heq
    rw [← heq] at hmem
    rcases List.mem_append.mp hmem with hmem | hmem
    · rw [List.mem_singleton.mp hmem]
      exact Or.inr ⟨not_tells_of_take ht _, fun x hx hbrings => has_of_take ht hx hbrings⟩
    · exact Or.inl hmem
  · have ht'' : p.engine.torrent? r.handle = none := hnone
    rw [ht''] at ht'
    cases ht'

/-- A reader's mailbox is open to whatever brings its pieces or tells of its torrent's end. -/
lemma accepts_of_brings {h : Handle} {x : Piece} (hb : Brings h x a) :
    (readRequest h).filter.accepts a = true := by
  cases a with
  | readPiece g name y data error =>
    obtain ⟨rfl, rfl⟩ := hb
    simp [Filter.accepts, readRequest, Request.filter, Filter.ofKinds, Alert.handle?, Alert.kind,
      OrderedSet.contains_iff]
  | _ => cases hb

lemma accepts_of_tells {h : Handle} (ht : Tells h a) : (readRequest h).filter.accepts a = true := by
  cases a with
  | torrentRemoved g name =>
    obtain rfl : g = h := ht
    simp [Filter.accepts, readRequest, Request.filter, Filter.ofKinds, Alert.handle?, Alert.kind,
      OrderedSet.contains_iff]
  | _ => cases ht

lemma outstanding_of_queue (hst : Staffed p) (hr : p.readers.get? id = some r) {s : Subscription}
    (hs : p.hub.subscriptions.get? r.subscription = some s) (ha : a ∈ q.engine.queue)
    (hacc : (readRequest r.handle).filter.accepts a = true) : a ∈ outstanding q s := by
  obtain ⟨s', hs', hfilter, -⟩ := hst.subscribed id r hr
  obtain rfl : s = s' := Option.some.inj (hs.symm.trans hs')
  refine List.mem_append_right _ (List.mem_filter.mpr ⟨List.mem_append_right _ ha, ?_⟩)
  rw [hfilter]
  exact hacc

/-- What a reader's mailbox is open to the engine emits. -/
lemma emits_of_reader (hinv : Delivery.Inv p) (hst : Staffed p) (hr : p.readers.get? id = some r)
    (ha : (readRequest r.handle).filter.accepts a = true) : p.engine.accepts a = true := by
  obtain ⟨s, hs, -, hmask⟩ := hst.subscribed id r hr
  exact Request.intersects_of_accepts (by simp [readRequest])
    (fun i hi => hinv.has_mask hs (hmask ▸ hi)) ha

/-- What comes of a slide that changes something. -/
lemma slide_spec (hst : Staffed p) (hr : p.readers.get? id = some r) {pieces : OrderedSet Piece}
    (hne : pieces ≠ r.current) : ∃ w : Window, w.handle = r.handle ∧
      (p.slideReader id r pieces).1 = (w.delta r.current pieces p.engine).failure ∧
      (p.slideReader id r pieces).2.engine = (w.delta r.current pieces p.engine).engine ∧
      (p.slideReader id r pieces).2.hub = p.hub ∧ (p.slideReader id r pieces).2.pumps =
      p.pumps := by
  obtain ⟨w, hw, hh⟩ := Option.map_eq_some_iff.mp (hst.window id r hr)
  have hw' : (p.putReader id (r.slide pieces)).windows.windows.get? r.window = some w := hw
  rw [Pipeline.slideReader, if_neg hne, moveClaims_some hw']
  exact ⟨w, hh, rfl, rfl, rfl, rfl⟩

lemma Attentive.slide (h : Attentive p id) (hb : Booked trace p) (hr : p.readers.get? id = some r)
    (hf : r.finished = false) {pieces : OrderedSet Piece} (hu : r.upcoming? = some pieces)
    (hm : (p.slideReader id r pieces).1 = none) : Attentive (p.slideReader id r pieces).2 id := by
  have hq := (hb.slide hr hf hu).sane.tracked
  have hget := get?_slideReader p id hr pieces
  by_cases hsame : pieces = r.current
  · rw [Pipeline.slideReader, if_pos hsame]
    exact h
  obtain ⟨w, hh, hfail, heng, hhub, hpumps⟩ := slide_spec hb.sane.staffed hr hsame
  rw [if_neg hsame] at hget
  rw [hm] at hfail
  intro r₁ s hr₁ _ hs
  have hfine := fine_of_tracked hq hr₁ hs
  obtain rfl : r.slide pieces = r₁ := Option.some.inj (hget.symm.trans hr₁)
  rw [hhub] at hs
  have htend := w.tended_delta r.current pieces p.engine
  have hqueue : ∀ a ∈ p.engine.queue, a ∈ (p.slideReader id r pieces).2.engine.queue :=
    fun a ha => by
    rw [heng]
    exact w.mem_queue_delta r.current pieces p.engine ha
  rw [← heng] at htend
  have hnew : ∀ x ∈ pieces, x ∉ r.current →
      ∃ t, p.engine.torrent? r.handle = some t ∧ t.HasPiece x := fun x hx hold => by
    rw [← hh]
    exact w.has_of_delta r.current pieces p.engine hfail.symm hx hold
  refine (h r s hr hf hs).onward ⟨rfl, fun hfine => ⟨hfine, fun a ha => Or.inl
    (mem_outstanding hpumps hqueue ha)⟩, hfine, fun t' => htend.back, fun t' ht' x hx => ?_,
    fun t' ht' x hx _ ha => Or.inr (Or.inl ?_), fun hnone x hx => ?_, fun t ht hnone _ => ?_⟩
  · -- a piece of the new stretch
    by_cases hold : x ∈ r.current
    · refine Or.inl ⟨hold, fun hready => ?_⟩
      have hkeep : pieces.contains x = true := OrderedSet.contains_iff.mpr hx
      simpa only [Reader.slide, Table.contains, Table.get?_filterKeys, if_pos hkeep] using hready
    · obtain ⟨t, ht, hhas⟩ := hnew x hx hold
      obtain ⟨t₀, ht₀, hpay⟩ := htend.back ht'
      rw [ht, Option.some.injEq] at ht₀
      refine Or.inr ⟨hasPiece_of_payloads (ht₀ ▸ hpay) hhas, ?_⟩
      have hbrings : ∀ name data, Brings r.handle x (.readPiece r.handle name x data none) :=
        fun _ _ => ⟨rfl, rfl⟩
      have hmask : p.engine.mask.intersects .storage = true :=
        emits_of_reader (a := .readPiece r.handle "" x [] none) hb.sane.sound.inv hb.sane.staffed hr
          (accepts_of_brings (hbrings "" []))
      -- a piece that enters is armed, or comes at once
      rcases w.coming_delta r.current pieces p.engine hmask hx hold (hh ▸ ht) hhas with
        ha | ⟨name, data, hmem⟩
      · rw [← heng, hh] at ha
        exact Or.inr (Or.inl ha)
      · rw [← heng, hh] at hmem
        exact Or.inr (Or.inr ⟨_, outstanding_of_queue hb.sane.staffed hr hs hmem
          (accepts_of_brings (hbrings name data)), hbrings name data⟩)
  · rw [heng]
    exact w.asked_delta r.current pieces p.engine (hb.ledger.sorted id r hr) ha fun _ => Or.inl hx
  · -- the torrent is gone, so that no piece could enter
    by_contra hold
    obtain ⟨t, ht, -⟩ := hnew x hx hold
    rw [(htend.none_iff _).mp hnone] at ht
    cases ht
  · rw [(htend.none_iff _).mp hnone] at ht
    cases ht

/-! ### A whole poll -/

lemma Attentive.endReader (h : ∀ j, j ≠ id → Attentive p j) (hs : Sane trace p) (hl : Ledger p)
    (hopen : p.hub.stopped = false) (hr : p.readers.get? id = some r) (j : Nat) :
    Attentive (p.endReader id) j := by
  by_cases hj : j = id
  · intro r₁ s hr₁ hf
    rw [hj, get?_endReader hr, Option.some.injEq] at hr₁
    rw [← hr₁] at hf
    cases hf
  · exact (h j hj).beside hs hopen hr (.endReader hr) hj fun r₂ hr₂ x hx ha =>
      asked_endReader hl hs.staffed hr hr₂ hj hx ha

lemma Attentive.failReader (h : ∀ j, j ≠ id → Attentive p j) (hs : Sane trace p) (hl : Ledger p)
    (hopen : p.hub.stopped = false) (hr : p.readers.get? id = some r) {e : PieceError}
    (he : e = .handleInvalid → p.engine.torrent? r.handle = none) (j : Nat) :
    Attentive (p.failReader id e).2 j := by
  have hput : Attended id r.subscription p (p.putReader id (r.marked e)) :=
    .putReader hr (r.kin_marked e)
  rw [failReader_snd hr]
  exact .endReader (fun j hj => (h j hj).beside hs hopen hr hput hj fun _ _ _ _ ha => ha)
    (hs.attended hr hput) (hl.mark hs.staffed.sorted hr he) hopen (get?_putReader_self _ _ _) j

lemma stopped_poll (p : Pipeline Simulated) (sub : Nat) :
    (p.pollSubscription sub).2.hub.stopped = p.hub.stopped := by
  rw [Pipeline.pollSubscription_snd]
  exact Hub.stopped_onMailbox _ _ _

lemma Attentive.waited (h : Attentive p id) (hb : Booked trace p) (hopen : p.hub.stopped = false)
    (hr : p.readers.get? id = some r) (hp : (p.pollSubscription r.subscription).1 = none) :
    Attentive (p.pollSubscription r.subscription).2 id := by
  have hrun : Delivery.Run p [.received r.subscription (p.pollSubscription r.subscription).1]
      (p.pollSubscription r.subscription).2 := .one (.receive p r.subscription)
  refine h.carried hb.sane.sound.inv hb.sane.staffed hopen hrun (by simp) rfl
    (fun r₂ hr₂ note hn => ?_) (hb.received hr).sane.tracked (.of_slots rfl) fun _ _ _ _ ha => ha
  obtain rfl : r = r₂ := Option.some.inj (hr.symm.trans hr₂)
  rw [List.mem_singleton.mp hn, hp, Delivery.Note.returned, if_pos rfl]
  rfl

lemma attentive_reading {answer : Polled (Except PieceError PieceData)} (ho : Orderly trace)
    (h : Reading id p answer q) : Booked trace p → p.hub.stopped = false → (∀ j, Attentive p j) →
      ∀ j, Attentive q j := by
  have hnext : ∀ {p : Pipeline Simulated} {r : Reader}, p.readers.get? id = some r →
      Booked trace p →
      p.hub.stopped = false → (∀ j, Attentive p j) →
      ∀ j, Attentive (p.putReader id { r with cursor := r.cursor + 1 }) j := by
    intro p r hr hb hopen hall j
    by_cases hj : j = id
    · subst hj
      intro r₁ s hr₁ hf hs
      obtain rfl := Option.some.inj ((get?_putReader_self _ _ _).symm.trans hr₁)
      exact ⟨(hall _ r s hr hf hs).here, (hall _ r s hr hf hs).gone⟩
    · exact (hall j).beside hb.sane hopen hr (.putReader hr ⟨rfl, rfl, rfl, rfl, rfl⟩) hj
        fun _ _ _ _ ha => ha
  -- the mailbox of one reader is no matter for another
  have hlook : ∀ {p : Pipeline Simulated} {r : Reader}, p.readers.get? id = some r →
      Booked trace p →
      p.hub.stopped = false → (∀ j, Attentive p j) →
      ∀ j, j ≠ id → Attentive (p.pollSubscription r.subscription).2 j :=
    fun {p r} hr hb hopen hall j hj =>
      (hall j).beside hb.sane hopen hr (.pollSubscription p) hj fun _ _ _ _ ha => ha
  induction h with
  | served hr hs =>
    intro hb hopen hall
    obtain ⟨rfl, -⟩ := Reader.serve_ok hs
    exact hnext hr hb hopen hall
  | @soured p r r' e hr hs =>
    intro hb hopen hall j
    -- a failed read does not take the torrent for gone, as long as the run is orderly
    have hne := ne_handleInvalid_of_serve ho (hb.stocked id r hr) hs
    obtain ⟨rfl, -⟩ := Reader.serve_error hs
    have hb' := hb.advanced hr
    exact .failReader (fun j _ => hnext hr hb hopen hall j) hb'.sane hb'.ledger hopen
      (get?_putReader_self _ _ _) (fun he => absurd he hne) j
  | @waited p r hr hs hp =>
    intro hb hopen hall j
    by_cases hj : j = id
    · exact hj ▸ (hall id).waited hb hopen hr hp
    · exact hlook hr hb hopen hall j hj
  | @failed p r e hr hs hp =>
    intro hb hopen hall j
    have hb' := hb.received hr
    have hopen' := (stopped_poll p r.subscription).trans hopen
    have hnone := gone_of_delivery (hb.sane.tracked.watched id r hr).heeds hp
    exact .failReader (hlook hr hb hopen hall) hb'.sane hb'.ledger hopen' hr hnone j
  | @ousted p r a e hr hs hp ht =>
    intro hb hopen hall j
    have hb' := hb.received hr
    have hopen' := (stopped_poll p r.subscription).trans hopen
    have hnone := gone_of_take hb.sane.steady hr hp ht
    exact .failReader (hlook hr hb hopen hall) hb'.sane hb'.ledger hopen' hr (fun _ => hnone) j
  | @took p q r r' a answer hr hs hp ht h ih =>
    intro hb hopen hall
    refine ih (hb.took hr hp ht) ((stopped_poll p r.subscription).trans hopen) fun j => ?_
    by_cases hj : j = id
    · exact hj ▸ (hall id).took hb hopen hr hp ht
    · have hput : Attended id r.subscription (p.pollSubscription r.subscription).2
          ((p.pollSubscription r.subscription).2.putReader id r') :=
          .putReader hr (Reader.kin_take ht)
      exact (hlook hr hb hopen hall j hj).beside (hb.received hr).sane
        ((stopped_poll p r.subscription).trans hopen) hr hput hj fun _ _ _ _ ha => ha

/-- **A poll keeps all promises**, to the one who is polled and to everybody else. -/
theorem attentive_polls {answer : Polled (Except PieceError PieceData)} (ho : Orderly trace)
    (hr : p.readers.get? id = some r) (h : Polls id p r answer q) (hb : Booked trace p)
    (hopen : p.hub.stopped = false) (hall : ∀ j, Attentive p j) : ∀ j, Attentive q j := by
  -- the window is shared, and yet the pieces of the others stay armed
  have hslide : ∀ pieces, ∀ j, j ≠ id → Attentive (p.slideReader id r pieces).2 j :=
    fun pieces j hj => (hall j).beside hb.sane hopen hr (.slideReader hr pieces) hj
      fun r₂ hr₂ x hx ha => asked_slideReader hb.ledger hb.sane.staffed hr hr₂ hj pieces hx ha
  have hopen' : ∀ pieces, (p.slideReader id r pieces).2.hub.stopped = false := fun pieces => by
    have ha : Attended id r.subscription p (p.slideReader id r pieces).2 := .slideReader hr pieces
    exact running_attended hb.sane.sound.inv hopen ha
  cases h with
  | past => exact hall
  | ended => exact .endReader (fun j _ => hall j) hb.sane hb.ledger hopen hr
  | overflow => exact hall
  | refused =>
    exact .failReader (fun j _ => hall j) hb.sane hb.ledger hopen hr fun he => by cases he
  | @slipped hf hc pieces hu hn e hm =>
    have hb' := hb.slide hr hf hu
    refine .failReader (hslide pieces) hb'.sane hb'.ledger (hopen' pieces)
      (get?_slideReader p id hr pieces) fun he => ?_
    rw [he] at hm
    have hnone := gone_of_slide hb.sane.staffed hr hm
    split_ifs <;> exact hnone
  | @went hf hc pieces hu hn hm answer q h =>
    refine attentive_reading ho h (hb.slide hr hf hu) (hopen' pieces) fun j => ?_
    by_cases hj : j = id
    · exact hj ▸ (hall id).slide hb hr hf hu hm
    · exact hslide pieces j hj

end Itself

end TorrentFlow.Services
