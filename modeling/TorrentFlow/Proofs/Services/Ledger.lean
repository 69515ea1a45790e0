import TorrentFlow.Proofs.Services.Tracking

/-!
The books of a torrent that is there: its readers share one window, the window counts for each piece
how many of them want it, and the engine has a deadline on the pieces of the torrent that somebody
wants. A reader is counted in and out on many ways; each of them writes down the reader together
with what its window says of it, and everybody else's books are not touched.
-/

namespace TorrentFlow.Services

open Delivery (Note)

/-- How many readers of a torrent want a piece. -/
def wanting (p : Pipeline Simulated) (h : Handle) (q : Piece) : Nat :=
  p.readers.count fun r => decide (r.handle = h) && r.current.contains q

/-- How many readers want a piece according to the window that the torrent has. -/
def claimed (p : Pipeline Simulated) (h : Handle) (q : Piece) : Nat :=
  match (p.windows.current.get? h).bind fun k => p.windows.windows.get? k with
  | some w => w.count q
  | none => 0

/-- The books of one torrent agree with each other. -/
structure Balanced (p : Pipeline Simulated) (h : Handle) (t : SimulatedTorrent) : Prop where
  shared : ∀ id r, p.readers.get? id = some r → r.handle = h →
    p.windows.current.get? h = some r.window
  counted : ∀ q, claimed p h q = wanting p h q
  armed : ∀ q, t.deadlines.contains q = true ↔ t.HasPiece q ∧ 0 < claimed p h q

structure Ledger (p : Pipeline Simulated) : Prop where
  balanced : ∀ h t, p.engine.torrent? h = some t → Balanced p h t
  invalid : ∀ id r, p.readers.get? id = some r → r.handleInvalid = true →
    p.engine.torrent? r.handle = none
  finished : ∀ id r, p.readers.get? id = some r → r.finished = true → r.current = {}
  sorted : ∀ id r, p.readers.get? id = some r → r.current.Sorted

/-! ### What the books depend on -/

lemma claimed_congr {p q : Pipeline Simulated} {h : Handle}
    (hc : q.windows.current.get? h = p.windows.current.get? h)
    (hw : ∀ k, p.windows.current.get? h = some k →
      q.windows.windows.get? k = p.windows.windows.get? k) (x : Piece) :
    claimed q h x = claimed p h x := by
  unfold claimed
  rw [hc]
  rcases hk : p.windows.current.get? h with _ | k
  · rfl
  · rw [Option.bind_some, Option.bind_some, hw k hk]

lemma claimed_of_window {p : Pipeline Simulated} {h : Handle} {k : Nat} {w : Window}
    (hc : p.windows.current.get? h = some k) (hw : p.windows.windows.get? k = some w) (x : Piece) :
    claimed p h x = w.count x := by
  unfold claimed
  rw [hc, Option.bind_some, hw]

lemma claimed_of_none {p : Pipeline Simulated} {h : Handle} (hc : p.windows.current.get? h = none)
    (x : Piece) : claimed p h x = 0 := by
  unfold claimed
  rw [hc, Option.bind_none]

lemma wanting_eq_zero {p : Pipeline Simulated} (hs : p.readers.Sorted) {h : Handle} {x : Piece}
    (hn : ∀ id r, p.readers.get? id = some r → r.handle = h → x ∉ r.current) :
    wanting p h x = 0 := by
  by_contra hne
  obtain ⟨id, r, hr, hx⟩ := Table.exists_of_count_pos hs (Nat.pos_of_ne_zero hne)
  simp only [Bool.and_eq_true, decide_eq_true_eq, OrderedSet.contains_iff] at hx
  exact hn id r hr hx.1 hx.2

lemma wanting_put {p : Pipeline Simulated} (hs : p.readers.Sorted) {id : Nat} {r r' : Reader}
    (hr : p.readers.get? id = some r) (hh : r'.handle = r.handle) (h : Handle) (x : Piece) :
    wanting (p.putReader id r') h x + (if r.handle = h ∧ x ∈ r.current then 1 else 0) =
      wanting p h x + if r.handle = h ∧ x ∈ r'.current then 1 else 0 := by
  have hset := Table.count_set hs (fun r => decide (r.handle = h) && r.current.contains x) id r'
  rw [hr, Table.weight_some] at hset
  simpa [wanting, Pipeline.putReader, hh] using hset

lemma Balanced.congr {p q : Pipeline Simulated} {h : Handle} {t t' : SimulatedTorrent}
    (hb : Balanced p h t) (hd : t'.deadlines = t.deadlines) (hp : t'.payloads = t.payloads)
    (hr : ∀ id r, q.readers.get? id = some r → r.handle = h →
      ∃ r₀, p.readers.get? id = some r₀ ∧ r₀.handle = h ∧ r₀.window = r.window)
    (hwant : ∀ x, wanting q h x = wanting p h x)
    (hc : q.windows.current.get? h = p.windows.current.get? h)
    (hw : ∀ k, p.windows.current.get? h = some k →
      q.windows.windows.get? k = p.windows.windows.get? k) : Balanced q h t' where
  shared id r hget hh := by
    obtain ⟨r₀, hr₀, hh₀, hwin⟩ := hr id r hget hh
    rw [hc, hb.shared id r₀ hr₀ hh₀, hwin]
  counted x := by rw [claimed_congr hc hw, hwant, hb.counted]
  armed x := by
    rw [claimed_congr hc hw, hd, hb.armed]
    simp only [SimulatedTorrent.HasPiece, SimulatedTorrent.position?, hp]

lemma balanced_of_stranger {p : Pipeline Simulated} (hs : p.readers.Sorted) {h : Handle}
    {t : SimulatedTorrent} (hc : p.windows.current.get? h = none)
    (hr : ∀ id r, p.readers.get? id = some r → r.handle ≠ h) (hd : t.deadlines = {}) :
    Balanced p h t where
  shared id r hget hh := absurd hh (hr id r hget)
  counted x := by
    rw [claimed_of_none hc, wanting_eq_zero hs fun id r hget hh => absurd hh (hr id r hget)]
  armed x := by
    rw [claimed_of_none hc, hd]
    simp [Table.contains, Table.get?, Table.find]

/-- Readers and windows are as they were, and the engine has the same torrents. -/
lemma Ledger.congr {p q : Pipeline Simulated} (h : Ledger p)
    (ht : ∀ g, q.engine.torrent? g = p.engine.torrent? g) (hr : q.readers = p.readers)
    (hw : q.windows = p.windows) : Ledger q where
  balanced g t hg := by
    rw [ht] at hg
    refine (h.balanced g t hg).congr rfl rfl (fun id r hget hh => ⟨r, hr ▸ hget, hh, rfl⟩)
      (fun x => ?_) (by rw [hw]) (fun k _ => by rw [hw])
    simp only [wanting, hr]
  invalid id r hget hinv := by
    rw [ht]
    exact h.invalid id r (hr ▸ hget) hinv
  finished id r hget := h.finished id r (hr ▸ hget)
  sorted id r hget := h.sorted id r (hr ▸ hget)

/-! ### What is called -/

/-- Whatever others call, the books of the torrents that stay are kept, and a new torrent has none
yet. -/
lemma Ledger.called {trace : List Event} {p : Pipeline Simulated} {c : EngineCall} (h : Ledger p)
    (hs : p.readers.Sorted) (ht : Tracked trace p) (hc : c.isPublic = true)
    (ho : Orderly (trace ++ [.ofCall p.engine c])) :
    Ledger { p with engine := c.apply p.engine } := by
  have hkeep : ∀ {g : Handle} {t t' : SimulatedTorrent}, Balanced p g t →
      t'.deadlines = t.deadlines → t'.payloads = t.payloads →
      Balanced { p with engine := c.apply p.engine } g t' := fun {g t t'} hb hd hp =>
    hb.congr hd hp (fun id r hget hh => ⟨r, hget, hh, rfl⟩) (fun _ => rfl) rfl fun _ _ => rfl
  refine ⟨fun g t' hg => ?_, fun id r hr hinv => ?_, h.finished, h.sorted⟩
  · rcases hadd : c.isAdd with _ | _
    · have happly : (c.apply p.engine).torrent? g = some t' := hg
      rw [c.torrent?_apply hadd] at happly
      split_ifs at happly with hh
      · obtain ⟨t, hget, hon⟩ := Option.bind_eq_some_iff.mp happly
        exact hkeep (h.balanced g t hget) (EngineCall.deadlines_onTorrent hc hon)
          (EngineCall.payloads_onTorrent hon).1
      · exact hkeep (h.balanced g t' happly) rfl rfl
    · cases c with
      | add name payloads state =>
        rcases Simulated.torrent?_insertTorrent_cases hg with ⟨rfl, rfl⟩ | hget
        · -- nobody has heard of the new torrent
          have hnew : ¬ GivenOut trace p.engine.nextHandle := not_givenOut ho.fresh
          have hb : Balanced p p.engine.nextHandle (.fresh name payloads state) := by
            refine balanced_of_stranger hs ?_ (fun id r hr hh => hnew (hh ▸ ht.readers id r hr)) rfl
            rcases hk : p.windows.current.get? p.engine.nextHandle with _ | k
            · rfl
            · exact absurd (ht.windows _ k hk) hnew
          exact hkeep hb rfl rfl
        · exact hkeep (h.balanced g t' hget) rfl rfl
      | _ => cases hadd
  · exact ht.gone ho.fresh (ht.readers id r hr) (h.invalid id r hr hinv)

/-- What delivery does by itself changes nothing in the books. -/
lemma Ledger.delivery {p q : Pipeline Simulated} {note : Note} (h : Ledger p)
    (hstep : Delivery.Step p note q) (hn : ∀ engine c, note ≠ .called engine c) : Ledger q := by
  have hb := Delivery.step_beside hstep
  rcases Delivery.step_slots hstep with ⟨c, hc, -⟩ | hslots
  · exact absurd hc (hn p.engine c)
  · exact h.congr (fun g => Simulated.torrent?_congr hslots g) hb.readers hb.windows

/-! ### What is written down -/

lemma Ledger.forget {p : Pipeline Simulated} (h : Ledger p) {g : Handle}
    (hnone : p.engine.torrent? g = none) : Ledger (p.forgetWindow g).2 := by
  refine ⟨fun f t hf => ?_, h.invalid, h.finished, h.sorted⟩
  have hne : f ≠ g := fun e => by
    have hsome : p.engine.torrent? g = some t := e ▸ hf
    rw [hnone] at hsome
    cases hsome
  refine (h.balanced f t hf).congr rfl rfl (fun id r hget hh => ⟨r, hget, hh, rfl⟩)
    (fun _ => rfl) ?_ fun _ _ => rfl
  simp only [Pipeline.forgetWindow, Windows.forget, Table.get?_erase]
  exact if_neg hne

lemma get?_putReader_cases {p : Pipeline Simulated} {id j : Nat} {r r₁ : Reader}
    (h : (p.putReader id r).readers.get? j = some r₁) :
    (j = id ∧ r₁ = r) ∨ p.readers.get? j = some r₁ := by
  rw [get?_putReader] at h
  split_ifs at h with hj
  · exact Or.inl ⟨hj, (Option.some.inj h).symm⟩
  · exact Or.inr h

lemma Ledger.rebalanced {p q : Pipeline Simulated} (h : Ledger p) {id : Nat} {r r' : Reader}
    (hk : r.Kin r') (hq : q.readers = (p.putReader id r').readers)
    (hgone : ∀ g, p.engine.torrent? g = none → q.engine.torrent? g = none)
    (hs : r'.current.Sorted) (hinv : r'.handleInvalid = true → p.engine.torrent? r.handle = none)
    (hfin : r'.finished = true → r'.current = {})
    (hb : ∀ g t, q.engine.torrent? g = some t → Balanced q g t) : Ledger q where
  balanced := hb
  invalid j r₁ hj hinv₁ := by
    rw [hq] at hj
    rcases get?_putReader_cases hj with ⟨-, rfl⟩ | hj
    · rw [hk.handle]
      exact hgone _ (hinv hinv₁)
    · exact hgone _ (h.invalid j r₁ hj hinv₁)
  finished j r₁ hj hf := by
    rw [hq] at hj
    rcases get?_putReader_cases hj with ⟨-, rfl⟩ | hj
    · exact hfin hf
    · exact h.finished j r₁ hj hf
  sorted j r₁ hj := by
    rw [hq] at hj
    rcases get?_putReader_cases hj with ⟨-, rfl⟩ | hj
    · exact hs
    · exact h.sorted j r₁ hj

lemma Balanced.elsewhere {p q : Pipeline Simulated} {h : Handle} {t : SimulatedTorrent}
    (hb : Balanced p h t) (hs : p.readers.Sorted) {id : Nat} {r r' : Reader}
    (hr : p.readers.get? id = some r) (hk : r.Kin r') (hne : r.handle ≠ h)
    (hq : q.readers = (p.putReader id r').readers)
    (hc : q.windows.current.get? h = p.windows.current.get? h)
    (hw : ∀ k, p.windows.current.get? h = some k →
      q.windows.windows.get? k = p.windows.windows.get? k) : Balanced q h t := by
  refine hb.congr rfl rfl (fun j r₁ hj hh => ?_) (fun x => ?_) hc hw
  · rw [hq] at hj
    rcases get?_putReader_cases hj with ⟨-, rfl⟩ | hj
    · exact absurd (hk.handle.symm.trans hh) hne
    · exact ⟨r₁, hj, hh, rfl⟩
  · have hput := wanting_put hs hr hk.handle h x
    simp only [hne, false_and, if_false, Nat.add_zero] at hput
    rw [← hput, wanting, hq, wanting]

lemma Ledger.put {p : Pipeline Simulated} (h : Ledger p) (hs : p.readers.Sorted) {id : Nat}
    {r r' : Reader} (hr : p.readers.get? id = some r) (hk : r.Kin r') (hc : r'.current = r.current)
    (hinv : r'.handleInvalid = true → p.engine.torrent? r.handle = none)
    (hfin : r'.finished = true → r'.current = {}) : Ledger (p.putReader id r') := by
  refine h.rebalanced hk rfl (fun g hg => hg) (hc ▸ h.sorted id r hr) hinv hfin fun g t hg => ?_
  refine (h.balanced g t hg).congr rfl rfl (fun j r₁ hj hh => ?_) (fun x => ?_) rfl fun _ _ => rfl
  · rcases get?_putReader_cases hj with ⟨rfl, rfl⟩ | hj
    · exact ⟨r, hr, hk.handle.symm.trans hh, hk.window.symm⟩
    · exact ⟨r₁, hj, hh, rfl⟩
  · have hput := wanting_put hs hr hk.handle g x
    rw [hc] at hput
    omega

/-- A torrent's window is nobody else's. -/
lemma Staffed.window_ne {p : Pipeline Simulated} (h : Staffed p) {id : Nat} {r : Reader}
    (hr : p.readers.get? id = some r) {g : Handle} (hne : r.handle ≠ g) {k : Nat}
    (hk : p.windows.current.get? g = some k) : k ≠ r.window := by
  rintro rfl
  have hwin := h.window id r hr
  rw [h.current g _ hk] at hwin
  exact hne (Option.some.inj hwin).symm

section Move

variable {p q : Pipeline Simulated} {id : Nat} {r r' : Reader} {w : Window}

lemma Balanced.moved {t t' : SimulatedTorrent} (hb : Balanced p r.handle t)
    (ht : p.engine.torrent? r.handle = some t) (hst : p.readers.Sorted)
    (hr : p.readers.get? id = some r) (hk : r.Kin r') (ho : r.current.Sorted)
    (hn : r'.current.Sorted) (hw : p.windows.windows.get? r.window = some w)
    (hh : w.handle = r.handle) (hq : q.readers = (p.putReader id r').readers)
    (hwin : q.windows = p.windows.put r.window (w.delta r.current r'.current p.engine).window)
    (ht' : (w.delta r.current r'.current p.engine).engine.torrent? r.handle = some t') :
    Balanced q r.handle t' := by
  have hcur := hb.shared id r hr rfl
  have hbefore : ∀ x, claimed p r.handle x = w.count x := claimed_of_window hcur hw
  have hafter : ∀ x, claimed q r.handle x =
      (w.delta r.current r'.current p.engine).window.count x :=
    claimed_of_window (by rw [hwin]; exact hcur) (by rw [hwin]; simp [Windows.put])
  have hsync : w.Synced p.engine := fun t₁ ht₁ x => by
    rw [hh, ht, Option.some.injEq] at ht₁
    rw [← ht₁, hb.armed, hbefore]
  refine ⟨fun j r₁ hj hh₁ => ?_, fun x => ?_, fun x => ?_⟩
  · rw [hwin]
    rw [hq] at hj
    rcases get?_putReader_cases hj with ⟨-, rfl⟩ | hj
    · rw [hk.window]
      exact hcur
    · exact hb.shared j r₁ hj hh₁
  · have hput := wanting_put hst hr hk.handle r.handle x
    have hcount := hb.counted x
    have hq' : wanting q r.handle x = wanting (p.putReader id r') r.handle x := by
      rw [wanting, hq, wanting]
    rw [hbefore] at hcount
    rw [hafter, w.count_delta r.current r'.current p.engine ho hn, hcount, hq']
    -- whoever wanted the piece before was counted before
    by_cases hold : x ∈ r.current <;> by_cases hnew : x ∈ r'.current <;>
      simp [hold, hnew] at hput ⊢ <;> omega
  · rw [hafter]
    exact w.synced_delta r.current r'.current p.engine hsync t' (by simpa [hh] using ht') x

/-- **A move is counted**: the reader is written down together with what it gives up and what it
claims. -/
lemma Ledger.moved (h : Ledger p) (hst : Staffed p) (hr : p.readers.get? id = some r)
    (hk : r.Kin r') (hs : r'.current.Sorted)
    (hinv : r'.handleInvalid = true → p.engine.torrent? r.handle = none)
    (hfin : r'.finished = true → r'.current = {}) (hw : p.windows.windows.get? r.window = some w)
    (hh : w.handle = r.handle) (hq : q.readers = (p.putReader id r').readers)
    (hwin : q.windows = p.windows.put r.window (w.delta r.current r'.current p.engine).window)
    (he : q.engine = (w.delta r.current r'.current p.engine).engine) : Ledger q := by
  have htend := w.tended_delta r.current r'.current p.engine
  obtain ⟨calls, hcalls, hall⟩ := w.calls_delta r.current r'.current p.engine
  refine h.rebalanced hk hq (by rw [he]; exact htend.gone) hs hinv hfin fun g t' hg => ?_
  rw [he] at hg
  by_cases hne : r.handle = g
  · subst hne
    rcases ht : p.engine.torrent? r.handle with _ | t
    · rw [htend.gone _ ht] at hg
      cases hg
    · exact (h.balanced _ t ht).moved ht hst.sorted hr hk (h.sorted id r hr) hs hw hh hq hwin hg
  · rw [hcalls, EngineCall.torrent?_applyAll (Ne.symm (hh ▸ hne)) hall] at hg
    refine (h.balanced g t' hg).elsewhere hst.sorted hr hk hne hq (by rw [hwin]; rfl)
      fun k hcur => ?_
    rw [hwin]
    simp only [Windows.put, Table.get?_set]
    exact if_neg (hst.window_ne hr hne hcur)

lemma Ledger.move (h : Ledger p) (hst : Staffed p) (hr : p.readers.get? id = some r) (hk : r.Kin r')
    (hs : r'.current.Sorted) (hinv : r'.handleInvalid = true → p.engine.torrent? r.handle = none)
    (hfin : r'.finished = true → r'.current = {}) :
    Ledger ((p.putReader id r').moveClaims r.window r.current r'.current).2 := by
  obtain ⟨w, hw, hh⟩ := Option.map_eq_some_iff.mp (hst.window id r hr)
  have hw' : (p.putReader id r').windows.windows.get? r.window = some w := hw
  rw [moveClaims_some hw']
  exact h.moved hst hr hk hs hinv hfin hw hh rfl rfl rfl

/-- When the torrent is gone claims need not be given back. -/
lemma Ledger.discard (h : Ledger p) (hst : Staffed p) (hr : p.readers.get? id = some r)
    (hk : r.Kin r') (hs : r'.current.Sorted) (hnone : p.engine.torrent? r.handle = none)
    (hfin : r'.finished = true → r'.current = {}) (pieces : OrderedSet Piece) :
    Ledger ((p.putReader id r').discardClaims r.window pieces) := by
  obtain ⟨w, hw, -⟩ := Option.map_eq_some_iff.mp (hst.window id r hr)
  have hw' : (p.putReader id r').windows.windows.get? r.window = some w := hw
  unfold Pipeline.discardClaims
  simp only [hw']
  refine h.rebalanced hk rfl (fun g hg => hg) hs (fun _ => hnone) hfin fun g t hg => ?_
  have hg' : p.engine.torrent? g = some t := hg
  have hne : r.handle ≠ g := by
    rintro rfl
    rw [hnone] at hg'
    cases hg'
  refine (h.balanced g t hg').elsewhere hst.sorted hr hk hne rfl rfl fun k hcur => ?_
  simp only [Windows.put, Table.get?_set]
  exact if_neg (hst.window_ne hr hne hcur)

end Move

/-! ### Ending, failing, sliding -/

section Reader

variable {trace : List Event} {p q : Pipeline Simulated} {id : Nat} {r : Reader}

lemma Ledger.endReader (h : Ledger p) (hst : Staffed p) (hr : p.readers.get? id = some r) :
    Ledger (p.endReader id) := by
  unfold Pipeline.endReader
  simp only [hr]
  have hsorted : r.ended.current.Sorted := OrderedSet.sorted_empty
  split_ifs with hinv hempty
  · have hnone := h.invalid id r hr hinv
    refine (h.discard hst hr r.kin_ended hsorted hnone (fun _ => rfl) r.current).forget ?_
    unfold Pipeline.discardClaims
    split <;> exact hnone
  · have hc : r.ended.current = r.current := by
      rcases hcur : r.current with ⟨_ | ⟨a, l⟩⟩
      · rfl
      · rw [hcur] at hempty
        cases hempty
    exact h.put hst.sorted hr r.kin_ended hc (fun hi => absurd hi hinv) fun _ => rfl
  · exact h.move hst hr r.kin_ended hsorted (fun hi => absurd hi hinv) fun _ => rfl

lemma Ledger.mark (h : Ledger p) (hs : p.readers.Sorted) (hr : p.readers.get? id = some r)
    {e : PieceError} (he : e = .handleInvalid → p.engine.torrent? r.handle = none) :
    Ledger (p.putReader id (r.marked e)) := by
  refine h.put hs hr (r.kin_marked e) rfl (fun hi => ?_) (h.finished id r hr)
  rcases Bool.or_eq_true_iff.mp hi with hi | hi
  · exact h.invalid id r hr hi
  · exact he (of_decide_eq_true hi)

lemma Ledger.failReader (h : Ledger p) (hs : Sane trace p) (hr : p.readers.get? id = some r)
    {e : PieceError} (he : e = .handleInvalid → p.engine.torrent? r.handle = none) :
    Ledger (p.failReader id e).2 := by
  have hmarked : Sane trace (p.putReader id (r.marked e)) :=
    hs.attended hr (.putReader hr (r.kin_marked e))
  rw [failReader_snd hr]
  exact (h.mark hs.staffed.sorted hr he).endReader hmarked.staffed (get?_putReader_self _ _ _)

lemma Ledger.slideReader (h : Ledger p) (hst : Staffed p) (hr : p.readers.get? id = some r)
    (hf : r.finished = false) {pieces : OrderedSet Piece} (hp : pieces.Sorted) :
    Ledger (p.slideReader id r pieces).2 := by
  unfold Pipeline.slideReader
  split_ifs
  · exact h
  · refine h.move hst hr (r.kin_slide pieces) hp (h.invalid id r hr) fun hfin => ?_
    rw [Reader.slide, hf] at hfin
    cases hfin

/-- Sliding fails for an invalid handle only if the torrent is gone. -/
lemma gone_of_slide (hst : Staffed p) (hr : p.readers.get? id = some r) {pieces : OrderedSet Piece}
    (hm : (p.slideReader id r pieces).1 = some .handleInvalid) :
    (p.slideReader id r pieces).2.engine.torrent? r.handle = none := by
  obtain ⟨w, hw, hh⟩ := Option.map_eq_some_iff.mp (hst.window id r hr)
  have hw' : (p.putReader id (r.slide pieces)).windows.windows.get? r.window = some w := hw
  unfold Pipeline.slideReader at hm ⊢
  split_ifs at hm ⊢
  rw [moveClaims_some hw'] at hm ⊢
  rw [← hh]
  exact (w.tended_delta r.current pieces p.engine).gone _
    (w.gone_of_delta r.current pieces p.engine hm)

/-! ### Why a reader fails -/

lemma ne_handleInvalid_of_serve (ho : Orderly trace) (hst : Stocked (Added trace) (Failed trace) r)
    {r' : Reader} {e : PieceError} (hs : r.serve? = some (.error e, r')) : e ≠ .handleInvalid := by
  obtain ⟨-, x, e', -, hready, rfl⟩ := Reader.serve_error hs
  have hfine := ho.failures e' ⟨_, x, hst x (.error e') hready⟩
  unfold PieceError.ofEngine
  rw [if_neg (by simp [hfine])]
  exact fun heq => by cases heq

lemma gone_of_delivery (hw : Heeds p r.subscription r.handle) {e : DeliveryError}
    (hp : (p.pollSubscription r.subscription).1 = some (.error e))
    (he : PieceError.ofDelivery e = .handleInvalid) : p.engine.torrent? r.handle = none :=
  hw.gone hp fun hshut => by
    rw [hshut] at he
    cases he

/-- A reader is told of a removal only if its torrent is gone. -/
lemma gone_of_take (hs : Steady trace p) (hr : p.readers.get? id = some r) {a : Alert}
    {e : PieceError} (hp : (p.pollSubscription r.subscription).1 = some (.ok a))
    (ht : r.take a = .error e) :
    p.engine.torrent? r.handle = none := by
  obtain ⟨hplay, hhandle⟩ := received_spec hs.sound hs.staffed hr hp
  cases a with
  | torrentRemoved g name =>
    obtain rfl : g = r.handle := Option.some.inj hhandle
    exact (hs.faithful.removed _ name hplay).2
  | readPiece g name x data error =>
    simp only [Reader.take] at ht
    split_ifs at ht
  | _ => cases ht

/-! ### A whole poll -/

/-- The books are in balance, and what came in for readers is true. -/
structure Booked (trace : List Event) (p : Pipeline Simulated) : Prop where
  sane : Sane trace p
  ledger : Ledger p
  stocked : ∀ id r, p.readers.get? id = some r → Stocked (Added trace) (Failed trace) r

lemma Booked.attended (h : Booked trace p) (hr : p.readers.get? id = some r)
    (ha : Attended id r.subscription p q) (hl : Ledger q) {r' : Reader}
    (hr' : q.readers.get? id = some r') (hst : Stocked (Added trace) (Failed trace) r') :
    Booked trace q where
  sane := h.sane.attended hr ha
  ledger := hl
  stocked j r₁ hj := by
    by_cases he : j = id
    · rw [he, hr', Option.some.injEq] at hj
      exact hj ▸ hst
    · exact h.stocked j r₁ (ha.others j he ▸ hj)

lemma Booked.received (h : Booked trace p) (hr : p.readers.get? id = some r) :
    Booked trace (p.pollSubscription r.subscription).2 :=
  h.attended hr (.pollSubscription p) (h.ledger.congr (fun _ => rfl) rfl rfl) hr (h.stocked id r hr)

lemma Booked.advanced (h : Booked trace p) (hr : p.readers.get? id = some r) :
    Booked trace (p.putReader id { r with cursor := r.cursor + 1 }) := by
  have hk : r.Kin { r with cursor := r.cursor + 1 } := ⟨rfl, rfl, rfl, rfl, rfl⟩
  exact h.attended hr (.putReader hr hk)
    (h.ledger.put h.sane.staffed.sorted hr hk rfl (h.ledger.invalid id r hr)
      (h.ledger.finished id r hr))
    (get?_putReader_self _ _ _) (h.stocked id r hr)

lemma Booked.took (h : Booked trace p) (hr : p.readers.get? id = some r) {a : Alert} {r' : Reader}
    (hp : (p.pollSubscription r.subscription).1 = some (.ok a)) (ht : r.take a = .ok r') :
    Booked trace ((p.pollSubscription r.subscription).2.putReader id r') := by
  obtain ⟨hplay, hhandle⟩ := received_spec h.sane.sound h.sane.staffed hr hp
  have hb := h.received hr
  have hk := Reader.kin_take ht
  have hst := stocked_take (h.stocked id r hr) (h.sane.sound.honest a hplay) hhandle ht
  have hput : Attended id r.subscription (p.pollSubscription r.subscription).2
      ((p.pollSubscription r.subscription).2.putReader id r') := .putReader hr hk
  obtain ⟨ready, rfl⟩ := Reader.take_ok ht
  exact hb.attended hr hput
    (hb.ledger.put hb.sane.staffed.sorted hr hk rfl (hb.ledger.invalid id r hr)
      (hb.ledger.finished id r hr))
    (get?_putReader_self _ _ _) hst

lemma Booked.slide (h : Booked trace p) (hr : p.readers.get? id = some r) (hf : r.finished = false)
    {pieces : OrderedSet Piece} (hu : r.upcoming? = some pieces) :
    Booked trace (p.slideReader id r pieces).2 := by
  have hsorted : pieces.Sorted := by
    rw [Reader.upcoming?_eq hu]
    exact OrderedSet.sorted_ofList _
  refine h.attended hr (.slideReader hr pieces) (h.ledger.slideReader h.sane.staffed hr hf hsorted)
    (get?_slideReader p id hr pieces) ?_
  split_ifs
  · exact h.stocked id r hr
  · exact (h.stocked id r hr).slide pieces

lemma ledger_reading {answer : Polled (Except PieceError PieceData)} (ho : Orderly trace)
    (h : Reading id p answer q) : Booked trace p → Ledger q := by
  induction h with
  | served hr hs =>
    intro hb
    obtain ⟨rfl, -⟩ := Reader.serve_ok hs
    exact (hb.advanced hr).ledger
  | @soured p r r' e hr hs =>
    intro hb
    have hne := ne_handleInvalid_of_serve ho (hb.stocked id r hr) hs
    obtain ⟨rfl, -⟩ := Reader.serve_error hs
    have hnext := hb.advanced hr
    exact hnext.ledger.failReader hnext.sane (get?_putReader_self _ _ _) fun he => absurd he hne
  | waited hr =>
    intro hb
    exact (hb.received hr).ledger
  | @failed p r e hr hs hp =>
    intro hb
    have hnone := gone_of_delivery (hb.sane.tracked.watched id r hr).heeds hp
    exact (hb.received hr).ledger.failReader (hb.received hr).sane hr hnone
  | ousted hr hs hp ht =>
    intro hb
    have hnone := gone_of_take hb.sane.steady hr hp ht
    exact (hb.received hr).ledger.failReader (hb.received hr).sane hr fun _ => hnone
  | took hr hs hp ht h ih => exact fun hb => ih (hb.took hr hp ht)

/-- **A poll keeps the books**, whichever way it goes. -/
theorem ledger_polls {answer : Polled (Except PieceError PieceData)} (ho : Orderly trace)
    (hr : p.readers.get? id = some r) (h : Polls id p r answer q) (hb : Booked trace p) :
    Ledger q := by
  cases h with
  | past => exact hb.ledger
  | ended => exact hb.ledger.endReader hb.sane.staffed hr
  | overflow => exact hb.ledger
  | refused => exact hb.ledger.failReader hb.sane hr fun he => by cases he
  | @slipped hf hc pieces hu hn e hm =>
    have hslide := hb.slide hr hf hu
    refine hslide.ledger.failReader hslide.sane (get?_slideReader p id hr pieces) fun he => ?_
    rw [he] at hm
    have hnone := gone_of_slide hb.sane.staffed hr hm
    split_ifs <;> exact hnone
  | went hf hc hu hn hm h => exact ledger_reading ho h (hb.slide hr hf hu)

end Reader

/-! ### Coming and going -/

lemma wanting_read {p : Pipeline Simulated} (hst : Staffed p) (g : Handle) (pieces : List Piece)
    (h : Handle) (x : Piece) : wanting (p.read g pieces).2 h x = wanting p h x := by
  have hset := Table.count_set hst.sorted
    (fun r => decide (r.handle = h) && r.current.contains x) p.nextScope (newReader p g pieces)
  have hunborn : p.readers.get? p.nextScope = none := by
    rcases hr : p.readers.get? p.nextScope with _ | r
    · rfl
    · exact absurd (hst.bound _ r hr) (Nat.lt_irrefl _)
  rw [hunborn] at hset
  rw [wanting, read_snd, wanting]
  simpa [newReader, OrderedSet.contains, OrderedSet.mem_def] using hset

lemma claimed_read {p : Pipeline Simulated} (hst : Staffed p) (g : Handle) (pieces : List Piece)
    (h : Handle) (x : Piece) : claimed (p.read g pieces).2 h x = claimed p h x := by
  obtain ⟨hcur, hkept, -, -, hnone⟩ :=
    share_spec p.windows g p.settings.pieceDeadline hst.current hst.next
  rcases hk : p.windows.current.get? h with _ | k
  · rw [claimed_of_none hk]
    unfold claimed
    rw [windows_read, hcur]
    split_ifs with hg
    · rw [Option.bind_some]
      rcases hw : (p.windows.share g p.settings.pieceDeadline).2.windows.get?
          (p.windows.share g p.settings.pieceDeadline).1 with _ | w
      · rfl
      · simp only [Window.count, hnone w hw (hg ▸ hk)]
        rfl
    · rw [hk, Option.bind_none]
  · obtain ⟨w, hw, -⟩ := Option.map_eq_some_iff.mp (hst.current h k hk)
    have hcur' : (p.read g pieces).2.windows.current.get? h = some k := by
      rw [windows_read, hcur]
      split_ifs with hg
      · subst hg
        simp [Windows.share, hk]
      · exact hk
    rw [claimed_of_window hk hw, claimed_of_window hcur' (by rw [windows_read, hkept k w hw])]

lemma Ledger.read {p : Pipeline Simulated} (h : Ledger p) (hst : Staffed p) (g : Handle)
    (pieces : List Piece) : Ledger (p.read g pieces).2 := by
  have hcur := (share_spec p.windows g p.settings.pieceDeadline hst.current hst.next).1
  refine ⟨fun f t ht => ?_, fun id r hr hi => ?_, fun id r hr hf => ?_, fun id r hr => ?_⟩
  · rw [torrent?_read] at ht
    have hb := h.balanced f t ht
    refine ⟨fun id r hr hh => ?_, fun x => ?_, fun x => ?_⟩
    · rw [windows_read, hcur]
      rcases get?_read_cases hr with ⟨-, rfl⟩ | hr
      · rw [← hh]
        exact if_pos rfl
      · have hk := hb.shared id r hr hh
        split_ifs with hf
        · subst hf
          simp [Windows.share, hk]
        · exact hk
    · rw [claimed_read hst, wanting_read hst, hb.counted]
    · rw [claimed_read hst, hb.armed]
  · rw [torrent?_read]
    rcases get?_read_cases hr with ⟨-, rfl⟩ | hr
    · cases hi
    · exact h.invalid id r hr hi
  · rcases get?_read_cases hr with ⟨-, rfl⟩ | hr
    · cases hf
    · exact h.finished id r hr hf
  · rcases get?_read_cases hr with ⟨-, rfl⟩ | hr
    · exact OrderedSet.sorted_empty
    · exact h.sorted id r hr

lemma Ledger.strike {p : Pipeline Simulated} (h : Ledger p) (hs : p.readers.Sorted) {id : Nat}
    {r : Reader} (hr : p.readers.get? id = some r) (hc : r.current = {}) :
    Ledger { p with readers := p.readers.erase id } := by
  have hget : ∀ {j r₁}, (p.readers.erase id).get? j = some r₁ → p.readers.get? j = some r₁ :=
    fun {j r₁} hj => by
      rw [Table.get?_erase] at hj
      split_ifs at hj
      exact hj
  refine ⟨fun g t hg => ?_, fun j r₁ hj => h.invalid j r₁ (hget hj),
    fun j r₁ hj => h.finished j r₁ (hget hj), fun j r₁ hj => h.sorted j r₁ (hget hj)⟩
  refine (h.balanced g t hg).congr rfl rfl (fun j r₁ hj hh => ⟨r₁, hget hj, hh, rfl⟩)
    (fun x => ?_) rfl fun _ _ => rfl
  have herase := Table.count_erase hs (fun r => decide (r.handle = g) && r.current.contains x) id
  rw [hr, Table.weight_some] at herase
  simpa [wanting, hc, OrderedSet.contains, OrderedSet.mem_def] using herase

lemma Ledger.dropReader {p : Pipeline Simulated} (h : Ledger p) (hinv : Delivery.Inv p)
    (hst : Staffed p) (id : Nat) : Ledger (p.dropReader id) := by
  unfold Pipeline.dropReader
  rcases hr : p.readers.get? id with _ | r
  · exact h
  · have hend : Attended id r.subscription p (p.endReader id) := .endReader hr
    obtain ⟨notes, hc, -⟩ := hend.continues ⟨r, hr⟩
    have hstruck :=
      (h.endReader hst hr).strike (hst.continues hinv hc).sorted (get?_endReader hr) rfl
    exact hstruck.delivery (.unsubscribe _ r.subscription) fun _ _ hn => by cases hn

/-! ### Every run -/

lemma prepared_deadlines {trace : List Event} {s : Simulated} (h : Prepared trace s) (g : Handle)
    (t : SimulatedTorrent) (ht : s.torrent? g = some t) : t.deadlines = {} := by
  induction h generalizing t with
  | nil => simp [Simulated.torrent?] at ht
  | @snoc trace s _ c hc ih =>
    rcases hadd : c.isAdd with _ | _
    · rw [c.torrent?_apply hadd] at ht
      split_ifs at ht
      · obtain ⟨t₀, ht₀, hon⟩ := Option.bind_eq_some_iff.mp ht
        rw [EngineCall.deadlines_onTorrent hc hon, ih t₀ ht₀]
      · exact ih t ht
    · cases c with
      | add name payloads state =>
        rcases Simulated.torrent?_insertTorrent_cases ht with ⟨-, rfl⟩ | ht
        · rfl
        · exact ih t ht
      | _ => cases hadd

/-- **Every step keeps the books.** -/
theorem ledger_step {trace : List Event} {p q : Pipeline Simulated} {event : Event}
    (ho : Orderly (trace ++ [event])) (hb : Booked trace p) (hstep : Step p event q) :
    Ledger q := by
  have hs := hb.sane
  have h := hb.ledger
  cases movement_step hs.staffed hstep with
  | delivery hstep ha =>
    have hbeside := Delivery.step_beside hstep
    rcases Delivery.step_slots hstep with ⟨c, rfl, rfl⟩ | hslots
    · exact h.called hs.staffed.sorted hs.tracked ha ho
    · exact h.congr (fun g => Simulated.torrent?_congr hslots g) hbeside.readers hbeside.windows
  | idling hi =>
    rcases hi.windows with hw | ⟨g, name, hplay, hw⟩
    · exact h.congr hi.torrent? hi.readers hw
    · have hnone := (hs.tracked.removed g name hplay).2
      exact (h.forget hnone).congr hi.torrent? hi.readers hw
  | reading handle pieces => exact h.read hs.staffed handle pieces
  | polled hr hpolls => exact ledger_polls ho.init hr hpolls hb
  | dropped id => exact h.dropReader hs.sound.inv hs.staffed id

lemma ledger_start {settings : Settings} {trace : List Event} {engine : Simulated}
    {p : Pipeline Simulated} (he : Prepared trace engine)
    (hp : Pipeline.start settings engine = .ok p) :
    Ledger p := by
  obtain ⟨-, hreaders, hwindows, -, hslots, -⟩ := start_spec hp
  have hnone : ∀ id r, p.readers.get? id ≠ some r := fun id r hr => by
    simp [hreaders, Table.get?, Table.find] at hr
  refine ⟨fun h t ht => ?_, fun id r hr => absurd hr (hnone id r),
    fun id r hr => absurd hr (hnone id r), fun id r hr => absurd hr (hnone id r)⟩
  rw [Simulated.torrent?_congr hslots] at ht
  refine balanced_of_stranger (hreaders ▸ Table.sorted_empty) ?_
    (fun id r hr => absurd hr (hnone id r)) (prepared_deadlines he h t ht)
  rw [hwindows]
  rfl

/-- **The books are always in balance.** -/
theorem run_booked {settings : Settings} {trace : List Event} {p : Pipeline Simulated}
    (h : Run settings trace p) (ho : Orderly trace) : Booked trace p := by
  induction h with
  | start he hp =>
    exact ⟨run_sane (.start he hp) ho, ledger_start he hp, run_stocked (.start he hp)⟩
  | snoc hrun hstep ih =>
    exact ⟨run_sane (hrun.snoc hstep) ho, ledger_step ho (ih ho.init) hstep,
      run_stocked (hrun.snoc hstep)⟩

end TorrentFlow.Services
