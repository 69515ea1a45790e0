import TorrentFlow.Proofs.Histories
import TorrentFlow.Proofs.Waiting.Contract

/-!
What a request is compared with before anybody waits: with zero, whatever the handle, and with the
number of pieces once that is known. It is known by the list of the pieces that are there, and an
empty list is taken for one that is not known yet. So a torrent without pieces has no bound, and a
wait for one of its pieces has no end.
-/

namespace TorrentFlow.Waiting

open Simulated

lemma negative?_eq (pieces : List Piece) :
    Waiter.negative? pieces = pieces.find? fun q => decide (q.index < 0) := by
  simp only [Waiter.negative?, isNone_position?]

/-- Among pieces that are not negative, the first that is too large. -/
lemma beyond?_eq {pieces : List Piece} (h : pieces.find? (fun q => decide (q.index < 0)) = none)
    (count : Nat) :
    Waiter.beyond? pieces count = pieces.find? fun q => decide ((count : Int) ≤ q.index) := by
  induction pieces with
  | nil => rfl
  | cons q rest ih =>
    have hq : 0 ≤ q.index := by simpa using List.find?_eq_none.mp h q List.mem_cons_self
    have hrest := ih (List.find?_eq_none.mpr fun q' hq' => List.find?_eq_none.mp h q' (.tail q hq'))
    have htest : decide (count ≤ q.index.toNat) = decide ((count : Int) ≤ q.index) := by
      rw [decide_eq_decide]
      omega
    unfold Waiter.beyond? at hrest ⊢
    rw [List.find?_cons, List.find?_cons, hrest]
    simp only [Piece.position?, if_pos hq, htest]

lemma query_known {s : Simulated} {h : Handle} {t : SimulatedTorrent} (ht : s.torrent? h = some t)
    (hk : t.state.piecesKnown = true) :
    Waiter.query h s = (.ok t.available, { s with statusQueries := s.statusQueries + 1 }) := by
  have hanswer : (status h true s).1 = .ok ⟨t.state, t.available⟩ := by
    simp [fst_status, ht, hk]
  have hstatus : (Engine.status h s : Except EngineError TorrentStatus × Simulated) =
      (.ok ⟨t.state, t.available⟩, { s with statusQueries := s.statusQueries + 1 }) :=
    Prod.ext hanswer (snd_status h true s)
  rw [Waiter.query, hstatus]

section Refusals

variable {σ : Type} [Engine σ] {handle : Handle} {pieces : List Piece} {interval : Duration}

/-- A negative piece is refused before the engine is asked anything. -/
lemma wait_negative {bad : Piece} (h : Waiter.negative? pieces = some bad) (p : Pipeline σ) :
    p.wait handle pieces interval = (.error (.outOfRange bad), p) := by
  simp only [Pipeline.wait, Waiter.start, h]

lemma wait_beyond {p : Pipeline σ} {engine : σ} {b : Bool} {bs : List Bool} {bad : Piece}
    (hn : Waiter.negative? pieces = none)
    (hq : Waiter.query handle p.engine = (.ok (b :: bs), engine))
    (h : Waiter.beyond? pieces (b :: bs).length = some bad) :
    p.wait handle pieces interval = (.error (.outOfRange bad), { p with engine }) := by
  have htest : (if (b :: bs).isEmpty then none else Waiter.beyond? pieces (b :: bs).length) =
      some bad := by
    rwa [if_neg (by simp)]
  simp only [Pipeline.wait, Waiter.start, hn, hq, htest]

lemma wait_fits {p : Pipeline σ} {engine : σ} {available : List Bool}
    (hn : Waiter.negative? pieces = none)
    (hq : Waiter.query handle p.engine = (.ok available, engine))
    (h : available = [] ∨ Waiter.beyond? pieces available.length = none) :
    (p.wait handle pieces interval).1 = .ok p.nextScope := by
  have htest : (if available.isEmpty then none else Waiter.beyond? pieces available.length) =
      none := by
    rcases h with rfl | h
    · rfl
    · rw [h, ite_self]
  simp only [Pipeline.wait, Waiter.start, hn, hq, htest]

end Refusals

/-! ### Waits that nothing was told -/

lemma first?_of_unknown {rs : List Report} (h : ∀ report ∈ rs, report = .ok []) :
    first? rs = none := by
  unfold first?
  rw [List.findSome?_eq_none_iff]
  rintro report hmem
  rw [h report hmem]

lemma error?_of_unknown {rs : List Report} (h : ∀ report ∈ rs, report = .ok []) :
    error? rs = none := by
  unfold error?
  rw [List.findSome?_eq_none_iff]
  rintro report hmem
  rw [h report hmem]

/-- **As long as nothing is known of the pieces, whoever waits goes on waiting**, and so does the
poller. -/
theorem pending_while_unknown {σ : Type} [Engine σ] {handle : Handle} {pieces : List Piece}
    (hne : pieces ≠ []) {id : Nat} {trace : List Mark} {p : Pipeline σ}
    (hrun : Run handle pieces id trace p) (h : ∀ report ∈ reports trace, report = .ok []) :
    (p.pollWaiter id).1 = .pending ∧ p.pollDue? id ≠ none := by
  obtain ⟨w, hget, -, hkept⟩ := kept_run hrun
  have hboard : board pieces (reports trace) = [] := board_eq_nil (first?_of_unknown h)
  have hfail : failure? pieces (reports trace) = none := by
    rw [failure?, misfit?, first?_of_unknown h]
    exact error?_of_unknown h
  -- no call is over: each ends with a piece, with a failure, or after the last piece
  have hcalls : calls trace = [] := by
    obtain ⟨failed, n, hcalls, hfailed, hlast⟩ := hkept.order
    have hcursor := hkept.early hboard
    rcases failed with _ | e
    · rcases n with _ | n
      · simpa [hcursor, told] using hcalls
      · have hzero := hlast rfl (Nat.succ_pos n)
        rw [hcursor, eq_comm, List.length_eq_zero_iff] at hzero
        exact absurd hzero hne
    · rw [hfail] at hfailed
      cases hfailed e rfl
  have hend : hasEnded trace = false := by simp [hasEnded, hcalls]
  obtain ⟨q, rest, hpieces⟩ : ∃ q rest, pieces = q :: rest := List.exists_cons_of_ne_nil hne
  constructor
  · rw [Pipeline.pollWaiter, hget]
    show w.poll.1 = .pending
    rw [hkept.poll_fst, due, hend, hcalls, hboard, hfail, hpieces]
    simp
  · have hthere : allThere pieces (reports trace) = false := by
      rw [allThere, hboard, hpieces]
      simp
    have hpoller : w.poller ≠ none := fun hnone => by
      simpa [hend, hfail, hthere] using hkept.poller.mp hnone
    simpa [Pipeline.pollDue?, hget] using hpoller

/-- **A wait is refused for its bounds before anybody waits**, if the torrent has any pieces. Of a
torrent in whatever history, whose pieces are known:

* a request with a negative piece is refused with the first of them, and nothing is asked or
  changed; so it is on every engine and for every handle;
* another request is refused, after one query, with its first piece that is past the last one,
  unless the torrent has no pieces at all;
* every other request is accepted;
* if the torrent has no pieces, a wait for any goes on as long as the poller is told what it was
  told first. -/
theorem bounds_checked_first {notifySupported waitSupported : Bool} {deeds : List Deed}
    {p : Pipeline Simulated} (hp : p.engine = (made notifySupported waitSupported).after deeds)
    {h : Handle} {t : SimulatedTorrent} (ht : p.engine.torrent? h = some t)
    (hk : t.state.piecesKnown = true) (pieces : List Piece) (interval : Duration) :
    (∀ bad, pieces.find? (fun q => decide (q.index < 0)) = some bad →
      ∀ (σ : Type) [Engine σ] (p' : Pipeline σ) (g : Handle),
        p'.wait g pieces interval = (.error (.outOfRange bad), p')) ∧
      (∀ bad, pieces.find? (fun q => decide (q.index < 0)) = none → 0 < t.payloads.length →
        pieces.find? (fun q => decide ((t.payloads.length : Int) ≤ q.index)) = some bad →
          p.wait h pieces interval = (.error (.outOfRange bad), { p with
            engine := { p.engine with statusQueries := p.engine.statusQueries + 1 } })) ∧
      ((∀ q ∈ pieces, 0 ≤ q.index ∧ (t.payloads.length = 0 ∨ q.index < t.payloads.length)) →
        (p.wait h pieces interval).1 = .ok p.nextScope) ∧
      (t.payloads = [] → pieces ≠ [] → ∀ (id : Nat) (trace : List Mark) (p' : Pipeline Simulated),
        Run h pieces id trace p' →
          (∀ report ∈ reports trace, report = (Waiter.query h p.engine).1) →
          (p'.pollWaiter id).1 = .pending ∧ p'.pollDue? id ≠ none) := by
  have hq := query_known ht hk
  have hlen : t.available.length = t.payloads.length := by
    rw [hp] at ht
    exact (whole_after _ _ deeds h t ht).2
  refine ⟨fun bad hneg σ _ p' g => wait_negative ((negative?_eq pieces).trans hneg) p',
    fun bad hneg hpos hbad => ?_, fun hfits => ?_, fun hnone hne id trace p' hrun hreports => ?_⟩
  · -- a piece past the last one
    have hbeyond : Waiter.beyond? pieces t.available.length = some bad := by
      rw [beyond?_eq hneg, hlen]
      exact hbad
    rcases hav : t.available with _ | ⟨b, bs⟩
    · rw [hav] at hlen
      exact absurd hlen (Nat.ne_of_lt hpos)
    · rw [hav] at hq hbeyond
      exact wait_beyond ((negative?_eq pieces).trans hneg) hq hbeyond
  · -- a request that fits, or that could not be compared with a bitmap
    have hneg : pieces.find? (fun q => decide (q.index < 0)) = none :=
      List.find?_eq_none.mpr fun q hmem => by simpa using (hfits q hmem).1
    refine wait_fits ((negative?_eq pieces).trans hneg) hq ?_
    by_cases hzero : t.payloads.length = 0
    · exact .inl (List.length_eq_zero_iff.mp (hlen.trans hzero))
    · refine .inr ?_
      rw [beyond?_eq hneg, hlen]
      exact List.find?_eq_none.mpr fun q hmem => by simpa using (hfits q hmem).2.resolve_left hzero
  · -- without pieces the bitmap is empty, which passes for unknown
    have hempty : t.available = [] := by
      rw [← List.length_eq_zero_iff, hlen, hnone]
      rfl
    refine pending_while_unknown hne hrun fun report hmem => ?_
    rw [hreports report hmem, hq, hempty]

/-- A torrent of two pieces and a request for one that it has, one that is past them and one that is
negative: the negative one is refused, and without it the one that is past. -/
theorem bounds_checked_first_both : ∃ (p : Pipeline Simulated) (h : Handle) (t : SimulatedTorrent),
    p.engine.torrent? h = some t ∧ t.state.piecesKnown = true ∧ t.payloads.length = 2 ∧
      p.wait h [⟨1⟩, ⟨2⟩, ⟨-1⟩] .zero = (.error (.outOfRange ⟨-1⟩), p) ∧
      (p.wait h [⟨1⟩, ⟨2⟩, ⟨3⟩] .zero).1 = .error (.outOfRange ⟨2⟩) ∧
      (p.wait h [⟨1⟩, ⟨0⟩] .zero).1 = .ok p.nextScope := by
  let p : Pipeline Simulated :=
    { engine := (made true true).after [.call (.add "film" [[1], [2]] .downloading)],
      settings := {} }
  have h (pieces : List Piece) := bounds_checked_first (p := p)
    (h := ⟨0, 1⟩) rfl rfl rfl pieces .zero
  refine ⟨p, ⟨0, 1⟩, _, rfl, rfl, rfl, (h _).1 ⟨-1⟩ (by decide) _ p _, ?_, (h _).2.2.1 (by decide)⟩
  rw [(h _).2.1 ⟨2⟩ (by decide) (by decide) (by decide)]

/-- A torrent whose pieces are known, and of which there are none: its first piece is past the last
one, but a wait for it is accepted, and is still going on after the poller has asked again. -/
theorem bounds_unchecked_empty : ∃ (p p' : Pipeline Simulated) (h : Handle) (t : SimulatedTorrent),
    p.engine.torrent? h = some t ∧ t.state.piecesKnown = true ∧
      (∃ q ∈ [(⟨0⟩ : Piece)], (t.payloads.length : Int) ≤ q.index) ∧
      p.wait h [⟨0⟩] (.ofSeconds 1) = (.ok 0, p') ∧ ((p'.fire (.poll 0)).pollWaiter 0).1 =
      .pending := by
  let p : Pipeline Simulated :=
    { engine := (made true true).after [.call (.add "empty" [] .downloading)], settings := {} }
  exact ⟨p, (p.wait ⟨0, 1⟩ [⟨0⟩] (.ofSeconds 1)).2, ⟨0, 1⟩, _, rfl, rfl,
    ⟨⟨0⟩, by simp, by decide⟩, rfl, rfl⟩

end TorrentFlow.Waiting
