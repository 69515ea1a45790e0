import TorrentFlow.Proofs.Services.Hearing
import TorrentFlow.Proofs.Services.Stalling

/-!
The stretch of its request that a reader wants: from the cursor on, as many pieces as it looks
ahead, cut off at the end of the request. The end is a number of 64 bits. As long as the sum of
cursor and window is one too, the stretch lies within the request, whatever the engine does; a
window that passes the check of the settings can still be so large that it is not, as soon as the
cursor has left the first piece.
-/

namespace TorrentFlow

/-- The part of a list between two positions; none unless they are in order and within the list. -/
def slice? {α : Type} (l : List α) (first last : Nat) : Option (List α) :=
  if first ≤ last ∧ last ≤ l.length then some ((l.drop first).take (last - first)) else none

namespace Reader

/-- The end of the stretch, with the sum of cursor and window as the word that is left of it. -/
def stretchEnd (r : Reader) : Nat := min ((r.cursor + r.ahead) % Numeral.wordSize) r.pieces.length

lemma stretchEnd_of_lt {r : Reader} (h : r.cursor + r.ahead < Numeral.wordSize) :
    r.stretchEnd = min (r.cursor + r.ahead) r.pieces.length := by
  rw [stretchEnd, Nat.mod_eq_of_lt h]

/-- A sum that is too large leaves a word before the cursor. -/
lemma stretchEnd_lt_cursor {r : Reader} (ha : r.ahead < Numeral.wordSize)
    (h : Numeral.wordSize ≤ r.cursor + r.ahead) : r.stretchEnd < r.cursor := by
  refine Nat.lt_of_le_of_lt (Nat.min_le_left _ _) ?_
  unfold Numeral.wordSize at *
  omega

/-- **What a reader wants next is the slice of its request up to the stretch's end**, if there is
one. -/
theorem upcoming?_eq_slice {r : Reader} (hc : r.cursor ≤ r.pieces.length)
    (ha : r.ahead < Numeral.wordSize) :
    r.upcoming? = (slice? r.pieces r.cursor r.stretchEnd).map .ofList := by
  unfold upcoming? slice?
  by_cases h : r.cursor + r.ahead < Numeral.wordSize
  · have hend := stretchEnd_of_lt h
    have htake : (r.pieces.drop r.cursor).take (r.stretchEnd - r.cursor) =
        (r.pieces.drop r.cursor).take r.ahead := by
      rw [List.take_eq_take_iff, List.length_drop]
      omega
    rw [if_pos h, if_pos (by omega), htake, Option.map_some]
  · have hend := stretchEnd_lt_cursor ha (Nat.le_of_not_lt h)
    rw [if_neg h, if_neg (by omega), Option.map_none]

lemma slice?_cons {r : Reader} (hc : r.cursor < r.pieces.length) (hpos : 0 < r.ahead)
    (h : r.cursor + r.ahead < Numeral.wordSize) :
    ∃ q rest, r.pieces[r.cursor]? = some q ∧ slice? r.pieces r.cursor r.stretchEnd =
    some (q :: rest) := by
  have hend := stretchEnd_of_lt h
  obtain ⟨n, hn⟩ : ∃ n, r.stretchEnd - r.cursor = n + 1 := ⟨r.stretchEnd - r.cursor - 1, by omega⟩
  refine ⟨r.pieces[r.cursor], (r.pieces.drop (r.cursor + 1)).take n,
    List.getElem?_eq_getElem hc, ?_⟩
  rw [slice?, if_pos (by omega), hn, List.drop_eq_getElem_cons hc, List.take_succ_cons]

lemma upcoming?_eq_none {r : Reader} : r.upcoming? = none ↔
    Numeral.wordSize ≤ r.cursor + r.ahead := by
  unfold upcoming?
  split_ifs with h <;> simp <;> omega

end Reader

namespace Services

variable {σ : Type} [Engine σ]

/-! ### What one call does to a reader -/

/-- The reader goes on reading the same, and its cursor passes one piece at most. -/
structure Forward (r r' : Reader) : Prop where
  kin : r.Kin r'
  cursor : r'.cursor = r.cursor ∨ r.cursor < r.pieces.length ∧ r'.cursor = r.cursor + 1

lemma Forward.still {r r' : Reader} (hk : r.Kin r') (hc : r'.cursor = r.cursor) : Forward r r' :=
  ⟨hk, .inl hc⟩

lemma Forward.within {r r' : Reader} (h : Forward r r') (hc : r.cursor ≤ r.pieces.length) :
    r'.cursor ≤ r'.pieces.length := by
  rw [h.kin.pieces]
  rcases h.cursor with heq | ⟨hlt, heq⟩ <;> omega

/-- A reader whose cursor stays is asked again: the two together go no further than the second. -/
lemma Forward.after {r r' r'' : Reader} (h : Forward r' r'') (hk : r.Kin r')
    (hc : r'.cursor = r.cursor) :
    Forward r r'' := by
  refine ⟨hk.trans h.kin, ?_⟩
  rw [← hc, ← hk.pieces]
  exact h.cursor

lemma forward_failReader {p : Pipeline σ} {id : Nat} {r : Reader} (hr : p.readers.get? id = some r)
    (e : PieceError) : ∃ r', (p.failReader id e).2.readers.get? id = some r' ∧ r.Kin r' ∧
      r'.cursor = r.cursor := by
  rw [failReader_snd hr]
  exact ⟨_, get?_endReader (get?_putReader_self p id _),
    (r.kin_marked e).trans (Reader.kin_ended _), rfl⟩

lemma forward_readOnce {p : Pipeline σ} {id : Nat} {r : Reader} (hr : p.readers.get? id = some r) :
    ∃ r', (p.readOnce id).2.readers.get? id = some r' ∧ Forward r r' ∧
      (p.readOnce id).1 ≠ some .overflow ∧ ((p.readOnce id).1 = none → r'.cursor = r.cursor) := by
  unfold Pipeline.readOnce
  simp only [hr]
  rcases hs : r.serve? with _ | ⟨e | d, r₁⟩
  · have hreaders : ∀ sub, (p.pollSubscription sub).2.readers.get? id = some r := fun _ => hr
    have hget := hreaders r.subscription
    rcases hp : p.pollSubscription r.subscription with ⟨_ | e | a, p'⟩ <;> rw [hp] at hget
    · exact ⟨r, hget, .still (.refl r) rfl, by simp, by simp⟩
    · obtain ⟨r', hr', hk, hc⟩ := forward_failReader hget (.ofDelivery e)
      exact ⟨r', hr', .still hk hc, by simp [Pipeline.failReader], fun _ => hc⟩
    · rcases ht : r.take a with e | r₁
      · obtain ⟨r', hr', hk, hc⟩ := forward_failReader hget e
        simp only [ht]
        exact ⟨r', hr', .still hk hc, by simp [Pipeline.failReader], fun _ => hc⟩
      · obtain ⟨ready, rfl⟩ := Reader.take_ok ht
        simp only [ht]
        exact ⟨_, get?_putReader_self p' id _, .still (Reader.kin_take ht) rfl, by simp,
          fun _ => rfl⟩
  · obtain ⟨rfl, q, -, hq, -⟩ := Reader.serve_error hs
    have hlt : r.cursor < r.pieces.length := (List.getElem?_eq_some_iff.mp hq).1
    obtain ⟨r', hr', hk, hc⟩ := forward_failReader
      (get?_putReader_self p id { r with cursor := r.cursor + 1 }) e
    have hk₁ : r.Kin { r with cursor := r.cursor + 1 } := ⟨rfl, rfl, rfl, rfl, rfl⟩
    exact ⟨r', hr', ⟨hk₁.trans hk, .inr ⟨hlt, hc⟩⟩, by simp [Pipeline.failReader],
      by simp [Pipeline.failReader]⟩
  · obtain ⟨rfl, hq, -⟩ := Reader.serve_ok hs
    have hlt : r.cursor < r.pieces.length := (List.getElem?_eq_some_iff.mp hq).1
    exact ⟨_, get?_putReader_self p id _, ⟨⟨rfl, rfl, rfl, rfl, rfl⟩, .inr ⟨hlt, rfl⟩⟩,
      by simp, by simp⟩

lemma forward_readOn (fuel : Nat) {id : Nat} {p : Pipeline σ} {r : Reader}
    (hr : p.readers.get? id = some r) :
    ∃ r', (p.readOn fuel id).2.readers.get? id = some r' ∧ Forward r r' ∧
      (p.readOn fuel id).1 ≠ .overflow := by
  induction fuel generalizing p r with
  | zero => exact ⟨r, hr, .still (.refl r) rfl, by simp [Pipeline.readOn]⟩
  | succ fuel ih =>
    obtain ⟨r₁, hr₁, hon, hanswer, hstill⟩ := forward_readOnce hr
    unfold Pipeline.readOn
    rcases hp : p.readOnce id with ⟨_ | answer, p'⟩ <;> rw [hp] at hr₁ hanswer hstill
    · obtain ⟨r', hr', hon', hne⟩ := ih hr₁
      exact ⟨r', hr', hon'.after hon.kin (hstill rfl), hne⟩
    · exact ⟨r₁, hr₁, hon, fun h => hanswer (congrArg some h)⟩

/-- **What one call does to a reader**: its cursor passes one piece at most, and the call ends in an
overflow exactly if it has to compute the end of a stretch that is no number of 64 bits. -/
theorem forward_pollReader {p : Pipeline σ} {id : Nat} {r : Reader}
    (hr : p.readers.get? id = some r) :
    (∃ r', (p.pollReader id).2.readers.get? id = some r' ∧ Forward r r') ∧
      ((p.pollReader id).1 = .overflow ↔
        r.finished = false ∧ r.cursor < r.pieces.length ∧
        Numeral.wordSize ≤ r.cursor + r.ahead) := by
  unfold Pipeline.pollReader
  simp only [hr]
  by_cases hf : r.finished = true
  · simp only [hf, if_true]
    exact ⟨⟨r, hr, .still (.refl r) rfl⟩, by simp⟩
  have hf' : r.finished = false := by simpa using hf
  simp only [hf', Bool.false_eq_true, if_false]
  by_cases hc : r.pieces.length ≤ r.cursor
  · simp only [hc, if_true]
    exact ⟨⟨_, get?_endReader hr, .still (Reader.kin_ended r) rfl⟩, by simp; omega⟩
  simp only [hc, if_false]
  rcases hu : r.upcoming? with _ | pieces
  · exact ⟨⟨r, hr, .still (.refl r) rfl⟩,
      by simpa [Nat.lt_of_not_le hc] using Reader.upcoming?_eq_none.mp hu⟩
  have hfits : ¬ Numeral.wordSize ≤ r.cursor + r.ahead := fun hle => by
    rw [Reader.upcoming?_eq_none.mpr hle] at hu
    cases hu
  have hnever : ∀ {answer : Polled (Except PieceError PieceData)}, answer ≠ .overflow →
      (answer = .overflow ↔ True ∧ r.cursor < r.pieces.length ∧
        Numeral.wordSize ≤ r.cursor + r.ahead) :=
    fun hne => iff_of_false hne fun hall => hfits hall.2.2
  rcases hn : Reader.negative? pieces with _ | q
  · simp only [hn]
    have hslid := get?_slid hr pieces
    have hk := r.kin_wanting pieces
    have hcur := r.cursor_wanting pieces
    rcases hm : p.slideReader id r pieces with ⟨_ | e, p'⟩ <;> rw [hm] at hslid
    · obtain ⟨r', hr', hon, hne⟩ := forward_readOn (p'.hub.backlog r.subscription + 1) hslid
      exact ⟨⟨r', hr', hon.after hk hcur⟩, hnever hne⟩
    · obtain ⟨r', hr', hk', hc'⟩ := forward_failReader hslid e
      exact ⟨⟨r', hr', .still (hk.trans hk') (hc'.trans hcur)⟩,
        hnever (by simp [Pipeline.failReader])⟩
  · simp only [hn]
    obtain ⟨r', hr', hk, hc'⟩ := forward_failReader hr (.outOfRange q)
    exact ⟨⟨r', hr', .still hk hc'⟩, hnever (by simp [Pipeline.failReader])⟩

/-! ### Lives of readers -/

/-- Reader `id` from its begin on, whatever happens to the rest of the pipeline and to the
engine. -/
inductive Life (settings : Settings) (pieces : List Piece) (id : Nat) : Pipeline σ → Prop
  | read {p : Pipeline σ} (handle : Handle) (hsettings : p.settings = settings)
      (hid : (p.read handle pieces).1 = id) : Life settings pieces id (p.read handle pieces).2
  | next {p : Pipeline σ} (h : Life settings pieces id p) :
      Life settings pieces id (p.pollReader id).2
  /-- Anything that leaves this one reader alone. -/
  | aside {p q : Pipeline σ} (h : Life settings pieces id p)
      (hq : q.readers.get? id = p.readers.get? id) : Life settings pieces id q

lemma readWindow_pos {settings : Settings} (h : settings.validate = .ok ()) :
    0 < settings.readWindow := by
  unfold Settings.validate at h
  split_ifs at h with _ _ hzero
  omega

theorem kept_life {settings : Settings} (hvalid : settings.validate = .ok ())
    {pieces : List Piece} {id : Nat} {p : Pipeline σ} (h : Life settings pieces id p) :
    ∃ r, p.readers.get? id = some r ∧
      r.pieces = pieces ∧ r.ahead = settings.readWindow ∧ r.cursor ≤ r.pieces.length := by
  induction h with
  | @read p handle hsettings hid =>
    have hpos := readWindow_pos hvalid
    subst hsettings hid
    exact ⟨_, get?_putReader_self _ _ _, rfl, Nat.max_eq_left hpos, Nat.zero_le _⟩
  | next _ ih =>
    obtain ⟨r, hr, hpieces, hahead, hc⟩ := ih
    obtain ⟨⟨r', hr', hon⟩, -⟩ := forward_pollReader hr
    exact ⟨r', hr', hon.kin.pieces.trans hpieces, hon.kin.ahead.trans hahead, hon.within hc⟩
  | aside _ hq ih =>
    obtain ⟨r, hr, hkept⟩ := ih
    exact ⟨r, hq.trans hr, hkept⟩

lemma Life.called {settings : Settings} {pieces : List Piece} {id : Nat} {p : Pipeline Simulated}
    (h : Life settings pieces id p) (c : EngineCall) :
    Life settings pieces id { p with engine := c.apply p.engine } := h.aside rfl

lemma Life.turned {settings : Settings} {pieces : List Piece} {id : Nat} {p : Pipeline Simulated}
    (h : Life settings pieces id p) (hstep : (p.pumpStep 0).isSome = true) :
    Life settings pieces id (Services.turned p) :=
  h.aside (congrArg (·.get? id) (Delivery.step_beside (Delivery.step_pumpStep p hstep)).readers)

lemma eq_overflow {α : Type} {answer : Polled α} (h : (match answer with
    | .overflow => true
    | _ => false) = true) : answer = .overflow := by
  cases answer <;> first | rfl | cases h

/-- **The stretch of a reader lies within its request as long as its end can be computed**, for
every engine, every request and every settings that pass the check. What is wanted next is the slice
from the cursor to the end, and:

* if the sum of cursor and window is a number of 64 bits, the end lies between the cursor and the
  end of the request, and while there is something left to read the slice begins with the piece at
  the cursor;
* if it is not, the word that is left of it lies before the cursor, and there is no such slice;
* a call ends in an overflow exactly if there is something left to read and the sum is too large, so
  never if the whole request and one window together are not too long. -/
theorem stretch_in_bounds {settings : Settings} (hvalid : settings.validate = .ok ())
    (hword : settings.readWindow < Numeral.wordSize) {pieces : List Piece} {id : Nat}
    {p : Pipeline σ} (h : Life settings pieces id p) : ∃ r, p.readers.get? id = some r ∧
    r.pieces = pieces ∧
      r.cursor ≤ pieces.length ∧
      r.upcoming? = (slice? pieces r.cursor r.stretchEnd).map .ofList ∧
      (r.cursor + settings.readWindow < Numeral.wordSize →
        r.stretchEnd = min (r.cursor + settings.readWindow) pieces.length ∧
          r.cursor ≤ r.stretchEnd ∧ r.stretchEnd ≤ pieces.length ∧
          (r.cursor < pieces.length → ∃ q rest, pieces[r.cursor]? = some q ∧
            slice? pieces r.cursor r.stretchEnd = some (q :: rest))) ∧
      (Numeral.wordSize ≤ r.cursor + settings.readWindow →
        r.stretchEnd < r.cursor ∧ slice? pieces r.cursor r.stretchEnd = none) ∧
      ((p.pollReader id).1 = .overflow ↔ r.finished = false ∧ r.cursor < pieces.length ∧
        Numeral.wordSize ≤ r.cursor + settings.readWindow) ∧
      (pieces.length + settings.readWindow ≤ Numeral.wordSize →
        (p.pollReader id).1 ≠ .overflow) := by
  obtain ⟨r, hr, rfl, hahead, hc⟩ := kept_life hvalid h
  obtain ⟨-, hover⟩ := forward_pollReader hr
  have hpos := readWindow_pos hvalid
  rw [← hahead] at hword hpos ⊢
  refine ⟨r, hr, rfl, hc, Reader.upcoming?_eq_slice hc hword, fun hfits => ?_,
    fun hlarge => ?_, hover, fun hshort hover' => ?_⟩
  · have hend := Reader.stretchEnd_of_lt hfits
    exact ⟨hend, by omega, by omega, fun hlt => Reader.slice?_cons hlt hpos hfits⟩
  · have hend := Reader.stretchEnd_lt_cursor hword hlarge
    exact ⟨hend, if_neg (by omega)⟩
  · obtain ⟨-, hlt, hlarge⟩ := hover.mp hover'
    omega

/-- With a window of the usual size a new reader of two pieces wants both. -/
theorem stretch_in_bounds_film : ∃ (p : Pipeline Simulated) (r : Reader),
    ({} : Settings).validate = .ok () ∧ Life {} [⟨0⟩, ⟨1⟩] 0 p ∧ p.readers.get? 0 = some r ∧
      slice? [(⟨0⟩ : Piece), ⟨1⟩] r.cursor r.stretchEnd = some [⟨0⟩, ⟨1⟩] ∧
      (p.pollReader 0).1 ≠ .overflow := by
  let p : Pipeline Simulated := { engine := {}, settings := {} }
  have hlife : Life {} [⟨0⟩, ⟨1⟩] 0 (p.read ⟨0, 1⟩ [⟨0⟩, ⟨1⟩]).2 := .read ⟨0, 1⟩ rfl rfl
  obtain ⟨r, hr, -, -, -, -, -, -, hnever⟩ := stretch_in_bounds rfl (by decide) hlife
  cases hr
  exact ⟨_, _, rfl, hlife, rfl, rfl, hnever (by decide)⟩

/-- An environment can ask for the largest window that there is, and it passes the check. A reader
of two pieces with it is asked, gets its first piece and yields it, and the next call ends in an
overflow. -/
theorem stretch_overflows : ∃ (environment : String → Option String) (settings : Settings)
    (p : Pipeline Simulated), (Settings.ofEnvironment environment).1 = settings ∧
      settings.validate = .ok () ∧ settings.readWindow < Numeral.wordSize ∧
      Life settings [⟨0⟩, ⟨1⟩] 0 p ∧
      (p.pollReader 0).1 = .overflow := by
  let settings : Settings := { readWindow := Numeral.wordSize - 1 }
  let start := (Pipeline.start settings ({} : Simulated)).toOption.getD (.assemble settings {})
  let added : EngineCall := .add "film" [[7], [8]] .downloading
  let p₁ : Pipeline Simulated := { start with engine := added.apply start.engine }
  let p₂ := ((p₁.read ⟨0, 1⟩ [⟨0⟩, ⟨1⟩]).2.pollReader 0).2
  let p₃ : Pipeline Simulated := { p₂ with engine := (EngineCall.feed ⟨0, 1⟩ ⟨0⟩).apply p₂.engine }
  let p₄ := ((turned (turned (turned p₃))).pollReader 0).2
  have hasked : Life settings [⟨0⟩, ⟨1⟩] 0 p₂ :=
    .next (.read (p := p₁) ⟨0, 1⟩ (by decide +kernel) (by decide +kernel))
  have hgot : Life settings [⟨0⟩, ⟨1⟩] 0 p₄ :=
    .next ((((hasked.called (.feed ⟨0, 1⟩ ⟨0⟩)).turned (by decide +kernel)).turned
      (by decide +kernel)).turned (by decide +kernel))
  exact ⟨fun name => if name = Settings.readWindowVariable then
    some "18446744073709551615" else none,
    settings, p₄, by decide +kernel, rfl, by decide, hgot, eq_overflow (by decide +kernel)⟩

end Services

end TorrentFlow
