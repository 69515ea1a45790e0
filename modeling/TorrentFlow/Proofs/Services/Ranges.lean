import TorrentFlow.Proofs.Services.Latecomers
import TorrentFlow.Proofs.Services.Promises
import TorrentFlow.Proofs.Services.Stretches
import TorrentFlow.Proofs.Services.Yields
import TorrentFlow.Proofs.Waiting.Bounds

/-!
What whoever asks for pieces that a torrent does not have is told. A waiter is refused at once, by
the list. A reader finds out when its window comes to the first of them. It has yielded what comes
before the window by then, and a negative piece it refuses itself; a piece past the last one is left
to the engine, which refuses it in words of its own, so that the two are not told the same.
-/

namespace TorrentFlow

/-- A torrent of `n` pieces has this one. -/
def Piece.InRange (n : Nat) (x : Piece) : Prop := 0 ≤ x.index ∧ x.index < n

instance (n : Nat) (x : Piece) : Decidable (x.InRange n) :=
  inferInstanceAs (Decidable (0 ≤ x.index ∧ x.index < n))

lemma Simulated.lack_of_tracked {s : Simulated} {h : Handle} {t : SimulatedTorrent}
    (ht : s.torrent? h = some t) (x : Piece) :
    s.lack h x = if x.InRange t.payloads.length then
    none else some (.engine (.invalidPiece x)) := by
  have hhas : (t.position? x).isSome = true ↔ x.InRange t.payloads.length := hasPiece_iff
  simp only [Simulated.lack, ht, hhas]

lemma Reader.negative?_eq (pieces : OrderedSet Piece) :
    negative? pieces = pieces.elements.find? fun x => decide (x.index < 0) := by
  simp only [negative?, isNone_position?]

/-- The pieces that a reader wants next, in the order of the request. -/
def Reader.stretch (r : Reader) : List Piece := (r.pieces.drop r.cursor).take r.ahead

namespace Services

/-! ### How a reader fails -/

/-- Of the pieces that are so, the one with the smallest index. -/
structure Least (P : Piece → Prop) (stretch : List Piece) (x : Piece) : Prop where
  mem : x ∈ stretch
  holds : P x
  least : ∀ y ∈ stretch, P y → x.index ≤ y.index

/-- How a reader fails that comes to want pieces of which some are out of range: a negative piece
goes before the others, and otherwise the engine finds the first that is past the last one. -/
inductive RangeError (n : Nat) (stretch : List Piece) : PieceError → Prop
  | negative {x : Piece} (h : Least (·.index < 0) stretch x) : RangeError n stretch (.outOfRange x)
  | beyond {x : Piece} (hn : ∀ y ∈ stretch, 0 ≤ y.index)
      (h : Least (fun y => (n : Int) ≤ y.index) stretch x) :
    RangeError n stretch (.engine (.invalidPiece x))

/-- Any other way for a reader to fail. -/
inductive Mishap (trace : List Event) (engine : Simulated) (h : Handle) (pieces : List Piece) :
    PieceError → Prop
  | gone (hnone : engine.torrent? h = none) : Mishap trace engine h pieces .handleInvalid
  | stopped : Mishap trace engine h pieces (.delivery .shutdown)
  | unread {x : Piece} {e : EngineError} (hx : x ∈ pieces) (hf : Failed trace h x e) :
    Mishap trace engine h pieces (.ofEngine e)

lemma RangeError.bad {n : Nat} {stretch : List Piece} {e : PieceError}
    (h : RangeError n stretch e) :
    ∃ x ∈ stretch, ¬ x.InRange n := by
  cases h with
  | negative h => exact ⟨_, h.mem, fun hx => Int.not_lt.mpr hx.1 h.holds⟩
  | beyond _ h => exact ⟨_, h.mem, fun hx => Int.not_lt.mpr h.holds hx.2⟩

/-- **The fault is laid at the user's door only if a piece of the stretch is negative.** -/
lemma RangeError.isUserError_iff {n : Nat} {stretch : List Piece} {e : PieceError}
    (h : RangeError n stretch e) :
    (Failure.piece e).isUserError = true ↔ ∃ x ∈ stretch, x.index < 0 := by
  cases h with
  | negative h => exact iff_of_true rfl ⟨_, h.mem, h.holds⟩
  | beyond hn h =>
    exact iff_of_false Bool.false_ne_true fun ⟨x, hx, hneg⟩ => Int.not_lt.mpr (hn x hx) hneg

lemma Mishap.mono {trace trace' : List Event} {engine engine' : Simulated} {h : Handle}
    {pieces : List Piece} {e : PieceError} (hm : Mishap trace engine h pieces e)
    (hgone : engine.torrent? h = none → engine'.torrent? h = none)
    (hfailed : ∀ x e, Failed trace h x e → Failed trace' h x e) :
    Mishap trace' engine' h pieces e := by
  cases hm with
  | gone hnone => exact .gone (hgone hnone)
  | stopped => exact .stopped
  | unread hx hf => exact .unread hx (hfailed _ _ hf)

lemma least_of_split {s : OrderedSet Piece} (hs : s.Sorted) {l : List Piece}
    (hl : ∀ x, x ∈ s ↔ x ∈ l) {P : Piece → Prop} {before after : List Piece} {x : Piece}
    (hsplit : s.elements = before ++ x :: after) (hx : P x) (hbefore : ∀ y ∈ before, ¬ P y) :
    Least P l x := by
  refine ⟨(hl x).mp ?_, hx, fun y hy hP => ?_⟩
  · rw [OrderedSet.mem_def, hsplit]
    simp
  · have hpair : List.Pairwise (· < ·) (before ++ x :: after) := hsplit ▸ hs
    have hmem : y ∈ before ++ x :: after := hsplit ▸ OrderedSet.mem_def.mp ((hl y).mpr hy)
    rcases List.mem_append.mp hmem with hmem | hmem
    · exact absurd hP (hbefore y hmem)
    · rcases List.mem_cons.mp hmem with rfl | hmem
      · exact Int.le_refl _
      · have hlt : x < y := (List.pairwise_cons.mp (List.pairwise_append.mp hpair).2.1).1 y hmem
        exact Int.le_of_lt hlt

lemma least_negative {l : List Piece} {x : Piece} (h : Reader.negative? (.ofList l) = some x) :
    Least (·.index < 0) l x := by
  rw [Reader.negative?_eq] at h
  obtain ⟨hx, before, after, hsplit, hbefore⟩ := List.find?_eq_some_iff_append.mp h
  refine least_of_split (OrderedSet.sorted_ofList l) (fun y => OrderedSet.mem_ofList) hsplit
    (by simpa using hx) ?_
  simpa using hbefore

lemma nonneg_of_negative? {l : List Piece} (h : Reader.negative? (.ofList l) = none) :
    ∀ y ∈ l, 0 ≤ y.index := by
  intro y hy
  rw [Reader.negative?_eq] at h
  simpa using List.find?_eq_none.mp h y (OrderedSet.mem_def.mp (OrderedSet.mem_ofList.mpr hy))

/-! ### One call -/

section Call

variable {trace : List Event} {p q : Pipeline Simulated} {id n : Nat} {r : Reader}

/-- What is known of a reader that goes on. -/
structure Ranged (n : Nat) (p : Pipeline Simulated) (r : Reader) : Prop where
  torrent : ∀ t, p.engine.torrent? r.handle = some t → t.payloads.length = n
  current : ∀ x ∈ r.current, x.InRange n

lemma inRange_of_slide (hst : Staffed p) (hr : p.readers.get? id = some r) (hk : Ranged n p r)
    {pieces : OrderedSet Piece} (hm : (p.slideReader id r pieces).1 = none) :
    ∀ x ∈ pieces, x.InRange n := by
  intro x hx
  by_cases hsame : pieces = r.current
  · exact hk.current x (hsame ▸ hx)
  by_cases hold : x ∈ r.current
  · exact hk.current x hold
  obtain ⟨w, hh, hfail, -⟩ := slide_spec hst hr hsame
  obtain ⟨t, ht, hhas⟩ := w.has_of_delta r.current pieces p.engine (hfail.symm.trans hm) hx hold
  rw [hh] at ht
  exact hk.torrent t ht ▸ hasPiece_iff.mp hhas

/-- A window that cannot be slid was to be slid to a piece past the last one, or the torrent is
gone. -/
lemma error_of_slide (hst : Staffed p) (hr : p.readers.get? id = some r) (hk : Ranged n p r)
    (hn : Reader.negative? (.ofList r.stretch) = none) {e : PieceError}
    (hm : (p.slideReader id r (.ofList r.stretch)).1 = some e) :
    (∃ t, p.engine.torrent? r.handle = some t) ∧ RangeError n r.stretch e ∨
      p.engine.torrent? r.handle = none ∧ e = .handleInvalid := by
  have hne : (.ofList r.stretch : OrderedSet Piece) ≠ r.current := fun hsame => by
    rw [Pipeline.slideReader, if_pos hsame] at hm
    cases hm
  obtain ⟨w, hh, hfail, -⟩ := slide_spec hst hr hne
  rw [hm] at hfail
  rcases ht : p.engine.torrent? r.handle with _ | t
  · -- the torrent is gone
    rw [← hh] at ht
    exact .inr ⟨rfl, w.failure_delta_gone r.current _ _ ht hfail.symm⟩
  · obtain rfl := hk.torrent t ht
    refine .inl ⟨⟨t, rfl⟩, ?_⟩
    have hlack := Simulated.lack_of_tracked ht
    rw [← hh] at hlack
    have hold : ∀ x ∈ r.current, p.engine.lack w.handle x = none := fun x hx => by
      rw [hlack, if_pos (hk.current x hx)]
    rw [w.failure_delta_first _ _ _ hold] at hfail
    obtain ⟨before, x, after, hsplit, hx, hbefore⟩ := List.findSome?_eq_some_iff.mp hfail.symm
    have hnonneg := nonneg_of_negative? hn
    have hmem : ∀ y ∈ before ++ x :: after, y ∈ r.stretch := fun y hy => by
      rw [← hsplit] at hy
      exact OrderedSet.mem_ofList.mp hy
    rw [hlack] at hx
    split_ifs at hx with hin
    obtain rfl := Option.some.inj hx
    -- the pieces ascend, so that the first one that fails is the least past the last piece
    refine .beyond hnonneg (least_of_split (OrderedSet.sorted_ofList _)
      (fun y => OrderedSet.mem_ofList) hsplit ?_ fun y hy hle => ?_)
    · have hpos := hnonneg x (hmem x (by simp))
      exact Int.not_lt.mp fun hlt => hin ⟨hpos, hlt⟩
    · have hnone := hbefore y hy
      rw [hlack] at hnone
      split_ifs at hnone with hiny
      exact absurd hiny.2 (Int.not_lt.mpr hle)

/-- Reading on fails for other reasons only. -/
lemma mishap_reading {answer : Polled (Except PieceError PieceData)} (h : Reading id p answer q) :
    ∀ r e, p.readers.get? id = some r → Briefed trace p r → answer = .item (.error e) →
      Mishap trace p.engine r.handle r.pieces e := by
  induction h with
  | served | waited =>
    intro _ _ _ _ ha
    cases ha
  | @soured p r₀ r' e hr hs =>
    intro r e' hr' hb ha
    obtain rfl := Option.some.inj (hr.symm.trans hr')
    cases ha
    obtain ⟨-, x, err, hx, hready, rfl⟩ := Reader.serve_error hs
    exact .unread (List.mem_of_getElem? hx) (hb.stocked x (.error err) hready)
  | @failed p r₀ e hr hs hp =>
    intro r e' hr' hb ha
    obtain rfl := Option.some.inj (hr.symm.trans hr')
    cases ha
    rcases hb.heeds.told hp with rfl | ⟨rfl, hnone⟩
    · exact .stopped
    · exact .gone hnone
  | @ousted p r₀ a e hr hs hp ht =>
    intro r e' hr' hb ha
    obtain rfl := Option.some.inj (hr.symm.trans hr')
    cases ha
    rw [(Reader.take_error ht).1]
    exact .gone (gone_of_take hb.steady hr hp ht)
  | @took p q r₀ r' a answer hr hs hp ht h ih =>
    intro r e hr' hb ha
    obtain rfl := Option.some.inj (hr.symm.trans hr')
    have hnext := hb.took hr hp ht
    obtain ⟨ready, rfl⟩ := Reader.take_ok ht
    have hrest := ih { r₀ with ready } e (get?_putReader_self _ _ _) hnext ha
    exact hrest

lemma gone_of_slid (hr : p.readers.get? id = some r) (pieces : OrderedSet Piece) {h : Handle}
    (hnone : (p.slideReader id r pieces).2.engine.torrent? h = none) :
    p.engine.torrent? h = none := by
  have hslide : Attended id r.subscription p (p.slideReader id r pieces).2 := .slideReader hr pieces
  obtain ⟨notes, hrun, hown⟩ := hslide.run
  exact ((tended_run hrun fun note hn => (hown note hn).discreet).none_iff h).mp hnone

lemma Stocked.wanting (hst : Stocked (Added trace) (Failed trace) r) (pieces : OrderedSet Piece) :
    Stocked (Added trace) (Failed trace) (r.wanting pieces) := by
  unfold Reader.wanting
  split_ifs
  · exact hst
  · exact hst.slide pieces

/-- **A call that fails meets a piece out of range, or fails for another reason.** -/
theorem error_of_call (hr : p.readers.get? id = some r) (hb : Briefed trace p r) (hk : Ranged n p r)
    {e : PieceError} (ha : (p.pollReader id).1 = .item (.error e)) :
    RangeError n r.stretch e ∨ Mishap trace p.engine r.handle r.pieces e := by
  have hpolls := polls_pollReader hr
  rw [ha] at hpolls
  generalize (p.pollReader id).2 = q at hpolls
  cases hpolls with
  | refused hf hc hu hn =>
    obtain rfl := Reader.upcoming?_eq hu
    exact .inl (.negative (least_negative hn))
  | slipped hf hc hu hn hm =>
    obtain rfl := Reader.upcoming?_eq hu
    rcases error_of_slide hb.steady.staffed hr hk hn hm with ⟨-, hrange⟩ | ⟨hnone, rfl⟩
    · exact .inl hrange
    · exact .inr (.gone hnone)
  | @went hf hc pieces hu hn hm answer q h =>
    have hslide : Attended id r.subscription p (p.slideReader id r pieces).2 :=
      .slideReader hr pieces
    have hkin := r.kin_wanting pieces
    have hbrief := hb.attended hr hslide hkin (hb.stocked.wanting pieces)
    have hmishap := mishap_reading h _ e (get?_slid hr pieces) hbrief rfl
    rw [hkin.handle, hkin.pieces] at hmishap
    refine .inr ?_
    cases hmishap with
    | gone hnone => exact .gone (gone_of_slid hr pieces hnone)
    | stopped => exact .stopped
    | unread hx hf => exact .unread hx hf

/-- A call that does not fail was for pieces that there are. -/
theorem inRange_of_call (hst : Staffed p) (hr : p.readers.get? id = some r) (hk : Ranged n p r)
    (hlive : r.finished = false) (hwithin : r.cursor < r.pieces.length) {pieces : OrderedSet Piece}
    (hu : r.upcoming? = some pieces) (ha : ∀ e, (p.pollReader id).1 ≠ .item (.error e)) :
    ∀ x ∈ pieces, x.InRange n := by
  have hpolls := polls_pollReader hr
  generalize (p.pollReader id).1 = answer at hpolls ha
  generalize (p.pollReader id).2 = q at hpolls
  cases hpolls with
  | past hf => exact absurd (hlive.symm.trans hf) Bool.false_ne_true
  | ended hf hc => exact absurd hc (Nat.not_le.mpr hwithin)
  | overflow hf hc hu' =>
    rw [hu] at hu'
    cases hu'
  | refused => exact absurd rfl (ha _)
  | slipped => exact absurd rfl (ha _)
  | went hf hc hu' hn hm h =>
    obtain rfl := Option.some.inj (hu.symm.trans hu')
    exact inRange_of_slide hst hr hk hm

/-- **A call for pieces of which one is out of range fails for it**, as long as the torrent is
there. -/
theorem fails_of_call (hst : Staffed p) (hr : p.readers.get? id = some r) (hk : Ranged n p r)
    (hlive : r.finished = false) (hwithin : r.cursor < r.pieces.length)
    (hword : r.cursor + r.ahead < Numeral.wordSize) (ht : p.engine.torrent? r.handle ≠ none)
    (hbad : ∃ x ∈ r.stretch, ¬ x.InRange n) :
    ∃ e, (p.pollReader id).1 = .item (.error e) ∧ RangeError n r.stretch e := by
  have hu : r.upcoming? = some (.ofList r.stretch) := if_pos hword
  obtain ⟨x, hx, hout⟩ := hbad
  -- a call that does not fail has been over all of the stretch
  by_cases ha : ∀ e, (p.pollReader id).1 ≠ .item (.error e)
  · exact absurd (inRange_of_call hst hr hk hlive hwithin hu ha x
      (OrderedSet.mem_ofList.mpr hx)) hout
  simp only [not_forall, not_not] at ha
  obtain ⟨e, ha⟩ := ha
  refine ⟨e, ha, ?_⟩
  have hpolls := polls_pollReader hr
  rw [ha] at hpolls
  generalize (p.pollReader id).2 = q at hpolls
  cases hpolls with
  | refused hf hc hu' hn =>
    obtain rfl := Option.some.inj (hu.symm.trans hu')
    exact .negative (least_negative hn)
  | slipped hf hc hu' hn hm =>
    obtain rfl := Option.some.inj (hu.symm.trans hu')
    exact ((error_of_slide hst hr hk hn hm).resolve_right fun hgone => ht hgone.1).2
  | went hf hc hu' hn hm h =>
    obtain rfl := Option.some.inj (hu.symm.trans hu')
    exact absurd (inRange_of_slide hst hr hk hm x (OrderedSet.mem_ofList.mpr hx)) hout

end Call

/-! ### How far a window comes -/

/-- How many pieces come before a window of `w` pieces that meets one out of range. -/
def reach (n w : Nat) (pieces : List Piece) : Nat :=
  pieces.findIdx (fun x => !decide (x.InRange n)) + 1 - w

/-- The pieces of the window that meets one out of range. -/
def meeting (n w : Nat) (pieces : List Piece) : List Piece :=
  (pieces.drop (reach n w pieces)).take w

section Reach

variable {n w k : Nat} {pieces : List Piece}

lemma findIdx_lt (hbad : ∃ x ∈ pieces, ¬ x.InRange n) :
    pieces.findIdx (fun x => !decide (x.InRange n)) < pieces.length :=
  List.findIdx_lt_length.mpr (by simpa using hbad)

lemma lt_reach (hbad : ∃ x ∈ pieces, ¬ x.InRange n) (hw : 0 < w) (hk : k ≤ reach n w pieces)
    (hall : ∀ x ∈ (pieces.drop k).take w, x.InRange n) : k < reach n w pieces := by
  have hlt := findIdx_lt hbad
  have hout := List.findIdx_getElem (w := hlt)
  unfold reach at *
  generalize pieces.findIdx (fun x => !decide (x.InRange n)) = j at *
  by_contra hle
  have hmem : pieces[j] ∈ (pieces.drop k).take w := by
    refine List.mem_iff_getElem.mpr ⟨j - k, ?_, ?_⟩
    · rw [List.length_take, List.length_drop]
      omega
    · rw [List.getElem_take, List.getElem_drop]
      congr 1
      omega
  simp [hall _ hmem] at hout

/-- Where the window meets one it has come as far as it can. -/
lemma eq_reach (hk : k ≤ reach n w pieces) (hbad : ∃ x ∈ (pieces.drop k).take w, ¬ x.InRange n) :
    k = reach n w pieces := by
  obtain ⟨x, hx, hout⟩ := hbad
  obtain ⟨i, hi, rfl⟩ := List.mem_iff_getElem.mp hx
  rw [List.length_take, List.length_drop] at hi
  rw [List.getElem_take, List.getElem_drop] at hout
  have hle : pieces.findIdx (fun x => !decide (x.InRange n)) ≤ k + i :=
    Nat.not_lt.mp fun hlt => by simpa [hout] using List.not_of_lt_findIdx hlt
  unfold reach at *
  omega

/-- And where it has come so far it meets one. -/
lemma meets_of_reach (hbad : ∃ x ∈ pieces, ¬ x.InRange n) (hw : 0 < w) :
    ∃ x ∈ meeting n w pieces, ¬ x.InRange n := by
  by_contra hnone
  have hall : ∀ x ∈ meeting n w pieces, x.InRange n := by simpa using hnone
  exact absurd (lt_reach hbad hw (Nat.le_refl _) hall) (Nat.lt_irrefl _)

lemma inRange_of_take (hw : 0 < w) (hk : k ≤ reach n w pieces) {x : Piece}
    (hx : x ∈ pieces.take k) :
    x.InRange n := by
  obtain ⟨i, hi, rfl⟩ := List.mem_iff_getElem.mp hx
  rw [List.length_take] at hi
  have hlt : i < pieces.findIdx fun x => !decide (x.InRange n) := by
    unfold reach at hk
    omega
  rw [List.getElem_take]
  simpa using List.not_of_lt_findIdx hlt

end Reach

/-! ### A reader all along -/

def errorOf : Polled (Except PieceError PieceData) → Option PieceError
  | .item (.error e) => some e
  | _ => none

def failures (id : Nat) (trace : List Event) : List PieceError :=
  (results id trace).filterMap errorOf

lemma filterMap_toList {α β : Type} (f : α → Option β) (o : Option α) :
    o.toList.filterMap f = (o.bind f).toList := by
  rcases o with _ | a
  · rfl
  · rw [Option.toList_some, List.filterMap_cons, Option.bind_some]
    rcases f a with _ | b <;> rfl

lemma yielded_append (id : Nat) (trace : List Event) (event : Event) :
    yielded id (trace ++ [event]) = yielded id trace ++
    ((event.result? id).bind pieceOf).toList := by
  rw [yielded, results_append, List.filterMap_append, filterMap_toList]
  rfl

lemma failures_append (id : Nat) (trace : List Event) (event : Event) :
    failures id (trace ++ [event]) = failures id trace ++
    ((event.result? id).bind errorOf).toList := by
  rw [failures, results_append, List.filterMap_append, filterMap_toList]
  rfl

/-- What a reader of `pieces` has given, of which some are out of range. -/
structure Sifted (n w : Nat) (trace events : List Event) (engine : Simulated) (h : Handle)
    (pieces : List Piece) (id : Nat) : Prop where
  order : (yielded id events).map (·.piece) = pieces.take (yielded id events).length
  short : (yielded id events).length ≤ reach n w pieces
  /-- It does not come to an end without an error. -/
  ended : .done ∈ results id events → failures id events ≠ []
  failed : ∀ e ∈ failures id events, (yielded id events).length = reach n w pieces ∧
    RangeError n (meeting n w pieces) e ∨ Mishap trace engine h pieces e

/-- The invariant: as long as the reader goes on, its cursor says how much it has yielded, and what
it wants is in range. -/
structure Ranging (n w : Nat) (trace events : List Event) (p : Pipeline Simulated) (h : Handle)
    (pieces : List Piece) (id : Nat) :
    Prop extends Sifted n w trace events p.engine h pieces id where
  going : ∀ r, p.readers.get? id = some r → r.finished = false →
    r.cursor = (yielded id events).length ∧ (∀ x ∈ r.current, x.InRange n) ∧ failures id events = []
  past : ∀ r, p.readers.get? id = some r → r.finished = true → failures id events ≠ []

section Run

variable {settings : Settings} {trace events : List Event} {p q : Pipeline Simulated}
  {event : Event} {h : Handle} {id sub n w : Nat} {pieces : List Piece}

/-- Of what was given out once only, everybody knows the same. -/
lemma payloads_unique (hfresh : (handlesGiven trace).Nodup) {payloads payloads' : List Payload}
    (ha : Added trace h payloads) (hb : Added trace h payloads') : payloads = payloads' := by
  induction trace with
  | nil => cases ha
  | cons event rest ih =>
    have htail : (handlesGiven rest).Nodup :=
      hfresh.sublist ((List.sublist_cons_self event rest).filterMap _)
    have hnew : ∀ {payloads payloads'}, event = .added h payloads → ¬ Added rest h payloads' := by
      rintro payloads payloads' rfl hmem
      have hnodup : (h :: handlesGiven rest).Nodup := hfresh
      exact (List.nodup_cons.mp hnodup).1 (List.mem_filterMap.mpr ⟨_, hmem, rfl⟩)
    rcases List.mem_cons.mp ha with ha | ha <;> rcases List.mem_cons.mp hb with hb | hb
    · exact (Event.added.inj (ha.trans hb.symm)).2
    · exact absurd hb (hnew ha.symm)
    · exact absurd ha (hnew hb.symm)
    · exact ih htail ha hb

lemma Sifted.heard {engine engine' : Simulated} (hk : Sifted n w trace events engine h pieces id)
    (hgone : engine.torrent? h = none → engine'.torrent? h = none)
    {result : Option (Polled (Except PieceError PieceData))} (hres : event.result? id = result)
    (hpiece : result.bind pieceOf = none) (hdone : result = some .done → failures id events ≠ [])
    (herror : ∀ e, result.bind errorOf = some e → (yielded id events).length = reach n w pieces ∧
      RangeError n (meeting n w pieces) e ∨ Mishap trace engine h pieces e) :
    yielded id (events ++ [event]) = yielded id events ∧
      Sifted n w (trace ++ [event]) (events ++ [event]) engine' h pieces id := by
  have hyielded : yielded id (events ++ [event]) = yielded id events := by
    rw [yielded_append, hres, hpiece, Option.toList_none, List.append_nil]
  refine ⟨hyielded, ?_, ?_, fun hd => ?_, fun e he => ?_⟩
  · rw [hyielded]
    exact hk.order
  · rw [hyielded]
    exact hk.short
  · rw [results_append, hres, List.mem_append, Option.mem_toList] at hd
    rw [failures_append]
    exact List.append_ne_nil_of_left_ne_nil (hd.elim hk.ended hdone) _
  · rw [failures_append, hres, List.mem_append, Option.mem_toList] at he
    rw [hyielded]
    exact (he.elim (hk.failed e) (herror e)).imp_right fun hm => hm.mono hgone
      fun _ _ hf => hf.append _

lemma Sifted.brought {engine engine' : Simulated} (hk : Sifted n w trace events engine h pieces id)
    (hgone : engine.torrent? h = none → engine'.torrent? h = none) {d : PieceData}
    (hres : event.result? id = some (.item (.ok d)))
    (hd : pieces[(yielded id events).length]? = some d.piece)
    (hlt : (yielded id events).length < reach n w pieces) :
    yielded id (events ++ [event]) = yielded id events ++ [d] ∧
      Sifted n w (trace ++ [event]) (events ++ [event]) engine' h pieces id := by
  have hyielded : yielded id (events ++ [event]) = yielded id events ++ [d] := by
    rw [yielded_append, hres]
    rfl
  have hfailures : failures id (events ++ [event]) = failures id events := by
    rw [failures_append, hres]
    exact List.append_nil _
  refine ⟨hyielded, ?_, ?_, fun hdone => ?_, fun e he => ?_⟩
  · rw [hyielded, List.map_append, hk.order, List.length_append, List.length_singleton,
      List.take_add_one, hd]
    rfl
  · rw [hyielded, List.length_append]
    exact hlt
  · rw [results_append, hres, Option.toList_some, List.mem_append, List.mem_singleton] at hdone
    rw [hfailures]
    exact hdone.elim hk.ended nofun
  · -- had it failed with a range error, it would have come so far
    rw [hfailures] at he
    rcases hk.failed e he with ⟨hfar, -⟩ | hm
    · exact absurd hfar (Nat.ne_of_lt hlt)
    · exact .inr (hm.mono hgone fun _ _ hf => hf.append _)

lemma Sifted.ranging {r : Reader} (hs : Sifted n w trace events p.engine h pieces id)
    (hr : p.readers.get? id = some r)
    (hgoing : r.finished = false → r.cursor = (yielded id events).length ∧
      (∀ x ∈ r.current, x.InRange n) ∧
      failures id events = [])
    (hpast : r.finished = true → failures id events ≠ []) :
    Ranging n w trace events p h pieces id :=
  ⟨hs, fun _ h₁ => Option.some.inj (hr.symm.trans h₁) ▸ hgoing,
    fun _ h₁ => Option.some.inj (hr.symm.trans h₁) ▸ hpast⟩

lemma Ranging.still (hk : Ranging n w trace events p h pieces id) (hres : event.result? id = none)
    (hget : ∀ r, q.readers.get? id = some r → p.readers.get? id = some r)
    (hgone : p.engine.torrent? h = none → q.engine.torrent? h = none) :
    Ranging n w (trace ++ [event]) (events ++ [event]) q h pieces id := by
  obtain ⟨hyielded, hsifted⟩ := hk.heard hgone hres rfl nofun nofun
  have hfailures : failures id (events ++ [event]) = failures id events := by
    rw [failures_append, hres]
    exact List.append_nil _
  refine ⟨hsifted, fun r hr hf => ?_, fun r hr hf => ?_⟩
  · rw [hyielded, hfailures]
    exact hk.going r (hget r hr) hf
  · rw [hfailures]
    exact hk.past r (hget r hr) hf

lemma Ranging.error_of_call {r : Reader}
    (hk : Ranging n r.ahead trace events p r.handle r.pieces id) (hr : p.readers.get? id = some r)
    (hlive : r.finished = false) (hb : Briefed trace p r) (hrg : Ranged n p r) {e : PieceError}
    (ha : (p.pollReader id).1 = .item (.error e)) :
    (yielded id events).length = reach n r.ahead r.pieces ∧
    RangeError n (meeting n r.ahead r.pieces) e ∨
      Mishap trace p.engine r.handle r.pieces e := by
  refine (Services.error_of_call hr hb hrg ha).imp_left fun hrange => ?_
  obtain ⟨hcursor, -⟩ := hk.going r hr hlive
  have hfar : (yielded id events).length = reach n r.ahead r.pieces := by
    have hmeets := hrange.bad
    rw [Reader.stretch, hcursor] at hmeets
    exact eq_reach hk.short hmeets
  rw [Reader.stretch, hcursor, hfar] at hrange
  exact ⟨hfar, hrange⟩

lemma Ranging.polled {added : Handle → List Payload → Prop}
    {faults : Handle → Piece → EngineError → Prop} {r r' : Reader}
    (hk : Ranging n r.ahead trace events p r.handle r.pieces id)
    (hbad : ∃ x ∈ r.pieces, ¬ x.InRange n) (hw : 0 < r.ahead) (hr : p.readers.get? id = some r)
    (hr' : q.readers.get? id = some r') (hb : Briefed trace p r)
    (hlen : ∀ t, p.engine.torrent? r.handle = some t → t.payloads.length = n)
    (hgone : p.engine.torrent? r.handle = none → q.engine.torrent? r.handle = none)
    {advance : Option Nat} {answer : Polled (Except PieceError PieceData)}
    (ha : answer = (p.pollReader id).1) (ho : Outcome added faults r r' answer) :
    Ranging n r.ahead (trace ++ [.polled id advance answer])
      (events ++ [.polled id advance answer]) q r.handle r.pieces id := by
  have hfailures : ∀ {o}, (Event.result? id (.polled id advance answer)).bind errorOf = o →
      failures id (events ++ [.polled id advance answer]) = failures id events ++ o.toList :=
      fun ho => by
    rw [failures_append, ho]
  have hrg : r.finished = false → Ranged n p r := fun hf => ⟨hlen, (hk.going r hr hf).2.1⟩
  have hcall : ∀ {pieces}, r.finished = false → r.cursor < r.pieces.length →
      r.upcoming? = some pieces → (∀ e, answer ≠ .item (.error e)) →
      ∀ x ∈ pieces, x.InRange n := fun hf hlt hu hne =>
    inRange_of_call hb.steady.staffed hr (hrg hf) hf hlt hu (ha ▸ hne)
  cases ho with
  | past hf heq =>
    have hres : Event.result? id (.polled id advance .done) = some .done := if_pos rfl
    have hfailed := hk.past r hr hf
    obtain ⟨-, hs⟩ := hk.heard hgone hres rfl (fun _ => hfailed) nofun
    refine hs.ranging hr' (fun hlive => ?_) fun _ => ?_
    · rw [heq, hf] at hlive
      cases hlive
    · rw [hfailures (by rw [hres])]
      exact List.append_ne_nil_of_left_ne_nil hfailed _
  | ended hf hlast =>
    -- there is a piece out of range, and the cursor has not come to it
    obtain ⟨hcursor, -⟩ := hk.going r hr hf
    have hlt := findIdx_lt hbad
    have hshort := hk.short
    unfold reach at hshort
    omega
  | overflow hf hc hu heq =>
    -- the window is not moved, and nothing is told as an error
    have hres : Event.result? id (.polled id advance .overflow) = some .overflow := if_pos rfl
    obtain ⟨hyielded, hs⟩ := hk.heard hgone hres rfl nofun nofun
    obtain ⟨hcursor, hcurrent, hnone⟩ := hk.going r hr hf
    refine hs.ranging hr' (fun _ => ?_) fun hend => ?_
    · rw [heq, hyielded, hfailures (by rw [hres]), hnone]
      exact ⟨hcursor, hcurrent, rfl⟩
    · rw [heq, hf] at hend
      cases hend
  | @failed e hf hf' =>
    have hres : Event.result? id (.polled id advance (.item (.error e))) =
        some (.item (.error e)) := if_pos rfl
    obtain ⟨-, hs⟩ := hk.heard hgone hres rfl nofun fun e' he' => by
      obtain rfl : e = e' := Option.some.inj he'
      exact hk.error_of_call hr hf hb (hrg hf) ha.symm
    refine hs.ranging hr' (fun hlive => ?_) fun _ => ?_
    · rw [hf'] at hlive
      cases hlive
    · rw [hfailures (o := some e) (by rw [hres]; rfl)]
      exact List.append_ne_nil_of_right_ne_nil _ (List.cons_ne_nil e [])
  | @yielded d hf hu hn hf' hc hp hd =>
    have hres : Event.result? id (.polled id advance (.item (.ok d))) = some (.item (.ok d)) :=
      if_pos rfl
    obtain ⟨hcursor, -, hnone⟩ := hk.going r hr hf
    -- the call went through, so that all of the stretch ahead is in range
    have hin := hcall hf (List.getElem?_eq_some_iff.mp hp).1 hu fun e => by simp
    have hfar : (yielded id events).length < reach n r.ahead r.pieces := by
      refine lt_reach hbad hw hk.short fun x hx => hin x ?_
      rw [Reader.upcoming?_eq hu, OrderedSet.mem_ofList, hcursor]
      exact hx
    obtain ⟨hyielded, hs⟩ := hk.brought hgone hres (hcursor ▸ hp) hfar
    refine hs.ranging hr' (fun _ => ⟨?_, hin, ?_⟩) fun hend => ?_
    · rw [hyielded, List.length_append, hc, hcursor]
      rfl
    · rw [hfailures (by rw [hres]), hnone]
      rfl
    · rw [hf'] at hend
      cases hend
  | waits hf hlt hu hn hf' hc =>
    have hres : Event.result? id (.polled id advance .pending) = none := if_pos rfl
    obtain ⟨hyielded, hs⟩ := hk.heard hgone hres rfl nofun nofun
    obtain ⟨hcursor, -, hnone⟩ := hk.going r hr hf
    refine hs.ranging hr' (fun _ => ?_) fun hend => ?_
    · rw [hyielded, hfailures (by rw [hres]), hnone, hc]
      exact ⟨hcursor, hcall hf hlt hu fun e => by simp, rfl⟩
    · rw [hf'] at hend
      cases hend

lemma ranging_read (hst : Staffed p) (h : Handle) (pieces : List Piece) (trace : List Event)
    (hid : (p.read h pieces).1 = id) : Ranging n w trace [] (p.read h pieces).2 h pieces id := by
  rw [fst_read] at hid
  have hnew : ∀ r, (p.read h pieces).2.readers.get? id = some r → r = newReader p h pieces :=
    fun r hr => by
    rcases get?_read_cases hr with ⟨-, rfl⟩ | hget
    · rfl
    · exact absurd (hst.bound _ r hget) (Nat.not_lt.mpr (Nat.le_of_eq hid))
  refine ⟨⟨rfl, Nat.zero_le _, nofun, nofun⟩, fun r hr _ => ?_, fun r hr hf => ?_⟩
  · rw [hnew r hr]
    exact ⟨rfl, fun x hx => absurd hx OrderedSet.not_mem_empty, rfl⟩
  · rw [hnew r hr] at hf
    cases hf

/-- **No step breaks it.** -/
theorem ranging_step (hrun : Run settings trace p) (hg : GivenOut trace h)
    (hfresh : (handlesGiven (trace ++ [event])).Nodup) (hbad : ∃ x ∈ pieces, ¬ x.InRange n)
    (hlen : ∀ t, p.engine.torrent? h = some t → t.payloads.length = n)
    (hs : Serves p id sub h pieces)
    (hk : Ranging n (max settings.readWindow 1) trace events p h pieces id)
    (hstep : Step p event q) :
    Ranging n (max settings.readWindow 1) (trace ++ [event]) (events ++ [event]) q h pieces id := by
  have hsteady : Steady trace p := run_steady hrun (nodup_before hfresh)
  have hgone := gone_step hsteady hg hfresh hstep
  have hstocked := run_stocked hrun id
  cases (fortune_step hsteady.sound hsteady.staffed hstocked hstep).1 with
  | apart he hget => exact hk.still (result?_of_ne he) (fun r hr => hget ▸ hr) hgone
  | began hid =>
    have := hs.scope
    omega
  | @polled r r' answer hr hr' hkin ho =>
    obtain ⟨rfl, hsub, rfl⟩ := hs.reader r hr
    have hahead : max settings.readWindow 1 = r.ahead := by
      rw [hsteady.staffed.ahead id r hr, run_settings hrun]
    have hpos : 0 < r.ahead := by omega
    obtain ⟨-, -, ha⟩ := answer_of_polled hstep rfl
    rw [hahead] at hk ⊢
    exact hk.polled hbad hpos hr hr' ⟨hsteady, hsub ▸ hs.listens.heeds, hstocked r hr⟩
      hlen hgone ha ho
  | cancelled hget => exact hk.still rfl (fun r hr => hget ▸ hr) hgone
  | dropped hnone =>
    refine hk.still rfl (fun r hr => ?_) hgone
    rw [hnone] at hr
    cases hr

lemma payloads_of_added (hs : Steady trace p) (hfresh : (handlesGiven trace).Nodup)
    {payloads : List Payload} (ha : Added trace h payloads) {t : SimulatedTorrent}
    (ht : p.engine.torrent? h = some t) :
    t.payloads = payloads := payloads_unique hfresh (hs.sound.known h t ht).1 ha

/-- **The invariant holds from the beginning of a read on**, whatever happens in between. -/
theorem ranging_steps (hs : Steady trace p) {payloads : List Payload}
    (hadded : Added trace h payloads) (hbad : ∃ x ∈ pieces, ¬ x.InRange payloads.length)
    (hid : (p.read h pieces).1 = id) (hbegun : Run settings (trace ++ [.began id h pieces])
      (p.read h pieces).2)
    (hsteps : Steps (p.read h pieces).2 events q)
    (hfresh : (handlesGiven (trace ++ [.began id h pieces] ++ events)).Nodup) :
    Serves q id p.hub.nextId h pieces ∧ Ranging payloads.length (max settings.readWindow 1)
      (trace ++ [.began id h pieces] ++ events) events q h pieces id := by
  refine steps_induction (P := fun events q => Serves q id p.hub.nextId h pieces ∧
    Ranging payloads.length (max settings.readWindow 1)
    (trace ++ [.began id h pieces] ++ events) events q h pieces
      id) hbegun ⟨hid ▸ serves_read hs h pieces,
      ranging_read hs.staffed h pieces _ hid⟩ ?_ hsteps hfresh
  rintro events p' q' event hrun' hfresh' ⟨hserves, hk⟩ hstep
  have hold := nodup_before hfresh'
  have hs' : Steady _ p' := run_steady hrun' hold
  have hadded' := (hadded.append [.began id h pieces]).append events
  have hg : GivenOut _ h := ⟨payloads, hadded'⟩
  refine ⟨serves_step hs' hg hfresh' hserves hstep, ?_⟩
  rw [← List.append_assoc]
  exact ranging_step hrun' hg hfresh' hbad
    (fun t ht => by rw [payloads_of_added hs' hold hadded' ht]) hserves hk hstep

/-! ### Both strategies -/

lemma wait_refused (hs : Steady trace p) {t : SimulatedTorrent} (ht : p.engine.torrent? h = some t)
    (hk : t.state.piecesKnown = true) (hsome : t.payloads ≠ [])
    (hbad : ∃ x ∈ pieces, ¬ x.InRange t.payloads.length) (interval : Duration) :
    ∃ x ∈ pieces, ¬ x.InRange t.payloads.length ∧
      (p.wait h pieces interval).1 = .error (.outOfRange x) := by
  have hlen : t.available.length = t.payloads.length := (hs.sound.known h t ht).2
  rcases hn : Waiter.negative? pieces with _ | x
  · -- no piece is negative, so that one is past the last
    have hneg := (Waiting.negative?_eq pieces).symm.trans hn
    have hq := Waiting.query_known ht hk
    obtain ⟨x, hx⟩ : ∃ x, Waiter.beyond? pieces t.available.length = some x := by
      rw [Waiting.beyond?_eq hneg, hlen, ← Option.isSome_iff_exists, List.find?_isSome]
      obtain ⟨x, hx, hout⟩ := hbad
      have hpos : 0 ≤ x.index := by simpa using List.find?_eq_none.mp hneg x hx
      exact ⟨x, hx, decide_eq_true (Int.not_lt.mp fun hlt => hout ⟨hpos, hlt⟩)⟩
    have hfound := hx
    rw [Waiting.beyond?_eq hneg, hlen] at hfound
    have hle : (t.payloads.length : Int) ≤ x.index := by simpa using List.find?_some hfound
    refine ⟨x, List.mem_of_find?_eq_some hfound, fun hin => Int.not_lt.mpr hle hin.2, ?_⟩
    rcases hav : t.available with _ | ⟨b, bs⟩
    · rw [hav] at hlen
      exact absurd (List.eq_nil_of_length_eq_zero hlen.symm) hsome
    · rw [hav] at hq hx
      rw [Waiting.wait_beyond hn hq hx]
  · -- a negative piece is refused before the bitmap is looked at
    have hneg : x.index < 0 := by
      have hfound := (Waiting.negative?_eq pieces).symm.trans hn
      simpa using List.find?_some hfound
    refine ⟨x, ?_, fun hin => Int.not_lt.mpr hin.1 hneg, by rw [Waiting.wait_negative hn]⟩
    rw [Waiting.negative?_eq] at hn
    exact List.mem_of_find?_eq_some hn

lemma Ranging.done_of_failed (hk : Ranging n w trace events q h pieces id)
    (hfailed : failures id events ≠ []) :
    (q.pollReader id).1 = .done := by
  rcases hr : q.readers.get? id with _ | r
  · simp only [Pipeline.pollReader, hr]
  rcases hf : r.finished with _ | _
  · exact absurd (hk.going r hr hf).2.2 hfailed
  · simp only [Pipeline.pollReader, hr, hf, if_true]

/-- Who reads pieces of which some are out of range, and has come as far as it can, fails when it is
asked next. -/
lemma fails_of_reach (hs : Steady trace q) (hserves : Serves q id sub h pieces)
    (hbad : ∃ x ∈ pieces, ¬ x.InRange n) (hlen : ∀ t, q.engine.torrent? h = some t →
      t.payloads.length = n)
    (hk : Ranging n (max q.settings.readWindow 1) trace events q h pieces id)
    (hthere : q.readers.get? id ≠ none) (hnone : failures id events = [])
    (hfar : (yielded id events).length = reach n (max q.settings.readWindow 1) pieces)
    (hwindow : q.settings.readWindow < Numeral.wordSize)
    (hlength : pieces.length < Numeral.wordSize) (ht : q.engine.torrent? h ≠ none) :
    ∃ e, (q.pollReader id).1 = .item (.error e) ∧
      RangeError n (meeting n (max q.settings.readWindow 1) pieces) e := by
  obtain ⟨r, hr⟩ := Option.ne_none_iff_exists'.mp hthere
  obtain ⟨rfl, -, rfl⟩ := hserves.reader r hr
  have hahead : max q.settings.readWindow 1 = r.ahead := (hs.staffed.ahead id r hr).symm
  have hpos : 0 < r.ahead := by omega
  have hword : r.ahead < Numeral.wordSize := by
    rw [← hahead]
    exact Nat.max_lt.mpr ⟨hwindow, by decide⟩
  rw [hahead] at hk hfar ⊢
  -- whoever has come to its end has failed
  have hlive : r.finished = false := by
    rcases hf : r.finished with _ | _
    · rfl
    · exact absurd hnone (hk.past r hr hf)
  obtain ⟨hcursor, hcurrent, -⟩ := hk.going r hr hlive
  have hmeets := meets_of_reach hbad hpos
  have hlt := findIdx_lt hbad
  have hend : r.stretch = meeting n r.ahead r.pieces := by
    rw [Reader.stretch, hcursor, hfar, meeting]
  rw [← hend] at hmeets ⊢
  have hbound : reach n r.ahead r.pieces < r.pieces.length ∧
      reach n r.ahead r.pieces + r.ahead < Numeral.wordSize := by
    unfold reach
    omega
  rw [← hfar, ← hcursor] at hbound
  exact fails_of_call hs.staffed hr ⟨hlen, hcurrent⟩ hlive hbound.1 hbound.2 ht hmeets

end Run

/-- **What is told of pieces that are out of range**, by a waiter and by a reader of the same
request, in whatever run. The waiter is refused with such a piece. The reader yields pieces of the
request in order, all of them in range, and stops before its window meets the first that is not; it
does not come to an end without an error, and says nothing more after one. If it fails for no other
reason, it has come as far as that, and fails with the smallest negative piece of the window, or
else with an engine error for the smallest piece past the last one, which is not the user's. If it
has come so far and has not failed, the next call fails like this. -/
theorem range_errors_told {settings : Settings} {trace : List Event} {p : Pipeline Simulated}
    (hrun : Run settings trace p) {h : Handle} {t : SimulatedTorrent}
    (ht : p.engine.torrent? h = some t) (hk : t.state.piecesKnown = true) {n w : Nat}
    (hn : t.payloads.length = n) (hpos : 0 < n) (hw : max settings.readWindow 1 = w)
    {pieces : List Piece} (hbad : ∃ x ∈ pieces, ¬ x.InRange n) {events : List Event}
    {q : Pipeline Simulated} {id : Nat} (hid : (p.read h pieces).1 = id)
    (hsteps : Steps (p.read h pieces).2 events q)
    (hfresh : (handlesGiven (trace ++ events)).Nodup) :
    (∀ interval, ∃ x ∈ pieces, ¬ x.InRange n ∧
      (p.wait h pieces interval).1 = .error (.outOfRange x)) ∧
      Sifted n w (trace ++ events) events q.engine h pieces id ∧
      (∀ d ∈ yielded id events, d.piece.InRange n) ∧
      (failures id events ≠ [] → (q.pollReader id).1 = .done) ∧
      (∀ e, RangeError n (meeting n w pieces) e →
        ((Failure.piece e).isUserError = true ↔ ∃ x ∈ meeting n w pieces, x.index < 0)) ∧
      (q.readers.get? id ≠ none → failures id events = [] →
        (yielded id events).length = reach n w pieces →
        settings.readWindow < Numeral.wordSize → pieces.length < Numeral.wordSize →
        q.engine.torrent? h ≠ none →
          ∃ e, (q.pollReader id).1 = .item (.error e) ∧ RangeError n (meeting n w pieces) e) := by
  subst hn hw
  have hs : Steady trace p := run_steady hrun (nodup_before hfresh)
  have hadded : Added trace h t.payloads := (hs.sound.known h t ht).1
  have hfresh' : (handlesGiven (trace ++ [.began id h pieces] ++ events)).Nodup := by
    rwa [handlesGiven_skip rfl]
  have hbegun : Run settings (trace ++ [.began id h pieces]) (p.read h pieces).2 :=
    hid ▸ hrun.snoc (.read p h pieces)
  obtain ⟨hserves, hranging⟩ := ranging_steps hs hadded hbad hid hbegun hsteps hfresh'
  have hrun' := hbegun.steps hsteps
  have hs' : Steady _ q := run_steady hrun' hfresh'
  have hlen : ∀ t', q.engine.torrent? h = some t' → t'.payloads.length = t.payloads.length :=
    fun t' ht' => by
    rw [payloads_of_added hs' hfresh' ((hadded.append _).append _) ht']
  have hfailed : ∀ x e, Failed (trace ++ [.began id h pieces] ++ events) h x e →
      Failed (trace ++ events) h x e :=
    fun x e hf => by simpa [Failed] using hf
  refine ⟨wait_refused hs ht hk (List.ne_nil_of_length_pos hpos) hbad,
    ⟨hranging.order, hranging.short, hranging.ended, fun e he =>
      (hranging.failed e he).imp_right fun hm => hm.mono (fun hnone => hnone) hfailed⟩,
    fun d hd => ?_, hranging.done_of_failed, fun e he => he.isUserError_iff,
    fun hthere hnone hfar hwindow hlength ht' => ?_⟩
  · refine inRange_of_take (Nat.lt_of_lt_of_le Nat.one_pos (Nat.le_max_right _ _)) hranging.short ?_
    rw [← hranging.order]
    exact List.mem_map_of_mem hd
  · rw [← run_settings hrun'] at hranging hfar hwindow ⊢
    exact fails_of_reach hs' hserves hbad hlen hranging hthere hnone hfar hwindow hlength ht'

/-- A reader that wants one piece at a time, of a torrent that has one. It yields that, and when it
is asked for the next it fails. -/
theorem range_errors_told_second :
    ∃ (trace events : List Event) (p q : Pipeline Simulated) (t : SimulatedTorrent),
    Run { readWindow := 1 } trace p ∧ p.engine.torrent? ⟨0, 1⟩ = some t ∧
    t.state.piecesKnown = true ∧
      t.payloads.length = 1 ∧ (∃ x ∈ [(⟨0⟩ : Piece), ⟨1⟩], ¬ x.InRange 1) ∧
      Steps (p.read ⟨0, 1⟩ [⟨0⟩, ⟨1⟩]).2 events q ∧ (handlesGiven (trace ++ events)).Nodup ∧
      yielded 0 events = [⟨⟨0⟩, [7]⟩] ∧
      ∃ e, (q.pollReader 0).1 = .item (.error e) ∧ RangeError 1 (meeting 1 1 [⟨0⟩, ⟨1⟩]) e := by
  let start := (Pipeline.start { readWindow := 1 } ({} : Simulated)).toOption.getD
    (.assemble { readWindow := 1 } {})
  have hstart : Run { readWindow := 1 } [] start :=
    run_start { readWindow := 1 } (by decide +kernel)
  let p₁ : Pipeline Simulated :=
    { start with engine := (EngineCall.add "film" [[7]] .downloading).apply start.engine }
  let p₂ : Pipeline Simulated := { p₁ with engine := (EngineCall.feed ⟨0, 1⟩ ⟨0⟩).apply p₁.engine }
  let p₃ := (p₂.read ⟨0, 1⟩ [⟨0⟩, ⟨1⟩]).2
  let p₄ := (p₃.pollReader 0).2
  let p₅ := turned (turned (turned p₄))
  let p₆ := (p₅.pollReader 0).2
  have hrun : Run { readWindow := 1 } ([] ++ [.added ⟨0, 1⟩ [[7]]] ++ [.quiet]) p₂ :=
    (hstart.snoc (step_add start (by decide +kernel))).snoc
      (step_call (c := .feed ⟨0, 1⟩ ⟨0⟩) p₁ rfl)
  have hasked : Steps p₃ ([] ++ [.polled 0 (p₃.advancing? 0) .pending]) p₄ :=
    (Steps.nil p₃).snoc (step_waits p₃ 0 (by decide +kernel) (by decide +kernel))
  have hsteps :=
    (steps_turned hasked (by decide +kernel) (by decide +kernel) (by decide +kernel)).snoc
    (step_next p₅ 0 (by decide +kernel))
  have hfresh : ∀ a b answer, (handlesGiven ([] ++ [.added ⟨0, 1⟩ [[7]]] ++ [.quiet] ++
      ([] ++ [.polled 0 a .pending] ++ [.quiet] ++ [.quiet] ++ [.quiet] ++
        [.polled 0 b answer]))).Nodup :=
    fun _ _ _ => List.pairwise_singleton _ _
  have hbad : ∃ x ∈ [(⟨0⟩ : Piece), ⟨1⟩], ¬ x.InRange 1 := ⟨⟨1⟩, by simp, by decide⟩
  have htorrent :
      (p₂.engine.torrent? ⟨0, 1⟩).map (fun t => (t.state.piecesKnown, t.payloads.length)) =
      some (true, 1) := by decide +kernel
  obtain ⟨t, ht, hview⟩ := Option.map_eq_some_iff.mp htorrent
  obtain ⟨hk, hn⟩ := Prod.mk.inj hview
  have hid : (p₂.read ⟨0, 1⟩ [⟨0⟩, ⟨1⟩]).1 = 0 := by decide +kernel
  have htold := range_errors_told hrun ht hk hn Nat.one_pos (w := 1) rfl hbad hid hsteps
    (hfresh _ _ _)
  have hthere : p₆.readers.get? 0 ≠ none := Option.isSome_iff_ne_none.mp (by decide +kernel)
  have htracked : p₆.engine.torrent? ⟨0, 1⟩ ≠ none :=
    Option.isSome_iff_ne_none.mp (by decide +kernel)
  have hyielded : yielded 0 ([] ++ [.polled 0 (p₃.advancing? 0) .pending] ++ [.quiet] ++
      [.quiet] ++ [.quiet] ++ [.polled 0 (p₅.advancing? 0) (p₅.pollReader 0).1]) =
        [⟨⟨0⟩, [7]⟩] := by decide +kernel
  have hnone : failures 0 ([] ++ [.polled 0 (p₃.advancing? 0) .pending] ++ [.quiet] ++
      [.quiet] ++ [.quiet] ++ [.polled 0 (p₅.advancing? 0) (p₅.pollReader 0).1]) = [] := by
    decide +kernel
  have hnext := htold.2.2.2.2.2 hthere hnone (by rw [hyielded]; decide) (by decide)
    (by decide) htracked
  exact ⟨_, _, p₂, p₆, t, hrun, ht, hk, hn, hbad, hsteps, hfresh _ _ _, hyielded, hnext⟩

/-- It is not so that a reader that meets a piece out of range, and fails for no other reason, fails
with that piece as out of range: if it is past the last one the engine's own error is told, where a
waiter is told that it is out of range. -/
theorem range_error_of_engine :
    ¬ ∀ (settings : Settings) (trace : List Event) (p : Pipeline Simulated) (h : Handle)
    (t : SimulatedTorrent) (pieces : List Piece) (events : List Event) (q : Pipeline Simulated),
    Run settings trace p → p.engine.torrent? h = some t → t.state.piecesKnown = true →
    0 < t.payloads.length →
      (∃ x ∈ pieces, ¬ x.InRange t.payloads.length) → Steps (p.read h pieces).2 events q →
      (handlesGiven (trace ++ events)).Nodup → ∀ e ∈ failures (p.read h pieces).1 events,
        ¬ Mishap (trace ++ events) q.engine h pieces e →
          ∃ x ∈ pieces, ¬ x.InRange t.payloads.length ∧ e = .outOfRange x := by
  intro hclaim
  let p₁ := (filmed.read ⟨0, 1⟩ [⟨1⟩]).2
  have hsteps : Steps p₁ ([] ++ [.polled 0 (p₁.advancing? 0) (p₁.pollReader 0).1])
      (p₁.pollReader 0).2 :=
    (Steps.nil p₁).snoc (step_next p₁ 0 (by decide +kernel))
  have hfailures : failures (filmed.read ⟨0, 1⟩ [⟨1⟩]).1 ([] ++
      [.polled 0 (p₁.advancing? 0) (p₁.pollReader 0).1]) =
      [.engine (.invalidPiece ⟨1⟩)] := by decide +kernel
  -- nothing else went wrong
  have hnothing : ∀ e, e = .engine (.invalidPiece ⟨1⟩) → ¬ Mishap ([.added ⟨0, 1⟩ [[7]]] ++
      ([] ++ [.polled 0 (p₁.advancing? 0) (p₁.pollReader 0).1]))
      (p₁.pollReader 0).2.engine ⟨0, 1⟩ [⟨1⟩] e := by
    rintro e he (_ | _ | ⟨-, hf⟩)
    · cases he
    · cases he
    · simp [Failed] at hf
  have hwrong := hclaim {} _ filmed ⟨0, 1⟩ _ [⟨1⟩] _ _ run_filmed rfl (by decide +kernel)
    (by decide +kernel) ⟨⟨1⟩, by simp, by decide +kernel⟩ hsteps (List.pairwise_singleton _ _) _
    (by rw [hfailures]; exact List.mem_singleton_self _) (hnothing _ rfl)
  obtain ⟨x, -, -, he⟩ := hwrong
  cases he

end Services

end TorrentFlow
