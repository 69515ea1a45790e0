import TorrentFlow.Proofs.Services.Invalid

/-!
Readers that are begun on a torrent that is gone. The first time such a reader is asked it slides
its window to the pieces that it is to want, the engine refuses the first of them, and the reader is
told that its handle is not valid. For that there has to be a piece to be wanted: a reader of
nothing, or of a negative index among the first pieces, ends without a word to the engine.
-/

namespace TorrentFlow

/-- There is something to be read, and nothing that no torrent has. -/
def Readable (pieces : List Piece) : Prop := pieces ≠ [] ∧ ∀ x ∈ pieces, 0 ≤ x.index

structure Reader.Untouched (r : Reader) : Prop where
  cursor : r.cursor = 0
  current : r.current = {}
  finished : r.finished = false

lemma Reader.negative?_of_nonneg {pieces : OrderedSet Piece} (h : ∀ x ∈ pieces, 0 ≤ x.index) :
    negative? pieces = none := by
  refine List.find?_eq_none.mpr fun x hx => ?_
  rw [Piece.position?, if_pos (h x hx)]
  simp

namespace Services

variable {settings : Settings} {trace events : List Event} {p q : Pipeline Simulated}
  {event : Event} {h : Handle} {id : Nat} {pieces : List Piece} {r : Reader}

/-! ### Asked for the first time -/

/-- A window cannot be slid to a piece of a torrent that is gone. -/
lemma slide_of_gone (hst : Staffed p) (hr : p.readers.get? id = some r)
    (hnone : p.engine.torrent? r.handle = none) {wanted : OrderedSet Piece} {x : Piece}
    (hx : x ∈ wanted) (hcur : x ∉ r.current) :
    (p.slideReader id r wanted).1 = some .handleInvalid := by
  obtain ⟨w, hw, hh⟩ := Option.map_eq_some_iff.mp (hst.window id r hr)
  have hw' : (p.putReader id (r.slide wanted)).windows.windows.get? r.window = some w := hw
  have hne : wanted ≠ r.current := fun e => hcur (e ▸ hx)
  rw [← hh] at hnone
  rw [Pipeline.slideReader, if_neg hne, moveClaims_some hw']
  exact w.failure_delta_of_gone r.current wanted p.engine hnone hx hcur

/-- **A reader that is asked for the first time when its torrent is gone is told so.** -/
theorem told_of_gone (hst : Staffed p) (hword : p.settings.readWindow < Numeral.wordSize)
    (hr : p.readers.get? id = some r) (hu : r.Untouched) (hpieces : Readable r.pieces)
    (hnone : p.engine.torrent? r.handle = none) :
    (p.pollReader id).1 = .item (.error .handleInvalid) := by
  obtain ⟨hsome, hnonneg⟩ := hpieces
  have hahead : r.ahead = max p.settings.readWindow 1 := hst.ahead id r hr
  have hone : 0 < r.ahead := by omega
  have hupcoming : r.upcoming? = some (.ofList (r.pieces.take r.ahead)) := by
    have hfits : r.cursor + r.ahead < Numeral.wordSize := by
      rw [hu.cursor, hahead, Nat.zero_add]
      exact Nat.max_lt.mpr ⟨hword, by decide⟩
    rw [Reader.upcoming?, if_pos hfits, hu.cursor, List.drop_zero]
  have hnegative : Reader.negative? (.ofList (r.pieces.take r.ahead)) = none :=
    Reader.negative?_of_nonneg fun x hx =>
      hnonneg x (List.mem_of_mem_take (OrderedSet.mem_ofList.mp hx))
  obtain ⟨x, hx⟩ := List.exists_mem_of_ne_nil (r.pieces.take r.ahead) fun hnil => by
    rcases List.take_eq_nil_iff.mp hnil with hzero | hnil
    · omega
    · exact hsome hnil
  have hslide := slide_of_gone hst hr hnone (OrderedSet.mem_ofList.mpr hx)
    (hu.current ▸ OrderedSet.not_mem_empty)
  have hleft : ¬ r.pieces.length ≤ r.cursor := by
    rw [hu.cursor, Nat.le_zero]
    exact fun hlen => hsome (List.eq_nil_of_length_eq_zero hlen)
  rcases hs : p.slideReader id r (.ofList (r.pieces.take r.ahead)) with ⟨_ | e, p'⟩ <;>
    rw [hs] at hslide
  · cases hslide
  · obtain rfl := Option.some.inj hslide
    simp only [Pipeline.pollReader, hr, hu.finished, Bool.false_eq_true, if_false, hleft, hupcoming,
      hnegative, hs]
    rfl

/-! ### From its beginning on -/

lemma read_of_began (hstep : Step p event q) (he : event = .began id h pieces) :
    id = p.nextScope ∧ q = (p.read h pieces).2 := by
  cases hstep with
  | deliver =>
    have hreader := congrArg Event.reader? he
    rw [Event.reader?_ofNote] at hreader
    cases hreader
  | read =>
    cases he
    exact ⟨rfl, rfl⟩
  | _ => cases he

lemma answer_of_polled (hstep : Step p event q) {advance : Option Nat}
    {answer : Polled (Except PieceError PieceData)} (he : event = .polled id advance answer) :
    ∃ r, p.readers.get? id = some r ∧ answer = (p.pollReader id).1 := by
  cases hstep with
  | deliver =>
    have hreader := congrArg Event.reader? he
    rw [Event.reader?_ofNote] at hreader
    cases hreader
  | next hr =>
    cases he
    exact ⟨_, hr, rfl⟩
  | _ => cases he

/-- A reader, as long as it is there, that nobody has asked yet. -/
structure Unasked (p : Pipeline Simulated) (id : Nat) (h : Handle) (pieces : List Piece) :
    Prop where
  scope : id < p.nextScope
  reader : ∀ r, p.readers.get? id = some r → r.handle = h ∧ r.pieces = pieces ∧ r.Untouched

lemma unasked_began (hst : Staffed p) (hstep : Step p (.began id h pieces) q) :
    Unasked q id h pieces := by
  obtain ⟨rfl, rfl⟩ := read_of_began hstep rfl
  refine ⟨?_, fun r hr => ?_⟩
  · rw [nextScope_read]
    exact Nat.lt_succ_self _
  · rcases get?_read_cases hr with ⟨-, rfl⟩ | hget
    · exact ⟨rfl, rfl, rfl, rfl, rfl⟩
    · exact absurd (hst.bound _ r hget) (Nat.lt_irrefl _)

lemma unasked_step (hinv : Delivery.Inv p) (hst : Staffed p) (hu : Unasked p id h pieces)
    (hstep : Step p event q) (hnot : ∀ advance answer, event ≠ .polled id advance answer) :
    Unasked q id h pieces := by
  refine ⟨Nat.lt_of_lt_of_le hu.scope (settings_step hinv hst hstep).2, fun r hr => ?_⟩
  by_cases he : event.reader? = some id
  · cases hstep with
    | deliver =>
      rw [Event.reader?_ofNote] at he
      cases he
    | read => exact absurd (Option.some.inj he) (Nat.ne_of_gt hu.scope)
    | next =>
      obtain rfl := Option.some.inj he
      exact absurd rfl (hnot _ _)
    | cancel j =>
      rw [readers_cancelReader] at hr
      exact hu.reader r hr
    | drop j =>
      obtain rfl : j = id := Option.some.inj he
      rw [(others_dropReader p j).1] at hr
      cases hr
    | _ => cases he
  · rw [step_others hst hstep he] at hr
    exact hu.reader r hr

/-- What is gone stays gone as long as no handle is given out twice. -/
lemma gone_steps (hrun : Run settings trace p) (hg : GivenOut trace h)
    (hnone : p.engine.torrent? h = none) (hsteps : Steps p events q)
    (hfresh : (handlesGiven (trace ++ events)).Nodup) : q.engine.torrent? h = none := by
  refine steps_induction (P := fun _ p => p.engine.torrent? h = none) hrun hnone ?_ hsteps hfresh
  intro events p q event hrun' hnext hnone hstep
  exact gone_step (run_steady hrun' (nodup_before hnext)) (hg.append events) hnext hstep hnone

/-- **Whoever begins to read when the torrent is gone is told so the first time he asks.** -/
theorem told_of_asked (hrun : Run settings trace p) (hword : settings.readWindow < Numeral.wordSize)
    (hu : Unasked p id h pieces) (hpieces : Readable pieces) (hg : GivenOut trace h)
    (hnone : p.engine.torrent? h = none) (hsteps : Steps p events q)
    (hfresh : (handlesGiven (trace ++ events)).Nodup)
    (hasked : ∃ advance answer, .polled id advance answer ∈ events) :
    ∃ advance, .polled id advance (.item (.error .handleInvalid)) ∈ events := by
  have hcases : (Unasked q id h pieces ∧ ∀ advance answer, .polled id advance answer ∉ events) ∨
      ∃ advance, .polled id advance (.item (.error .handleInvalid)) ∈ events := by
    clear hasked
    induction hsteps with
    | nil => exact .inl ⟨hu, fun _ _ => List.not_mem_nil⟩
    | @snoc q q' events event hsteps hstep ih =>
      have hrun' := hrun.steps hsteps
      obtain ⟨hsound, hst⟩ := run_sound_staffed hrun'
      rw [← List.append_assoc] at hfresh
      have hold := nodup_before hfresh
      rcases ih hold with ⟨hu', hnot⟩ | ⟨advance, hmem⟩
      · by_cases he : ∃ advance answer, event = .polled id advance answer
        · obtain ⟨advance, answer, rfl⟩ := he
          refine .inr ⟨advance, List.mem_append_right _ (List.mem_singleton.mpr ?_)⟩
          obtain ⟨r, hr, rfl⟩ := answer_of_polled hstep rfl
          obtain ⟨rfl, rfl, huntouched⟩ := hu'.reader r hr
          have hgone := gone_steps hrun hg hnone hsteps hold
          rw [← run_settings hrun'] at hword
          rw [told_of_gone hst hword hr huntouched hpieces hgone]
        · simp only [not_exists] at he
          refine .inl ⟨unasked_step hsound.inv hst hu' hstep he, fun advance answer hmem => ?_⟩
          rcases List.mem_append.mp hmem with hmem | hmem
          · exact hnot _ _ hmem
          · exact he _ _ (List.mem_singleton.mp hmem).symm
      · exact .inr ⟨advance, List.mem_append_left _ hmem⟩
  refine hcases.resolve_left fun ⟨_, hnot⟩ => ?_
  obtain ⟨advance, answer, hmem⟩ := hasked
  exact hnot _ _ hmem

end Services

end TorrentFlow
