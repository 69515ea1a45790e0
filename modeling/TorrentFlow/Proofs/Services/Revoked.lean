import TorrentFlow.Proofs.Services.Hearing
import TorrentFlow.Proofs.Services.Stalling
import TorrentFlow.Proofs.Services.Stretches

/-!
What a reader has of a piece whose turn has not come yet. Every alert that speaks of a wanted piece
replaces what came in for it before, whoever asked for it: the last one counts when it is the
piece's turn, over any engine and whatever goes on in between. So bytes that have come in are handed
out if nothing else is said of the piece after them, and are lost to a failure that is.
-/

namespace TorrentFlow.Services

section Any

variable {σ : Type} [Engine σ]

/-! ### What one call leaves of it -/

/-- **A call keeps of a piece in the stretch what was said of it last.** -/
theorem ready_call {id : Nat} {p : Pipeline σ} {r r' : Reader} (hr : p.readers.get? id = some r)
    (hr' : (p.pollReader id).2.readers.get? id = some r') (hlive : r'.finished = false)
    {x : Piece} {j : Nat} (hx : r.pieces[j]? = some x) (hj : r.cursor ≤ j)
    (hahead : j < r.cursor + r.ahead) :
    r'.ready.get? x = lastSaid x (r.ready.get? x) (consumed id p) := by
  obtain ⟨rfl, hnothing⟩ | ⟨hf, -⟩ | ⟨pieces, hgo⟩ := call_cases hr hr'
  · rw [hnothing, lastSaid_nil]
  · rw [hlive] at hf
    cases hf
  have hwanted := Reader.mem_upcoming hgo.upcoming hx hj hahead
  obtain ⟨r₂, hr₂, hfares⟩ := fares_call hr hgo
  obtain rfl := Option.some.inj (hr₂.symm.trans hr')
  have hkept : ∀ {r₁ : Reader}, (r.wanting pieces).hear (consumed id p) = .ok r₁ →
      r₁.ready.get? x = lastSaid x (r.ready.get? x) (consumed id p) := fun hh => by
    obtain ⟨ready, rfl, hready⟩ := Reader.hear_ok hh
    rw [hready x (by simpa using hwanted), Reader.get?_wanting r hwanted]
  generalize (p.pollReader id).1 = answer at hfares
  generalize consumed id p = heard at hfares hkept ⊢
  cases hfares with
  | served hh hs =>
    have hknown := hkept hh
    obtain ⟨heq, -, -⟩ := Reader.serve_ok hs
    rw [heq]
    exact hknown
  | waited hh _ => exact hkept hh
  | soured _ _ hf | failed _ _ _ hf | ousted _ _ _ hf =>
    rw [hlive] at hf
    cases hf

/-- **When the turn of a piece has come, the call tells what is known of it.** -/
theorem answer_of_known {id : Nat} {p : Pipeline σ} {r : Reader} (hr : p.readers.get? id = some r)
    {pieces : OrderedSet Piece} (hgo : GoesOn id p r pieces) {x : Piece}
    (hx : r.pieces[r.cursor]? = some x) (hpos : 0 < r.ahead) {w : Except EngineError Payload}
    (hw : r.ready.get? x = some w) :
    (p.pollReader id).1 = .item (Reader.verdict x w) := by
  have hwanted := Reader.mem_upcoming hgo.upcoming hx (Nat.le_refl _) (by omega)
  have hserve := Reader.serve_of_known (r := r.wanting pieces)
    (by rw [(r.kin_wanting pieces).pieces, r.cursor_wanting, hx])
    ((r.get?_wanting hwanted).trans hw)
  rw [hgo.pollReader hr]
  simp only [Pipeline.readOn, Pipeline.readOnce, get?_slid hr pieces, hserve]
  rcases w with e | data
  · rfl
  · rfl

/-! ### Any number of calls -/

/-- Calls of a reader, with the alerts that they consume, in order; in between, whatever leaves it
alone. -/
inductive Turns (id : Nat) (p : Pipeline σ) : List Alert → Pipeline σ → Prop
  | none : Turns id p [] p
  | next {heard : List Alert} {q : Pipeline σ} (h : Turns id p heard q) :
    Turns id p (heard ++ consumed id q) (q.pollReader id).2
  | aside {heard : List Alert} {q q' : Pipeline σ} (h : Turns id p heard q)
      (hq : q'.readers.get? id = q.readers.get? id) : Turns id p heard q'

variable {id : Nat} {p q : Pipeline σ} {heard : List Alert} {r r' : Reader}

/-- What a reader that has not ended has kept since. -/
theorem ready_turns (hr : p.readers.get? id = some r) {x : Piece} {j : Nat}
    (hx : r.pieces[j]? = some x) (hahead : j < r.cursor + r.ahead) (h : Turns id p heard q)
    (hr' : q.readers.get? id = some r') (hlive : r'.finished = false) (hturn : r'.cursor ≤ j) :
    r.Kin r' ∧ r.cursor ≤ r'.cursor ∧ r'.ready.get? x = lastSaid x (r.ready.get? x) heard := by
  induction h generalizing r' with
  | none =>
    obtain rfl := Option.some.inj (hr.symm.trans hr')
    exact ⟨.refl r, Nat.le_refl _, rfl⟩
  | @next heard q _ ih =>
    rcases hget : q.readers.get? id with _ | r₁
    · rw [Pipeline.pollReader, hget] at hr'
      cases hget.symm.trans hr'
    obtain ⟨⟨r₂, hr₂, hforward⟩, -⟩ := forward_pollReader hget
    obtain rfl := Option.some.inj (hr₂.symm.trans hr')
    have hle : r₁.cursor ≤ r₂.cursor := by
      rcases hforward.cursor with heq | ⟨-, heq⟩
      · exact Nat.le_of_eq heq.symm
      · exact heq ▸ Nat.le_succ _
    have hlive₁ : r₁.finished = false := by
      obtain ⟨rfl, -⟩ | ⟨hf, -⟩ | ⟨pieces, hgo⟩ := call_cases hget hr'
      · exact hlive
      · rw [hlive] at hf
        cases hf
      · exact hgo.live
    obtain ⟨hkin, hcursor, hready⟩ := ih hget hlive₁ (Nat.le_trans hle hturn)
    refine ⟨hkin.trans hforward.kin, Nat.le_trans hcursor hle, ?_⟩
    rw [lastSaid_append, ← hready]
    refine ready_call hget hr' hlive (hkin.pieces ▸ hx) (Nat.le_trans hle hturn) ?_
    rw [hkin.ahead]
    omega
  | aside _ hq ih => exact ih (hq.symm.trans hr') hlive hturn

/-- **The last that was said of a piece counts when its turn has come**, on every engine, whatever a
reader hears and whatever goes on in between. Take a reader and a piece in its stretch, any calls,
and the reader after them, if it has not ended and has not passed the piece. Then:

* it has of the piece what the alerts said of it last that the calls consumed, or else what it had
  before;
* when the cursor stands at the piece and the next call comes as far as to the mailbox, the call
  hands out the bytes if bytes were said last, and fails if a failure was, though bytes had come in
  before it;
* so bytes that have come in are handed out if whatever else was said of the piece after them was
  the same bytes. -/
theorem last_said_counts (hr : p.readers.get? id = some r) {x : Piece} {j : Nat}
    (hx : r.pieces[j]? = some x) (hahead : j < r.cursor + r.ahead) (hturns : Turns id p heard q)
    (hr' : q.readers.get? id = some r') (hlive : r'.finished = false) (hturn : r'.cursor ≤ j) :
    r'.ready.get? x = lastSaid x (r.ready.get? x) heard ∧
    ∀ pieces, r'.cursor = j → GoesOn id q r' pieces →
      (∀ data, lastSaid x (r.ready.get? x) heard = some (.ok data) →
        (q.pollReader id).1 = .item (.ok ⟨x, data⟩)) ∧
      (∀ e, lastSaid x (r.ready.get? x) heard = some (.error e) →
        (q.pollReader id).1 = .item (.error (.ofEngine e))) ∧
      ∀ before a after data, heard = before ++ a :: after → a.says? x = some (.ok data) →
        (∀ b ∈ after, ∀ w, b.says? x = some w → w = .ok data) →
        (q.pollReader id).1 = .item (.ok ⟨x, data⟩) := by
  obtain ⟨hkin, hpassed, hready⟩ := ready_turns hr hx hahead hturns hr' hlive hturn
  refine ⟨hready, fun pieces hcursor hgo => ?_⟩
  subst hcursor
  have hpos : 0 < r'.ahead := by
    rw [hkin.ahead]
    omega
  have hsaid : ∀ w, lastSaid x (r.ready.get? x) heard = some w →
      (q.pollReader id).1 = .item (Reader.verdict x w) := fun w hw =>
    answer_of_known hr' hgo (hkin.pieces ▸ hx) hpos (hready.trans hw)
  refine ⟨fun data hw => hsaid _ hw, fun e hw => hsaid _ hw,
    fun before a after data hheard ha hafter => ?_⟩
  -- what came after the bytes said the same
  refine hsaid (.ok data) ?_
  rw [hheard, lastSaid_append, lastSaid_cons, ha, Option.some_or]
  exact lastSaid_of_agreed hafter

end Any

/-! ### Two pieces, the second of which comes first -/

def filmOfTwo : Pipeline Simulated :=
  let start := (Pipeline.start {} ({} : Simulated)).toOption.getD (.assemble {} {})
  { start with engine := (EngineCall.add "film" [[7], [8]] .downloading).apply start.engine }

def bothAsked : Pipeline Simulated := ((filmOfTwo.read ⟨0, 1⟩ [⟨0⟩, ⟨1⟩]).2.pollReader 0).2

def called (calls : List EngineCall) : Pipeline Simulated :=
  { bothAsked with engine := calls.foldl (fun s c => c.apply s) bothAsked.engine }

def told (calls : List EngineCall) : Pipeline Simulated := turned (turned (turned (called calls)))

lemma run_bothAsked : ∃ trace, Run {} trace bothAsked :=
  ⟨_, (((run_start {} (by decide +kernel)).snoc
    (step_add (h := ⟨0, 1⟩) _ (by decide +kernel))).snoc (.read filmOfTwo ⟨0, 1⟩ [⟨0⟩, ⟨1⟩])).snoc
    (step_next _ 0 (by decide +kernel))⟩

lemma run_called (calls : List EngineCall) (h : ∀ c ∈ calls, c.isPublic = true) :
    ∃ trace, Run {} trace (called calls) := by
  suffices ∀ (p : Pipeline Simulated) (trace : List Event), Run {} trace p →
      ∃ trace, Run {} trace { p with engine := calls.foldl (fun s c => c.apply s) p.engine } by
    obtain ⟨trace, hrun⟩ := run_bothAsked
    exact this bothAsked trace hrun
  induction calls with
  | nil => exact fun p trace hrun => ⟨trace, hrun⟩
  | cons c rest ih =>
    exact fun p trace hrun => ih (fun c' hc' => h c' (by simp [hc'])) _ _
      (hrun.snoc (step_call p (h c (by simp))))

/-- The pump takes what the engine had to say to the mailboxes, without the reader noticing, and
then it is called once. -/
lemma turns_told (calls : List EngineCall) (hidle : ((called calls).pumpStep 0).isSome = true)
    (htake : ((turned (called calls)).pumpStep 0).isSome = true)
    (hdeliver : ((turned (turned (called calls))).pumpStep 0).isSome = true) :
    Turns 0 bothAsked (consumed 0 (told calls)) ((told calls).pollReader 0).2 :=
  have hbeside : ∀ {p : Pipeline Simulated}, (p.pumpStep 0).isSome = true →
      (turned p).readers.get? 0 = p.readers.get? 0 := fun hstep =>
    congrArg (·.get? 0) (Delivery.step_beside (Delivery.step_pumpStep _ hstep)).readers
  have hcalled : Turns 0 bothAsked [] (called calls) := .aside .none rfl
  .next (((hcalled.aside (hbeside hidle)).aside (hbeside htake)).aside (hbeside hdeliver))

def diskError : EngineError := ⟨.system, 5, "input/output error"⟩

def mended : List EngineCall := [.fail ⟨0, 1⟩ ⟨1⟩ diskError, .feed ⟨0, 1⟩ ⟨1⟩, .feed ⟨0, 1⟩ ⟨0⟩]

def broken : List EngineCall := [.feed ⟨0, 1⟩ ⟨1⟩, .fail ⟨0, 1⟩ ⟨1⟩ diskError, .feed ⟨0, 1⟩ ⟨0⟩]

/-- A piece that could be read in the end is handed out. -/
theorem last_said_counts_mended : ∃ r r' pieces heard, bothAsked.readers.get? 0 = some r ∧
    Turns 0 bothAsked heard ((told mended).pollReader 0).2 ∧
    ((told mended).pollReader 0).2.readers.get? 0 = some r' ∧
    GoesOn 0 ((told mended).pollReader 0).2 r' pieces ∧
    (((told mended).pollReader 0).2.pollReader 0).1 = .item (.ok ⟨⟨1⟩, [8]⟩) := by
  let r := (bothAsked.readers.get? 0).get (by decide +kernel)
  let r' := (((told mended).pollReader 0).2.readers.get? 0).get (by decide +kernel)
  have hr : bothAsked.readers.get? 0 = some r := (Option.some_get _).symm
  have hr' : ((told mended).pollReader 0).2.readers.get? 0 = some r' := (Option.some_get _).symm
  have hturns := turns_told mended (by decide +kernel) (by decide +kernel) (by decide +kernel)
  have hgo : GoesOn 0 ((told mended).pollReader 0).2 r' (.ofList [⟨1⟩]) :=
    ⟨by decide +kernel, by decide +kernel, by decide +kernel, by decide +kernel, by decide +kernel⟩
  have hheard : consumed 0 (told mended) = [.readPiece ⟨0, 1⟩ "film" ⟨1⟩ [] (some diskError),
      .readPiece ⟨0, 1⟩ "film" ⟨1⟩ [8] none, .readPiece ⟨0, 1⟩ "film" ⟨0⟩ [7] none] := by
    decide +kernel
  rw [hheard] at hturns
  obtain ⟨-, hcounts⟩ := last_said_counts hr (x := ⟨1⟩) (j := 1) (by decide +kernel)
    (by decide +kernel) hturns hr' (by decide +kernel) (by decide +kernel)
  obtain ⟨-, -, hagreed⟩ := hcounts _ (by decide +kernel) hgo
  exact ⟨r, r', _, _, hr, hturns, hr', hgo,
    hagreed [_] _ [_] [8] rfl (by decide) (by simp [Alert.says?])⟩

/-- It is not so that bytes which have come in for a wanted piece are handed out in its turn: the
torrent is there, the reader has not ended, and the second piece fails though its bytes had come
in. -/
theorem received_bytes_lost :
    ¬ ∀ (settings : Settings) (trace trace' : List Event) (p q : Pipeline Simulated) (id j : Nat)
    (r r' : Reader) (x : Piece) (heard : List Alert) (pieces : OrderedSet Piece),
    Run settings trace p → p.readers.get? id = some r → r.pieces[j]? = some x → x ∈ r.current →
      j < r.cursor + r.ahead → Turns id p heard q → Run settings trace' q →
      q.readers.get? id = some r' →
      r'.finished = false → r'.cursor = j → GoesOn id q r' pieces →
      (q.engine.isTracked r'.handle).1 = .ok true →
      ∀ a ∈ heard, ∀ data, a.says? x = some (.ok data) →
      (q.pollReader id).1 = .item (.ok ⟨x, data⟩) := by
  intro hkept
  let q := ((told broken).pollReader 0).2
  let r := (bothAsked.readers.get? 0).get (by decide +kernel)
  let r' := (q.readers.get? 0).get (by decide +kernel)
  have hr : bothAsked.readers.get? 0 = some r := (Option.some_get _).symm
  have hr' : q.readers.get? 0 = some r' := (Option.some_get _).symm
  obtain ⟨trace, hrun⟩ := run_bothAsked
  obtain ⟨before, hcalled⟩ := run_called broken (by decide)
  have hrun' :=
    (run_turned hcalled (by decide +kernel) (by decide +kernel) (by decide +kernel)).snoc
    (step_next _ 0 (by decide +kernel))
  have hturns := turns_told broken (by decide +kernel) (by decide +kernel) (by decide +kernel)
  have hgo : GoesOn 0 q r' (.ofList [⟨1⟩]) :=
    ⟨by decide +kernel, by decide +kernel, by decide +kernel, by decide +kernel, by decide +kernel⟩
  have hheard : Alert.readPiece ⟨0, 1⟩ "film" ⟨1⟩ [8] none ∈ consumed 0 (told broken) := by
    decide +kernel
  have hanswer := hkept {} trace _ bothAsked q 0 1 r r' ⟨1⟩ _ _ hrun hr (by decide +kernel)
    (by decide +kernel)
    (by decide +kernel) hturns hrun' hr' (by decide +kernel)
    (by decide +kernel) hgo (by decide +kernel) _ hheard [8] (by decide)
  have hfails : (match (q.pollReader 0).1 with
    | .item (.error _) => true
    | _ => false) = true := by decide +kernel
  rw [hanswer] at hfails
  cases hfails

end TorrentFlow.Services
