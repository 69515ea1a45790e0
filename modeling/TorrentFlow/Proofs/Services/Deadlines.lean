import TorrentFlow.Proofs.Services.Ledger

/-!
No deadline is leaked and none is stolen. The books are in balance after every step, so that the
engine has deadlines on exactly those pieces that some reader wants now; and what a reader wants is
the stretch of its request at which it was last asked, and nothing before it was asked or after it
has ended.
-/

namespace TorrentFlow.Services

/-- The cursor at which a reader slid its window. -/
def Event.advance? (id : Nat) : Event → Option Nat
  | .polled j advance _ => if j = id then advance else none
  | _ => none

/-- The cursor at which a reader slid its window last. -/
def lastAdvance (id : Nat) (trace : List Event) : Option Nat :=
  (trace.filterMap (Event.advance? id)).getLast?

def due (id : Nat) (trace : List Event) (window : Nat) (r : Reader) : OrderedSet Piece :=
  if r.finished then {}
  else
    match lastAdvance id trace with
    | some c => .ofList ((r.pieces.drop c).take window)
    | none => {}

lemma lastAdvance_append (id : Nat) (trace : List Event) (event : Event) :
    lastAdvance id (trace ++ [event]) = (event.advance? id).or (lastAdvance id trace) := by
  unfold lastAdvance
  rw [List.filterMap_append, List.getLast?_append]
  rcases h : event.advance? id with _ | c <;> simp [h]

lemma advance?_of_ne {id : Nat} {event : Event} (h : event.reader? ≠ some id) :
    event.advance? id = none := by
  cases event with
  | polled j advance answer => exact if_neg fun e => h (congrArg some e)
  | _ => rfl

/-- A reader that goes on slides its window at its cursor. -/
lemma advancing?_of_going {p : Pipeline Simulated} {id : Nat} {r : Reader}
    (hr : p.readers.get? id = some r) (hf : r.finished = false) (hc : r.cursor < r.pieces.length)
    {pieces : OrderedSet Piece} (hu : r.upcoming? = some pieces)
    (hn : Reader.negative? pieces = none) : p.advancing? id = some r.cursor := by
  have hgo : ¬ (r.finished = true ∨ r.pieces.length ≤ r.cursor) := by
    rw [hf, Bool.false_eq_true, false_or]
    omega
  simp [Pipeline.advancing?, hr, hgo, hu, hn]

lemma run_readWindow {settings : Settings} {trace : List Event} {p : Pipeline Simulated}
    (h : Run settings trace p) : 0 < settings.readWindow := by
  induction h with
  | start _ hp =>
    unfold Pipeline.start at hp
    rcases hv : settings.validate with e | _
    · rw [hv] at hp
      cases hp
    · by_contra hzero
      have hwindow : settings.readWindow = 0 := by omega
      simp only [Settings.validate, hwindow, if_true] at hv
      split_ifs at hv
  | snoc _ _ ih => exact ih

/-- **Readers want what they are to want.** -/
theorem run_due {settings : Settings} {trace : List Event} {p : Pipeline Simulated}
    (h : Run settings trace p) : ∀ id r, p.readers.get? id = some r →
      r.current = due id trace settings.readWindow r := by
  induction h with
  | start _ hp =>
    intro id r hr
    simp [(start_spec hp).2.1, Table.get?, Table.find] at hr
  | @snoc trace p q event hrun hstep ih =>
    intro id r' hr'
    obtain ⟨hsound, hstaffed⟩ := run_sound_staffed hrun
    have hpos := run_readWindow hrun
    -- whoever is not asked wants what it wanted
    have hsame : event.advance? id = none → p.readers.get? id = some r' →
        r'.current = due id (trace ++ [event]) settings.readWindow r' := fun hadv hr => by
      rw [ih id r' hr, due, due, lastAdvance_append, hadv, Option.none_or]
    cases (fortune_step hsound hstaffed (fun r hr => run_stocked hrun id r hr) hstep).1 with
    | apart he hget => exact hsame (advance?_of_ne he) (hget ▸ hr')
    | cancelled hget => exact hsame rfl (hget ▸ hr')
    | dropped hnone =>
      rw [hnone] at hr'
      cases hr'
    | began hid hlt hq =>
      obtain rfl := Option.some.inj (hq.symm.trans hr')
      have hnone : lastAdvance id trace = none := by
        refine List.getLast?_eq_none_iff.mpr (List.filterMap_eq_nil_iff.mpr fun event hmem => ?_)
        cases event with
        | polled j advance answer =>
          refine if_neg fun e => run_unasked hrun id (Nat.le_of_eq hid.symm) advance answer ?_
          exact e ▸ hmem
        | _ => rfl
      rw [due, lastAdvance_append, hnone]
      rfl
    | @polled r r₁ answer hr hq hk ho =>
      obtain rfl : r' = r₁ := Option.some.inj (hr'.symm.trans hq)
      have hahead : r.ahead = settings.readWindow := by
        rw [hstaffed.ahead id r hr, run_settings hrun]
        omega
      have hadv : Event.advance? id (.polled id (p.advancing? id) answer) = p.advancing? id :=
        if_pos rfl
      have hslid : r'.finished = false → r.finished = false → r.cursor < r.pieces.length →
          r.upcoming? = some r'.current → Reader.negative? r'.current = none →
          r'.current = due id (trace ++ [.polled id (p.advancing? id) answer])
          settings.readWindow r' :=
        fun hf' hf hc hu hn => by
          rw [due, hf', lastAdvance_append, hadv, advancing?_of_going hr hf hc hu hn,
            Reader.upcoming?_eq hu, hk.pieces, hahead]
          rfl
      cases ho with
      | past hf heq =>
        subst heq
        rw [ih id r' hr, due, due, hf]
        rfl
      | ended hf hc hf' hw =>
        rw [hw, due, hf']
        rfl
      | overflow hf hc hu heq =>
        subst heq
        have hnone : p.advancing? id = none := by
          simp [Pipeline.advancing?, hr, hu]
        rw [ih id r' hr, due, due, lastAdvance_append, hadv, hnone, Option.none_or]
      | failed hf hf' hw =>
        rw [hw, due, hf']
        rfl
      | yielded hf hu hn hf' hc hp hd =>
        exact hslid hf' hf (List.getElem?_eq_some_iff.mp hp).1 hu hn
      | waits hf hlt hu hn hf' hc hs => exact hslid hf' hf hlt hu hn

/-! ### Every deadline is somebody's -/

/-- **No deadline is leaked and none is stolen**: in every state that the services come to, whatever
is asked, given up, dropped, fed, failed, removed or stopped, the readers of a torrent share one
window, whose count for each piece is the number of readers that want it now, and the engine has a
deadline on exactly the pieces of the torrent for which that number is positive. What a reader wants
now is the stretch of its request from the cursor on at which it last slid its window, and no more
than the settings allow. -/
theorem deadlines_exact {settings : Settings} {trace : List Event} {p : Pipeline Simulated}
    (hrun : Run settings trace p) (ho : Orderly trace) :
    (∀ h t, p.engine.torrent? h = some t →
      (∀ id r, p.readers.get? id = some r → r.handle = h →
        p.windows.current.get? h = some r.window ∧ ∃ w, p.windows.windows.get? r.window = some w ∧
          w.handle = h ∧ ∀ q, w.count q = wanting p h q) ∧
      ∀ q, p.engine.hasDeadline h q = true ↔
        (0 ≤ q.index ∧ q.index < t.payloads.length) ∧ 0 < wanting p h q) ∧
    ∀ id r, p.readers.get? id = some r → r.current = due id trace settings.readWindow r ∧
      r.current.elements.length ≤ settings.readWindow := by
  have hstaffed := (run_sound_staffed hrun).2
  have hledger := (run_booked hrun ho).ledger
  refine ⟨fun h t ht => ?_, fun id r hr => ?_⟩
  · have hb := hledger.balanced h t ht
    refine ⟨fun id r hr hh => ?_, fun q => ?_⟩
    · have hcur := hb.shared id r hr hh
      obtain ⟨w, hw, hwh⟩ := Option.map_eq_some_iff.mp (hstaffed.window id r hr)
      refine ⟨hcur, w, hw, hwh.trans hh, fun q => ?_⟩
      rw [← hb.counted, claimed_of_window hcur hw]
    · have harmed := hb.armed q
      rw [hb.counted, hasPiece_iff] at harmed
      rw [← harmed]
      simp only [Simulated.hasDeadline, ht]
  · have hdue := run_due hrun id r hr
    refine ⟨hdue, ?_⟩
    rw [hdue, due]
    split_ifs
    · exact Nat.zero_le _
    · rcases lastAdvance id trace with _ | c
      · exact Nat.zero_le _
      · refine Nat.le_trans (OrderedSet.length_ofList_le _) ?_
        rw [List.length_take]
        exact Nat.min_le_left _ _

/-- Two readers that want one piece together, and one that only the first of them wants: when the
first is dropped, the deadline on the piece that both wanted stays. -/
theorem deadlines_exact_shared : ∃ (trace : List Event) (p : Pipeline Simulated),
    Run {} trace p ∧ Orderly trace ∧ p.engine.hasDeadline ⟨0, 1⟩ ⟨0⟩ = false ∧
      p.engine.hasDeadline ⟨0, 1⟩ ⟨1⟩ = true ∧ wanting p ⟨0, 1⟩ ⟨1⟩ = 1 ∧
      ∃ t, p.engine.torrent? ⟨0, 1⟩ = some t ∧ ∀ q, p.engine.hasDeadline ⟨0, 1⟩ q = true ↔
        (0 ≤ q.index ∧ q.index < t.payloads.length) ∧ 0 < wanting p ⟨0, 1⟩ q := by
  let start := (Pipeline.start {} ({} : Simulated)).toOption.getD (.assemble {} {})
  let added : EngineCall := .add "film" [[7], [8]] .downloading
  let p₁ : Pipeline Simulated := { start with engine := added.apply start.engine }
  let p₂ := (p₁.read ⟨0, 1⟩ [⟨0⟩, ⟨1⟩]).2
  let p₃ := (p₂.read ⟨0, 1⟩ [⟨1⟩]).2
  let p₄ := (p₃.pollReader 0).2
  let p₅ := (p₄.pollReader 1).2
  let p₆ := p₅.dropReader 0
  have hadd : Step start (.added ⟨0, 1⟩ [[7], [8]]) p₁ := step_add start (by decide +kernel)
  have hgiven : ∀ more : List Event, GivenOut ([] ++ [.added ⟨0, 1⟩ [[7], [8]]] ++ more) ⟨0, 1⟩ :=
    fun more => ⟨[[7], [8]], by simp [Added]⟩
  obtain ⟨trace, hrun, ho⟩ : ∃ trace, Run {} trace p₆ ∧ Orderly trace := by
    refine ⟨_, ((((((run_start {} (by decide +kernel)).snoc hadd).snoc
      (.read p₁ ⟨0, 1⟩ [⟨0⟩, ⟨1⟩])).snoc (.read p₂ ⟨0, 1⟩ [⟨1⟩])).snoc
      (step_next p₃ 0 (by decide +kernel))).snoc (step_next p₄ 1 (by decide +kernel))).snoc
      (.drop p₅ 0), ?_⟩
    exact (((((orderly_nil.added (by simp [handlesGiven])).began
      (by simpa using hgiven [])).began (hgiven _)).polled).polled).dropped
  obtain ⟨t, ht⟩ := Option.isSome_iff_exists.mp
    (show (p₆.engine.torrent? ⟨0, 1⟩).isSome = true by decide +kernel)
  exact ⟨trace, p₆, hrun, ho, by decide +kernel, by decide +kernel, by decide +kernel, t, ht,
    ((deadlines_exact hrun ho).1 ⟨0, 1⟩ t ht).2⟩

end TorrentFlow.Services
