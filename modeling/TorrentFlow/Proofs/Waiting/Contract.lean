import TorrentFlow.Engine.Simulated
import TorrentFlow.Pipeline.Services
import TorrentFlow.Proofs.Waiting.Steps

/-!
What a wait promises. The owner is told the pieces of the request in their order, each while the
report published last has it, then at most one failure, and then nothing more; and the poller asks
no longer than there is something left to find out.
-/

namespace TorrentFlow.Waiting

/-! ### What the reports come to -/

lemma last_eq_nil (rs : List Report) : last rs = [] ↔ first? rs = none := by
  induction rs using List.reverseRecOn with
  | nil => simp [last, first?]
  | append_singleton rs report ih =>
    rcases report with e | _ | ⟨b, bs⟩
    · simpa using ih
    · simpa using ih
    · simp [first?_known]

lemma board_eq_nil {pieces : List Piece} {rs : List Report} (h : first? rs = none) :
    board pieces rs = [] := by
  simp [board, (last_eq_nil rs).mpr h]

lemma board_of_fit {pieces : List Piece} {rs : List Report} (h : misfit? pieces rs = none) :
    board pieces rs = last rs := by
  simp [board, h]

@[simp] lemma misfit?_error (pieces : List Piece) (rs : List Report) (e : PieceError) :
    misfit? pieces (rs ++ [.error e]) = misfit? pieces rs := by simp [misfit?]

@[simp] lemma misfit?_unknown (pieces : List Piece) (rs : List Report) :
    misfit? pieces (rs ++ [.ok []]) = misfit? pieces rs := by simp [misfit?]

lemma misfit?_first {pieces : List Piece} {rs : List Report} (h : first? rs = none) (b : Bool)
    (bs : List Bool) :
    misfit? pieces (rs ++ [.ok (b :: bs)]) = Waiter.beyond? pieces (b :: bs).length := by
  rw [misfit?, first?_known, h]
  rfl

lemma misfit?_later {pieces : List Piece} {rs : List Report} {available : List Bool}
    (h : first? rs = some available) (b : Bool) (bs : List Bool) :
    misfit? pieces (rs ++ [.ok (b :: bs)]) = misfit? pieces rs := by
  rw [misfit?, misfit?, first?_known, h]
  rfl

@[simp] lemma board_error (pieces : List Piece) (rs : List Report) (e : PieceError) :
    board pieces (rs ++ [.error e]) = board pieces rs := by simp [board]

@[simp] lemma board_unknown (pieces : List Piece) (rs : List Report) :
    board pieces (rs ++ [.ok []]) = board pieces rs := by simp [board]

lemma failure?_eq_none {pieces : List Piece} {rs : List Report} :
    failure? pieces rs = none ↔ misfit? pieces rs = none ∧ error? rs = none := by
  unfold failure?
  rcases misfit? pieces rs with _ | p <;> simp

/-- The calls that are over: so many pieces, at most one failure, so many times nothing. -/
def told (pieces : List Piece) (k : Nat) (failed : Option PieceError) (n : Nat) :
    List (Option (Except PieceError Piece)) :=
  (pieces.take k).map (fun p => some (.ok p)) ++ failed.toList.map (fun e => some (.error e)) ++
    List.replicate n none

lemma any_told (pieces : List Piece) (k : Nat) (failed : Option PieceError) (n : Nat) :
    ((told pieces k failed n).any fun
      | some (.ok _) => false
      | _ => true) = (failed.isSome || decide (0 < n)) := by
  have hpieces :
      (((pieces.take k).map fun p => (some (.ok p) : Option (Except PieceError Piece))).any fun
        | some (.ok _) => false
        | _ => true) = false := by
    rw [List.any_map, List.any_eq_false]
    exact fun p _ => Bool.false_ne_true
  unfold told
  rw [List.any_append, List.any_append, hpieces]
  rcases failed with _ | e <;> rcases n with _ | n <;> simp

lemma told_piece {pieces : List Piece} {k : Nat} {p : Piece} (h : pieces[k]? = some p) :
    told pieces k none 0 ++ [some (.ok p)] = told pieces (k + 1) none 0 := by
  simp [told, List.take_add_one, h]

lemma hasEnded_told {pieces : List Piece} {trace : List Mark} {k n : Nat}
    {failed : Option PieceError} (h : calls trace = told pieces k failed n) :
    hasEnded trace = (failed.isSome || decide (0 < n)) := by
  have hany := any_told pieces k failed n
  rw [← h] at hany
  exact hany

/-- Until the wait has ended, every call that is over has yielded a piece. -/
lemma calls_open {pieces : List Piece} {trace : List Mark} {k n : Nat} {failed : Option PieceError}
    (h : calls trace = told pieces k failed n) (hend : hasEnded trace = false) :
    calls trace = told pieces k none 0 := by
  rw [hasEnded_told h] at hend
  rcases failed with _ | e
  · have hn : n = 0 := by simpa using hend
    rw [h, hn]
  · simp at hend

/-! ### What every step keeps -/

/-- The waiter is as the history makes it. -/
structure Kept (pieces : List Piece) (trace : List Mark) (w : Waiter) : Prop where
  request : w.pieces = pieces
  available : w.available = board pieces (reports trace)
  failure : w.failure = failure? pieces (reports trace)
  finished : w.finished = hasEnded trace
  asking : ∀ poller, w.poller = some poller →
    poller.answer = (heard trace).1 ∧ poller.checked = (first? (reports trace)).isSome
  poller : w.poller = none ↔ hasEnded trace = true ∨ failure? pieces (reports trace) ≠ none ∨
    allThere pieces (reports trace) = true
  within : w.cursor ≤ pieces.length
  order : ∃ failed n, calls trace = told pieces w.cursor failed n ∧
    (∀ e, failed = some e → failure? pieces (reports trace) = some e) ∧
    (failed = none → 0 < n → w.cursor = pieces.length)
  early : board pieces (reports trace) = [] → w.cursor = 0

variable {pieces : List Piece} {trace : List Mark} {w : Waiter}

lemma Kept.calls_eq (h : Kept pieces trace w) (hend : hasEnded trace = false) :
    calls trace = told pieces w.cursor none 0 := by
  obtain ⟨failed, n, hcalls, -, -⟩ := h.order
  exact calls_open hcalls hend

lemma Kept.length_calls (h : Kept pieces trace w) (hend : hasEnded trace = false) :
    (calls trace).length = w.cursor := by
  simp [h.calls_eq hend, told, Nat.min_eq_left h.within]

lemma Kept.orphan (h : Kept pieces trace w) (hend : hasEnded trace = false) (hn : w.poller = none)
    (hf : failure? pieces (reports trace) = none) {p : Piece} (hp : p ∈ pieces) :
    Waiter.has (board pieces (reports trace)) p = true := by
  have hall : allThere pieces (reports trace) = true := by simpa [hend, hf] using h.poller.mp hn
  exact List.all_eq_true.mp hall p hp

/-- **The next call answers what is due.** -/
theorem Kept.poll_fst (h : Kept pieces trace w) : w.poll.1 = due pieces trace := by
  rw [fst_poll, due, h.finished, h.request, h.available, h.failure]
  rcases hend : hasEnded trace with _ | _
  · rw [h.length_calls hend]
    rcases hc : pieces[w.cursor]? with _ | p
    · rfl
    rcases hp : Waiter.has (board pieces (reports trace)) p with _ | _
    · rcases hf : failure? pieces (reports trace) with _ | e
      · have hn : w.poller ≠ none := fun hn => by
          rw [h.orphan hend hn hf (List.mem_of_getElem? hc)] at hp
          cases hp
        simp [hp, hn]
      · simp [hp]
    · simp [hp]
  · rfl

lemma hasEnded_answered (trace : List Mark) (answer : Polled (Except PieceError Piece)) :
    hasEnded (trace ++ [.answered answer]) = (hasEnded trace || match answer with
      | .item (.ok _) => false
      | .item (.error _) => true
      | .done => true
      | _ => false) := by
  rcases answer with _ | (_ | _) | _ | _ <;> simp [hasEnded]

@[simp] lemma reports_answered (trace : List Mark) (answer : Polled (Except PieceError Piece)) :
    reports (trace ++ [.answered answer]) = reports trace := by simp [reports]

/-- What a call that is over with `result` adds to those before it. -/
lemma Kept.order_ended (h : Kept pieces trace w) (hend : hasEnded trace = false)
    {result : Option (Except PieceError Piece)}
    (hr : (result = none ∧ w.cursor = pieces.length) ∨
      ∃ e, result = some (.error e) ∧ failure? pieces (reports trace) = some e) :
    ∃ failed n, calls trace ++ [result] = told pieces w.cursor failed n ∧
      (∀ e, failed = some e → failure? pieces (reports trace) = some e) ∧
      (failed = none → 0 < n → w.cursor = pieces.length) := by
  rw [h.calls_eq hend]
  rcases hr with ⟨rfl, hlast⟩ | ⟨e, rfl, he⟩
  · exact ⟨none, 1, by simp [told], by simp, fun _ _ => hlast⟩
  · exact ⟨some e, 0, by simp [told], by simpa using he, by simp⟩

lemma Kept.ended (h : Kept pieces trace w) (hend : hasEnded trace = false)
    {answer : Polled (Except PieceError Piece)} (result : Option (Except PieceError Piece))
    (hcalls : calls (trace ++ [.answered answer]) = calls trace ++ [result])
    (hover : hasEnded (trace ++ [.answered answer]) = true)
    (hr : (result = none ∧ w.cursor = pieces.length) ∨
      ∃ e, result = some (.error e) ∧ failure? pieces (reports trace) = some e) :
    Kept pieces (trace ++ [.answered answer]) (Waiting.ended w) where
  request := h.request
  available := by simpa [Waiting.ended] using h.available
  failure := by simpa [Waiting.ended] using h.failure
  finished := by simp [Waiting.ended, hover]
  asking poller hp := by cases hp
  poller := by simp [Waiting.ended, hover]
  within := h.within
  order := by
    rw [hcalls, reports_answered]
    exact h.order_ended hend hr
  early := by simpa [Waiting.ended] using h.early

lemma Kept.answered (h : Kept pieces trace w) :
    Kept pieces (trace ++ [.answered w.poll.1]) w.poll.2 := by
  have hpolls := polls_poll w
  generalize w.poll.1 = answer, w.poll.2 = w' at hpolls
  cases hpolls with
  | past hf =>
    have hend : hasEnded trace = true := h.finished ▸ hf
    refine { h with
      available := by simpa using h.available
      failure := by simpa using h.failure
      finished := by simp [hasEnded_answered, hf]
      asking := by simpa using h.asking
      poller := by simpa [hasEnded_answered, hend] using h.poller
      order := ?_
      early := by simpa using h.early }
    obtain ⟨failed, n, hcalls, hfailed, hlast⟩ := h.order
    refine ⟨failed, n + 1, ?_, by simpa using hfailed, fun hnone _ => ?_⟩
    · simp [hcalls, told, List.replicate_succ']
    · refine hlast hnone (Nat.pos_of_ne_zero fun hn => ?_)
      have hany := any_told pieces w.cursor failed n
      rw [← hcalls] at hany
      have hany : hasEnded trace = _ := hany
      simp [hnone, hn, hend] at hany
  | exhausted hf hc =>
    rw [h.request, List.getElem?_eq_none_iff] at hc
    exact h.ended (h.finished ▸ hf) none (by simp) (by simp [hasEnded_answered])
      (.inl ⟨rfl, Nat.le_antisymm h.within hc⟩)
  | @yielded p hf hc hp =>
    have hend : hasEnded trace = false := h.finished ▸ hf
    rw [h.request] at hc
    have hlt := (List.getElem?_eq_some_iff.mp hc).1
    refine { h with
      available := by simpa using h.available
      failure := by simpa using h.failure
      finished := by simp [hasEnded_answered, hend, hf]
      asking := by simpa using h.asking
      poller := by simpa [hasEnded_answered] using h.poller
      within := hlt
      order := ⟨none, 0, ?_, by simp, by simp⟩
      early := fun hnone => ?_ }
    · rw [calls_snoc, h.calls_eq hend]
      exact told_piece hc
    · -- nothing is there on an empty board
      rw [reports_answered, ← h.available] at hnone
      rw [hnone, has_nil] at hp
      cases hp
  | @failed p e hf hc hp he =>
    exact h.ended (h.finished ▸ hf) (some (.error e)) (by simp)
      (by simp [hasEnded_answered]) (.inr ⟨e, rfl, h.failure ▸ he⟩)
  | orphaned hf hc hp he hn =>
    -- without a failure the poller stops only when everything is there
    have hhas := h.orphan (h.finished ▸ hf) hn (h.failure ▸ he)
      (h.request ▸ List.mem_of_getElem? hc)
    rw [← h.available, hp] at hhas
    cases hhas
  | waits =>
    refine { h with
      available := by simpa using h.available
      failure := by simpa using h.failure
      finished := by simpa [hasEnded_answered] using h.finished
      asking := by simpa using h.asking
      poller := by simpa [hasEnded_answered] using h.poller
      order := by simpa using h.order
      early := by simpa using h.early }

@[simp] lemma hasEnded_published (trace : List Mark) :
    hasEnded (trace ++ [.published]) = hasEnded trace := by simp [hasEnded]

lemma Kept.of_report (h : Kept pieces trace w) (hend : hasEnded trace = false) {rs : List Report}
    (hreports : reports (trace ++ [.published]) = rs) {w' : Waiter}
    (hrequest : w'.pieces = w.pieces) (hcursor : w'.cursor = w.cursor)
    (hfinished : w'.finished = w.finished) (havailable : w'.available = board pieces rs)
    (hfailure : w'.failure = failure? pieces rs) (hasking : ∀ poller, w'.poller = some poller →
      poller.answer = none ∧ poller.checked = (first? rs).isSome)
    (hpoller : w'.poller = none ↔ failure? pieces rs ≠ none ∨ allThere pieces rs = true)
    (hearly : board pieces rs = [] → board pieces (reports trace) = []) :
    Kept pieces (trace ++ [.published]) w' where
  request := hrequest.trans h.request
  available := by rw [hreports, havailable]
  failure := by rw [hreports, hfailure]
  finished := by rw [hfinished, h.finished, hasEnded_published]
  asking poller hp := by simpa [hreports] using hasking poller hp
  poller := by simpa [hreports, hend] using hpoller
  within := hcursor ▸ h.within
  order := ⟨none, 0, by simpa [hcursor] using h.calls_eq hend, by simp, by simp⟩
  early hnil := hcursor ▸ h.early (hearly (hreports ▸ hnil))

lemma Kept.published (h : Kept pieces trace w) {poller : Poller} {report : Report}
    (hp : w.poller = some poller) (hr : poller.answer = some report) (now : Nat) :
    Kept pieces (trace ++ [.published]) (w.publish now) := by
  obtain ⟨hanswer, hchecked⟩ := h.asking poller hp
  have hreports : reports (trace ++ [.published]) = reports trace ++ [report] := by
    rw [reports, heard_published, ← hanswer, hr]
    rfl
  -- the poller is there, so nothing has ended or failed yet
  obtain ⟨hend, hfail, hmissing⟩ : hasEnded trace = false ∧ failure? pieces (reports trace) = none ∧
      allThere pieces (reports trace) = false := by
    have hnot := (not_congr h.poller).mp (by simp [hp])
    simpa [not_or] using hnot
  obtain ⟨hfit, herror⟩ := failure?_eq_none.mp hfail
  have hpub := publishes_publish hp hr now
  generalize w.publish now = w' at hpub
  cases hpub with
  | failed e =>
    have hwhy : failure? pieces (reports trace ++ [.error e]) = some e := by
      simp [failure?, hfit, error?_error, herror]
    refine h.of_report hend hreports rfl rfl rfl ?_ hwhy.symm (fun _ hnone => by cases hnone) ?_ ?_
    · simpa using h.available
    · simp [hwhy]
    · simp
  | unknown =>
    have hsame : failure? pieces (reports trace ++ [.ok []]) = none := by
      simp [failure?, hfit, herror]
    refine h.of_report hend hreports rfl rfl rfl ?_ ?_ (fun poller' hsome => ?_) ?_ ?_
    · simpa using h.available
    · rw [hsame, h.failure, hfail]
    · obtain rfl := Option.some.inj hsome
      exact ⟨rfl, by simpa [again] using hchecked⟩
    · simpa [hsame, allThere] using hmissing
    · simp
  | @misfit b bs bad hc hb =>
    have hfirst : first? (reports trace) = none := by simpa [hc] using hchecked
    have hbad : misfit? pieces (reports trace ++ [.ok (b :: bs)]) = some bad := by
      rw [misfit?_first hfirst, ← h.request, hb]
    have hwhy : failure? pieces (reports trace ++ [.ok (b :: bs)]) = some (.outOfRange bad) := by
      simp [failure?, hbad]
    have hboard : board pieces (reports trace ++ [.ok (b :: bs)]) = [] := by simp [board, hbad]
    refine h.of_report hend hreports rfl rfl rfl ?_ hwhy.symm (fun _ hnone => by cases hnone) ?_ ?_
    · rw [hboard, h.available, board_eq_nil hfirst]
    · simp [hwhy]
    · exact fun _ => board_eq_nil hfirst
  | @known b bs hfits =>
    have hnew : misfit? pieces (reports trace ++ [.ok (b :: bs)]) = none := by
      rcases hfirst : first? (reports trace) with _ | available
      · rw [misfit?_first hfirst, ← h.request]
        rw [hchecked, hfirst] at hfits
        simpa using hfits
      · rw [misfit?_later hfirst, hfit]
    have hboard : board pieces (reports trace ++ [.ok (b :: bs)]) = b :: bs := by
      rw [board_of_fit hnew, last_known]
    have hsame : failure? pieces (reports trace ++ [.ok (b :: bs)]) = none := by
      simp [failure?, hnew, herror]
    refine h.of_report hend hreports rfl rfl rfl hboard.symm ?_ (fun poller' hsome => ?_) ?_ ?_
    · rw [hsame, h.failure, hfail]
    · dsimp only at hsome
      split_ifs at hsome
      obtain rfl := Option.some.inj hsome
      exact ⟨rfl, by simp [again, first?_known]⟩
    · simp [hsame, allThere, hboard, h.request]
    · simp [hboard]

lemma Kept.asked (h : Kept pieces trace w) {poller : Poller} (report : Report)
    (hp : w.poller = some poller) : Kept pieces (trace ++ [.asked report])
      { w with poller := some { poller with answer := some report } } where
  request := h.request
  available := by simpa [reports] using h.available
  failure := by simpa [reports] using h.failure
  finished := by simpa [hasEnded] using h.finished
  asking poller' hsome := by
    obtain rfl := Option.some.inj hsome
    exact ⟨by simp, by simpa [reports] using (h.asking poller hp).2⟩
  poller := by simpa [reports, hasEnded, hp] using h.poller
  within := h.within
  order := by simpa [reports] using h.order
  early := by simpa [reports] using h.early

lemma Kept.quiet (h : Kept pieces trace w) : Kept pieces (trace ++ [.quiet]) w := by
  refine { h with
    available := by simpa [reports] using h.available
    failure := by simpa [reports] using h.failure
    finished := by simpa [hasEnded] using h.finished
    asking := by simpa [reports] using h.asking
    poller := by simpa [reports, hasEnded] using h.poller
    order := by simpa [reports] using h.order
    early := by simpa [reports] using h.early }

theorem kept_effect {mark : Mark} {w' : Waiter} (h : Kept pieces trace w) (he : Effect w mark w') :
    Kept pieces (trace ++ [mark]) w' := by
  cases he with
  | asked hp hidle => exact h.asked _ hp
  | published hp hr now => exact h.published hp hr now
  | answered => exact h.answered
  | quiet => exact h.quiet

/-- No step changes which torrent is asked about. -/
lemma handle_effect {mark : Mark} {w' : Waiter} (he : Effect w mark w') : w'.handle = w.handle := by
  cases he with
  | asked | quiet => rfl
  | published hp hr now =>
    have hpub := publishes_publish hp hr now
    generalize w.publish now = w' at hpub
    cases hpub <;> rfl
  | answered =>
    have hpolls := polls_poll w
    generalize w.poll.1 = answer, w.poll.2 = w' at hpolls
    cases hpolls <;> rfl

/-! ### Any number of steps -/

section Runs

variable {σ : Type} [Engine σ] {handle : Handle} {id : Nat} {p : Pipeline σ}

lemma kept_start {q : Pipeline σ} {interval : Duration} (hpos : 0 < interval.nanos)
    (h : p.wait handle pieces interval = (.ok id, q)) : ∃ w, q.waiters.get? id = some w ∧
      w.handle = handle ∧ Kept pieces [.asked (Waiter.query handle p.engine).1, .published] w := by
  obtain ⟨w, hbegins, -, -, hget⟩ := wait_ok h
  have hne : interval.nanos ≠ 0 := Nat.ne_of_gt hpos
  cases hbegins with
  | @begun available _ hq hfits =>
    refine ⟨_, hget, rfl, ?_⟩
    rw [hq]
    have hreports : reports [.asked (.ok available), .published] = [.ok available] := rfl
    have hfit : misfit? pieces [.ok available] = none := by
      rcases available with _ | ⟨b, bs⟩
      · rfl
      · exact hfits.resolve_left (List.cons_ne_nil b bs)
    have hboard : board pieces [.ok available] = available := by
      rw [board_of_fit hfit]
      rcases available with _ | ⟨b, bs⟩ <;> rfl
    have hfail : failure? pieces [.ok available] = none := failure?_eq_none.mpr ⟨hfit, rfl⟩
    exact {
      request := rfl
      available := by rw [hreports, hboard]
      failure := by rw [hreports, hfail]
      finished := rfl
      asking := fun poller hp => by
        dsimp only at hp
        split_ifs at hp
        obtain rfl := Option.some.inj hp
        rcases available with _ | ⟨b, bs⟩ <;> exact ⟨rfl, rfl⟩
      poller := by simp [hne, hreports, hfail, allThere, hboard, hasEnded, calls]
      within := Nat.zero_le _
      order := ⟨none, 0, by simp [calls, told], by simp, by simp⟩
      early := fun _ => rfl }

theorem kept_run {trace : List Mark} (hrun : Run handle pieces id trace p) :
    ∃ w, p.waiters.get? id = some w ∧ w.handle = handle ∧ Kept pieces trace w := by
  induction hrun with
  | start hpos h => exact kept_start hpos h
  | snoc _ hstep ih =>
    obtain ⟨w, hget, hhandle, hkept⟩ := ih
    obtain ⟨w', hget', he⟩ := effect_step hget hstep
    exact ⟨w', hget', (handle_effect he).trans hhandle, kept_effect hkept he⟩

end Runs

end TorrentFlow.Waiting
