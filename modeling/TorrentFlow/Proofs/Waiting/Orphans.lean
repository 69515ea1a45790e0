import TorrentFlow.Proofs.Waiting.Contract

/-!
Waits at whatever interval. Nothing compares the interval with zero, and at an interval of no length
the poller ends before it asks anything: nobody reports more than was reported first, and an owner
who comes to a piece that was not there then is told that the wait was cancelled, though nobody
cancelled it. At every other interval there is a poller as long as there is something to find out,
and what fails is published.
-/

namespace TorrentFlow.Waiting

/-! ### The errors of a poller -/

/-- What a poller that asks may publish as the reason of a failure. -/
inductive Publishable (pieces : List Piece) : PieceError → Prop
  | gone : Publishable pieces .handleInvalid
  | engine (e : EngineError) : Publishable pieces (.engine e)
  | misfit {q : Piece} (h : q ∈ pieces) : Publishable pieces (.outOfRange q)

lemma publishable_ofEngine (pieces : List Piece) (e : EngineError) :
    Publishable pieces (.ofEngine e) := by
  unfold PieceError.ofEngine
  split_ifs
  · exact .gone
  · exact .engine e

lemma failure?_eq_some {pieces : List Piece} {rs : List Report} {e : PieceError}
    (h : failure? pieces rs = some e) : (∃ q ∈ pieces, e = .outOfRange q) ∨ .error e ∈ rs := by
  unfold failure? at h
  rcases hbad : misfit? pieces rs with _ | q
  · rw [hbad] at h
    obtain ⟨report, hmem, hreport⟩ := List.exists_of_findSome?_eq_some h
    rcases report with e' | available
    · obtain rfl := Option.some.inj hreport
      exact .inr hmem
    · cases hreport
  · rw [hbad] at h
    obtain ⟨available, -, hb⟩ := Option.bind_eq_some_iff.mp hbad
    exact .inl ⟨q, List.mem_of_find?_eq_some hb, (Option.some.inj h).symm⟩

section Begun

variable {σ : Type} [Engine σ] {handle : Handle} {pieces : List Piece}
  {interval : Duration} {id : Nat} {trace : List Mark} {p : Pipeline σ}

/-- A wait that was begun at some interval, with everything that happened to it since. -/
inductive Begun (handle : Handle) (pieces : List Piece) (interval : Duration) :
    Nat → List Mark → Pipeline σ → Prop
  | start {p q : Pipeline σ} {id : Nat} (h : p.wait handle pieces interval = (.ok id, q)) :
    Begun handle pieces interval id [.asked (Waiter.query handle p.engine).1, .published] q
  | snoc {p q : Pipeline σ} {id : Nat} {trace : List Mark} {mark : Mark}
      (h : Begun handle pieces interval id trace p) (hstep : Step id p mark q) :
    Begun handle pieces interval id (trace ++ [mark]) q

lemma Begun.run (h : Begun handle pieces interval id trace p) (hpos : 0 < interval.nanos) :
    Run handle pieces id trace p := by
  induction h with
  | start h => exact .start hpos h
  | snoc _ hstep ih => exact ih.snoc hstep

lemma query_error {engine : σ} {e : PieceError} (h : (Waiter.query handle engine).1 = .error e) :
    ∃ err, e = .ofEngine err := by
  unfold Waiter.query at h
  rcases hs : (Engine.status handle engine : Except EngineError TorrentStatus × σ)
    with ⟨err | status, engine'⟩ <;> rw [hs] at h
  · exact ⟨err, (Except.error.inj h).symm⟩
  · cases h

theorem Begun.told_by_engine (h : Begun handle pieces interval id trace p) {e : PieceError}
    (he : .error e ∈ reports trace ++ (heard trace).1.toList) : ∃ err, e = .ofEngine err := by
  induction h with
  | start => exact query_error (by simpa [heard, reports, eq_comm] using he)
  | @snoc p q id trace mark _ hstep ih =>
    cases hstep with
    | ask hw hp hidle =>
      rw [heard_asked, reports, heard_asked] at he
      rcases List.mem_append.mp he with hold | hnew
      · exact ih (List.mem_append_left _ hold)
      · exact query_error (List.mem_singleton.mp hnew).symm
    | publish =>
      rw [reports, heard_published, Option.toList_none, List.append_nil] at he
      exact ih he
    | next =>
      rw [reports_answered, heard_answered] at he
      exact ih he
    | aside =>
      rw [reports, heard_quiet] at he
      exact ih he

/-- **At an interval of some length, a wait fails only with what its poller publishes.** -/
theorem Begun.failure_publishable (h : Begun handle pieces interval id trace p) {e : PieceError}
    (he : failure? pieces (reports trace) = some e) : Publishable pieces e := by
  rcases failure?_eq_some he with ⟨q, hq, rfl⟩ | hreport
  · exact .misfit hq
  · obtain ⟨err, rfl⟩ := h.told_by_engine (List.mem_append_left _ hreport)
    exact publishable_ofEngine pieces err

end Begun

/-! ### Without a poller -/

/-- What the next call is to answer when nobody reports more than was there at first. -/
def dueAlone (pieces : List Piece) (available : List Bool) (trace : List Mark) :
    Polled (Except PieceError Piece) :=
  if hasEnded trace then .done
  else
    match pieces[(calls trace).length]? with
    | none => .done
    | some q => .item (if Waiter.has available q then .ok q else .error .cancelled)

/-- The calls of a wait without a poller: pieces that were there at first, then perhaps a
cancellation for one that was not, then nothing. -/
structure ToldAlone (pieces : List Piece) (available : List Bool) (trace : List Mark) (k : Nat)
    (failed : Option PieceError) (n : Nat) : Prop where
  calls : calls trace = told pieces k failed n
  there : ∀ q ∈ pieces.take k, Waiter.has available q = true
  last : failed = none → 0 < n → k = pieces.length
  cancelled : ∀ e, failed = some e →
    e = .cancelled ∧ ∃ q, pieces[k]? = some q ∧ Waiter.has available q = false

/-- The waiter has no poller, and is as the history makes it. -/
structure Orphan (pieces : List Piece) (available : List Bool) (trace : List Mark) (w : Waiter) :
    Prop where
  request : w.pieces = pieces
  shown : w.available = available
  poller : w.poller = none
  failure : w.failure = none
  heard : heard trace = (none, [.ok available])
  finished : w.finished = hasEnded trace
  within : w.cursor ≤ pieces.length
  order : ∃ failed n, ToldAlone pieces available trace w.cursor failed n

namespace Orphan

variable {pieces : List Piece} {available : List Bool} {trace : List Mark} {w : Waiter}

lemma calls_eq (h : Orphan pieces available trace w) (hend : hasEnded trace = false) :
    calls trace = told pieces w.cursor none 0 := by
  obtain ⟨failed, n, htold⟩ := h.order
  exact calls_open htold.calls hend

lemma length_calls (h : Orphan pieces available trace w) (hend : hasEnded trace = false) :
    (calls trace).length = w.cursor := by
  simp [h.calls_eq hend, told, Nat.min_eq_left h.within]

lemma there (h : Orphan pieces available trace w) :
    ∀ q ∈ pieces.take w.cursor, Waiter.has available q = true := by
  obtain ⟨failed, n, htold⟩ := h.order
  exact htold.there

theorem poll_fst (h : Orphan pieces available trace w) :
    w.poll.1 = dueAlone pieces available trace := by
  rw [fst_poll, dueAlone, h.finished, h.request, h.shown, h.failure, h.poller]
  rcases hend : hasEnded trace with _ | _
  · rw [h.length_calls hend]
    rcases pieces[w.cursor]? with _ | q
    · rfl
    · by_cases hq : Waiter.has available q = true <;> simp [hq]
  · rfl

lemma ended (h : Orphan pieces available trace w) {answer : Polled (Except PieceError Piece)}
    (failed : Option PieceError) (n : Nat) (hover : hasEnded (trace ++ [.answered answer]) = true)
    (htold : ToldAlone pieces available (trace ++ [.answered answer]) w.cursor failed n) :
    Orphan pieces available (trace ++ [.answered answer]) (Waiting.ended w) where
  request := h.request
  shown := h.shown
  poller := rfl
  failure := h.failure
  heard := by rw [heard_answered, h.heard]
  finished := hover.symm
  within := h.within
  order := ⟨failed, n, htold⟩

lemma answered (h : Orphan pieces available trace w) :
    Orphan pieces available (trace ++ [.answered w.poll.1]) w.poll.2 := by
  have hpolls := polls_poll w
  generalize w.poll.1 = answer, w.poll.2 = w' at hpolls
  cases hpolls with
  | past hf =>
    obtain ⟨failed, n, htold⟩ := h.order
    have hend : hasEnded trace = true := h.finished ▸ hf
    refine { h with
      heard := by rw [heard_answered, h.heard]
      finished := by simp [hasEnded_answered, hf]
      order :=
        ⟨failed, n + 1, ?_, htold.there, fun hnone _ => htold.last hnone ?_, htold.cancelled⟩ }
    · simp [htold.calls, told, List.replicate_succ']
    · rw [hasEnded_told htold.calls] at hend
      simpa [hnone] using hend
  | exhausted hf hc =>
    have hend : hasEnded trace = false := h.finished ▸ hf
    rw [h.request, List.getElem?_eq_none_iff] at hc
    refine h.ended none 1 (by simp [hasEnded_answered]) ⟨?_, h.there, ?_, ?_⟩
    · simp [h.calls_eq hend, told]
    · exact fun _ _ => Nat.le_antisymm h.within hc
    · exact fun e he => by cases he
  | @yielded q hf hc hq =>
    -- the next piece was there when the one report was made
    have hend : hasEnded trace = false := h.finished ▸ hf
    rw [h.request] at hc
    rw [h.shown] at hq
    refine { h with
      heard := by rw [heard_answered, h.heard]
      finished := by simp [hasEnded_answered, hend, hf]
      within := (List.getElem?_eq_some_iff.mp hc).1
      order := ⟨none, 0, ?_, fun x hx => ?_, by simp, by simp⟩ }
    · rw [calls_snoc, h.calls_eq hend]
      exact told_piece hc
    · rw [List.take_add_one, hc, List.mem_append] at hx
      rcases hx with hold | hnew
      · exact h.there x hold
      · rwa [List.mem_singleton.mp hnew]
  | failed _ _ _ he => rw [h.failure] at he; cases he
  | @orphaned q hf hc hq =>
    -- the next piece is missing, and nobody asks for it any more
    have hend : hasEnded trace = false := h.finished ▸ hf
    rw [h.request] at hc
    rw [h.shown] at hq
    refine h.ended (some .cancelled) 0 (by simp [hasEnded_answered])
      ⟨?_, h.there, by simp, fun e he => ?_⟩
    · simp [h.calls_eq hend, told]
    · exact ⟨(Option.some.inj he).symm, q, hc, hq⟩
  | waits _ _ _ _ hn => rw [h.poller] at hn; cases hn

/-- **Every step leaves an orphan without a poller.** -/
theorem effect (h : Orphan pieces available trace w) {mark : Mark} {w' : Waiter}
    (he : Effect w mark w') : Orphan pieces available (trace ++ [mark]) w' := by
  cases he with
  | asked hp => rw [h.poller] at hp; cases hp
  | published hp => rw [h.poller] at hp; cases hp
  | answered => exact h.answered
  | quiet =>
    obtain ⟨failed, n, htold⟩ := h.order
    exact { h with
      heard := by rw [heard_quiet, h.heard]
      finished := by simpa [hasEnded] using h.finished
      order := ⟨failed, n, by simpa using htold.calls, htold.there, htold.last, htold.cancelled⟩ }

end Orphan

section Begun

variable {σ : Type} [Engine σ] {handle : Handle} {pieces : List Piece}
  {interval : Duration} {id : Nat} {trace : List Mark} {p : Pipeline σ}

/-- A wait at an interval of no length never has a poller. -/
theorem Begun.orphan (h : Begun handle pieces interval id trace p) (hzero : interval.nanos = 0) :
    ∃ available w, p.waiters.get? id = some w ∧ Orphan pieces available trace w := by
  induction h with
  | start h =>
    obtain ⟨w, hbegins, -, -, hget⟩ := wait_ok h
    cases hbegins with
    | @begun available _ hq =>
      refine ⟨available, _, hget, ?_⟩
      rw [hq]
      exact {
        request := rfl
        shown := rfl
        poller := if_pos (.inl hzero)
        failure := rfl
        heard := rfl
        finished := rfl
        within := Nat.zero_le _
        order := ⟨none, 0, by simp [calls, told], by simp, by simp, by simp⟩ }
  | snoc _ hstep ih =>
    obtain ⟨available, w, hget, horphan⟩ := ih
    obtain ⟨w', hget', he⟩ := effect_step hget hstep
    exact ⟨available, w', hget', horphan.effect he⟩

end Begun

/-! ### Who is cancelled -/

lemma error_mem_told {pieces : List Piece} {k n : Nat} {failed : Option PieceError}
    {e : PieceError} :
    some (.error e) ∈ told pieces k failed n ↔ failed = some e := by
  have hpieces : some (.error e) ∉
      (pieces.take k).map fun p => (some (.ok p) : Option (Except PieceError Piece)) :=
      fun hmem => by
    obtain ⟨q, -, hq⟩ := List.mem_map.mp hmem
    cases hq
  simp only [told, List.mem_append, hpieces, false_or]
  simp

/-- An error is due only if it was published. -/
lemma failure?_of_due {pieces : List Piece} {trace : List Mark} {e : PieceError}
    (h : due pieces trace = .item (.error e)) : failure? pieces (reports trace) = some e := by
  unfold due at h
  split at h
  · cases h
  split at h
  · cases h
  split at h
  · cases h
  split at h
  · next hfail =>
    cases h
    exact hfail
  · cases h

/-- **A wait that nobody drops is cancelled exactly if its interval has no length and something was
missing at first.** Over any engine, for every request and every interval:

* at an interval of some length every error, one that was answered and one that the next call would
  answer, is the failure that was published: the handle is not valid, the engine failed, or a piece
  of the request does not exist;
* at an interval of no length the only report is the first one. Each call goes by that, yields the
  next piece if it was there then, and else answers that the wait was cancelled;
* so a wait that has ended was cancelled exactly in the second case, with some piece not there at
  first. -/
theorem cancelled_without_interval {σ : Type} [Engine σ] {handle : Handle} {pieces : List Piece}
    {interval : Duration} {id : Nat} {trace : List Mark} {p : Pipeline σ}
    (h : Begun handle pieces interval id trace p) :
    (0 < interval.nanos →
      ∀ e, some (.error e) ∈ calls trace ∨ (p.pollWaiter id).1 = .item (.error e) →
        failure? pieces (reports trace) = some e ∧ Publishable pieces e) ∧
      (interval.nanos = 0 → ∃ available, reports trace = [.ok available] ∧
        (p.pollWaiter id).1 = dueAlone pieces available trace ∧
        ∃ k failed n, ToldAlone pieces available trace k failed n) ∧
      (hasEnded trace = true → (some (.error .cancelled) ∈ calls trace ↔
        interval.nanos = 0 ∧ ∃ available, reports trace = [.ok available] ∧
          ∃ q ∈ pieces, Waiter.has available q = false)) := by
  have hpublished : 0 < interval.nanos →
      ∀ e, some (.error e) ∈ calls trace ∨ (p.pollWaiter id).1 = .item (.error e) →
        failure? pieces (reports trace) = some e ∧ Publishable pieces e := by
    intro hpos e he
    obtain ⟨w, hget, -, hkept⟩ := kept_run (h.run hpos)
    have hfail : failure? pieces (reports trace) = some e := by
      rcases he with hcalls | hnext
      · obtain ⟨failed, n, horder, hfailed, -⟩ := hkept.order
        rw [horder, error_mem_told] at hcalls
        exact hfailed e hcalls
      · refine failure?_of_due ?_
        rwa [← hkept.poll_fst,
          ← show (p.pollWaiter id).1 = w.poll.1 by rw [Pipeline.pollWaiter, hget]]
    exact ⟨hfail, h.failure_publishable hfail⟩
  refine ⟨hpublished, fun hzero => ?_, fun hend => ⟨fun hmem => ?_, ?_⟩⟩
  · obtain ⟨available, w, hget, horphan⟩ := h.orphan hzero
    refine ⟨available, by rw [reports, horphan.heard], ?_, w.cursor, horphan.order⟩
    rw [← horphan.poll_fst, Pipeline.pollWaiter, hget]
  · rcases Nat.eq_zero_or_pos interval.nanos with hzero | hpos
    · obtain ⟨available, w, -, horphan⟩ := h.orphan hzero
      obtain ⟨failed, n, htold⟩ := horphan.order
      rw [htold.calls, error_mem_told] at hmem
      obtain ⟨-, q, hq, hmissing⟩ := htold.cancelled _ hmem
      exact ⟨hzero, available, by rw [reports, horphan.heard], q, List.mem_of_getElem? hq, hmissing⟩
    · cases (hpublished hpos _ (.inl hmem)).2
  · rintro ⟨hzero, available, hreports, q, hq, hmissing⟩
    obtain ⟨available', w, -, horphan⟩ := h.orphan hzero
    obtain ⟨failed, n, htold⟩ := horphan.order
    rw [reports, horphan.heard] at hreports
    obtain rfl : available' = available := by simpa using hreports
    rw [htold.calls, error_mem_told]
    rcases failed with _ | e
    · -- the wait ended after the last piece, and so the missing one was yielded
      rw [hasEnded_told htold.calls] at hend
      have hall := htold.there q (by rwa [htold.last rfl (by simpa using hend), List.take_length])
      rw [hmissing] at hall
      cases hall
    · rw [(htold.cancelled e rfl).1]

/-- A torrent of two pieces of which one is there, and a wait for both at an interval of no length:
the first one is yielded, and then the wait is cancelled. -/
theorem cancelled_without_interval_halfway : ∃ (trace : List Mark) (p : Pipeline Simulated),
    Begun ⟨0, 1⟩ [⟨0⟩, ⟨1⟩] .zero 0 trace p ∧
      calls trace = [some (.ok ⟨0⟩), some (.error .cancelled)] ∧
      ∃ available, reports trace = [.ok available] ∧
        ∃ q ∈ [(⟨0⟩ : Piece), ⟨1⟩], Waiter.has available q = false := by
  let film : Handle × Simulated := Simulated.addTorrent "film" [[1], [2]] {}
  let p : Pipeline Simulated := { engine := (Simulated.feed film.1 ⟨0⟩ film.2).2, settings := {} }
  have hbegun : Begun film.1 [⟨0⟩, ⟨1⟩] .zero 0 _ (p.wait film.1 [⟨0⟩, ⟨1⟩] .zero).2 :=
    .start (p := p) (Prod.ext (by decide +kernel) rfl)
  have hcalled := (hbegun.snoc (.next _)).snoc (.next _)
  refine ⟨_, _, hcalled, by decide +kernel, ?_⟩
  exact (((cancelled_without_interval hcalled).2.2 (by decide +kernel)).mp (by decide +kernel)).2

/-- A wait that is accepted, that nobody drops and that answers all the same that it was
cancelled. -/
theorem cancelled_though_alive :
    ¬ ∀ (handle : Handle) (pieces : List Piece) (interval : Duration) (id : Nat) (trace : List Mark)
    (p : Pipeline Simulated), Begun handle pieces interval id trace p →
      (p.pollWaiter id).1 ≠ .item (.error .cancelled) := by
  intro hnever
  let film : Handle × Simulated := Simulated.addTorrent "film" [[1]] {}
  let p : Pipeline Simulated := { engine := film.2, settings := {} }
  have hbegun : Begun film.1 [⟨0⟩] .zero 0 _ (p.wait film.1 [⟨0⟩] .zero).2 := .start (p := p) rfl
  exact hnever _ _ _ _ _ _ hbegun rfl

end TorrentFlow.Waiting
