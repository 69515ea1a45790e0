import Mathlib.Data.List.Induction
import TorrentFlow.Pipeline.Waiting

/-!
One wait as a system that takes one step after another, over any engine. Its poller asks and
publishes, its owner asks for the next piece, at any moments, and everything else goes its own way
in between. What the owner is to be told is read off the history: what was reported, and which calls
are over.
-/

namespace TorrentFlow.Waiting

abbrev Report := Except PieceError (List Bool)

inductive Mark where
  | asked (report : Report)
  | published
  | answered (answer : Polled (Except PieceError Piece))
  | quiet

/-! ### The history -/

/-- What was published so far, and before it what was said and not yet published. -/
def heard (trace : List Mark) : Option Report × List Report :=
  trace.foldl (fun (inFlight, reports) mark => match mark with
    | .asked report => (some report, reports)
    | .published => (none, reports ++ inFlight.toList)
    | _ => (inFlight, reports)) (none, [])

def reports (trace : List Mark) : List Report := (heard trace).2

/-- The first report that knows the pieces. -/
def first? (reports : List Report) : Option (List Bool) :=
  reports.findSome? fun
    | .ok (b :: bs) => some (b :: bs)
    | _ => none

def last (reports : List Report) : List Bool :=
  reports.foldl (fun known report => match report with
    | .ok (b :: bs) => b :: bs
    | _ => known) []

def error? (reports : List Report) : Option PieceError :=
  reports.findSome? fun
    | .error e => some e
    | _ => none

/-- The first piece of the request that does not exist, once the number of pieces is known. -/
def misfit? (pieces : List Piece) (reports : List Report) : Option Piece :=
  (first? reports).bind fun available => Waiter.beyond? pieces available.length

def failure? (pieces : List Piece) (reports : List Report) : Option PieceError :=
  match misfit? pieces reports with
  | some p => some (.outOfRange p)
  | none => error? reports

/-- The pieces that are there, as the owner is told: the last report that knows them, if the request
fits the torrent. -/
def board (pieces : List Piece) (reports : List Report) : List Bool :=
  if (misfit? pieces reports).isSome then [] else last reports

def allThere (pieces : List Piece) (reports : List Report) : Bool :=
  pieces.all (Waiter.has (board pieces reports))

def calls (trace : List Mark) : List (Option (Except PieceError Piece)) :=
  trace.filterMap fun
    | .answered (.item result) => some (some result)
    | .answered .done => some none
    | _ => none

/-- A call that is not over with a piece ends the wait. -/
def hasEnded (trace : List Mark) : Bool :=
  (calls trace).any fun
    | some (.ok _) => false
    | _ => true

/-- What the next call is to answer. -/
def due (pieces : List Piece) (trace : List Mark) : Polled (Except PieceError Piece) :=
  if hasEnded trace then .done
  else
    match pieces[(calls trace).length]? with
    | none => .done
    | some p =>
      if Waiter.has (board pieces (reports trace)) p then .item (.ok p)
      else
        match failure? pieces (reports trace) with
        | some e => .item (.error e)
        | none => .pending

section Snoc

variable (trace : List Mark) (rs : List Report)

@[simp] lemma heard_asked (report : Report) :
    heard (trace ++ [.asked report]) = (some report, reports trace) := by
  simp [heard, reports]

@[simp] lemma heard_published : heard (trace ++ [.published]) =
    (none, reports trace ++ (heard trace).1.toList) := by
  simp [heard, reports]

@[simp] lemma heard_answered (answer : Polled (Except PieceError Piece)) :
    heard (trace ++ [.answered answer]) = heard trace := by
  simp [heard]

@[simp] lemma heard_quiet : heard (trace ++ [.quiet]) = heard trace := by simp [heard]

@[simp] lemma calls_snoc (mark : Mark) : calls (trace ++ [mark]) = calls trace ++
    (match mark with
      | .answered (.item result) => [some result]
      | .answered .done => [none]
      | _ => []) := by
  rcases mark with _ | _ | _ | _ <;> simp [calls]
  rename_i answer
  cases answer <;> rfl

@[simp] lemma first?_error (e : PieceError) : first? (rs ++ [.error e]) = first? rs := by
  simp [first?]

@[simp] lemma first?_unknown : first? (rs ++ [.ok []]) = first? rs := by simp [first?]

lemma first?_known (b : Bool) (bs : List Bool) :
    first? (rs ++ [.ok (b :: bs)]) = (first? rs).or (some (b :: bs)) := by
  simp only [first?, List.findSome?_append]
  rfl

@[simp] lemma last_error (e : PieceError) : last (rs ++ [.error e]) = last rs := by simp [last]

@[simp] lemma last_unknown : last (rs ++ [.ok []]) = last rs := by simp [last]

@[simp] lemma last_known (b : Bool) (bs : List Bool) : last (rs ++ [.ok (b :: bs)]) = b :: bs := by
  simp [last]

lemma error?_error (e : PieceError) : error? (rs ++ [.error e]) = (error? rs).or (some e) := by
  simp only [error?, List.findSome?_append]
  rfl

@[simp] lemma error?_ok (available : List Bool) : error? (rs ++ [.ok available]) = error? rs := by
  simp [error?]

end Snoc

/-! ### The steps -/

section Steps

variable {σ : Type} [Engine σ]

inductive Step (id : Nat) : Pipeline σ → Mark → Pipeline σ → Prop
  /-- The poller asks, unless it has been answered and has not published that yet. -/
  | ask {p : Pipeline σ} {w : Waiter} {poller : Poller} (hw : p.waiters.get? id = some w)
      (hp : w.poller = some poller) (hidle : poller.answer = none) :
    Step id p (.asked (Waiter.query w.handle p.engine).1) (p.askPoll id)
  | publish {p : Pipeline σ} {w : Waiter} {poller : Poller} {report : Report}
      (hw : p.waiters.get? id = some w) (hp : w.poller = some poller)
      (hr : poller.answer = some report) : Step id p .published (p.publishPoll id)
  | next (p : Pipeline σ) : Step id p (.answered (p.pollWaiter id).1) (p.pollWaiter id).2
  /-- Anything that leaves this one waiter alone. The engine may have changed in any way. -/
  | aside {p q : Pipeline σ} (h : q.waiters.get? id = p.waiters.get? id) : Step id p .quiet q

/-- A wait that was begun, with everything that happened to it since. -/
inductive Run (handle : Handle) (pieces : List Piece) : Nat → List Mark → Pipeline σ → Prop
  | start {p q : Pipeline σ} {interval : Duration} {id : Nat} (hpos : 0 < interval.nanos)
      (h : p.wait handle pieces interval = (.ok id, q)) :
    Run handle pieces id [.asked (Waiter.query handle p.engine).1, .published] q
  | snoc {p q : Pipeline σ} {id : Nat} {trace : List Mark} {mark : Mark}
      (h : Run handle pieces id trace p) (hstep : Step id p mark q) :
    Run handle pieces id (trace ++ [mark]) q

inductive Begins (handle : Handle) (pieces : List Piece) (interval now : Nat) (engine : σ) :
    Except PieceError Waiter → Prop
  | negative {bad : Piece} (hn : Waiter.negative? pieces = some bad) :
    Begins handle pieces interval now engine (.error (.outOfRange bad))
  | refused {e : PieceError} (hn : Waiter.negative? pieces = none)
      (hq : (Waiter.query handle engine).1 = .error e) :
    Begins handle pieces interval now engine (.error e)
  | misfit {b : Bool} {bs : List Bool} {bad : Piece} (hn : Waiter.negative? pieces = none)
      (hq : (Waiter.query handle engine).1 = .ok (b :: bs))
      (hb : Waiter.beyond? pieces (b :: bs).length = some bad) :
    Begins handle pieces interval now engine (.error (.outOfRange bad))
  | begun {available : List Bool} (hn : Waiter.negative? pieces = none)
      (hq : (Waiter.query handle engine).1 = .ok available)
      (hfits : available = [] ∨ Waiter.beyond? pieces available.length = none) :
    Begins handle pieces interval now engine (.ok {
      handle, pieces, available
      poller := if interval = 0 ∨ pieces.all (Waiter.has available) = true then none
        else some ⟨interval, now + interval, !available.isEmpty, none⟩ })

theorem begins_start (handle : Handle) (pieces : List Piece) (interval now : Nat) (engine : σ) :
    Begins handle pieces interval now engine
    (Waiter.start handle pieces interval now engine).1 := by
  unfold Waiter.start
  rcases hn : Waiter.negative? pieces with _ | bad
  · rcases hq : Waiter.query handle engine with ⟨e | available, engine'⟩
    · exact .refused hn (by rw [hq])
    have hq₁ : (Waiter.query handle engine).1 = .ok available := by rw [hq]
    rcases hb : (if available.isEmpty then none else Waiter.beyond? pieces available.length)
      with _ | bad <;> simp only [hb]
    · have hfits : available = [] ∨ Waiter.beyond? pieces available.length = none := by
        simpa [ite_eq_left_iff, or_iff_not_imp_left] using hb
      have hbegun : Begins handle pieces interval now engine _ := .begun hn hq₁ hfits
      by_cases hover : interval = 0 ∨ pieces.all (Waiter.has available) = true
      · rw [if_pos hover] at hbegun
        rwa [if_pos (by simpa [Waiter.isSatisfied] using hover)]
      · rw [if_neg hover] at hbegun
        rwa [if_neg (by simpa [Waiter.isSatisfied] using hover)]
    · rcases available with _ | ⟨b, bs⟩
      · cases hb
      · exact .misfit hn hq₁ hb
  · exact .negative hn

lemma wait_ok {p q : Pipeline σ} {handle : Handle} {pieces : List Piece}
    {interval : Duration} {id : Nat} (h : p.wait handle pieces interval = (.ok id, q)) : ∃ w,
      Begins handle pieces interval.nanos p.now p.engine (.ok w) ∧ id = p.nextScope ∧
      q.nextScope = p.nextScope + 1 ∧ q.waiters.get? id = some w := by
  have hbegins := begins_start handle pieces interval.nanos p.now p.engine
  unfold Pipeline.wait at h
  rcases hs : Waiter.start handle pieces interval.nanos p.now p.engine with ⟨_ | w, engine⟩ <;>
    simp only [hs, Prod.mk.injEq, reduceCtorEq, false_and, Except.ok.injEq] at h
  obtain ⟨rfl, rfl⟩ := h
  rw [hs] at hbegins
  exact ⟨w, hbegins, rfl, rfl, by simp [Pipeline.putWaiter]⟩

lemma wait_error {p : Pipeline σ} {handle : Handle} {pieces : List Piece} {interval : Duration}
    {e : PieceError} (h : (p.wait handle pieces interval).1 = .error e) :
    Begins handle pieces interval.nanos p.now p.engine (.error e) := by
  have hbegins := begins_start handle pieces interval.nanos p.now p.engine
  unfold Pipeline.wait at h
  rcases hs : Waiter.start handle pieces interval.nanos p.now p.engine with ⟨e' | w, engine⟩ <;>
    rw [hs] at h hbegins <;> cases h
  exact hbegins

inductive Effect (w : Waiter) : Mark → Waiter → Prop
  | asked {poller : Poller} {report : Report} (hp : w.poller = some poller)
      (hidle : poller.answer = none) :
    Effect w (.asked report) { w with poller := some { poller with answer := some report } }
  | published {poller : Poller} {report : Report} (hp : w.poller = some poller)
      (hr : poller.answer = some report) (now : Nat) : Effect w .published (w.publish now)
  | answered : Effect w (.answered w.poll.1) w.poll.2
  | quiet : Effect w .quiet w

/-- **Everything that a step can do.** -/
theorem effect_step {p q : Pipeline σ} {id : Nat} {mark : Mark} {w : Waiter}
    (hget : p.waiters.get? id = some w) (hstep : Step id p mark q) :
    ∃ w', q.waiters.get? id = some w' ∧ Effect w mark w' := by
  cases hstep with
  | ask hw hp hidle =>
    obtain rfl : w = _ := Option.some.inj (hget.symm.trans hw)
    refine ⟨_, ?_, .asked hp hidle⟩
    simp [Pipeline.askPoll, hget, Waiter.ask, hp, Pipeline.putWaiter]
  | publish hw hp hr =>
    obtain rfl : w = _ := Option.some.inj (hget.symm.trans hw)
    refine ⟨_, ?_, .published hp hr p.now⟩
    simp [Pipeline.publishPoll, hget, Pipeline.putWaiter]
  | next =>
    refine ⟨w.poll.2, ?_, ?_⟩
    · simp [Pipeline.pollWaiter, hget, Pipeline.putWaiter]
    · have hanswer : (p.pollWaiter id).1 = w.poll.1 := by simp [Pipeline.pollWaiter, hget]
      rw [hanswer]
      exact .answered
  | aside h => exact ⟨w, h.trans hget, .quiet⟩

end Steps

/-! ### What one call and one report do -/

@[simp] lemma has_nil (p : Piece) : Waiter.has [] p = false := by
  unfold Waiter.has
  split <;> simp

def ended (w : Waiter) : Waiter := { w with finished := true, poller := none }

inductive Polls (w : Waiter) : Polled (Except PieceError Piece) → Waiter → Prop
  | past (hf : w.finished = true) : Polls w .done w
  | exhausted (hf : w.finished = false) (hc : w.pieces[w.cursor]? = none) : Polls w .done (ended w)
  | yielded {p : Piece} (hf : w.finished = false) (hc : w.pieces[w.cursor]? = some p)
      (hp : Waiter.has w.available p = true) :
    Polls w (.item (.ok p)) { w with cursor := w.cursor + 1 }
  | failed {p : Piece} {e : PieceError} (hf : w.finished = false)
      (hc : w.pieces[w.cursor]? = some p) (hp : Waiter.has w.available p = false)
      (he : w.failure = some e) :
    Polls w (.item (.error e)) (ended w)
  | orphaned {p : Piece} (hf : w.finished = false) (hc : w.pieces[w.cursor]? = some p)
      (hp : Waiter.has w.available p = false) (he : w.failure = none) (hn : w.poller = none) :
    Polls w (.item (.error .cancelled)) (ended w)
  | waits {p : Piece} {poller : Poller} (hf : w.finished = false)
      (hc : w.pieces[w.cursor]? = some p) (hp : Waiter.has w.available p = false)
      (he : w.failure = none) (hn : w.poller = some poller) :
    Polls w .pending w

theorem polls_poll (w : Waiter) : Polls w w.poll.1 w.poll.2 := by
  obtain ⟨handle, pieces, cursor, available, failure, poller, finished⟩ := w
  rcases finished with _ | _
  · rcases hc : pieces[cursor]? with _ | p
    · simpa [Waiter.poll, hc, ended] using Polls.exhausted rfl hc
    rcases hp : Waiter.has available p with _ | _
    · rcases failure with _ | e
      · rcases poller with _ | poller
        · simpa [Waiter.poll, hc, hp, ended] using Polls.orphaned rfl hc hp rfl rfl
        · simpa [Waiter.poll, hc, hp] using Polls.waits rfl hc hp rfl rfl
      · simpa [Waiter.poll, hc, hp, ended] using Polls.failed rfl hc hp rfl
    · simpa [Waiter.poll, hc, hp] using Polls.yielded rfl hc hp
  · exact .past rfl

/-- What a call answers, told by the waiter before it. -/
lemma fst_poll (w : Waiter) : w.poll.1 =
    if w.finished then .done
    else
      match w.pieces[w.cursor]? with
      | none => .done
      | some p =>
        if Waiter.has w.available p then .item (.ok p)
        else
          match w.failure with
          | some e => .item (.error e)
          | none => if w.poller.isNone then .item (.error .cancelled) else .pending := by
  have hpolls := polls_poll w
  generalize w.poll.1 = answer, w.poll.2 = w' at hpolls
  cases hpolls with
  | past hf => rw [hf]; rfl
  | exhausted hf hc => rw [hf, hc]; rfl
  | yielded hf hc hp => simp [hf, hc, hp]
  | failed hf hc hp he => simp [hf, hc, hp, he]
  | orphaned hf hc hp he hn => simp [hf, hc, hp, he, hn]
  | waits hf hc hp he hn => simp [hf, hc, hp, he, hn]

def again (poller : Poller) (now : Nat) (checked : Bool) : Poller :=
  { poller with due := now + poller.interval, answer := none, checked }

inductive Publishes (w : Waiter) (poller : Poller) (now : Nat) : Report → Waiter → Prop
  | failed (e : PieceError) :
    Publishes w poller now (.error e) { w with failure := some e, poller := none }
  | unknown :
      Publishes w poller now (.ok []) { w with poller := some (again poller now poller.checked) }
  | misfit {b : Bool} {bs : List Bool} {bad : Piece} (hc : poller.checked = false)
      (hb : Waiter.beyond? w.pieces (b :: bs).length = some bad) :
    Publishes w poller now (.ok (b :: bs))
      { w with failure := some (.outOfRange bad), poller := none }
  | known {b : Bool} {bs : List Bool}
      (hfit : poller.checked = true ∨ Waiter.beyond? w.pieces (b :: bs).length = none) :
    Publishes w poller now (.ok (b :: bs)) { w with
      available := b :: bs
      poller := if w.pieces.all (Waiter.has (b :: bs)) then none else some (again poller now true) }

theorem publishes_publish {w : Waiter} {poller : Poller} {report : Report}
    (hp : w.poller = some poller) (hr : poller.answer = some report) (now : Nat) :
    Publishes w poller now report (w.publish now) := by
  rcases report with e | _ | ⟨b, bs⟩
  · simpa only [Waiter.publish, hp, hr] using Publishes.failed e
  · simpa only [Waiter.publish, hp, hr, again] using Publishes.unknown
  have hknown : ∀ hfit : poller.checked = true ∨ Waiter.beyond? w.pieces (b :: bs).length = none,
      w.publish now = { w with
        available := b :: bs
        poller :=
          if w.pieces.all (Waiter.has (b :: bs)) then none else some (again poller now true) } := by
    intro hfit
    have hnone : (if poller.checked then none else Waiter.beyond? w.pieces (b :: bs).length) =
        none := by
      rcases hfit with hc | hb
      · rw [if_pos hc]
      · rw [hb, ite_self]
    simp only [Waiter.publish, hp, hr, hnone]
    by_cases hall : w.pieces.all (Waiter.has (b :: bs)) = true
    · rw [if_pos hall]
      exact if_pos hall
    · rw [if_neg hall]
      exact if_neg hall
  -- the request is compared with the number of pieces only once
  by_cases hc : poller.checked = true
  · rw [hknown (.inl hc)]
    exact .known (.inl hc)
  rcases hb : Waiter.beyond? w.pieces (b :: bs).length with _ | bad
  · rw [hknown (.inr hb)]
    exact .known (.inr hb)
  · simp only [Waiter.publish, hp, hr, if_neg hc, hb]
    exact .misfit (by simpa using hc) hb

end TorrentFlow.Waiting
