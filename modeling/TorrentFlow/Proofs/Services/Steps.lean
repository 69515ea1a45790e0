import TorrentFlow.Proofs.Delivery.Evolution
import TorrentFlow.Proofs.Windows

/-!
The services as a system that takes one step after another: torrents come and go and get their
pieces, readers are made, asked, given up and dropped, subscribers and waiters go about their
business, and the pump, the janitor and the liveness checks run in between. Deadlines are set by
readers only.

Asking a reader is one step made of several things; `Polls` and `Reading` list the ways in which it
can go.
-/

namespace TorrentFlow

namespace EngineCall

/-- A call that anybody may make: everything but deadlines, which are for the readers to set. -/
def isPublic : EngineCall → Bool
  | setDeadline .. => false
  | resetDeadline .. => false
  | _ => true

end EngineCall

namespace Pipeline

/-- The cursor at which a reader slides its window when it is asked, if it comes so far. -/
def advancing? (id : Nat) (p : Pipeline Simulated) : Option Nat := do
  let r ← p.readers.get? id
  if r.finished ∨ r.pieces.length ≤ r.cursor then none
  else
    let pieces ← r.upcoming?
    match Reader.negative? pieces with
    | some _ => none
    | none => some r.cursor

end Pipeline

namespace Services

inductive Event where
  | added (handle : Handle) (payloads : List Payload)
  | failed (handle : Handle) (piece : Piece) (error : EngineError)
  | began (id : Nat) (handle : Handle) (pieces : List Piece)
  /-- A reader was asked; if it slid its window, at this cursor. -/
  | polled (id : Nat) (advance : Option Nat) (answer : Polled (Except PieceError PieceData))
  | cancelled (id : Nat)
  | dropped (id : Nat)
  | stopped
  | quiet

namespace Event

def ofCall (s : Simulated) : EngineCall → Event
  | .add name payloads state => added (Simulated.insertTorrent name payloads state s).1 payloads
  | .fail h q e => failed h q e
  | _ => quiet

def ofNote : Delivery.Note → Event
  | .called engine call => ofCall engine call
  | .stopped => stopped
  | _ => quiet

def reader? : Event → Option Nat
  | began id _ _ => some id
  | polled id _ _ => some id
  | cancelled id => some id
  | dropped id => some id
  | _ => none

lemma reader?_ofCall (s : Simulated) (call : EngineCall) : (ofCall s call).reader? = none := by
  cases call <;> rfl

lemma reader?_ofNote (note : Delivery.Note) : (ofNote note).reader? = none := by
  rcases note with ⟨engine, call⟩ | _ | _ | _ | _
  · exact reader?_ofCall engine call
  all_goals rfl

end Event

/-- What others may do to delivery: they set no deadlines, and what belongs to a reader or to the
janitor they leave alone. -/
def Allowed (p : Pipeline Simulated) : Delivery.Note → Prop
  | .called _ call => call.isPublic = true
  | .received sub _ | .left sub =>
    p.janitor ≠ some sub ∧ ∀ id r, p.readers.get? id = some r → r.subscription ≠ sub
  | .stopped => True
  | .quiet => True

inductive Step : Pipeline Simulated → Event → Pipeline Simulated → Prop
  | deliver {p q : Pipeline Simulated} {note : Delivery.Note} (h : Delivery.Step p note q)
      (ha : Allowed p note) : Step p (.ofNote note) q
  | read (p : Pipeline Simulated) (handle : Handle) (pieces : List Piece) :
    Step p (.began p.nextScope handle pieces) (p.read handle pieces).2
  | next {p : Pipeline Simulated} {id : Nat} {r : Reader} (h : p.readers.get? id = some r) :
    Step p (.polled id (p.advancing? id) (p.pollReader id).1) (p.pollReader id).2
  | cancel (p : Pipeline Simulated) (id : Nat) : Step p (.cancelled id) (p.cancelReader id)
  | drop (p : Pipeline Simulated) (id : Nat) : Step p (.dropped id) (p.dropReader id)
  | janitor {p q : Pipeline Simulated} (h : p.janitorStep = some q) : Step p .quiet q
  | dismiss (p : Pipeline Simulated) : Step p .quiet p.stopJanitor
  | wait (p : Pipeline Simulated) (handle : Handle) (pieces : List Piece) (interval : Duration) :
    Step p .quiet (p.wait handle pieces interval).2
  | pollWaiter (p : Pipeline Simulated) (id : Nat) : Step p .quiet (p.pollWaiter id).2
  | dropWaiter (p : Pipeline Simulated) (id : Nat) : Step p .quiet (p.dropWaiter id)
  | askPoll (p : Pipeline Simulated) (id : Nat) : Step p .quiet (p.askPoll id)
  | publishPoll (p : Pipeline Simulated) (id : Nat) : Step p .quiet (p.publishPoll id)
  | aside (p : Pipeline Simulated) (now : Nat) (notices : List Notice) :
    Step p .quiet { p with now, notices }

/-- An engine that was called, by anybody, before there are services. -/
inductive Prepared : List Event → Simulated → Prop
  | nil (notifySupported waitSupported : Bool) : Prepared [] { notifySupported, waitSupported }
  | snoc {trace : List Event} {s : Simulated} (h : Prepared trace s) (c : EngineCall)
      (hc : c.isPublic = true) : Prepared (trace ++ [.ofCall s c]) (c.apply s)

/-- The services from their start on, with what was shown in order. -/
inductive Run (settings : Settings) : List Event → Pipeline Simulated → Prop
  | start {trace : List Event} {engine : Simulated} {p : Pipeline Simulated}
      (h : Prepared trace engine) (hp : Pipeline.start settings engine = .ok p) :
    Run settings trace p
  | snoc {trace : List Event} {p q : Pipeline Simulated} {event : Event}
      (h : Run settings trace p) (hstep : Step p event q) : Run settings (trace ++ [event]) q

/-! ### Steps on given states -/

lemma run_start (settings : Settings)
    (h : (Pipeline.start settings ({} : Simulated)).toBool = true) :
    Run settings []
      ((Pipeline.start settings ({} : Simulated)).toOption.getD (.assemble settings {})) := by
  refine .start (.nil true true) ?_
  rcases hp : Pipeline.start settings ({} : Simulated) with e | p
  · rw [hp] at h
    cases h
  · rfl

lemma step_pump (p : Pipeline Simulated) (h : (p.pumpStep 0).isSome = true) :
    Step p .quiet ((p.pumpStep 0).getD p) :=
  .deliver (Delivery.step_pumpStep p h) trivial

lemma step_call (p : Pipeline Simulated) {c : EngineCall} (hc : c.isPublic = true) :
    Step p (.ofCall p.engine c) { p with engine := c.apply p.engine } :=
  .deliver (.call p c) hc

lemma step_add (p : Pipeline Simulated) {name : String} {payloads : List Payload}
    {state : TorrentState} {h : Handle}
    (hfirst : (Simulated.insertTorrent name payloads state p.engine).1 = h) :
    Step p (.added h payloads)
      { p with engine := (EngineCall.add name payloads state).apply p.engine } :=
  hfirst ▸ step_call (c := .add name payloads state) p rfl

lemma step_next (p : Pipeline Simulated) (id : Nat) (h : (p.readers.get? id).isSome = true) :
    Step p (.polled id (p.advancing? id) (p.pollReader id).1) (p.pollReader id).2 := by
  obtain ⟨r, hr⟩ := Option.isSome_iff_exists.mp h
  exact .next hr

lemma step_waits (p : Pipeline Simulated) (id : Nat) (h : (p.readers.get? id).isSome = true)
    (hp : (match (p.pollReader id).1 with | .pending => true | _ => false) = true) :
    Step p (.polled id (p.advancing? id) .pending) (p.pollReader id).2 := by
  have hstep := step_next p id h
  rcases hanswer : (p.pollReader id).1 with _ | value | _ | _ <;> rw [hanswer] at hstep hp
  · exact hstep
  all_goals cases hp

/-! ### Asking a reader, way by way -/

/-- Yielding what is at the cursor, after taking in what is in the mailbox as long as it is
needed. -/
inductive Reading {σ : Type} [Engine σ] (id : Nat) :
    Pipeline σ → Polled (Except PieceError PieceData) → Pipeline σ → Prop
  | served {p : Pipeline σ} {r r' : Reader} {d : PieceData}
      (hr : p.readers.get? id = some r) (hs : r.serve? = some (.ok d, r')) :
    Reading id p (.item (.ok d)) (p.putReader id r')
  | soured {p : Pipeline σ} {r r' : Reader} {e : PieceError}
      (hr : p.readers.get? id = some r) (hs : r.serve? = some (.error e, r')) :
    Reading id p (.item (.error e)) ((p.putReader id r').failReader id e).2
  | waited {p : Pipeline σ} {r : Reader} (hr : p.readers.get? id = some r)
      (hs : r.serve? = none) (hp : (p.pollSubscription r.subscription).1 = none) :
    Reading id p .pending (p.pollSubscription r.subscription).2
  | failed {p : Pipeline σ} {r : Reader} {e : DeliveryError}
      (hr : p.readers.get? id = some r) (hs : r.serve? = none)
      (hp : (p.pollSubscription r.subscription).1 = some (.error e)) :
    Reading id p (.item (.error (.ofDelivery e)))
      ((p.pollSubscription r.subscription).2.failReader id (.ofDelivery e)).2
  | ousted {p : Pipeline σ} {r : Reader} {a : Alert} {e : PieceError}
      (hr : p.readers.get? id = some r) (hs : r.serve? = none)
      (hp : (p.pollSubscription r.subscription).1 = some (.ok a)) (ht : r.take a = .error e) :
    Reading id p (.item (.error e)) ((p.pollSubscription r.subscription).2.failReader id e).2
  | took {p q : Pipeline σ} {r r' : Reader} {a : Alert}
      {answer : Polled (Except PieceError PieceData)} (hr : p.readers.get? id = some r)
      (hs : r.serve? = none) (hp : (p.pollSubscription r.subscription).1 = some (.ok a))
      (ht : r.take a = .ok r')
      (h : Reading id ((p.pollSubscription r.subscription).2.putReader id r') answer q) :
    Reading id p answer q

inductive Polls {σ : Type} [Engine σ] (id : Nat) (p : Pipeline σ) (r : Reader) :
    Polled (Except PieceError PieceData) → Pipeline σ → Prop
  | past (hf : r.finished = true) : Polls id p r .done p
  | ended (hf : r.finished = false) (hc : r.pieces.length ≤ r.cursor) :
    Polls id p r .done (p.endReader id)
  | overflow (hf : r.finished = false) (hc : r.cursor < r.pieces.length)
      (hu : r.upcoming? = none) : Polls id p r .overflow p
  /-- A piece with a negative index is to be wanted next. -/
  | refused (hf : r.finished = false) (hc : r.cursor < r.pieces.length) {pieces : OrderedSet Piece}
      (hu : r.upcoming? = some pieces) {q : Piece} (hn : Reader.negative? pieces = some q) :
    Polls id p r (.item (.error (.outOfRange q))) (p.failReader id (.outOfRange q)).2
  | slipped (hf : r.finished = false) (hc : r.cursor < r.pieces.length) {pieces : OrderedSet Piece}
      (hu : r.upcoming? = some pieces) (hn : Reader.negative? pieces = none) {e : PieceError}
      (hm : (p.slideReader id r pieces).1 = some e) :
    Polls id p r (.item (.error e)) ((p.slideReader id r pieces).2.failReader id e).2
  | went (hf : r.finished = false) (hc : r.cursor < r.pieces.length) {pieces : OrderedSet Piece}
      (hu : r.upcoming? = some pieces) (hn : Reader.negative? pieces = none)
      (hm : (p.slideReader id r pieces).1 = none)
      {answer : Polled (Except PieceError PieceData)} {q : Pipeline σ}
      (h : Reading id (p.slideReader id r pieces).2 answer q) : Polls id p r answer q

/-! ### Every poll goes one of these ways -/

end Services

namespace Reader

lemma serve_ok {r r' : Reader} {d : PieceData} (h : r.serve? = some (.ok d, r')) :
    r' = { r with cursor := r.cursor + 1 } ∧ r.pieces[r.cursor]? = some d.piece ∧
      r.ready.get? d.piece = some (.ok d.data) := by
  unfold serve? at h
  rcases hp : r.pieces[r.cursor]? with _ | p
  · simp [hp] at h
  · rcases hready : r.ready.get? p with _ | _ | data <;> simp only [hp, hready] at h
    · cases h
    · cases h
    · cases h
      exact ⟨rfl, rfl, hready⟩

lemma serve_error {r r' : Reader} {e : PieceError} (h : r.serve? = some (.error e, r')) :
    r' = { r with cursor := r.cursor + 1 } ∧
      ∃ p e', r.pieces[r.cursor]? = some p ∧ r.ready.get? p = some (.error e') ∧
      e = .ofEngine e' := by
  unfold serve? at h
  rcases hp : r.pieces[r.cursor]? with _ | p
  · simp [hp] at h
  · rcases hready : r.ready.get? p with _ | e' | data <;> simp only [hp, hready] at h
    · cases h
    · cases h
      exact ⟨rfl, p, e', rfl, hready, rfl⟩
    · cases h

lemma serve_none {r : Reader} {p : Piece} (h : r.serve? = none)
    (hp : r.pieces[r.cursor]? = some p) :
    r.ready.get? p = none := by
  unfold serve? at h
  rcases hready : r.ready.get? p with _ | _ | data <;> simp only [hp, hready] at h
  · rfl
  · cases h
  · cases h

lemma upcoming?_eq {r : Reader} {pieces : OrderedSet Piece} (hu : r.upcoming? = some pieces) :
    pieces = .ofList ((r.pieces.drop r.cursor).take r.ahead) := by
  unfold upcoming? at hu
  split_ifs at hu
  exact (Option.some.inj hu).symm

lemma take_ok {r r' : Reader} {a : Alert} (h : r.take a = .ok r') :
    ∃ ready, r' = { r with ready } := by
  cases a with
  | readPiece h' name p data error =>
    simp only [take] at h
    split_ifs at h <;> cases h <;> exact ⟨_, rfl⟩
  | torrentRemoved => cases h
  | _ =>
    cases h
    exact ⟨_, rfl⟩

end Reader

namespace Services

lemma get?_putReader {σ : Type} (p : Pipeline σ) (id j : Nat) (r : Reader) :
    (p.putReader id r).readers.get? j = if j = id then some r else p.readers.get? j :=
  Table.get?_set _ _ _ _

@[simp] lemma get?_putReader_self {σ : Type} (p : Pipeline σ) (id : Nat) (r : Reader) :
    (p.putReader id r).readers.get? id = some r := by
  rw [get?_putReader, if_pos rfl]

/-- Whoever gets an alert has one alert fewer in its mailbox. -/
lemma backlog_poll {σ : Type} [Engine σ] {p : Pipeline σ} {sub : Nat} {a : Alert}
    (h : (p.pollSubscription sub).1 = some (.ok a)) :
    p.hub.backlog sub = (p.pollSubscription sub).2.hub.backlog sub + 1 := by
  rw [Pipeline.pollSubscription_fst, Hub.poll_fst] at h
  rw [Pipeline.pollSubscription_snd]
  unfold Hub.backlog
  rw [Hub.get?_onMailbox, if_pos rfl]
  rcases hs : p.hub.subscriptions.get? sub with _ | s
  · simp [hs] at h
  · have hl := Mailbox.looked_poll s.mailbox p.hub.busy
    simp only [hs, Option.bind_some] at h
    simp only [Option.map_some, hl.queue, h, Mailbox.handed, List.length_append, List.length_cons,
      List.length_nil]
    omega

/-- Whoever reads on has an answer before the fuel is used up. -/
theorem reading_readOn {σ : Type} [Engine σ] {id : Nat} {fuel : Nat} {p : Pipeline σ} {r : Reader}
    (hr : p.readers.get? id = some r) (hfuel : p.hub.backlog r.subscription < fuel) :
    Reading id p (p.readOn fuel id).1 (p.readOn fuel id).2 := by
  induction fuel generalizing p r with
  | zero => omega
  | succ fuel ih =>
    simp only [Pipeline.readOn, Pipeline.readOnce, hr]
    rcases hs : r.serve? with _ | ⟨e | d, r'⟩
    · rcases hp : p.pollSubscription r.subscription with ⟨_ | e | a, p'⟩
      · have hw : Reading id p .pending (p.pollSubscription r.subscription).2 :=
          .waited hr hs (by rw [hp])
        rw [hp] at hw
        exact hw
      · have hf := Reading.failed hr hs (e := e) (by rw [hp])
        rw [hp] at hf
        exact hf
      · rcases ht : r.take a with e | r'
        · have ho := Reading.ousted hr hs (a := a) (by rw [hp]) ht
          rw [hp] at ho
          simp only [ht]
          exact ho
        · simp only [ht]
          refine .took hr hs (by rw [hp]) ht ?_
          rw [hp]
          obtain ⟨ready, rfl⟩ := Reader.take_ok ht
          refine ih (r := { r with ready }) (get?_putReader_self _ _ _) ?_
          have hback : p.hub.backlog r.subscription = p'.hub.backlog r.subscription + 1 := by
            have hb := backlog_poll (p := p) (a := a) (by rw [hp])
            rw [hp] at hb
            exact hb
          show p'.hub.backlog r.subscription < fuel
          omega
    · exact .soured hr hs
    · exact .served hr hs

lemma moveClaims_none {σ : Type} [Engine σ] {p : Pipeline σ} {window : Nat}
    (h : p.windows.windows.get? window = none) (old new : OrderedSet Piece) :
    p.moveClaims window old new = (none, p) := by
  simp only [Pipeline.moveClaims, h]

lemma moveClaims_some {σ : Type} [Engine σ] {p : Pipeline σ} {window : Nat} {w : Window}
    (h : p.windows.windows.get? window = some w) (old new : OrderedSet Piece) :
    p.moveClaims window old new = ((w.delta old new p.engine).failure,
      { p with
        engine := (w.delta old new p.engine).engine
        windows := p.windows.put window (w.delta old new p.engine).window
        notices := p.notices ++ (w.delta old new p.engine).notices }) := by
  simp only [Pipeline.moveClaims, h]
  rfl

lemma readers_moveClaims {σ : Type} [Engine σ] (p : Pipeline σ) (window : Nat)
    (old new : OrderedSet Piece) :
    (p.moveClaims window old new).2.readers = p.readers := by
  rcases h : p.windows.windows.get? window with _ | w
  · rw [moveClaims_none h]
  · rw [moveClaims_some h]

lemma get?_slideReader {σ : Type} [Engine σ] (p : Pipeline σ) (id : Nat) {r : Reader}
    (hr : p.readers.get? id = some r) (pieces : OrderedSet Piece) :
    (p.slideReader id r pieces).2.readers.get? id =
      some (if pieces = r.current then r else r.slide pieces) := by
  unfold Pipeline.slideReader
  by_cases h : pieces = r.current
  · simp only [h, if_true]
    exact hr
  · simp only [h, if_false]
    rw [readers_moveClaims, get?_putReader_self]

/-- **Every poll of a reader goes one of the ways that `Polls` lists.** -/
theorem polls_pollReader {σ : Type} [Engine σ] {p : Pipeline σ} {id : Nat} {r : Reader}
    (hr : p.readers.get? id = some r) : Polls id p r (p.pollReader id).1 (p.pollReader id).2 := by
  unfold Pipeline.pollReader
  simp only [hr]
  by_cases hf : r.finished = true
  · simp only [hf, if_true]
    exact .past hf
  have hf' : r.finished = false := by simpa using hf
  simp only [hf', Bool.false_eq_true, if_false]
  by_cases hc : r.pieces.length ≤ r.cursor
  · simp only [hc, if_true]
    exact .ended hf' hc
  have hc' : r.cursor < r.pieces.length := Nat.lt_of_not_le hc
  simp only [hc, if_false]
  rcases hu : r.upcoming? with _ | pieces
  · exact .overflow hf' hc' hu
  rcases hn : Reader.negative? pieces with _ | q
  · simp only [hn]
    have hget := get?_slideReader p id hr pieces
    rcases hm : p.slideReader id r pieces with ⟨_ | e, p'⟩
    · refine .went hf' hc' hu hn (by rw [hm]) ?_
      rw [hm] at hget ⊢
      refine reading_readOn hget ?_
      split_ifs <;> exact Nat.lt_succ_self _
    · have hs : Polls id p r (.item (.error e))
          ((p.slideReader id r pieces).2.failReader id e).2 :=
        .slipped hf' hc' hu hn (by rw [hm])
      rw [hm] at hs
      exact hs
  · simp only [hn]
    exact .refused hf' hc' hu hn

end Services

end TorrentFlow
