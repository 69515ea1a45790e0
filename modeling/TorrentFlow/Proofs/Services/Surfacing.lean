import TorrentFlow.Engine.Bench
import TorrentFlow.Proofs.Services.Errors

/-!
Where the errors come from that users of pieces are told, over any engine and whatever goes on. The
services are a system here that writes down what the engine says of a torrent for a subscription or
a waiter, and which alerts each reader consumes. Every error that is kept in a mailbox, with a
reader or with a waiter was said so before, so that whoever is told of an engine error is told what
the engine said, once classified and otherwise as it was.
-/

namespace TorrentFlow.Surfacing

open DeadlineCall (askAll firstError)
open Services (consumed Undisturbed GoesOn Fails)

inductive Mark where
  | tracked (sub : Nat) (answer : Except EngineError Bool)
  | status (id : Nat) (answer : Except EngineError TorrentStatus)
  | heard (id : Nat) (alerts : List Alert)
  | quiet

variable {σ : Type}

section Steps

variable [Engine σ]

/-! ### The steps -/

inductive Step : Pipeline σ → Mark → Pipeline σ → Prop
  /-- The engine may change in any way. The mask, the windows, the pumps, the janitor and the clock
  concern no mailbox, no reader and no waiter. -/
  | aside (p : Pipeline σ) (engine : σ) (demand : Demand) (windows : Windows) (pumps : List Pump)
      (janitor : Option Nat) (now : Nat) (notices : List Notice) :
    Step p .quiet { p with engine, demand, windows, pumps, janitor, now, notices }
  | subscribe (p : Pipeline σ) (r : Request) : Step p .quiet (p.subscribe r).2
  | receive (p : Pipeline σ) (sub : Nat) : Step p .quiet (p.pollSubscription sub).2
  | cancel (p : Pipeline σ) (sub : Nat) : Step p .quiet (p.cancelSubscription sub)
  | unsubscribe (p : Pipeline σ) (sub : Nat) : Step p .quiet (p.unsubscribe sub)
  | askLiveness {p q : Pipeline σ} {sub : Nat} {s : Subscription} {handle : Handle}
      (hs : p.hub.subscriptions.get? sub = some s) (hl : s.liveness = .unasked handle)
      (h : p.askLiveness sub = some q) :
      Step p (.tracked sub (Engine.isTracked handle p.engine).1) q
  | answerLiveness {p q : Pipeline σ} {sub : Nat} (h : p.answerLiveness sub = some q) :
      Step p .quiet q
  | pump {p q : Pipeline σ} {k : Nat} (h : p.pumpStep k = some q) : Step p .quiet q
  | stop (p : Pipeline σ) : Step p .quiet p.stopDelivery
  | janitor {p q : Pipeline σ} (h : p.janitorStep = some q) : Step p .quiet q
  | read (p : Pipeline σ) (handle : Handle) (pieces : List Piece) :
      Step p .quiet (p.read handle pieces).2
  | next (p : Pipeline σ) (id : Nat) : Step p (.heard id (consumed id p)) (p.pollReader id).2
  | giveUp (p : Pipeline σ) (id : Nat) : Step p .quiet (p.cancelReader id)
  | drop (p : Pipeline σ) (id : Nat) : Step p .quiet (p.dropReader id)
  | wait (p : Pipeline σ) (handle : Handle) (pieces : List Piece) (interval : Duration) :
    Step p .quiet (p.wait handle pieces interval).2
  | askPoll {p : Pipeline σ} {id : Nat} {w : Waiter} {poller : Poller}
      (hw : p.waiters.get? id = some w)
      (hp : w.poller = some poller) : Step p (.status id (Engine.status w.handle p.engine).1)
      (p.askPoll id)
  | publishPoll (p : Pipeline σ) (id : Nat) : Step p .quiet (p.publishPoll id)
  | pollWaiter (p : Pipeline σ) (id : Nat) : Step p .quiet (p.pollWaiter id).2
  | dropWaiter (p : Pipeline σ) (id : Nat) : Step p .quiet (p.dropWaiter id)

inductive Run : List Mark → Pipeline σ → Prop
  | start (settings : Settings) (engine : σ) : Run [] (.assemble settings engine)
  | snoc {trace : List Mark} {mark : Mark} {p q : Pipeline σ} (h : Run trace p)
      (hstep : Step p mark q) :
    Run (trace ++ [mark]) q

end Steps

/-! ### Errors that are kept -/

/-- What the engine said of the torrent of a subscription, as delivery keeps it. -/
inductive Refusal (trace : List Mark) (sub : Nat) : DeliveryError → Prop
  | gone (h : .tracked sub (.ok false) ∈ trace) : Refusal trace sub .handleInvalid
  | failed {err : EngineError} (h : .tracked sub (.error err) ∈ trace) :
      Refusal trace sub (.ofEngine err)

/-- What the engine said when it was asked for a waiter, as the waiter keeps it. -/
inductive Report (trace : List Mark) (id : Nat) : PieceError → Prop
  | failed {err : EngineError} (h : .status id (.error err) ∈ trace) :
      Report trace id (.ofEngine err)

structure HubSourced (trace : List Mark) (h : Hub) : Prop where
  answered : ∀ sub answer, h.answered? sub = some answer → .tracked sub answer ∈ trace
  failed : ∀ sub e, h.failure? sub = some e → Refusal trace sub e

/-- A failure that a reader has for a piece came with an alert that it consumed. -/
def ReaderSourced (trace : List Mark) (id : Nat) (r : Reader) : Prop :=
  ∀ x err, r.ready.get? x = some (.error err) →
    ∃ heard, .heard id heard ∈ trace ∧ ∃ a ∈ heard, a.says? x = some (.error err)

structure WaiterSourced (trace : List Mark) (id : Nat) (w : Waiter) : Prop where
  asked : ∀ poller e, w.poller = some poller → poller.answer = some (.error e) → Report trace id e
  failed : ∀ e, w.failure = some e → (∃ x ∈ w.pieces, e = .outOfRange x) ∨ Report trace id e

/-- Every error that is kept was said before. -/
structure Sourced (trace : List Mark) (p : Pipeline σ) : Prop where
  hub : HubSourced trace p.hub
  readers : ∀ id r, p.readers.get? id = some r → ReaderSourced trace id r
  waiters : ∀ id w, p.waiters.get? id = some w → WaiterSourced trace id w

section Mono

variable {trace : List Mark} (mark : Mark)

lemma Refusal.snoc {sub : Nat} {e : DeliveryError} (h : Refusal trace sub e) :
    Refusal (trace ++ [mark]) sub e := by
  cases h with
  | gone h => exact .gone (List.mem_append_left _ h)
  | failed h => exact .failed (List.mem_append_left _ h)

lemma Report.snoc {id : Nat} {e : PieceError} (h : Report trace id e) :
    Report (trace ++ [mark]) id e := by
  cases h with
  | failed h => exact .failed (List.mem_append_left _ h)

lemma HubSourced.noNews {h h' : Hub} (hs : HubSourced trace h) (hn : h.NoNews h') :
    HubSourced (trace ++ [mark]) h' where
  answered sub a ha := List.mem_append_left _ (hs.answered sub a (hn.answered sub a ha))
  failed sub e he := (hs.failed sub e (hn.failure sub e he)).snoc mark

lemma HubSourced.fail {h : Hub} (hs : HubSourced trace h) {sub : Nat} {e : DeliveryError}
    (he : Refusal trace sub e) :
    HubSourced trace (h.fail sub e) where
  answered j a ha := hs.answered j a (h.answered?_onMailbox sub _ j ▸ ha)
  failed j e' he' := by
    rw [Hub.fail, Hub.failure?_onMailbox] at he'
    simp only [Mailbox.fst_fail] at he'
    split_ifs at he' with hj
    · subst hj
      -- the first failure stays
      obtain ⟨m, hm, hor⟩ := Option.bind_eq_some_iff.mp he'
      rcases hf : m.failure with _ | first
      · rw [hf, Option.none_or] at hor
        exact Option.some.inj hor ▸ he
      · rw [hf, Option.some_or] at hor
        exact hs.failed j e' (by rw [Hub.failure?, hm]; exact hf.trans hor)
    · exact hs.failed j e' he'

lemma ReaderSourced.snoc {id : Nat} {r : Reader} (h : ReaderSourced trace id r) :
    ReaderSourced (trace ++ [mark]) id r := fun x err herr => by
  obtain ⟨heard, hmem, hsays⟩ := h x err herr
  exact ⟨heard, List.mem_append_left _ hmem, hsays⟩

lemma WaiterSourced.snoc {id : Nat} {w : Waiter} (h : WaiterSourced trace id w) :
    WaiterSourced (trace ++ [mark]) id w where
  asked poller e hp he := (h.asked poller e hp he).snoc mark
  failed e he := (h.failed e he).imp_right (Report.snoc mark)

/-- Without a poller there is no answer that waits to be published. -/
lemma WaiterSourced.of_idle {id : Nat} {w : Waiter} (hidle : w.poller = none)
    (hfailed : ∀ e, w.failure = some e → (∃ x ∈ w.pieces, e = .outOfRange x) ∨ Report trace id e) :
    WaiterSourced trace id w where
  asked poller e hp _ := by
    rw [hidle] at hp
    cases hp
  failed := hfailed

lemma readerSourced_of_empty {id : Nat} {r : Reader} (h : r.ready = {}) :
    ReaderSourced trace id r :=
  fun x err herr => by
    rw [h] at herr
    cases herr

end Mono

namespace Sourced

variable {trace : List Mark} {mark : Mark} {p q : Pipeline σ}

lemma spares (h : Sourced trace p) {spared : Nat → Prop} (hs : Undisturbed spared p q)
    (hown : ∀ id r, ¬ spared id →
      q.readers.get? id = some r → ReaderSourced (trace ++ [mark]) id r) :
    Sourced (trace ++ [mark]) q where
  hub := h.hub.noNews mark hs.hub
  readers id r hr := by
    by_cases hid : spared id
    · exact (h.readers id r (hs.readers id hid ▸ hr)).snoc mark
    · exact hown id r hid hr
  waiters id w hw := (h.waiters id w (hs.waiters ▸ hw)).snoc mark

lemma all (h : Sourced trace p) (hs : Undisturbed (fun _ => True) p q) :
    Sourced (trace ++ [mark]) q :=
  h.spares hs fun _ _ hnot => (hnot trivial).elim

lemma putWaiter (h : Sourced trace p) {id : Nat} {w : Waiter}
    (hw : WaiterSourced (trace ++ [mark]) id w) :
    Sourced (trace ++ [mark]) (p.putWaiter id w) where
  hub := h.hub.noNews mark (.refl _)
  readers j r hr := (h.readers j r hr).snoc mark
  waiters j w' hw' := by
    rw [Pipeline.putWaiter, Table.get?_set] at hw'
    split_ifs at hw' with hj
    · cases hw'
      exact hj ▸ hw
    · exact (h.waiters j w' hw').snoc mark

end Sourced

/-! ### What each step keeps -/

section Kept

variable {trace : List Mark} {p q : Pipeline σ}

lemma sourced_answerLiveness (h : Sourced trace p) {sub : Nat}
    (hq : p.answerLiveness sub = some q) :
    Sourced (trace ++ [.quiet]) q := by
  unfold Pipeline.answerLiveness at hq
  rcases hs : p.hub.subscriptions.get? sub with _ | s
  · simp [hs] at hq
  rcases hl : s.liveness with _ | handle | answer <;> simp only [hs, hl] at hq
  · cases hq
  · cases hq
  have hanswered : .tracked sub answer ∈ trace :=
    h.hub.answered sub answer (by simp [Hub.answered?, hs, hl])
  have hsettled : p.hub.NoNews
      { p.hub with
        subscriptions := p.hub.subscriptions.set sub { s with liveness := .settled } } := by
    refine ⟨fun j a ha => ?_, fun j e he => Hub.failure?_liveness hs .settled j ▸ he⟩
    rw [Hub.answered?, Table.get?_set] at ha
    split_ifs at ha
    · cases ha
    · exact ha
  have hkept := h.hub.noNews .quiet hsettled
  obtain rfl := Option.some.inj hq
  refine ⟨?_, fun id r hr => (h.readers id r hr).snoc _, fun id w hw => (h.waiters id w hw).snoc _⟩
  rcases answer with e | _ | _
  · exact hkept.fail ((Refusal.failed hanswered).snoc .quiet)
  · exact hkept.fail ((Refusal.gone hanswered).snoc .quiet)
  · exact hkept

lemma sourced_pollWaiter (h : Sourced trace p) (id : Nat) :
    Sourced (trace ++ [.quiet]) (p.pollWaiter id).2 := by
  unfold Pipeline.pollWaiter
  rcases hw : p.waiters.get? id with _ | w
  · exact h.all (.refl p)
  refine h.putWaiter ?_
  have hsourced := (h.waiters id w hw).snoc .quiet
  have hpolls := Waiting.polls_poll w
  generalize w.poll.2 = w' at hpolls ⊢
  generalize w.poll.1 = answer at hpolls
  cases hpolls with
  | past | waits => exact hsourced
  | yielded => exact ⟨hsourced.asked, hsourced.failed⟩
  | exhausted | failed | orphaned => exact .of_idle rfl hsourced.failed

/-- A waiter fails for what its poller was answered, or since its request names a piece that there
is not. -/
lemma sourced_publishPoll (h : Sourced trace p) (id : Nat) :
    Sourced (trace ++ [.quiet]) (p.publishPoll id) := by
  unfold Pipeline.publishPoll
  rcases hw : p.waiters.get? id with _ | w
  · exact h.all (.refl p)
  refine h.putWaiter ?_
  have hsourced := (h.waiters id w hw).snoc .quiet
  rcases hp : w.poller with _ | poller
  · simpa only [Waiter.publish, hp] using hsourced
  rcases hr : poller.answer with _ | report
  · simpa only [Waiter.publish, hp, hr] using hsourced
  have hpublishes := Waiting.publishes_publish hp hr p.now
  generalize w.publish p.now = w' at hpublishes ⊢
  cases hpublishes with
  | failed e =>
    refine .of_idle rfl fun e' he' => .inr ?_
    obtain rfl := Option.some.inj he'
    exact hsourced.asked poller e hp hr
  | unknown =>
    refine ⟨fun poller' e hp' he => ?_, hsourced.failed⟩
    obtain rfl := Option.some.inj hp'
    cases he
  | @misfit _ _ bad _ hb =>
    refine .of_idle rfl fun e he => .inl ⟨bad, List.mem_of_find?_eq_some hb, ?_⟩
    exact (Option.some.inj he).symm
  | known =>
    refine ⟨fun poller' e hp' he => ?_, hsourced.failed⟩
    split_ifs at hp'
    obtain rfl := Option.some.inj hp'
    cases he

lemma sourced_dropWaiter (h : Sourced trace p) (id : Nat) :
    Sourced (trace ++ [.quiet]) (p.dropWaiter id) where
  hub := h.hub.noNews .quiet (.refl _)
  readers j r hr := (h.readers j r hr).snoc .quiet
  waiters j w hw := by
    rw [Pipeline.dropWaiter, Table.get?_erase] at hw
    split_ifs at hw
    exact (h.waiters j w hw).snoc .quiet

end Kept

section Asked

variable [Engine σ] {trace : List Mark} {p q : Pipeline σ}

lemma sourced_assemble (settings : Settings) (engine : σ) :
    Sourced [] (Pipeline.assemble settings engine) := by
  rw [Pipeline.assemble, Pipeline.withDemand_eq]
  refine ⟨⟨fun sub answer ha => ?_, fun sub e he => ?_⟩, fun id r hr => ?_, fun id w hw => ?_⟩
  · cases ha
  · cases he
  · cases hr
  · cases hw

lemma sourced_askLiveness (h : Sourced trace p) {sub : Nat} {s : Subscription} {handle : Handle}
    (hs : p.hub.subscriptions.get? sub = some s) (hl : s.liveness = .unasked handle)
    (hq : p.askLiveness sub = some q) :
    Sourced (trace ++ [.tracked sub (Engine.isTracked handle p.engine).1]) q := by
  simp only [Pipeline.askLiveness, hs, hl, Option.some.injEq] at hq
  subst hq
  refine ⟨⟨fun j a ha => ?_, fun j e he => ?_⟩, fun id r hr => (h.readers id r hr).snoc _,
    fun id w hw => (h.waiters id w hw).snoc _⟩
  · rw [Hub.answered?, Table.get?_set] at ha
    split_ifs at ha with hj
    · obtain rfl := Option.some.inj ha
      rw [hj]
      exact List.mem_append_right _ (List.mem_singleton_self _)
    · exact List.mem_append_left _ (h.hub.answered j a ha)
  · exact (h.hub.failed j e (Hub.failure?_liveness hs _ j ▸ he)).snoc _

lemma sourced_pollReader (h : Sourced trace p) (id : Nat) :
    Sourced (trace ++ [.heard id (consumed id p)]) (p.pollReader id).2 := by
  refine h.spares (Undisturbed.pollReader p id) fun j r' hj hr' x err herr => ?_
  obtain rfl : j = id := not_not.mp hj
  rcases hr : p.readers.get? j with _ | r
  · simp only [Pipeline.pollReader, hr] at hr'
    cases hr'
  rcases Services.ready_back hr hr' herr with hbefore | hsaid
  · exact (h.readers j r hr).snoc _ x err hbefore
  · exact ⟨_, List.mem_append_right _ (List.mem_singleton_self _), hsaid⟩

lemma query_error {handle : Handle} {engine : σ} {e : PieceError} :
    (Waiter.query handle engine).1 = .error e ↔
    ∃ err, (Engine.status handle engine).1 = .error err ∧ e = .ofEngine err := by
  unfold Waiter.query
  rcases Engine.status handle engine with ⟨err | status, engine'⟩
  · simp [eq_comm]
  · simp

/-- What the engine answers is what the poller keeps. -/
lemma sourced_askPoll (h : Sourced trace p) {id : Nat} {w : Waiter} {poller : Poller}
    (hw : p.waiters.get? id = some w) (hp : w.poller = some poller) :
    Sourced (trace ++ [.status id (Engine.status w.handle p.engine).1]) (p.askPoll id) := by
  have hq : p.askPoll id = { p with engine := (Waiter.query w.handle p.engine).2 }.putWaiter id
      { w with
        poller := some { poller with answer := some (Waiter.query w.handle p.engine).1 } } := by
    simp only [Pipeline.askPoll, hw, Waiter.ask, hp]
  have haside : Sourced trace { p with engine := (Waiter.query w.handle p.engine).2 } :=
    ⟨h.hub, h.readers, h.waiters⟩
  rw [hq]
  refine haside.putWaiter ⟨fun poller' e hp' he => ?_, ((h.waiters id w hw).snoc _).failed⟩
  obtain rfl := Option.some.inj hp'
  obtain ⟨err, hstatus, rfl⟩ := query_error.mp (Option.some.inj he)
  rw [hstatus]
  exact .failed (List.mem_append_right _ (List.mem_singleton_self _))

lemma sourced_wait (h : Sourced trace p) (handle : Handle) (pieces : List Piece)
    (interval : Duration) :
    Sourced (trace ++ [.quiet]) (p.wait handle pieces interval).2 := by
  have hbegins := Waiting.begins_start handle pieces interval.nanos p.now p.engine
  unfold Pipeline.wait
  rcases hstart : Waiter.start handle pieces interval.nanos p.now p.engine with ⟨e | w, engine⟩
  · exact h.all ⟨.refl _, fun _ _ => rfl, rfl⟩
  rw [hstart] at hbegins
  have haside : Sourced trace { p with engine, nextScope := p.nextScope + 1 } :=
    ⟨h.hub, h.readers, h.waiters⟩
  refine haside.putWaiter ?_
  cases hbegins
  refine ⟨fun poller e hp he => ?_, fun e he => by cases he⟩
  dsimp only at hp
  split_ifs at hp
  obtain rfl := Option.some.inj hp
  cases he

/-- **A step keeps no error that was not said.** -/
theorem sourced_step {mark : Mark} (h : Sourced trace p) (hstep : Step p mark q) :
    Sourced (trace ++ [mark]) q := by
  cases hstep with
  | aside => exact h.all ⟨.refl _, fun _ _ => rfl, rfl⟩
  | subscribe r => exact h.all (.subscribe p r)
  | receive sub => exact h.all (.pollSubscription p sub)
  | cancel sub => exact h.all ⟨p.hub.noNews_cancel sub, fun _ _ => rfl, rfl⟩
  | unsubscribe sub => exact h.all (.unsubscribe p sub)
  | askLiveness hs hl hq => exact sourced_askLiveness h hs hl hq
  | answerLiveness hq => exact sourced_answerLiveness h hq
  | pump hq => exact h.all (.pumpStep hq)
  | stop => exact h.all ⟨p.hub.noNews_stop, fun _ _ => rfl, rfl⟩
  | janitor hq => exact h.all (.janitorStep hq)
  | read handle pieces =>
    obtain ⟨hspares, r, hr, hempty⟩ := Undisturbed.read p handle pieces
    refine h.spares hspares fun j r' hj hr' => ?_
    obtain rfl : j = p.nextScope := not_not.mp hj
    obtain rfl := Option.some.inj (hr.symm.trans hr')
    exact readerSourced_of_empty hempty
  | next id => exact sourced_pollReader h id
  | giveUp id =>
    refine h.all ?_
    unfold Pipeline.cancelReader
    rcases p.readers.get? id with _ | r
    · exact .refl p
    · exact ⟨p.hub.noNews_cancel _, fun _ _ => rfl, rfl⟩
  | drop id =>
    refine h.spares (Undisturbed.dropReader p id) fun j r' hj hr' => ?_
    obtain rfl : j = id := not_not.mp hj
    rw [Services.get?_dropReader] at hr'
    cases hr'
  | wait handle pieces interval => exact sourced_wait h handle pieces interval
  | askPoll hw hp => exact sourced_askPoll h hw hp
  | publishPoll id => exact sourced_publishPoll h id
  | pollWaiter id => exact sourced_pollWaiter h id
  | dropWaiter id => exact sourced_dropWaiter h id

theorem sourced_run (h : Run trace p) : Sourced trace p := by
  induction h with
  | start settings engine => exact sourced_assemble settings engine
  | snoc _ hstep ih => exact sourced_step ih hstep

end Asked

/-! ### What users are told -/

section Told

variable [Engine σ]

inductive Told (p : Pipeline σ) : PieceError → Prop
  | moved {w : Window} {old new : OrderedSet Piece} {engine : σ} {e : PieceError}
      (h : (w.delta old new engine).failure = some e) : Told p e
  | read {id : Nat} {e : PieceError} (h : (p.pollReader id).1 = .item (.error e)) : Told p e
  | refused {handle : Handle} {pieces : List Piece} {interval : Duration} {e : PieceError}
      (h : (p.wait handle pieces interval).1 = .error e) : Told p e
  | waited {id : Nat} {e : PieceError} (h : (p.pollWaiter id).1 = .item (.error e)) : Told p e

/-- Why a reader is told an error, going by what was shown up to and with the call. -/
inductive ReaderTold (trace : List Mark) (p : Pipeline σ) (id : Nat) (r : Reader) :
    PieceError → Prop
  | negative {x : Piece} (hx : x ∈ r.pieces) (hn : x.position? = none) :
      ReaderTold trace p id r (.outOfRange x)
  | slid {w : Window} {pieces : OrderedSet Piece} {calls : List DeadlineCall} {err : EngineError}
      (hw : p.windows.windows.get? r.window = some w) (hu : r.upcoming? = some pieces)
      (hcalls : w.Asks r.current pieces calls)
      (he : firstError (askAll calls p.engine).1 = some err) :
    ReaderTold trace p id r (.ofEngine err)
  | said {x : Piece} {heard : List Alert} {a : Alert} {err : EngineError}
      (hx : r.pieces[r.cursor]? = some x)
      (hheard : .heard id heard ∈ trace) (ha : a ∈ heard) (hs : a.says? x = some (.error err)) :
    ReaderTold trace p id r (.ofEngine err)
  | removed {heard : List Alert} {handle : Handle} {name : String}
      (hheard : .heard id heard ∈ trace)
      (ha : .torrentRemoved handle name ∈ heard) : ReaderTold trace p id r .handleInvalid
  | gone (h : .tracked r.subscription (.ok false) ∈ trace) : ReaderTold trace p id r .handleInvalid
  | untracked {err : EngineError} (h : .tracked r.subscription (.error err) ∈ trace) :
    ReaderTold trace p id r (.ofEngine err)
  | shut {m : Mailbox} (hm : p.hub.mailbox? r.subscription = some m) (hc : m.closed = true) :
    ReaderTold trace p id r (.delivery .shutdown)

/-- What the engine said that the next call of a reader cannot pass over. -/
inductive Decisive (p : Pipeline σ) (id : Nat) (r : Reader) : EngineError → Prop
  | slid {pieces : OrderedSet Piece} {err : EngineError} (hlive : r.finished = false)
      (hwithin : r.cursor < r.pieces.length) (hu : r.upcoming? = some pieces)
      (hn : Reader.negative? pieces = none)
      (hslid : (p.slideReader id r pieces).1 = some (.ofEngine err)) :
    Decisive p id r err
  | said {pieces : OrderedSet Piece} {x : Piece} {err : EngineError} (hgo : GoesOn id p r pieces)
      (hx : r.pieces[r.cursor]? = some x) (hwanted : x ∈ pieces)
      (hs : lastSaid x (r.ready.get? x) (consumed id p) = some (.error err)) : Decisive p id r err
  /-- It made the mailbox fail, and nothing is known of the piece at the cursor. -/
  | untracked {pieces : OrderedSet Piece} {x : Piece} {err : EngineError}
      (hgo : GoesOn id p r pieces)
      (hx : r.pieces[r.cursor]? = some x) (hnothing : r.ready.get? x = none)
      (hawake : p.hub.isAwake r.subscription = true)
      (hfailed : p.hub.failure? r.subscription = some (.ofEngine err)) : Decisive p id r err

/-- Why a wait is refused. -/
inductive Refuses (handle : Handle) (pieces : List Piece) (engine : σ) : PieceError → Prop
  | negative {x : Piece} (hn : Waiter.negative? pieces = some x) :
      Refuses handle pieces engine (.outOfRange x)
  | misfit {x : Piece} {status : TorrentStatus} (hn : Waiter.negative? pieces = none)
      (hs : (Engine.status handle engine).1 = .ok status) (hknown : status.available ≠ [])
      (hb : Waiter.beyond? pieces status.available.length = some x) :
      Refuses handle pieces engine (.outOfRange x)
  | failed {err : EngineError} (hn : Waiter.negative? pieces = none)
      (hs : (Engine.status handle engine).1 = .error err) :
      Refuses handle pieces engine (.ofEngine err)

/-- Why a waiter is told an error. -/
inductive WaiterTold (trace : List Mark) (id : Nat) (w : Waiter) : PieceError → Prop
  | misfit {x : Piece} (hx : x ∈ w.pieces) : WaiterTold trace id w (.outOfRange x)
  | reported {err : EngineError} (h : .status id (.error err) ∈ trace) :
      WaiterTold trace id w (.ofEngine err)
  | orphaned (hf : w.failure = none) (hp : w.poller = none) : WaiterTold trace id w .cancelled

variable {trace : List Mark} {p : Pipeline σ} {id : Nat}

lemma Refuses.classified {handle : Handle} {pieces : List Piece} {engine : σ} {e : PieceError}
    (h : Refuses handle pieces engine e) : e.Classified := by
  cases h with
  | negative | misfit => trivial
  | failed => exact PieceError.classified_ofEngine _

omit [Engine σ] in
lemma WaiterTold.classified {w : Waiter} {e : PieceError} (h : WaiterTold trace id w e) :
    e.Classified := by
  cases h with
  | misfit | orphaned => trivial
  | reported => exact PieceError.classified_ofEngine _

lemma readerTold (h : Sourced trace p) {r : Reader} (hr : p.readers.get? id = some r)
    {e : PieceError} (hfails : Fails id p r e) :
    ReaderTold (trace ++ [.heard id (consumed id p)]) p id r e := by
  have hnow : .heard id (consumed id p) ∈ trace ++ [.heard id (consumed id p)] :=
    List.mem_append_right _ (List.mem_singleton_self _)
  cases hfails with
  | negative hx hn => exact .negative hx hn
  | slid hw hu hcalls he => exact .slid hw hu hcalls he
  | kept hx he =>
    obtain ⟨heard, hheard, a, ha, hs⟩ := h.readers id r hr _ _ he
    exact .said hx (List.mem_append_left _ hheard) ha hs
  | told hx ha hs => exact .said hx hnow ha hs
  | removed ha => exact .removed hnow ha
  | @ended e he =>
    obtain ⟨m, hm, hf | ⟨rfl, hc⟩⟩ := he
    · have hfailed : p.hub.failure? r.subscription = some e := by
        rw [Hub.failure?, hm]
        exact hf
      cases h.hub.failed _ _ hfailed with
      | gone hgone => exact .gone (List.mem_append_left _ hgone)
      | failed herr =>
        rw [PieceError.ofDelivery_ofEngine]
        exact .untracked (List.mem_append_left _ herr)
    · exact .shut hm hc

lemma Decisive.answer {r : Reader} (hr : p.readers.get? id = some r) {err : EngineError}
    (h : Decisive p id r err) : (p.pollReader id).1 = .item (.error (.ofEngine err)) := by
  cases h with
  | slid hlive hwithin hu hn hslid => exact Services.surfaces_slid hr hlive hwithin hu hn hslid
  | said hgo hx hwanted hs => exact Services.surfaces_told hr hgo hx hwanted hs
  | untracked hgo hx hnothing hawake hfailed =>
    rw [Services.surfaces_ended hr hgo hx hnothing hawake hfailed, PieceError.ofDelivery_ofEngine]

/-- A wait is refused for these reasons and for no others. -/
lemma wait_refused {handle : Handle} {pieces : List Piece} {interval : Duration} {e : PieceError} :
    (p.wait handle pieces interval).1 = .error e ↔ Refuses handle pieces p.engine e := by
  constructor
  · intro h
    cases Waiting.wait_error h with
    | negative hn => exact .negative hn
    | refused hn hq =>
      obtain ⟨err, hs, rfl⟩ := query_error.mp hq
      exact .failed hn hs
    | misfit hn hq hb =>
      unfold Waiter.query at hq
      rcases hs : Engine.status handle p.engine with ⟨err | status, engine⟩ <;> rw [hs] at hq
      · cases hq
      · have hq : status.available = _ := Except.ok.inj hq
        exact .misfit hn (congrArg Prod.fst hs) (hq ▸ List.cons_ne_nil _ _) (hq ▸ hb)
  · intro h
    cases h with
    | negative hn => simp only [Pipeline.wait, Waiter.start, hn]
    | @misfit _ status hn hs hknown hb =>
      rcases hstatus : Engine.status handle p.engine with ⟨answer, engine⟩
      obtain rfl : answer = .ok status := (congrArg Prod.fst hstatus).symm.trans hs
      have hempty : status.available.isEmpty = false := by simpa using hknown
      simp only [Pipeline.wait, Waiter.start, hn, Waiter.query, hstatus, hempty, Bool.false_eq_true,
        if_false, hb]
    | @failed err hn hs =>
      rcases hstatus : Engine.status handle p.engine with ⟨answer, engine⟩
      obtain rfl : answer = .error err := (congrArg Prod.fst hstatus).symm.trans hs
      simp only [Pipeline.wait, Waiter.start, hn, Waiter.query, hstatus]

omit [Engine σ] in
lemma waiterTold (h : Sourced trace p) {w : Waiter} (hw : p.waiters.get? id = some w)
    {e : PieceError} (ha : (p.pollWaiter id).1 = .item (.error e)) : WaiterTold trace id w e := by
  have hpolls := Waiting.polls_poll w
  have hanswer : (p.pollWaiter id).1 = w.poll.1 := by simp only [Pipeline.pollWaiter, hw]
  rw [← hanswer, ha] at hpolls
  generalize w.poll.2 = w' at hpolls
  cases hpolls with
  | failed _ _ _ he =>
    rcases (h.waiters id w hw).failed e he with ⟨x, hx, rfl⟩ | hreport
    · exact .misfit hx
    · cases hreport with
      | failed hs => exact .reported hs
  | orphaned _ _ _ he hn => exact .orphaned he hn

/-- A failed question fails the wait, unless the next piece is there. -/
lemma surfaces_status {w : Waiter} (hw : p.waiters.get? id = some w) (hlive : w.finished = false)
    {poller : Poller} (hp : w.poller = some poller) {x : Piece} (hx : w.pieces[w.cursor]? = some x)
    (hmissing : Waiter.has w.available x = false) {err : EngineError}
    (hs : (Engine.status w.handle p.engine).1 = .error err) :
    (((p.askPoll id).publishPoll id).pollWaiter id).1 = .item (.error (.ofEngine err)) := by
  rcases hstatus : Engine.status w.handle p.engine with ⟨answer, engine⟩
  obtain rfl : answer = .error err := (congrArg Prod.fst hstatus).symm.trans hs
  simp only [Pipeline.askPoll, hw, Waiter.ask, hp, Waiter.query, hstatus, Pipeline.publishPoll,
    Pipeline.pollWaiter, Pipeline.putWaiter, Table.get?_set, if_true, Waiter.publish,
    Waiter.poll, hlive, Bool.false_eq_true, if_false, hx, hmissing]

/-- **Errors are classified once and told as they were said**, over any engine, whatever it fails
with, and after any steps.

* An engine error that comes by way of delivery is told as it is told directly.
* Nobody is told of an engine error that says the handle is not valid but by the one error there is
  for that, and nobody is told of delivery's own forms of these two.
* A move tells the first error that its calls meet.
* A reader is told what the engine said about a deadline in this call, what an alert it consumed
  says of the piece at the cursor, or what the engine said about its torrent; and it cannot pass
  over what was said of any of these.
* A wait is refused for what the engine says about the torrent at that moment.
* A waiter is told what the engine said when it was asked for it; and a failed question is told
  unless the next piece is there. -/
theorem errors_classified_once (h : Run trace p) :
    (∀ err, PieceError.ofDelivery (.ofEngine err) = .ofEngine err ∧
      (err.isInvalidHandle = true → PieceError.ofEngine err = .handleInvalid) ∧
      (err.isInvalidHandle = false → PieceError.ofEngine err = .engine err)) ∧
    (∀ e, Told p e → e.Classified) ∧
    (∀ (w : Window) (old new : OrderedSet Piece) (engine : σ), ∃ calls, w.Asks old new calls ∧
      (w.delta old new engine).failure = (firstError (askAll calls engine).1).map .ofEngine) ∧
    (∀ id r, p.readers.get? id = some r →
      (∀ e, (p.pollReader id).1 = .item (.error e) →
        ReaderTold (trace ++ [.heard id (consumed id p)]) p id r e) ∧
      ∀ err, Decisive p id r err → (p.pollReader id).1 = .item (.error (.ofEngine err))) ∧
    (∀ handle pieces interval e, (p.wait handle pieces interval).1 = .error e ↔
      Refuses handle pieces p.engine e) ∧
    ∀ id w, p.waiters.get? id = some w →
      (∀ e, (p.pollWaiter id).1 = .item (.error e) → WaiterTold trace id w e) ∧
      ∀ x err, w.finished = false → w.poller.isSome = true → w.pieces[w.cursor]? = some x →
        Waiter.has w.available x = false → (Engine.status w.handle p.engine).1 = .error err →
        (((p.askPoll id).publishPoll id).pollWaiter id).1 = .item (.error (.ofEngine err)) := by
  have hsourced := sourced_run h
  refine ⟨fun err => ⟨PieceError.ofDelivery_ofEngine err, fun hinvalid => if_pos hinvalid,
    PieceError.ofEngine_of_valid⟩, fun e htold => ?_, fun w old new engine =>
    w.failure_delta old new engine,
    fun id r hr => ⟨fun e he => readerTold hsourced hr (Services.fails_pollReader hr he),
      fun err hd => hd.answer hr⟩, fun handle pieces interval e => wait_refused,
    fun id w hw => ⟨fun e he => waiterTold hsourced hw he, fun x err hlive hp hx hmissing hs => ?_⟩⟩
  · -- whoever is told, by whichever call
    cases htold with
    | @moved w old new engine _ hm =>
      obtain ⟨calls, -, hfailure⟩ := w.failure_delta old new engine
      obtain ⟨err, -, rfl⟩ := Option.map_eq_some_iff.mp (hfailure.symm.trans hm)
      exact PieceError.classified_ofEngine err
    | @read id _ hread =>
      rcases hr : p.readers.get? id with _ | r
      · simp [Pipeline.pollReader, hr] at hread
      · exact (Services.fails_pollReader hr hread).classified
    | refused hrefused => exact (wait_refused.mp hrefused).classified
    | @waited id _ hwaited =>
      rcases hw : p.waiters.get? id with _ | w
      · simp [Pipeline.pollWaiter, hw] at hwaited
      · exact (waiterTold hsourced hw hwaited).classified
  · obtain ⟨poller, hp⟩ := Option.isSome_iff_exists.mp hp
    exact surfaces_status hw hlive hp hx hmissing hs

end Told

/-- The engine cannot say whether the torrent of a reader is there, and that is what the reader is
told. -/
theorem errors_classified_once_unanswered : ∃ (trace : List Mark) (p : Pipeline Bench) (r : Reader)
    (err : EngineError), Run trace p ∧ p.readers.get? 0 = some r ∧ Decisive p 0 r err ∧
      (p.pollReader 0).1 = .item (.error (.engine err)) ∧ ¬ Told p (.delivery (.engine err)) := by
  let err : EngineError := ⟨.system, 5, "input/output error"⟩
  let bench : Bench := { engine := (EngineCall.add "film" [[7]] .downloading).apply {}
                         faults := [{ point := .isTracked, error := err }] }
  let p₁ := ((Pipeline.assemble {} bench).read ⟨0, 1⟩ [⟨0⟩]).2
  let s := (p₁.hub.subscriptions.get? 0).get (by decide +kernel)
  let p₂ := (p₁.askLiveness 0).get (by decide +kernel)
  let p := (p₂.answerLiveness 0).get (by decide +kernel)
  let r := (p.readers.get? 0).get (by decide +kernel)
  have hs : p₁.hub.subscriptions.get? 0 = some s := (Option.some_get _).symm
  have hasked : p₁.askLiveness 0 = some p₂ := (Option.some_get _).symm
  have hanswered : p₂.answerLiveness 0 = some p := (Option.some_get _).symm
  have hr : p.readers.get? 0 = some r := (Option.some_get _).symm
  have hrun :=
    (((Run.start {} bench).snoc (.read _ ⟨0, 1⟩ [⟨0⟩])).snoc (.askLiveness hs rfl hasked)).snoc
    (.answerLiveness hanswered)
  have hgo : GoesOn 0 p r (.ofList [⟨0⟩]) :=
    ⟨by decide +kernel, by decide +kernel, by decide +kernel, by decide +kernel, by decide +kernel⟩
  have hdecisive : Decisive p 0 r err :=
    .untracked hgo (x := ⟨0⟩) (by decide +kernel) (by decide +kernel) (by decide +kernel)
      (by decide +kernel)
  obtain ⟨-, hclassified, -, hreader, -, -⟩ := errors_classified_once hrun
  exact ⟨_, p, r, err, hrun, hr, hdecisive, (hreader 0 r hr).2 err hdecisive,
    fun htold => hclassified _ htold⟩

end TorrentFlow.Surfacing
