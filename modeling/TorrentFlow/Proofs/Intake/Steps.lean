import Mathlib.Tactic.Lemma
import Mathlib.Tactic.SplitIfs
import TorrentFlow.Delivery.Source

/-!
A source at work, as a system that takes one step after another. One call at a time asks the source
for the next batch. It looks for a signal, waits if there is none, takes the queue out of the engine
and acknowledges; between any two of these anything else may happen, to the engine and in the thread
that watches it, and as long as the call only looks or waits it may be given up.

A callback wakes the call that waits, or else leaves a permit, of which one is stored. Whoever is
given up after it was woken leaves the permit to the next one.
-/

namespace TorrentFlow

inductive Errand where
  | resting
  /-- About to look for a signal. -/
  | looking
  | waiting
  /-- It has got its signal and takes the queue next. -/
  | signalled
  /-- It has taken the queue and acknowledges next. -/
  | drained (answer : Except EngineError (List Alert))

structure Intake (σ : Type) where
  engine : σ
  source : Source
  errand : Errand := .resting
  /-- A permit of the callback is stored. -/
  permit : Bool := false
  /-- The callback has woken the call that waits. -/
  woken : Bool := false

namespace Intake

variable {σ : Type}

def ring (p : Intake σ) : Intake σ :=
  match p.errand, p.woken with
  | .waiting, false => { p with woken := true }
  | _, _ => { p with permit := true }

def rings : Nat → Intake σ → Intake σ
  | 0, p => p
  | k + 1, p => rings k p.ring

def isSignalled (p : Intake σ) : Bool :=
  match p.source.readiness, p.errand with
  | .callback _ _, .waiting => p.woken
  | .callback _ _, _ => p.permit
  | .watched w, _ => w.ready

/-- The call takes its signal; the source is as it is after that. -/
def heed (p : Intake σ) (source : Source) : Intake σ :=
  match p.errand with
  | .waiting => { p with source, errand := .signalled, woken := false }
  | _ => { p with source, errand := .signalled, permit := false }

def giveUp (p : Intake σ) : Intake σ :=
  { p with errand := .resting, permit := p.permit || p.woken, woken := false }

def settle (p : Intake σ) (errand : Errand) : Intake σ :=
  { p with source := p.source.acknowledge, errand }

lemma rings_fields (k : Nat) (p : Intake σ) : (p.rings k).engine = p.engine ∧
    (p.rings k).source = p.source ∧ (p.rings k).errand = p.errand := by
  induction k generalizing p with
  | zero => exact ⟨rfl, rfl, rfl⟩
  | succ k ih =>
    have hring : p.ring.engine = p.engine ∧ p.ring.source = p.source ∧
        p.ring.errand = p.errand := by
      unfold ring
      split <;> exact ⟨rfl, rfl, rfl⟩
    obtain ⟨he, hs, hr⟩ := ih p.ring
    exact ⟨he.trans hring.1, hs.trans hring.2.1, hr.trans hring.2.2⟩

@[simp] lemma engine_heed (p : Intake σ) (source : Source) : (p.heed source).engine = p.engine := by
  unfold heed
  split <;> rfl

@[simp] lemma source_heed (p : Intake σ) (source : Source) : (p.heed source).source = source := by
  unfold heed
  split <;> rfl

@[simp] lemma errand_heed (p : Intake σ) (source : Source) :
    (p.heed source).errand = .signalled := by
  unfold heed
  split <;> rfl

variable [Engine σ]

def calls (p : Intake σ) : Nat :=
  match p.source.readiness with
  | .callback n _ => Engine.rings n p.engine
  | .watched _ => 0

/-- The engine changes, and meanwhile calls the callback any number of times. -/
def move (p : Intake σ) (engine : σ) : Intake σ :=
  let q := { p with engine }
  q.rings (q.calls - p.calls)

@[simp] lemma engine_move (p : Intake σ) (engine : σ) : (p.move engine).engine = engine :=
  (rings_fields _ _).1

@[simp] lemma source_move (p : Intake σ) (engine : σ) : (p.move engine).source = p.source :=
  (rings_fields _ _).2.1

@[simp] lemma errand_move (p : Intake σ) (engine : σ) : (p.move engine).errand = p.errand :=
  (rings_fields _ _).2.2

/-- A source that was just opened. The callback may have been called by then. -/
def opened (source : Source) (engine : σ) : Intake σ :=
  let p : Intake σ := { engine, source }
  p.rings p.calls

@[simp] lemma engine_opened (source : Source) (engine : σ) :
    (opened source engine).engine = engine :=
  (rings_fields _ _).1

@[simp] lemma source_opened (source : Source) (engine : σ) :
    (opened source engine).source = source :=
  (rings_fields _ _).2.1

@[simp] lemma errand_opened (source : Source) (engine : σ) :
    (opened source engine).errand = .resting :=
  (rings_fields _ _).2.2

inductive Event where
  | acted (accepted : List Alert)
  | asked
  | returned (answer : Except DeliveryError (List Alert))
  | stopped
  | quiet

namespace Event

def ofPhase : WorkerPhase → Event
  | .asking => asked
  | _ => quiet

def isAsked : Event → Bool
  | asked => true
  | _ => false

end Event

/-- One step. `Acts` says what may be done to the engine, and what it accepts then. -/
inductive Step (Acts : σ → List Alert → σ → Prop) : Intake σ → Event → Intake σ → Prop
  | act {p : Intake σ} {accepted : List Alert} {engine : σ} (h : Acts p.engine accepted engine) :
    Step Acts p (.acted accepted) (p.move engine)
  | watch {p : Intake σ} {w w' : Worker} {engine : σ} {notices : List Notice}
      (hw : p.source.readiness = .watched w) (h : w.step p.engine = some (w', engine, notices)) :
    Step Acts p (.ofPhase w.phase)
      { p with engine, source := { p.source with readiness := .watched w' } }
  | call {p : Intake σ} (he : p.errand = .resting) (hc : p.source.closed = false) :
    Step Acts p .quiet { p with errand := .looking }
  | refuse {p : Intake σ} (he : p.errand = .resting) (hc : p.source.closed = true) :
    Step Acts p (.returned (.error .sourceClosed)) p
  | wait {p : Intake σ} (he : p.errand = .looking) (hs : p.isSignalled = false) :
    Step Acts p .quiet { p with errand := .waiting }
  | hear {p : Intake σ} {source : Source} (he : p.errand = .looking ∨ p.errand = .waiting)
      (hs : p.isSignalled = true) (h : p.source.signalled? p.engine = some source) :
    Step Acts p .quiet (p.heed source)
  /-- Nobody is left who could give a signal. -/
  | despair {p : Intake σ} (he : p.errand = .looking ∨ p.errand = .waiting)
      (hs : p.isSignalled = false) (hd : p.source.isDead = true) :
    Step Acts p (.returned (.error .sourceClosed)) { p with errand := .resting }
  | cancel {p : Intake σ} (he : p.errand = .looking ∨ p.errand = .waiting) :
    Step Acts p .quiet p.giveUp
  | drain {p : Intake σ} (he : p.errand = .signalled) :
    Step Acts p .quiet ({ p with errand := .drained (Engine.takeAlerts p.engine).1 }.move
      (Engine.takeAlerts p.engine).2)
  /-- There was nothing in the queue. -/
  | again {p : Intake σ} (he : p.errand = .drained (.ok [])) :
    Step Acts p .quiet (p.settle .looking)
  | hand {p : Intake σ} {batch : List Alert} (he : p.errand = .drained (.ok batch))
      (hb : batch ≠ []) : Step Acts p (.returned (.ok batch)) (p.settle .resting)
  | fail {p : Intake σ} {e : EngineError} (he : p.errand = .drained (.error e)) :
    Step Acts p (.returned (.error (.ofEngine e))) (p.settle .resting)
  /-- The source is stopped, which nobody can do while somebody asks it. -/
  | stop {p : Intake σ} (he : p.errand = .resting) :
    Step Acts p .stopped
      { p with source := (p.source.stop p.engine).1, engine := (p.source.stop p.engine).2 }

inductive Run (Acts : σ → List Alert → σ → Prop) (start : Intake σ) : List Event → Intake σ → Prop
  | nil : Run Acts start [] start
  | snoc {trace : List Event} {event : Event} {p q : Intake σ} (h : Run Acts start trace p)
      (hstep : Step Acts p event q) : Run Acts start (trace ++ [event]) q

lemma Run.cons {Acts : σ → List Alert → σ → Prop} {p q r : Intake σ} {event : Event}
    {later : List Event} (hstep : Step Acts p event q) (h : Run Acts q later r) :
    Run Acts p (event :: later) r := by
  induction h with
  | nil => exact Run.nil.snoc hstep
  | snoc _ hlast ih => exact ih.snoc hlast

/-! ### Sources that are closed -/

def AtRest (p : Intake σ) : Prop := p.source.closed = true → p.errand = .resting

/-- What can still happen when a source is closed: its steps are those of others, it refuses every
call, and to stop it again does nothing. -/
inductive Closed (Acts : σ → List Alert → σ → Prop) (p : Intake σ) : Event → Intake σ → Prop
  | act {accepted : List Alert} {engine : σ} (h : Acts p.engine accepted engine) :
    Closed Acts p (.acted accepted) (p.move engine)
  | watch {w w' : Worker} {engine : σ} {notices : List Notice}
      (hw : p.source.readiness = .watched w) (h : w.step p.engine = some (w', engine, notices)) :
    Closed Acts p (.ofPhase w.phase)
      { p with engine, source := { p.source with readiness := .watched w' } }
  | refuse : Closed Acts p (.returned (.error .sourceClosed)) p
  | stop : Closed Acts p .stopped p

section Closing

variable {Acts : σ → List Alert → σ → Prop} {p q : Intake σ} {event : Event}

omit [Engine σ] in
lemma AtRest.open (h : p.AtRest) (he : p.errand ≠ .resting) : p.source.closed = false := by
  rcases hc : p.source.closed with _ | _
  · rfl
  · exact absurd (h hc) he

lemma closed_acknowledge (source : Source) : source.acknowledge.closed = source.closed := by
  unfold Source.acknowledge
  split <;> rfl

lemma signalled_eq_some {source source' : Source} {engine : σ}
    (h : source.signalled? engine = some source') :
    (∃ n seen, source.readiness = .callback n seen ∧ seen < Engine.rings n engine ∧
        source' = { source with readiness := .callback n (Engine.rings n engine) }) ∨
      ∃ w, source.readiness = .watched w ∧ w.ready = true ∧
        source' = { source with readiness := .watched { w with ready := false } } := by
  unfold Source.signalled? at h
  rcases hr : source.readiness with ⟨n, seen⟩ | w <;> simp only [hr] at h
  · by_cases hlt : seen < Engine.rings n engine
    · rw [if_pos hlt] at h
      exact .inl ⟨n, seen, rfl, hlt, (Option.some.inj h).symm⟩
    · rw [if_neg hlt] at h
      cases h
  · split_ifs at h with hready
    exact .inr ⟨w, rfl, hready, (Option.some.inj h).symm⟩

lemma closed_signalled {source source' : Source} {engine : σ}
    (h : source.signalled? engine = some source') : source'.closed = source.closed := by
  rcases signalled_eq_some h with ⟨n, seen, -, -, rfl⟩ | ⟨w, -, -, rfl⟩ <;> rfl

lemma stop_of_closed {source : Source} (h : source.closed = true) (engine : σ) :
    source.stop engine = (source, engine) := by
  rw [Source.stop, if_pos h]

lemma closed_stop (source : Source) (engine : σ) : (source.stop engine).1.closed = true := by
  unfold Source.stop
  split_ifs with hc
  · exact hc
  · split <;> rfl

lemma closed_step (h : p.AtRest) (hc : p.source.closed = true) (hstep : Step Acts p event q) :
    Closed Acts p event q := by
  have hrest := h hc
  cases hstep with
  | act h => exact .act h
  | watch hw h => exact .watch hw h
  | refuse => exact .refuse
  | stop =>
    rw [stop_of_closed hc]
    exact .stop
  | call _ hopen =>
    rw [hc] at hopen
    cases hopen
  | wait he | drain he | again he | hand he | fail he =>
    rw [hrest] at he
    cases he
  | hear he | despair he | cancel he => rcases he with he | he <;> rw [hrest] at he <;> cases he

/-- **A closed source stays closed**, and nobody asks it any more. -/
theorem Closed.still (h : Closed Acts p event q) (hc : p.source.closed = true)
    (hr : p.errand = .resting) : q.source.closed = true ∧ q.errand = .resting := by
  cases h with
  | act => exact ⟨by rw [source_move]; exact hc, by rw [errand_move]; exact hr⟩
  | watch => exact ⟨hc, hr⟩
  | refuse => exact ⟨hc, hr⟩
  | stop => exact ⟨hc, hr⟩

/-- Only stopping closes a source, and for that nobody may be asking it. -/
lemma closed_or_stopped (hstep : Step Acts p event q) :
    event ≠ .stopped ∧ q.source.closed = p.source.closed ∨
      event = .stopped ∧ q.source.closed = true ∧ q.errand = .resting := by
  cases hstep with
  | stop he => exact .inr ⟨rfl, closed_stop _ _, he⟩
  | act | drain => exact .inl ⟨nofun, by rw [source_move]⟩
  | hear _ _ hsig => exact .inl ⟨nofun, by rw [source_heed, closed_signalled hsig]⟩
  | again | hand | fail => exact .inl ⟨nofun, by rw [settle, closed_acknowledge]⟩
  | @watch w => exact .inl ⟨by cases w.phase <;> nofun, rfl⟩
  | call | refuse | wait | despair | cancel => exact .inl ⟨nofun, rfl⟩

/-- A source observes readiness in one way only. -/
lemma mode_step (hstep : Step Acts p event q) : q.source.mode = p.source.mode := by
  have hsettle : ∀ source : Source, source.acknowledge.mode = source.mode := by
    rintro ⟨readiness, closed⟩
    cases readiness <;> rfl
  cases hstep with
  | act | drain => rw [source_move]
  | watch hw => simp only [Source.mode, hw]
  | hear _ _ hsig =>
    rw [source_heed]
    rcases signalled_eq_some hsig with ⟨n, seen, hr, -, rfl⟩ | ⟨w, hr, -, rfl⟩ <;>
      simp only [Source.mode, hr]
  | again | hand | fail => exact hsettle _
  | stop =>
    obtain ⟨engine, ⟨readiness, closed⟩, errand, permit, woken⟩ := p
    cases closed <;> cases readiness <;> rfl
  | call | refuse | wait | despair | cancel => rfl

lemma run_mode {source : Source} {engine : σ} {trace : List Event}
    (h : Run Acts (opened source engine) trace p) : p.source.mode = source.mode := by
  induction h with
  | nil => rw [source_opened]
  | snoc _ hstep ih => exact (mode_step hstep).trans ih

theorem atRest_step (h : p.AtRest) (hstep : Step Acts p event q) : q.AtRest := by
  intro hq
  rcases closed_or_stopped hstep with ⟨-, hc⟩ | ⟨-, -, he⟩
  · have hp := hc.symm.trans hq
    exact ((closed_step h hp hstep).still hp (h hp)).2
  · exact he

end Closing

/-! ### A call that nothing comes in between -/

/-- What a call answers when it has taken the queue; nothing if it is to go on. -/
def answer? : Except EngineError (List Alert) → Option (Except DeliveryError (List Alert))
  | .ok [] => none
  | .ok batch => some (.ok batch)
  | .error e => some (.error (.ofEngine e))

/-- **Polling a source is such a call in one go**: it looks for the signal, takes the queue and
acknowledges. -/
theorem poll_eq {source source' : Source} {engine : σ} (hc : source.closed = false)
    (hs : source.signalled? engine = some source') : source.poll engine =
      (answer? (Engine.takeAlerts engine).1, source'.acknowledge,
        (Engine.takeAlerts engine).2) := by
  unfold Source.poll
  rw [if_neg (by simp [hc]), hs]
  rcases Engine.takeAlerts engine with ⟨e | batch, engine'⟩
  · rfl
  · rcases batch with _ | ⟨a, rest⟩ <;> rfl

end Intake

end TorrentFlow
