import TorrentFlow.Proofs.Intake.Readiness

/-!
What a source hands over, over the simulated engine: every alert that the engine lets into its
queue, each in one batch and in order, and no batch that is empty. A call is never left waiting
while alerts are queued, and a source that was told to stop answers that it is closed and leaves the
engine alone.
-/

namespace TorrentFlow

namespace Intake

open Simulated

namespace Event

def batch : Event → List Alert
  | returned (.ok batch) => batch
  | _ => []

def accepted : Event → List Alert
  | acted accepted => accepted
  | _ => []

@[simp] lemma batch_ofPhase (phase : WorkerPhase) : (ofPhase phase).batch = [] := by
  cases phase <;> rfl

@[simp] lemma accepted_ofPhase (phase : WorkerPhase) : (ofPhase phase).accepted = [] := by
  cases phase <;> rfl

end Event

/-- The alerts that the call has taken and not yet handed over. -/
def held {σ : Type} (p : Intake σ) : List Alert :=
  match p.errand with
  | .drained (.ok batch) => batch
  | _ => []

lemma held_congr {σ : Type} {p q : Intake σ} (h : q.errand = p.errand) : q.held = p.held := by
  simp only [held, h]

variable {p q : Intake Simulated} {event : Event}

/-- **No step loses an alert, or makes one of its own**: what is handed over, held and queued
afterwards is what was held and queued before, and what came in. -/
theorem batch_step (hstep : Step Meanwhile p event q) :
    event.batch ++ q.held ++ q.engine.queue = p.held ++ p.engine.queue ++ event.accepted := by
  -- steps that neither bring alerts in nor hand them on
  have hstay : event.batch = [] → event.accepted = [] → q.held = p.held →
      q.engine.queue = p.engine.queue →
      event.batch ++ q.held ++ q.engine.queue = p.held ++ p.engine.queue ++ event.accepted :=
    fun hb ha hh hq => by rw [hb, ha, hh, hq, List.nil_append, List.append_nil]
  cases hstep with
  | act hs =>
    rw [held_congr (errand_move _ _), engine_move, hs.eq.1, ← List.append_assoc]
    rfl
  | watch hw hstep =>
    refine hstay (Event.batch_ofPhase _) (Event.accepted_ofPhase _) rfl ?_
    rw [Source.worker_step hstep]
  | refuse => exact hstay rfl rfl rfl rfl
  | call he | wait he => exact hstay rfl rfl (by simp [held, he]) rfl
  | hear he =>
    exact hstay rfl rfl (by rcases he with he | he <;> simp [held, he]) (by rw [engine_heed])
  | despair he | cancel he =>
    exact hstay rfl rfl (by rcases he with he | he <;> simp [held, giveUp, he]) rfl
  | drain he =>
    rw [engine_move, held_congr (errand_move _ _)]
    simp [held, he, Event.batch, Event.accepted, Engine.takeAlerts, takeAlerts]
  | again he => exact hstay rfl rfl (by simp [held, settle, he]) rfl
  | hand he => simp [held, settle, he, Event.batch, Event.accepted]
  | fail he => exact hstay rfl rfl (by simp [held, settle, he]) rfl
  | stop he => exact hstay rfl rfl rfl (Source.undisturbed_stop _ _).queue

lemma batch_run {start : Intake Simulated} {trace : List Event} (h : Run Meanwhile start trace p) :
    trace.flatMap Event.batch ++ p.held ++ p.engine.queue =
      start.held ++ start.engine.queue ++ trace.flatMap Event.accepted := by
  induction h with
  | nil => simp
  | @snoc trace event p q _ hstep ih =>
    have hb := batch_step hstep
    calc (trace ++ [event]).flatMap Event.batch ++ q.held ++ q.engine.queue
        = trace.flatMap Event.batch ++ (event.batch ++ q.held ++ q.engine.queue) := by simp
      _ = (trace.flatMap Event.batch ++ p.held ++ p.engine.queue) ++ event.accepted := by
          rw [hb]
          simp
      _ = start.held ++ start.engine.queue ++ (trace ++ [event]).flatMap Event.accepted := by
          rw [ih]
          simp

section Answers

variable {σ : Type} [Engine σ] {Acts : σ → List Alert → σ → Prop} {start p q : Intake σ}
  {event : Event}

/-- No batch that is handed over is empty. -/
lemma nonempty_step (hstep : Step Acts p event q) {batch : List Alert}
    (he : event = .returned (.ok batch)) : batch ≠ [] := by
  cases hstep with
  | hand _ hb =>
    cases he
    exact hb
  | @watch w => cases hp : w.phase <;> rw [hp] at he <;> cases he
  | _ => cases he

lemma nonempty_run {trace : List Event} (h : Run Acts start trace p) {batch : List Alert}
    (hmem : .returned (.ok batch) ∈ trace) : batch ≠ [] := by
  induction h with
  | nil => cases hmem
  | snoc _ hstep ih =>
    rcases List.mem_append.mp hmem with hmem | hmem
    · exact ih hmem
    · exact nonempty_step hstep (List.mem_singleton.mp hmem).symm

lemma poll_of_closed {source : Source} (hc : source.closed = true) (engine : σ) :
    source.poll engine = (some (.error .sourceClosed), source, engine) := by
  rw [Source.poll, if_pos hc]

lemma closed_close (source : Source) (engine : σ) : (source.close engine).1.closed = true := by
  have hc := closed_stop source engine
  unfold Source.close
  rcases hs : source.stop engine with ⟨source', engine'⟩
  rw [hs] at hc
  rcases hr : source'.readiness with ⟨n, seen⟩ | w <;> simp only [hr] <;> exact hc

/-- The two ways to end a source: to tell it to stop and let its thread go on by itself, and to wait
for the thread as well. -/
inductive Ending where
  | stop
  | close

def ended (found : Source × σ) : Ending → Source × σ
  | .stop => found.1.stop found.2
  | .close => ((found.1.close found.2).1, (found.1.close found.2).2.1)

/-- However often a source is ended, and in whatever ways, it is closed. -/
lemma closed_ended (last : Ending) (earlier : List Ending) (found : Source × σ) :
    ((earlier ++ [last]).foldl ended found).1.closed = true := by
  rw [List.foldl_append]
  cases last with
  | stop => exact closed_stop _ _
  | close => exact closed_close _ _

lemma Closed.answer (h : Closed Acts p event q) {answer : Except DeliveryError (List Alert)}
    (he : event = .returned answer) : answer = .error .sourceClosed ∧ q = p := by
  cases h with
  | refuse =>
    cases he
    exact ⟨rfl, rfl⟩
  | @watch w => cases hp : w.phase <;> rw [hp] at he <;> cases he
  | _ => cases he

end Answers

/-- What holds along every run over the simulated engine. -/
lemma run_ready {mode : SourceMode} {s s' : Simulated} {source : Source} (hs : s.Registered)
    (ho : Source.open mode s = (.ok source, s')) {trace : List Event}
    (h : Run Meanwhile (opened source s') trace p) : p.Signalling ∧ p.Watching := by
  induction h with
  | nil => exact ⟨signalling_opened hs ho, watching_opened ho⟩
  | snoc _ hstep ih => exact ⟨signalling_step ih.1 hstep, watching_step ih.2 hstep⟩

/-- **Every alert exactly once**, in every mode and from every history of the engine on, whatever
comes in between:

* what is handed over, is held by the call and waits in the queue is what waited when the source was
  opened and what came in since, in that order, and no batch is empty;
* while the source is open and alerts are queued readiness is recorded, and a call that waits is on
  its way to its signal;
* after the source was stopped whoever asks is told that it is closed, and nothing changes; and so
  it is after it was stopped and closed in any order and any number of times. -/
theorem every_alert_once {mode : SourceMode} {notifySupported waitSupported : Bool}
    {deeds : List Deed} {s s' : Simulated} {source : Source}
    (hs : (made notifySupported waitSupported).after deeds = s)
    (ho : Source.open mode s = (.ok source, s')) {trace : List Event} {p : Intake Simulated}
    (h : Run Meanwhile (opened source s') trace p) :
    trace.flatMap Event.batch ++ p.held ++ p.engine.queue =
        s.queue ++ trace.flatMap Event.accepted ∧
      (∀ batch, .returned (.ok batch) ∈ trace → batch ≠ []) ∧
      (.stopped ∉ trace → p.engine.queue ≠ [] →
        p.Recorded ∧ (p.errand = .waiting → p.Approaching)) ∧
      (.stopped ∈ trace →
        p.source.poll p.engine = (some (.error .sourceClosed), p.source, p.engine) ∧
        ∀ answer q, Step Meanwhile p (.returned answer) q →
          answer = .error .sourceClosed ∧ q = p) ∧
      ∀ (endings : List Ending) (source : Source) (engine : Simulated), endings ≠ [] →
        endings.foldl ended (p.source, p.engine) = (source, engine) →
          source.poll engine = (some (.error .sourceClosed), source, engine) := by
  have hregistered : s.Registered := hs ▸ registered_after notifySupported waitSupported deeds
  obtain ⟨hpermits, hwatching⟩ := run_ready hregistered ho h
  obtain ⟨hrest, hagreed⟩ := run_agreed ho h
  refine ⟨?_, fun batch => nonempty_run h, fun hn hq => ?_, fun hstopped => ?_,
    fun endings source engine hne hended => ?_⟩
  · -- the flow of alerts
    have hflow := batch_run h
    have hqueue := (Source.undisturbed_open mode s).queue
    rw [ho] at hqueue
    rw [hflow, engine_opened, hqueue, held, errand_opened]
    rfl
  · have hopen : p.source.closed = false := by
      rw [Bool.eq_false_iff]
      exact fun hc => hn ((run_closed ho h).mp hc)
    exact ⟨recorded hpermits hwatching hagreed hopen hq, fun he =>
      ⟨waiting_signalled hpermits hwatching hagreed hopen hq he,
        fun event q hstep => waiting_step hpermits hwatching hagreed hopen hq he hstep⟩⟩
  · -- after it was stopped
    have hc := (run_closed ho h).mpr hstopped
    exact ⟨poll_of_closed hc p.engine, fun answer q hstep =>
      (closed_step hrest hc hstep).answer rfl⟩
  · have hclosed := closed_ended (endings.getLast hne) endings.dropLast (p.source, p.engine)
    rw [List.dropLast_concat_getLast hne, hended] at hclosed
    exact poll_of_closed hclosed engine

/-- An engine that has said something before anybody observes it. -/
def outspoken : List Deed := [.applyMask .sessionLog, .call (.log "early")]

/-- A call waits for what was said before the source was opened, and gets what is said meanwhile
with it; what is said last stays in the queue when the source is stopped. -/
theorem every_alert_once_outspoken : ∃ (s : Simulated) (source : Source) (waits ends : List Event)
    (p q : Intake Simulated), (made true true).after outspoken = s ∧
      Source.open .thread s = (.ok source, s) ∧ Run Meanwhile (opened source s) waits p ∧
      p.errand = .waiting ∧ p.Recorded ∧ p.Approaching ∧ Run Meanwhile (opened source s) ends q ∧
      ends.flatMap Event.batch = [.log "early", .log "late"] ∧ q.engine.queue = [.log "last"] ∧
      q.source.poll q.engine = (some (.error .sourceClosed), q.source, q.engine) := by
  have ho : Source.open .thread ((made true true).after outspoken) =
    (.ok { readiness := .watched {} }, (made true true).after outspoken) := rfl
  have hnil :
      Run Meanwhile (opened { readiness := .watched {} } ((made true true).after outspoken)) []
    (opened { readiness := .watched {} } ((made true true).after outspoken)) := .nil
  have hp := (hnil.snoc (.call rfl rfl)).snoc (.wait rfl rfl)
  have hfound := hp.snoc (.watch rfl rfl)
  have hready := hfound.snoc (.watch rfl rfl)
  have hdue := (hready.snoc (.hear (.inr rfl) rfl rfl)).snoc (.act (.call (.log "late")))
  have hhanded := (hdue.snoc (.drain rfl)).snoc (.hand rfl (by decide))
  have hq := (hhanded.snoc (.act (.call (.log "last")))).snoc (.stop rfl)
  obtain ⟨hrecorded, happroaching⟩ := (every_alert_once rfl ho hp).2.2.1 (by simp) (by decide)
  have hclosed := (every_alert_once rfl ho hq).2.2.2.1 (by simp)
  exact ⟨_, _, _, _, _, _, rfl, ho, hp, rfl, hrecorded, happroaching rfl, hq, rfl, rfl, hclosed.1⟩

end Intake

end TorrentFlow
