import TorrentFlow.Proofs.Intake.Faults

/-!
A source that is watched by a thread gets over an engine that refused its queue. The thread has its
token back before the error goes out, and asks again; so a call that is left to itself returns
whatever is queued, if the engine hands it out again, and does so in a bounded number of steps.
-/

namespace TorrentFlow

namespace Intake

open Simulated

variable {p q : Intake Bench} {event : Event}

/-! ### Calls that are left to themselves -/

/-- A step of a call that is left to itself: nothing is done to the engine or the source, and the
call is not given up. -/
structure Alone (p : Intake Bench) (event : Event) (q : Intake Bench) : Prop where
  step : Step Amid p event q
  undisturbed : ∀ accepted, event ≠ .acted accepted
  running : event ≠ .stopped
  kept : q.errand = .resting → ∃ answer, event = .returned answer

lemma Alone.going (phase : WorkerPhase) (hstep : Step Amid p (.ofPhase phase) q)
    (hq : q.errand ≠ .resting) : Alone p (.ofPhase phase) q where
  step := hstep
  undisturbed _ h := by cases phase <;> cases h
  running h := by cases phase <;> cases h
  kept h := absurd h hq

/-- A call that is left to itself can go on, and however it goes on it returns this answer and no
other. -/
inductive Answers (answer : Except DeliveryError (List Alert)) : Intake Bench → Prop
  | intro {p : Intake Bench} (next : ∃ event q, Alone p event q)
      (only : ∀ other q, Alone p (.returned other) q → other = answer)
      (later : ∀ event q, Alone p event q → (∀ other, event ≠ .returned other) → Answers answer q) :
    Answers answer p

lemma Answers.run {answer : Except DeliveryError (List Alert)} (h : Answers answer p) :
    ∃ later q, Run Amid p later q ∧ .stopped ∉ later ∧ .returned answer ∈ later := by
  induction h with
  | @intro p next only _ ih =>
    obtain ⟨event, q, halone⟩ := next
    by_cases hreturned : ∃ other, event = .returned other
    · obtain ⟨other, rfl⟩ := hreturned
      obtain rfl := only other q halone
      exact ⟨_, q, Run.nil.snoc halone.step, by simp, List.mem_singleton_self _⟩
    · obtain ⟨later, r, hrun, hn, hmem⟩ := ih event q halone (not_exists.mp hreturned)
      refine ⟨_, r, hrun.cons halone.step, ?_, List.mem_cons_of_mem _ hmem⟩
      exact fun hmem => (List.mem_cons.mp hmem).elim (fun he => halone.running he.symm) hn

/-! ### Watched by a thread -/

/-- An open source that is watched by a thread, where the engine can be asked. -/
structure Manned (p : Intake Bench) : Prop where
  mode : p.source.mode = .thread
  opened : p.source.closed = false
  askable : p.engine.Askable
  watching : p.bare.Watching
  rest : p.AtRest
  inStep : p.InStep

lemma Manned.readiness (h : p.Manned) : ∃ w, p.source.readiness = .watched w := by
  have hmode := h.mode
  unfold Source.mode at hmode
  split at hmode
  · cases hmode
  · exact ⟨_, ‹_›⟩

lemma Manned.step (h : p.Manned) (hstep : Step Amid p event q) (hne : event ≠ .stopped) :
    q.Manned := by
  obtain ⟨-, hclosed⟩ | ⟨hstopped, -, -⟩ := closed_or_stopped hstep
  · obtain ⟨hask, hbare⟩ := bare_step h.askable hstep hne
    refine ⟨(mode_step hstep).trans h.mode, hclosed.trans h.opened, hask, ?_,
      atRest_step h.rest hstep, inStep_step h.inStep h.rest hstep⟩
    rcases hbare with hstep | ⟨-, -, e, heq⟩
    · exact watching_step h.watching hstep
    · rw [heq]
      exact h.watching
  · exact absurd hstopped hne

/-- Where alerts are queued and the call has no token, the token is in the ready channel, or the
thread can take a step that brings it nearer. -/
lemma Manned.signal (h : p.Manned) {w : Worker} (hw : p.source.readiness = .watched w)
    (hhand : p.inHand = false) (hq : p.engine.engine.queue ≠ []) :
    w.ready = true ∨ ∃ w', w.step p.engine = some (w', p.engine, []) ∧
      stepsToSignal { p.bare with source := { p.source with readiness := .watched w' } } <
        p.bare.stepsToSignal := by
  have hpermits : Signalling { p.bare with errand := .waiting } := fun _ n seen hr => by
    cases hr.symm.trans hw
  have hagreed : InStep { p.bare with errand := .waiting } := fun w hw =>
    (inStep_bare h.inStep w hw).congr rfl hhand.symm
  rcases waiting_signalled hpermits h.watching hagreed h.opened hq rfl with
    ⟨hs, -⟩ | ⟨w₁, w', hw₁, hstep, hlt⟩
  · exact .inl (by simpa only [isSignalled, bare, hw] using hs)
  · obtain rfl := Readiness.watched.inj (hw₁.symm.trans hw)
    have hstep : w₁.step p.engine.engine = some (w', p.engine.engine, []) := hstep
    exact .inr ⟨w', by rw [Worker.step_askable h.askable, hstep]; rfl, hlt⟩

/-- While alerts are queued every step of the thread brings its signal nearer, and there is one only
for a call that has no signal yet. -/
lemma Manned.stride (h : p.Manned) {w w' : Worker} (hw : p.source.readiness = .watched w)
    (hq : p.inHand = false → p.engine.engine.queue ≠ []) {b : Bench} {notices : List Notice}
    (hstep : w.step p.engine = some (w', b, notices)) : b = p.engine ∧ stepsToSignal
      { p.bare with source := { p.source with readiness := .watched w' } } <
      p.bare.stepsToSignal := by
  have hagreed := h.inStep w hw
  have hopen := hagreed.stopped.trans h.opened
  -- a parked thread moves only for a token, or when it is told to stop
  have hparked : w.phase = .parked → w.drained = false → False := fun hp hd => by
    simp [Worker.step, hp, hd, hopen] at hstep
  have hhand : p.inHand = false := by
    rw [Bool.eq_false_iff]
    intro hi
    obtain ⟨hp, -, hd⟩ := hagreed.parked h.rest hi
    exact hparked hp hd
  rcases h.signal hw hhand (hq hhand) with hready | ⟨w₁, hstep₁, hlt⟩
  · obtain ⟨hle, hiff⟩ := hagreed.tokens_open h.opened
    rw [tokens, hready, hhand, Bool.toNat_true, Bool.toNat_false] at hle hiff
    have hdrained : w.drained = false := Bool.toNat_eq_zero.mp (by omega)
    exact (hparked (hiff.mp (by rw [hdrained]; rfl)) hdrained).elim
  · obtain ⟨rfl, hb⟩ := Prod.mk.inj (Option.some.inj (hstep₁.symm.trans hstep))
    exact ⟨(Prod.mk.inj hb).1.symm, hlt⟩

/-- The call is to get these alerts: it has them, or they are in the queue and the engine will hand
them out. -/
def Due (batch : List Alert) (p : Intake Bench) : Prop :=
  match p.errand with
  | .resting => False
  | .drained answer => answer = .ok batch
  | _ => p.engine.engine.queue = batch ∧ p.engine.Yields

lemma Due.queued {batch : List Alert} (h : p.Due batch) (hhand : p.inHand = false) :
    p.engine.engine.queue = batch := by
  unfold Due at h
  unfold inHand at hhand
  cases he : p.errand <;> simp only [he, reduceCtorEq] at h hhand
  · exact h.1
  · exact h.1

def stages : Errand → Nat
  | .resting => 0
  | .drained _ => 1
  | .signalled => 2
  | .waiting => 3
  | .looking => 4

def stepsLeft (p : Intake Bench) : Nat := 4 * stages p.errand + p.bare.stepsToSignal

/-- A call that comes a stage further has fewer steps left, wherever the thread is. -/
lemma stepsLeft_lt (h : stages q.errand < stages p.errand) : q.stepsLeft < p.stepsLeft := by
  have hle : q.bare.stepsToSignal ≤ 3 := by
    unfold stepsToSignal
    split
    · omega
    · split_ifs
      · omega
      · split <;> omega
  unfold stepsLeft
  omega

/-- **Every step of a call that is due its batch** hands the batch over, or returns nothing and
leaves the call due with fewer steps left. -/
theorem due_step (h : p.Manned) {batch : List Alert} (hb : batch ≠ []) (hd : p.Due batch)
    (halone : Alone p event q) : event = .returned (.ok batch) ∨
      (∀ other, event ≠ .returned other) ∧ q.Due batch ∧ q.stepsLeft < p.stepsLeft := by
  obtain ⟨hstep, hundisturbed, hrunning, hkept⟩ := halone
  cases hstep with
  | act => exact absurd rfl (hundisturbed _)
  | @watch w w' b notices hw hstep =>
    obtain ⟨rfl, hlt⟩ := h.stride hw (fun hhand => by rw [hd.queued hhand]; exact hb) hstep
    have hnone : ∀ other, Event.ofPhase w.phase ≠ .returned other := by
      cases w.phase <;> simp [Event.ofPhase]
    exact .inr ⟨hnone, hd, Nat.add_lt_add_left hlt _⟩
  | call he | refuse he => simp [Due, he] at hd
  | wait he =>
    have hdue : p.engine.engine.queue = batch ∧ p.engine.Yields := by simpa only [Due, he] using hd
    exact .inr ⟨by simp, hdue, stepsLeft_lt (by simp [he, stages])⟩
  | hear he =>
    have hdue : p.engine.engine.queue = batch ∧ p.engine.Yields := by
      rcases he with he | he <;> simpa only [Due, he] using hd
    refine .inr ⟨by simp, ?_, stepsLeft_lt ?_⟩
    · simpa only [Due, errand_heed, engine_heed] using hdue
    · rcases he with he | he <;> simp [he, stages]
  | despair _ _ hdead =>
    obtain ⟨w, hw⟩ := h.readiness
    rw [Source.isDead, hw] at hdead
    exact absurd (by simpa using hdead)
      ((h.watching w hw).2 ((h.inStep w hw).stopped.trans h.opened))
  | cancel =>
    obtain ⟨answer, hanswer⟩ := hkept rfl
    cases hanswer
  | drain he =>
    have hdue : p.engine.engine.queue = batch ∧ p.engine.Yields := by simpa only [Due, he] using hd
    -- the engine yields, so that the call gets the batch it is due
    obtain ⟨b, -, ⟨htake, -⟩ | ⟨hrefuses, -⟩⟩ := p.engine.takeAlerts_cases
    · refine .inr ⟨by simp, ?_, stepsLeft_lt ?_⟩
      · simp only [Due, errand_move, htake, hdue.1]
      · simp [errand_move, he, stages]
    · exact absurd hdue.2 hrefuses
  | again he =>
    obtain rfl : [] = batch := by simpa [Due, he] using hd
    exact absurd rfl hb
  | hand he =>
    simp only [Due, he] at hd
    exact .inl (congrArg _ (by rw [Except.ok.inj hd]))
  | fail he => simp [Due, he] at hd
  | stop => exact absurd rfl hrunning

/-- A call that is due its batch can go on. -/
lemma due_next (h : p.Manned) {batch : List Alert} (hb : batch ≠ []) (hd : p.Due batch) :
    ∃ event q, Alone p event q := by
  obtain ⟨w, hw⟩ := h.readiness
  have hsearch : p.errand = .looking ∨ p.errand = .waiting → ∃ event q, Alone p event q := by
    intro he
    have hhand : p.inHand = false := by rcases he with he | he <;> simp [inHand, he]
    have hq : p.engine.engine.queue ≠ [] := by
      rw [hd.queued hhand]
      exact hb
    rcases h.signal hw hhand hq with hready | ⟨w', hstep, -⟩
    · have hs : p.isSignalled = true := by simpa only [isSignalled, hw] using hready
      obtain ⟨source, hsig⟩ : ∃ source, p.source.signalled? p.engine = some source :=
        ⟨_, by rw [Source.signalled?, hw]; exact if_pos hready⟩
      exact ⟨_, _, .going .parked (.hear he hs hsig) (by simp)⟩
    · exact ⟨_, _, .going w.phase (.watch hw hstep) (by rcases he with he | he <;> simp [he])⟩
  cases he : p.errand with
  | resting => simp [Due, he] at hd
  | looking => exact hsearch (.inl he)
  | waiting => exact hsearch (.inr he)
  | signalled => exact ⟨_, _, .going .parked (.drain he) (by simp)⟩
  | drained answer =>
    obtain rfl : answer = .ok batch := by simpa only [Due, he] using hd
    exact ⟨_, _, .hand he hb, by simp, by simp, fun _ => ⟨_, rfl⟩⟩

/-- **A call that is due its batch gets it.** -/
theorem answers_due (h : p.Manned) {batch : List Alert} (hb : batch ≠ []) (hd : p.Due batch) :
    Answers (.ok batch) p := by
  -- by the steps that are left
  induction hn : p.stepsLeft using Nat.strongRecOn generalizing p with
  | ind n ih =>
    refine .intro (due_next h hb hd) (fun other q halone => ?_) fun event q halone hne => ?_
    · rcases due_step h hb hd halone with hreturned | ⟨hnone, -⟩
      · cases hreturned
        rfl
      · exact absurd rfl (hnone other)
    · rcases due_step h hb hd halone with hreturned | ⟨-, hdue, hlt⟩
      · exact absurd hreturned (hne _)
      · exact ih _ (hn ▸ hlt) (h.step halone.step halone.running) hdue rfl

end Intake

end TorrentFlow
