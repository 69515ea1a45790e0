import TorrentFlow.Proofs.Intake.Readiness

/-!
A source over an engine that refuses to hand out its queue whenever it likes. As long as the engine
can be asked whether alerts are queued, every step of the source is one over an engine without
faults, except that a refused call goes away with an error and leaves the engine as it was.
-/

namespace TorrentFlow

namespace Fault

lemma intercept_other {point : FaultPoint} {faults : List Fault}
    (h : ∀ f ∈ faults, f.point ≠ point) :
    intercept point faults = (none, faults) := by
  induction faults with
  | nil => rfl
  | cons f rest ih =>
    obtain ⟨hf, hrest⟩ := List.forall_mem_cons.mp h
    rw [intercept, if_pos hf, ih hrest]

lemma points_intercept (point : FaultPoint) (faults : List Fault) :
    (intercept point faults).2.map (·.point) = faults.map (·.point) := by
  induction faults with
  | nil => rfl
  | cons f rest ih =>
    unfold intercept
    split_ifs <;> simp [ih, spend]

end Fault

namespace Bench

/-- No fault is planned for asking whether alerts are queued. -/
def Askable (b : Bench) : Prop := ∀ f ∈ b.faults, f.point ≠ .hasAlerts

/-- The engine hands out its queue the next time. -/
def Yields (b : Bench) : Prop := (Fault.intercept .takeAlerts b.faults).1 = none

lemma guarded_eq_ok {α : Type} {point : FaultPoint} {call : Call Simulated α} {b b' : Bench} {a : α}
    (h : guarded point call b = (.ok a, b')) : call b.engine = (.ok a, b'.engine) := by
  unfold guarded at h
  split at h
  · cases h
  · obtain ⟨ha, rfl⟩ := Prod.mk.inj h
    exact Prod.ext ha rfl

lemma hasAlerts_askable {b : Bench} (h : b.Askable) :
    (Engine.hasAlerts b : Except EngineError Bool × Bench) =
    ((Engine.hasAlerts b.engine).1, b) := by
  have hengine : (Simulated.hasAlerts b.engine).2 = b.engine := by
    unfold Simulated.hasAlerts
    split_ifs <;> rfl
  show guarded .hasAlerts Simulated.hasAlerts b = _
  unfold guarded
  rw [Fault.intercept_other h]
  show ((Simulated.hasAlerts b.engine).1, { b with engine := (Simulated.hasAlerts b.engine).2 }) = _
  rw [hengine]
  rfl

/-- The engine hands out its queue, or fails and is left as it was. -/
lemma takeAlerts_cases (b : Bench) : ∃ b', b'.faults.map (·.point) = b.faults.map (·.point) ∧
    ((Engine.takeAlerts b = (.ok b.engine.queue, b') ∧ b'.engine = { b.engine with queue := [] }) ∨
      ¬ b.Yields ∧ ∃ e, Engine.takeAlerts b = (.error e, b') ∧ b'.engine = b.engine) := by
  have hpoints := Fault.points_intercept .takeAlerts b.faults
  have htake : (Engine.takeAlerts b : Except EngineError (List Alert) × Bench) =
    guarded .takeAlerts Simulated.takeAlerts b := rfl
  unfold guarded at htake
  rcases hfault : Fault.intercept .takeAlerts b.faults with ⟨_ | e, faults⟩
  · rw [hfault] at htake hpoints
    exact ⟨_, hpoints, .inl ⟨htake, rfl⟩⟩
  · rw [hfault] at htake hpoints
    exact ⟨_, hpoints, .inr ⟨by simp [Yields, hfault], e, htake, rfl⟩⟩

lemma Askable.congr {b b' : Bench} (h : b.Askable)
    (hp : b'.faults.map (·.point) = b.faults.map (·.point)) : b'.Askable := by
  intro f hf
  obtain ⟨g, hg, heq⟩ := List.mem_map.mp (hp ▸ List.mem_map_of_mem hf)
  exact heq ▸ h g hg

end Bench

namespace Worker

lemma step_askable {b : Bench} (h : b.Askable) (w : Worker) :
    w.step b = (w.step b.engine).map fun next => (next.1, b, next.2.2) := by
  have hask := Bench.hasAlerts_askable h
  unfold step
  cases w.phase with
  | asking =>
    dsimp only
    rw [hask]
    rcases (Engine.hasAlerts b.engine : Except EngineError Bool × Simulated) with ⟨e | found, s⟩
    · rfl
    · cases found <;> rfl
  | foundNothing | foundAlerts | parked =>
    dsimp only
    split_ifs <;> rfl
  | exited => rfl

end Worker

namespace Intake

open Simulated

/-- What is done to the engine on the bench besides taking its queue and setting its callback.
Whatever faults are planned meanwhile, none is for asking it. -/
def Amid (b : Bench) (accepted : List Alert) (b' : Bench) : Prop :=
  Meanwhile b.engine accepted b'.engine ∧ b'.Askable

def bare (p : Intake Bench) : Intake Simulated :=
  { engine := p.engine.engine, source := p.source, errand := p.errand, permit := p.permit,
    woken := p.woken }

variable {p q : Intake Bench} {event : Event}

lemma inStep_bare (h : p.InStep) : p.bare.InStep := fun w hw =>
  ⟨(h w hw).stopped, (h w hw).tokens, (h w hw).exited⟩

lemma bare_rings (k : Nat) (p : Intake Bench) : (p.rings k).bare = p.bare.rings k := by
  have hring : ∀ p : Intake Bench, p.ring.bare = p.bare.ring := by
    intro p
    obtain ⟨engine, source, errand, permit, woken⟩ := p
    cases errand <;> cases woken <;> rfl
  induction k generalizing p with
  | zero => rfl
  | succ k ih => exact (ih p.ring).trans (congrArg (rings k) (hring p))

lemma calls_bare (p : Intake Bench) : p.bare.calls = p.calls := by
  obtain ⟨engine, ⟨readiness, closed⟩, errand, permit, woken⟩ := p
  cases readiness <;> rfl

@[simp] lemma bare_move (p : Intake Bench) (b : Bench) :
    (p.move b).bare = p.bare.move b.engine := by
  unfold move
  rw [bare_rings, calls_bare, ← calls_bare { p with engine := b }]
  rfl

@[simp] lemma bare_heed (p : Intake Bench) (source : Source) :
    (p.heed source).bare = p.bare.heed source := by
  obtain ⟨engine, former, errand, permit, woken⟩ := p
  cases errand <;> rfl

lemma bare_opened (source : Source) (b : Bench) :
    (opened source b).bare = opened source b.engine := by
  unfold opened
  rw [bare_rings, ← calls_bare]
  rfl

/-- The call is refused the queue: it is to go away with an error, and nothing else has changed. -/
def Refused (p q : Intake Simulated) : Prop :=
  p.errand = .signalled ∧ ∃ e, q = { p with errand := .drained (.error e) }

/-- **A step on the bench is a step without it**, unless the engine refuses its queue. -/
theorem bare_step (ha : p.engine.Askable) (hstep : Step Amid p event q) (hne : event ≠ .stopped) :
    q.engine.Askable ∧
      (Step Meanwhile p.bare event q.bare ∨ event = .quiet ∧ Refused p.bare q.bare) := by
  cases hstep with
  | act h =>
    rw [engine_move, bare_move]
    exact ⟨h.2, .inl (.act h.1)⟩
  | @watch w w' b notices hw hstep =>
    rw [Worker.step_askable ha] at hstep
    obtain ⟨⟨w₁, s, notices₁⟩, hbare, heq⟩ := Option.map_eq_some_iff.mp hstep
    obtain ⟨rfl, rfl, rfl⟩ := heq
    obtain rfl : s = p.engine.engine := Source.worker_step hbare
    exact ⟨ha, .inl (.watch (p := p.bare) hw hbare)⟩
  | call he hc => exact ⟨ha, .inl (.call (p := p.bare) he hc)⟩
  | refuse he hc => exact ⟨ha, .inl (.refuse (p := p.bare) he hc)⟩
  | wait he hs => exact ⟨ha, .inl (.wait (p := p.bare) he hs)⟩
  | hear he hs hsig =>
    rw [engine_heed, bare_heed]
    exact ⟨ha, .inl (.hear (p := p.bare) he hs hsig)⟩
  | despair he hs hd => exact ⟨ha, .inl (.despair (p := p.bare) he hs hd)⟩
  | cancel he => exact ⟨ha, .inl (.cancel (p := p.bare) he)⟩
  | drain he =>
    obtain ⟨b, hpoints, ⟨htake, hb⟩ | ⟨-, e, htake, hb⟩⟩ := p.engine.takeAlerts_cases
    · rw [htake, engine_move, bare_move, hb]
      exact ⟨ha.congr hpoints, .inl (.drain (p := p.bare) he)⟩
    · rw [htake, engine_move, bare_move, hb]
      refine ⟨ha.congr hpoints, .inr ⟨rfl, he, e, ?_⟩⟩
      exact congrArg (rings · _) (Nat.sub_self _)
  | again he => exact ⟨ha, .inl (.again (p := p.bare) he)⟩
  | hand he hb => exact ⟨ha, .inl (.hand (p := p.bare) he hb)⟩
  | fail he => exact ⟨ha, .inl (.fail (p := p.bare) he)⟩
  | stop => exact absurd rfl hne

/-- A source that was opened on the bench could have been opened without it. -/
lemma open_bare {mode : SourceMode} {b b' : Bench} {source : Source}
    (h : Source.open mode b = (.ok source, b')) :
    ∃ mode s, Source.open mode s = (.ok source, b'.engine) ∧
      ∀ n seen, source.readiness = .callback n seen → s = b.engine := by
  rcases open_eq_ok h with ⟨b₁, h⟩ | h
  · obtain ⟨rfl, found, hask⟩ := startThread_eq_ok h
    refine ⟨.thread, b₁.engine, ?_, nofun⟩
    have hask : (Engine.hasAlerts b₁.engine : Except EngineError Bool × Simulated) =
      (.ok found, b'.engine) := Bench.guarded_eq_ok hask
    show Source.startThread b₁.engine = _
    rw [Source.startThread, hask]
  · obtain ⟨n, rfl, hwatch⟩ := register_eq_ok h
    refine ⟨.notify, b.engine, ?_, fun _ _ _ => rfl⟩
    have hguarded : Bench.guarded .watch Simulated.watch (b.record (.watch true)) =
        (.ok n, b') := hwatch
    have hok := Bench.guarded_eq_ok hguarded
    have hwatch : (Engine.watch b.engine : Except EngineError Nat × Simulated) =
        (.ok n, b'.engine) := hok
    simp only [Source.open, Source.register, hwatch]

section Opened

variable {mode : SourceMode} {b b' : Bench} {source : Source} {trace : List Event}

/-- Until the source is told to stop the engine can be asked, and the thread does not exit. -/
lemma run_askable (ho : Source.open mode b = (.ok source, b')) (hb : b'.Askable)
    (h : Run Amid (opened source b') trace p) (hn : .stopped ∉ trace) :
    p.engine.Askable ∧ p.bare.Watching := by
  induction h with
  | nil =>
    obtain ⟨mode, s, hbare, -⟩ := open_bare ho
    rw [engine_opened, bare_opened]
    exact ⟨hb, watching_opened hbare⟩
  | @snoc trace event p q _ hstep ih =>
    rw [List.mem_append, List.mem_singleton, not_or] at hn
    obtain ⟨ha, hw⟩ := ih hn.1
    obtain ⟨ha', hstep | ⟨-, -, e, heq⟩⟩ := bare_step ha hstep (Ne.symm hn.2)
    · exact ⟨ha', watching_step hw hstep⟩
    · rw [heq]
      exact ⟨ha', hw⟩

end Opened

end Intake

end TorrentFlow
