import TorrentFlow.Proofs.Intake.Recovery

/-!
A source that is called back does not get over an engine that refused its queue. The callback is
called only when alerts come into an empty queue. The permit of a call that was refused is used, the
queue is as full as it was, and so nothing will ever signal that source again.
-/

namespace TorrentFlow

namespace Intake

open Simulated

/-- Alerts are queued, and neither a permit nor a wake-up tells of them. -/
structure Unheard (p : Intake Simulated) : Prop where
  permit : p.permit = false
  woken : p.woken = false
  queue : p.engine.queue ≠ []

/-- An open source that nothing can signal. -/
structure Deaf (p : Intake Simulated) : Prop extends p.Unheard where
  mode : p.source.mode = .notify
  opened : p.source.closed = false
  inHand : p.inHand = false

section Callbacks

variable {p q : Intake Simulated} {event : Event}

lemma readiness_notify {source : Source} (h : source.mode = .notify) :
    ∃ n seen, source.readiness = .callback n seen := by
  unfold Source.mode at h
  split at h
  · exact ⟨_, _, ‹_›⟩
  · cases h

lemma not_watched {source : Source} (h : source.mode = .notify) {w : Worker} :
    source.readiness ≠ .watched w := by
  obtain ⟨n, seen, hr⟩ := readiness_notify h
  simp [hr]

lemma isDead_notify {source : Source} (h : source.mode = .notify) : source.isDead = false := by
  obtain ⟨n, seen, hr⟩ := readiness_notify h
  rw [Source.isDead, hr]

/-- More alerts in a queue that is not empty do not ring. -/
lemma Unheard.act (h : p.Unheard) {s : Simulated} {accepted : List Alert}
    (hs : Meanwhile p.engine accepted s) : (p.move s).Unheard := by
  obtain ⟨hqueue, hrung, -, -⟩ := hs.eq
  rw [rungAfter, if_neg (fun hring => h.queue hring.1)] at hrung
  have hcalls : calls { p with engine := s } = p.calls := by
    obtain ⟨engine, ⟨readiness, closed⟩, errand, permit, woken⟩ := p
    cases readiness with
    | callback n seen => exact congrArg (List.count n) hrung
    | watched w => rfl
  rw [move, hcalls, Nat.sub_self]
  refine ⟨h.permit, h.woken, ?_⟩
  show s.queue ≠ []
  rw [hqueue]
  simp [h.queue]

lemma Deaf.isSignalled (h : p.Deaf) : p.isSignalled = false := by
  obtain ⟨n, seen, hr⟩ := readiness_notify h.mode
  unfold Intake.isSignalled
  rw [hr]
  cases p.errand <;> first | exact h.permit | exact h.woken

lemma Deaf.not_refused (h : p.Deaf) : ¬ Refused p q := by
  rintro ⟨he, -⟩
  have hnone := h.inHand
  simp [Intake.inHand, he] at hnone

lemma Deaf.not_recorded (h : p.Deaf) : ¬ p.Recorded := by
  obtain ⟨n, seen, hr⟩ := readiness_notify h.mode
  intro hrecorded
  simp only [Recorded, hr, h.permit, h.woken] at hrecorded
  have hnone := h.inHand
  rcases hrecorded with hp | hw | he
  · cases hp
  · cases hw
  · simp [Intake.inHand, he] at hnone

/-- **Nothing changes that**: whatever comes in, a call that looks waits, and one that waits goes on
waiting or is given up. -/
theorem Deaf.step (h : p.Deaf) (hstep : Step Meanwhile p event q) (hne : event ≠ .stopped) :
    q.Deaf ∧ ∀ answer, event ≠ .returned answer := by
  have hmode := (mode_step hstep).trans h.mode
  have hclosed : q.source.closed = false := by
    rcases closed_or_stopped hstep with ⟨-, hc⟩ | ⟨hstopped, -, -⟩
    · exact hc.trans h.opened
    · exact absurd hstopped hne
  have hhand := h.inHand
  cases hstep with
  | act hs =>
    exact ⟨⟨h.toUnheard.act hs, hmode, hclosed, (inHand_congr (errand_move _ _)).trans hhand⟩,
      nofun⟩
  | watch hw => exact absurd hw (not_watched h.mode)
  | call | wait => exact ⟨⟨⟨h.permit, h.woken, h.queue⟩, hmode, hclosed, rfl⟩, nofun⟩
  | refuse _ hc => cases h.opened.symm.trans hc
  | hear _ hs => cases h.isSignalled.symm.trans hs
  | despair _ _ hd => cases (isDead_notify h.mode).symm.trans hd
  | cancel =>
    refine ⟨⟨⟨?_, rfl, h.queue⟩, hmode, hclosed, rfl⟩, nofun⟩
    show (p.permit || p.woken) = false
    rw [h.permit, h.woken]
    rfl
  | drain he | again he | hand he | fail he => simp [Intake.inHand, he] at hhand
  | stop => exact absurd rfl hne

/-! ### Calls that are refused -/

def Unerring (trace : List Event) : Prop := ∀ e, .returned (.error e) ∉ trace

lemma Unerring.snoc {trace : List Event} (h : Unerring trace)
    (hne : ∀ e, event ≠ .returned (.error e)) : Unerring (trace ++ [event]) := by
  intro e hmem
  rcases List.mem_append.mp hmem with hmem | hmem
  · exact h e hmem
  · exact hne e (List.mem_singleton.mp hmem).symm

/-- How a source that is called back stands after these steps. -/
inductive Standing (trace : List Event) (p : Intake Simulated) : Prop
  | hearing (h : p.Signalling) (he : ∀ e, p.errand ≠ .drained (.error e)) (ht : Unerring trace)
  | refused {e : EngineError} (h : p.Unheard) (he : p.errand = .drained (.error e))
      (ht : Unerring trace)
  | deaf (h : p.Deaf)

/-- A call that is refused had a permit, and so the queue is not empty and there is no other
permit. -/
lemma Signalling.refused (h : p.Signalling) (hm : p.source.mode = .notify)
    (hopen : p.source.closed = false) (hr : Refused p q) : q.Unheard := by
  obtain ⟨n, seen, hreadiness⟩ := readiness_notify hm
  have hrung := h hopen n seen hreadiness
  obtain ⟨hdue, e, rfl⟩ := hr
  have hle := hrung.le
  have hsignals := hrung.signals
  rw [show p.isDue = true by simp [isDue, hdue], Bool.toNat_true] at hle hsignals
  have hpermit : p.permit = false := Bool.toNat_eq_zero.mp (by omega)
  have hwoken : p.woken = false := Bool.toNat_eq_zero.mp (by omega)
  refine ⟨hpermit, hwoken, fun hq => ?_⟩
  rw [if_pos hq] at hsignals
  omega

lemma hearing_step (hm : p.source.mode = .notify) (hopen : p.source.closed = false)
    (he : ∀ e, p.errand ≠ .drained (.error e)) (hstep : Step Meanwhile p event q) :
    (∀ e, q.errand ≠ .drained (.error e)) ∧ ∀ e, event ≠ .returned (.error e) := by
  cases hstep with
  | act => exact ⟨by rwa [errand_move], nofun⟩
  | watch hw => exact absurd hw (not_watched hm)
  | refuse _ hc => cases hopen.symm.trans hc
  | hear => exact ⟨by rw [errand_heed]; nofun, nofun⟩
  | despair _ _ hd => cases (isDead_notify hm).symm.trans hd
  | drain => exact ⟨by rw [errand_move]; nofun, nofun⟩
  | fail hf => exact absurd hf (he _)
  | stop => exact ⟨he, nofun⟩
  | call | wait | cancel | again | hand => exact ⟨nofun, nofun⟩

/-- A call that was refused goes away with its error, and leaves the source deaf. -/
lemma refused_step {trace : List Event} {e : EngineError} (h : p.Unheard)
    (he : p.errand = .drained (.error e)) (ht : Unerring trace) (hm : p.source.mode = .notify)
    (hopen : p.source.closed = false) (hstep : Step Meanwhile p event q) :
    Standing (trace ++ [event]) q := by
  have hmode := (mode_step hstep).trans hm
  cases hstep with
  | act hs => exact .refused (h.act hs) ((errand_move _ _).trans he) (ht.snoc nofun)
  | watch hw => exact absurd hw (not_watched hm)
  | fail =>
    exact .deaf ⟨⟨h.permit, h.woken, h.queue⟩, hmode, (closed_acknowledge _).trans hopen, rfl⟩
  | call he' | refuse he' | wait he' | drain he' | again he' | hand he' | stop he' =>
    cases he.symm.trans he'
  | hear he' | despair he' | cancel he' => rcases he' with he' | he' <;> cases he.symm.trans he'

end Callbacks

/-! ### Runs -/

variable {p q : Intake Bench} {event : Event} {trace : List Event}

theorem standing_step (h : Standing trace p.bare) (ha : p.engine.Askable)
    (hm : p.source.mode = .notify) (hopen : p.source.closed = false) (hstep : Step Amid p event q)
    (hne : event ≠ .stopped) :
    Standing (trace ++ [event]) q.bare := by
  obtain ⟨-, hbare⟩ := bare_step ha hstep hne
  cases h with
  | hearing h he ht =>
    rcases hbare with hstep | ⟨rfl, hr⟩
    · obtain ⟨he', hne'⟩ := hearing_step hm hopen he hstep
      exact .hearing (signalling_step h hstep) he' (ht.snoc hne')
    · have hunheard := h.refused hm hopen hr
      obtain ⟨-, e, heq⟩ := hr
      exact .refused hunheard (congrArg errand heq) (ht.snoc nofun)
  | refused h he ht =>
    rcases hbare with hstep | ⟨-, hr, -⟩
    · exact refused_step h he ht hm hopen hstep
    · cases he.symm.trans hr
  | deaf h =>
    rcases hbare with hstep | ⟨-, hr⟩
    · exact .deaf (h.step hstep hne).1
    · exact (h.not_refused hr).elim

/-- **A deaf source stays deaf** as long as it is open, and no call of it ever returns. -/
theorem deaf_run (h : p.bare.Deaf) (ha : p.engine.Askable) {later : List Event}
    (hrun : Run Amid p later q) (hn : .stopped ∉ later) :
    q.engine.Askable ∧ q.bare.Deaf ∧ ∀ answer, .returned answer ∉ later := by
  induction hrun with
  | nil => exact ⟨ha, h, fun _ => List.not_mem_nil⟩
  | @snoc later event q r _ hstep ih =>
    rw [List.mem_append, List.mem_singleton, not_or] at hn
    obtain ⟨hask, hdeaf, hnone⟩ := ih hn.1
    obtain ⟨hask', hbare | ⟨-, hr⟩⟩ := bare_step hask hstep (Ne.symm hn.2)
    · obtain ⟨hdeaf', hreturned⟩ := hdeaf.step hbare (Ne.symm hn.2)
      refine ⟨hask', hdeaf', fun answer hmem => ?_⟩
      rcases List.mem_append.mp hmem with hmem | hmem
      · exact hnone answer hmem
      · exact hreturned answer (List.mem_singleton.mp hmem).symm
    · exact (hdeaf.not_refused hr).elim

section Opened

variable {mode : SourceMode} {b b' : Bench} {source : Source}

lemma run_standing (hb : b.engine.Registered) (ho : Source.open mode b = (.ok source, b'))
    (ha : b'.Askable) (hm : source.mode = .notify) (h : Run Amid (opened source b') trace p)
    (hn : .stopped ∉ trace) : Standing trace p.bare := by
  induction h with
  | nil =>
    obtain ⟨n, seen, hr⟩ := readiness_notify hm
    obtain ⟨mode, s, hbare, hs⟩ := open_bare ho
    rw [bare_opened]
    refine .hearing (signalling_opened (hs n seen hr ▸ hb) hbare) ?_ fun _ => List.not_mem_nil
    rw [errand_opened]
    nofun
  | @snoc trace event p q h hstep ih =>
    rw [List.mem_append, List.mem_singleton, not_or] at hn
    have hmode := (run_mode h).trans hm
    exact standing_step (ih hn.1) (run_askable ho ha h hn.1).1 hmode (run_open ho h hn.1) hstep
      (Ne.symm hn.2)

/-- **The first error leaves the source deaf.** -/
theorem run_deaf (hb : b.engine.Registered) (ho : Source.open mode b = (.ok source, b'))
    (ha : b'.Askable) (hm : source.mode = .notify) (h : Run Amid (opened source b') trace p)
    (hn : .stopped ∉ trace) {e : DeliveryError} (he : .returned (.error e) ∈ trace) :
    p.bare.Deaf := by
  cases run_standing hb ho ha hm h hn with
  | hearing _ _ ht | refused _ _ ht => exact absurd he (ht e)
  | deaf h => exact h

lemma amid_log {b : Bench} (text : String) (h : b.Askable) :
    Amid b ((EngineCall.log text).accepted b.engine) { b with engine := b.engine.postLog text } :=
  ⟨.call (.log text), h⟩

lemma askable_jammed : jammed.Askable := by
  unfold Bench.Askable jammed
  decide

/-- A call that is called back is refused, and the next one begins. -/
lemma refused_once : ∃ source b trace p, Source.open .notify jammed = (.ok source, b) ∧ b.Askable ∧
    source.mode = .notify ∧ Run Amid (opened source b) trace p ∧ .stopped ∉ trace ∧
    .returned (.error (.engine .notSupported)) ∈ trace ∧ p.errand = .looking ∧
    p.engine.engine.queue = [.log "hello"] ∧ p.engine.Yields := by
  have ho : Source.open .notify jammed = (.ok { readiness := .callback 0 0 }, _) := rfl
  have ha : (Source.open .notify jammed).2.Askable := askable_jammed
  have hnil : Run Amid (opened { readiness := .callback 0 0 } (Source.open .notify jammed).2)
      [] _ := .nil
  have hrung := (hnil.snoc (.act (amid_log "hello" ha))).snoc (.call rfl rfl)
  have hdrained := (hrung.snoc (.hear (.inl rfl) rfl rfl)).snoc (.drain rfl)
  have hp := (hdrained.snoc (.fail rfl)).snoc (.call rfl rfl)
  exact ⟨_, _, _, _, ho, ha, rfl, hp, by simp, List.mem_append_left _ List.mem_concat_self,
    rfl, rfl, rfl⟩

/-- **A queue that was not handed out.** Over an engine that can always be asked, and that fails to
hand out its queue whenever it likes, leaving it as it was:

* a source that is watched by a thread loses nothing. While it is open and alerts are queued
  readiness is recorded, and a call that begins then and is left to itself returns them all if the
  engine hands them out;
* a source that is called back is lost with the first error that it returns. From then on the queue
  is not empty, no readiness is recorded, and as long as the source is open no call returns,
  whatever comes in. -/
theorem queue_not_handed_out {notifySupported waitSupported : Bool} {deeds : List Deed}
    (hb : (made notifySupported waitSupported).after deeds = b.engine)
    (ho : Source.open mode b = (.ok source, b')) (ha : b'.Askable)
    (h : Run Amid (opened source b') trace p) (hn : .stopped ∉ trace) :
    (∀ e b'', Engine.takeAlerts p.engine = (.error e, b'') → b''.engine = p.engine.engine) ∧
      (source.mode = .thread → p.engine.engine.queue ≠ [] →
        p.bare.Recorded ∧ (p.errand = .looking → p.engine.Yields →
          Answers (.ok p.engine.engine.queue) p)) ∧
      (source.mode = .notify → ∀ e, .returned (.error e) ∈ trace →
        p.engine.engine.queue ≠ [] ∧ ¬ p.bare.Recorded ∧
          ∀ later q, Run Amid p later q → .stopped ∉ later →
          ∀ answer, .returned answer ∉ later) := by
  obtain ⟨hask, hwatching⟩ := run_askable ho ha h hn
  have hopen := run_open ho h hn
  refine ⟨fun e b'' htake => ?_, fun hm hq => ?_, fun hm e hreturned => ?_⟩
  · obtain ⟨b₁, -, ⟨hok, -⟩ | ⟨-, e₁, herror, hengine⟩⟩ := p.engine.takeAlerts_cases
    · cases hok.symm.trans htake
    · obtain ⟨-, rfl⟩ := Prod.mk.inj (herror.symm.trans htake)
      exact hengine
  · -- watched by a thread
    obtain ⟨hrest, hagreed⟩ := run_agreed ho h
    have hmanned : p.Manned := ⟨(run_mode h).trans hm, hopen, hask, hwatching, hrest, hagreed⟩
    obtain ⟨w, hw⟩ := hmanned.readiness
    have hpermits : p.bare.Signalling := fun _ n seen hr => by cases hr.symm.trans hw
    refine ⟨recorded hpermits hwatching (inStep_bare hagreed) hopen hq, fun he hyields => ?_⟩
    have hdue : p.Due p.engine.engine.queue := by
      simp only [Due, he]
      exact ⟨trivial, hyields⟩
    exact answers_due hmanned hq hdue
  · -- called back
    have hdeaf := run_deaf (hb ▸ registered_after _ _ deeds) ho ha hm h hn hreturned
    exact ⟨hdeaf.queue, hdeaf.not_recorded, fun later q hrun hn =>
      (deaf_run hdeaf hask hrun hn).2.2⟩

/-- The queue is refused once. The source that a thread watches gets it with its next call, and the
one that is called back never again. -/
theorem queue_not_handed_out_once :
    (made true true).after [.applyMask .sessionLog] = jammed.engine ∧
    (∃ source trace p, Source.open .thread jammed = (.ok source, jammed) ∧
      Run Amid (opened source jammed) trace p ∧ .returned (.error (.engine .notSupported)) ∈ trace ∧
      p.bare.Recorded ∧ Answers (.ok [.log "hello"]) p) ∧
    ∃ source b trace p, Source.open .notify jammed = (.ok source, b) ∧
      Run Amid (opened source b) trace p ∧ .returned (.error (.engine .notSupported)) ∈ trace ∧
      p.engine.engine.queue = [.log "hello"] ∧ ¬ p.bare.Recorded ∧
      ∀ later q, Run Amid p later q → .stopped ∉ later → ∀ answer, .returned answer ∉ later := by
  have hjammed : (made true true).after [.applyMask .sessionLog] = jammed.engine := rfl
  refine ⟨hjammed, ?_, ?_⟩
  · have ho : Source.open .thread jammed = (.ok { readiness := .watched {} }, jammed) := rfl
    have hnil : Run Amid (opened { readiness := .watched {} } jammed) []
      (opened { readiness := .watched {} } jammed) := .nil
    have hfound := (hnil.snoc (.act (amid_log "hello" askable_jammed))).snoc (.watch rfl rfl)
    have hready := hfound.snoc (.watch rfl rfl)
    have hdrained := ((hready.snoc (.call rfl rfl)).snoc (.hear (.inl rfl) rfl rfl)).snoc
      (.drain rfl)
    have hp := (hdrained.snoc (.fail rfl)).snoc (.call rfl rfl)
    obtain ⟨hrecorded, hanswers⟩ := (queue_not_handed_out hjammed ho askable_jammed hp
      (by simp [Event.ofPhase])).2.1 rfl (by decide)
    exact ⟨_, _, _, ho, hp, List.mem_append_left _ List.mem_concat_self, hrecorded,
      hanswers rfl rfl⟩
  · obtain ⟨source, b, trace, p, ho, ha, hm, hp, hn, hreturned, -, hqueue, -⟩ := refused_once
    obtain ⟨-, hrecorded, hlater⟩ := (queue_not_handed_out hjammed ho ha hp hn).2.2 hm _ hreturned
    exact ⟨source, b, trace, p, ho, hp, hreturned, hqueue, hrecorded, hlater⟩

/-- The source is open, nothing new comes in and the engine would hand out its queue; yet the call
that begins then does not get it. -/
theorem queue_not_handed_out_again :
    ∃ source b trace p, Source.open .notify jammed = (.ok source, b) ∧
    Run Amid (opened source b) trace p ∧ .stopped ∉ trace ∧
    .returned (.error (.engine .notSupported)) ∈ trace ∧ p.errand = .looking ∧ p.engine.Yields ∧
    p.engine.engine.queue = [.log "hello"] ∧ ¬ p.bare.Recorded ∧
    ¬ Answers (.ok [.log "hello"]) p := by
  obtain ⟨source, b, trace, p, ho, ha, hm, hp, hn, hreturned, he, hqueue, hyields⟩ := refused_once
  have hregistered : jammed.engine.Registered := registered_after true true [.applyMask .sessionLog]
  have hask := (run_askable ho ha hp hn).1
  have hdeaf := run_deaf hregistered ho ha hm hp hn hreturned
  have hnever : ¬ Answers (.ok [.log "hello"]) p := fun hanswers => by
    obtain ⟨later, q, hrun, hn', hmem⟩ := hanswers.run
    exact (deaf_run hdeaf hask hrun hn').2.2 _ hmem
  exact ⟨source, b, trace, p, ho, hp, hn, hreturned, he, hyields, hqueue,
    hdeaf.not_recorded, hnever⟩

end Opened

end Intake

end TorrentFlow
