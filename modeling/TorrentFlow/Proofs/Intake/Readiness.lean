import TorrentFlow.Proofs.Histories
import TorrentFlow.Proofs.Intake.Handshake

/-!
Over the simulated engine no readiness is lost. The engine calls the callback only when its queue
was empty and is not any more, and of the permits one is stored; that is enough because a permit
that was used, or is about to be, always has the taking of the queue after it. The thread that
watches the engine never exits by itself, and while alerts are queued it is at most three steps from
giving its signal.
-/

namespace TorrentFlow

namespace Intake

open Simulated

/-- What is done to the simulated engine besides taking its queue and setting its callback. -/
inductive Meanwhile (s : Simulated) : List Alert → Simulated → Prop
  | call (c : EngineCall) : Meanwhile s (c.accepted s) (c.apply s)
  | applyMask (mask : Category) : Meanwhile s [] (s.applyMask mask)

/-- What others do lets alerts into the queue, and the callback is called if that ends an empty
queue. -/
lemma Meanwhile.eq {s s' : Simulated} {accepted : List Alert} (h : Meanwhile s accepted s') :
    s'.queue = s.queue ++ accepted ∧ s'.rung = s.rungAfter accepted ∧ s'.watcher = s.watcher ∧
      s'.waitSupported = s.waitSupported := by
  cases h with
  | call c =>
    obtain ⟨slots, statusQueries, heq⟩ := apply_eq s c
    rw [heq]
    exact ⟨rfl, rfl, rfl, rfl⟩
  | applyMask mask =>
    refine ⟨(List.append_nil _).symm, ?_, rfl, rfl⟩
    rw [rungAfter, if_neg (by simp)]
    rfl

/-! ### Callbacks -/

/-- The call has used a permit and takes the queue next. -/
def isDue {σ : Type} (p : Intake σ) : Bool :=
  match p.errand with
  | .signalled => true
  | _ => false

/-- Between them, a stored permit, a call that was woken and one that takes the queue next are as
many as the queue needs: one if it holds anything. -/
structure Rung (n seen : Nat) (p : Intake Simulated) : Prop where
  watcher : p.engine.watcher = some n
  count : p.engine.rung.count n = seen + p.permit.toNat + p.woken.toNat
  woken : p.woken = true → p.errand = .waiting
  waiting : p.errand = .waiting → p.permit = false
  signals : p.permit.toNat + p.woken.toNat + p.isDue.toNat = if p.engine.queue = [] then 0 else 1

/-- The permits of an open source are in order. -/
def Signalling (p : Intake Simulated) : Prop := p.source.closed = false →
  ∀ n seen, p.source.readiness = .callback n seen → Rung n seen p

variable {p q : Intake Simulated} {event : Event} {n seen : Nat}

lemma count_rungAfter {s : Simulated} (h : s.watcher = some n) (accepted : List Alert) :
    (s.rungAfter accepted).count n =
      s.rung.count n + if s.queue = [] ∧ accepted ≠ [] then 1 else 0 := by
  unfold rungAfter
  rw [h]
  split_ifs <;> simp

lemma calls_callback {p : Intake Simulated} (h : p.source.readiness = .callback n seen) :
    p.calls = p.engine.rung.count n := by
  simp only [calls, h]
  rfl

lemma Rung.ring (hw : p.engine.watcher = some n) (hc : p.engine.rung.count n = seen + 1)
    (hp : p.permit = false) (hwoken : p.woken = false) (hd : p.isDue = false)
    (hq : p.engine.queue ≠ []) : Rung n seen p.ring := by
  obtain ⟨engine, source, errand, permit, woken⟩ := p
  dsimp only at hw hc hp hwoken hq
  subst hp hwoken
  cases errand with
  | signalled => cases hd
  | waiting =>
    exact ⟨hw, by simp [Intake.ring, hc], fun _ => rfl, fun _ => rfl,
      by simp [Intake.ring, isDue, hq]⟩
  | resting | looking | drained =>
    exact ⟨hw, by simp [Intake.ring, hc], nofun, nofun, by simp [Intake.ring, isDue, hq]⟩

lemma Rung.act (h : Rung n seen p) (hr : p.source.readiness = .callback n seen) {s : Simulated}
    {accepted : List Alert} (hs : Meanwhile p.engine accepted s) : Rung n seen (p.move s) := by
  obtain ⟨hqueue, hrung, hwatcher, -⟩ := hs.eq
  have hcount := count_rungAfter h.watcher accepted
  rw [← hrung] at hcount
  have hmove : p.move s = rings (if p.engine.queue = [] ∧ accepted ≠ [] then 1 else 0)
      { p with engine := s } := by
    rw [move, calls_callback hr, calls_callback (p := { p with engine := s }) hr]
    congr 1
    show s.rung.count n - p.engine.rung.count n = _
    omega
  rw [hmove]
  have hsignals := h.signals
  -- the engine rings only when its queue becomes non-empty
  by_cases hring : p.engine.queue = [] ∧ accepted ≠ []
  · rw [if_pos hring] at hcount ⊢
    rw [if_pos hring.1] at hsignals
    have hpermit : p.permit = false := Bool.toNat_eq_zero.mp (by omega)
    have hwoken : p.woken = false := Bool.toNat_eq_zero.mp (by omega)
    refine Rung.ring (hwatcher.trans h.watcher) ?_ hpermit hwoken
      (Bool.toNat_eq_zero.mp (show p.isDue.toNat = 0 by omega)) ?_
    · rw [hcount, h.count, hpermit, hwoken]
      rfl
    · rw [hqueue]
      simp [hring.2]
  · rw [if_neg hring] at hcount ⊢
    refine ⟨hwatcher.trans h.watcher, hcount.trans h.count, h.woken, h.waiting, hsignals.trans ?_⟩
    have hiff : p.engine.queue = [] ↔ s.queue = [] := by
      rw [hqueue]
      simp only [not_and, not_not] at hring
      simp only [List.append_eq_nil_iff]
      exact ⟨fun he => ⟨he, hring he⟩, And.left⟩
    simp only [hiff]
    rfl

/-- No two of them have a permit. -/
lemma Rung.le (h : Rung n seen p) : p.permit.toNat + p.woken.toNat + p.isDue.toNat ≤ 1 := by
  rw [h.signals]
  split_ifs <;> omega

lemma Rung.not_woken (h : Rung n seen p) (he : p.errand ≠ .waiting) : p.woken = false := by
  rw [Bool.eq_false_iff]
  exact fun hw => he (h.woken hw)

lemma Rung.congr (h : Rung n seen p) (hw : p.woken = false) (hd : p.isDue = false)
    (he : q.engine = p.engine ∧ q.permit = p.permit ∧ q.woken = p.woken) (hdue : q.isDue = false)
    (hwait : q.errand = .waiting → q.permit = false) : Rung n seen q := by
  obtain ⟨he, hp, hwoken⟩ := he
  refine ⟨by rw [he]; exact h.watcher, by rw [he, hp, hwoken]; exact h.count,
    fun ht => ?_, hwait, ?_⟩
  · rw [hwoken, hw] at ht
    cases ht
  · rw [he, hp, hwoken, hdue, ← hd]
    exact h.signals

lemma Rung.hear (h : Rung n seen p) (hr : p.source.readiness = .callback n seen)
    (he : p.errand = .looking ∨ p.errand = .waiting) (hs : p.isSignalled = true) (source : Source) :
    Rung n (p.engine.rung.count n) (p.heed source) := by
  have hle := h.le
  obtain ⟨engine, ⟨readiness, closed⟩, errand, permit, woken⟩ := p
  dsimp only at hr he hle
  subst hr
  rcases he with rfl | rfl
  · obtain rfl : permit = true := hs
    have hnot : woken = false := h.not_woken nofun
    subst hnot
    exact ⟨h.watcher, rfl, nofun, nofun, h.signals⟩
  · obtain rfl : woken = true := hs
    have hnot : permit = false := Bool.toNat_eq_zero.mp (by rw [Bool.toNat_true] at hle; omega)
    subst hnot
    exact ⟨h.watcher, rfl, nofun, nofun, h.signals⟩

/-- The call is given up; a permit that it was woken with is left to the next one. -/
lemma Rung.giveUp (h : Rung n seen p) (he : p.errand = .looking ∨ p.errand = .waiting) :
    Rung n seen p.giveUp := by
  have hdue : p.isDue = false := by rcases he with he | he <;> simp [isDue, he]
  have hor : ∀ a b : Bool, a.toNat + b.toNat ≤ 1 → (a || b).toNat = a.toNat + b.toNat := by decide
  have hle := h.le
  have hsum := hor p.permit p.woken (by omega)
  have hcount := h.count
  have hsignals := h.signals
  refine ⟨h.watcher, ?_, nofun, nofun, ?_⟩
  · show p.engine.rung.count n = seen + (p.permit || p.woken).toNat + 0
    omega
  · show (p.permit || p.woken).toNat + 0 + 0 = if p.engine.queue = [] then 0 else 1
    rw [← hsignals, hdue, hsum]
    rfl

lemma Rung.drain (h : Rung n seen p) (hr : p.source.readiness = .callback n seen)
    (he : p.errand = .signalled) (answer : Except EngineError (List Alert)) : Rung n seen
      ({ p with errand := .drained answer }.move { p.engine with queue := [] }) := by
  have hdue : p.isDue = true := by simp [isDue, he]
  have hle := h.le
  rw [hdue, Bool.toNat_true] at hle
  have hmove : { p with errand := .drained answer }.move { p.engine with queue := [] } =
      { p with errand := .drained answer, engine := { p.engine with queue := [] } } := by
    have hcalls := calls_callback (p := { p with errand := .drained answer }) hr
    rw [move, hcalls, calls_callback (n := n) (p := { p with
      errand := .drained answer, engine := { p.engine with queue := [] } }) hr]
    simp [rings]
  rw [hmove]
  refine ⟨h.watcher, h.count, fun ht => ?_, nofun, ?_⟩
  · have hw := h.woken ht
    rw [he] at hw
    cases hw
  · show p.permit.toNat + p.woken.toNat + 0 = 0
    omega

lemma Signalling.settle (h : p.Signalling) {answer : Except EngineError (List Alert)}
    (he : p.errand = .drained answer) {errand : Errand}
    (hrest : errand = .looking ∨ errand = .resting) :
    (p.settle errand).Signalling := by
  intro hopen n seen hr
  have hdue : (p.settle errand).isDue = false := by rcases hrest with rfl | rfl <;> rfl
  rw [Intake.settle, closed_acknowledge] at hopen
  have hr₀ : p.source.readiness = .callback n seen := by
    unfold Intake.settle Source.acknowledge at hr
    rcases hp : p.source.readiness with ⟨n₀, seen₀⟩ | w <;> simp only [hp] at hr
    · exact hr
    · cases hr
  have hb := h hopen n seen hr₀
  refine hb.congr (hb.not_woken (by simp [he])) (by simp [isDue, he]) ⟨rfl, rfl, rfl⟩ hdue ?_
  rcases hrest with rfl | rfl <;> simp [Intake.settle]

/-- **Every step leaves the permits in order.** -/
theorem signalling_step (h : p.Signalling) (hstep : Step Meanwhile p event q) : q.Signalling := by
  intro hopen n seen hr
  cases hstep with
  | act hs =>
    rw [source_move] at hopen hr
    exact (h hopen n seen hr).act hr hs
  | watch hw => cases hr
  | refuse => exact h hopen n seen hr
  | call he =>
    have hb := h hopen n seen hr
    exact hb.congr (hb.not_woken (by simp [he])) (by simp [isDue, he]) ⟨rfl, rfl, rfl⟩ rfl nofun
  | wait he hs =>
    have hb := h hopen n seen hr
    refine hb.congr (hb.not_woken (by simp [he])) (by simp [isDue, he]) ⟨rfl, rfl, rfl⟩ rfl
      fun _ => ?_
    simpa only [isSignalled, he, show p.source.readiness = _ from hr] using hs
  | hear he hs hsig =>
    rw [source_heed] at hopen hr
    rcases signalled_eq_some hsig with ⟨n₀, seen₀, hr₀, -, rfl⟩ | ⟨w, -, -, rfl⟩
    · -- the call uses the ring that woke it
      obtain ⟨rfl, rfl⟩ := Readiness.callback.inj hr
      exact (h hopen n₀ seen₀ hr₀).hear hr₀ he hs _
    · cases hr
  | despair _ _ hd =>
    rw [Source.isDead, show p.source.readiness = _ from hr] at hd
    cases hd
  | cancel he => exact (h hopen n seen hr).giveUp he
  | drain he =>
    rw [source_move] at hopen hr
    exact (h hopen n seen hr).drain hr he _
  | again he => exact h.settle he (.inl rfl) hopen n seen hr
  | hand he | fail he => exact h.settle he (.inr rfl) hopen n seen hr
  | stop =>
    rw [closed_stop] at hopen
    cases hopen

lemma watch_eq_ok {s s' : Simulated} (h : Simulated.watch s = (.ok n, s')) (hs : s.Registered) :
    s'.watcher = some n ∧ s'.rung.count n = if s'.queue = [] then 0 else 1 := by
  have hcount : s.rung.count s.registrations = 0 :=
    List.count_eq_zero.mpr fun hmem => Nat.lt_irrefl _ (hs.rung _ hmem)
  unfold Simulated.watch at h
  split_ifs at h with hn hq <;> cases h
  · have he : s.queue = [] := by simpa using hq
    simpa [he] using hcount
  · refine ⟨rfl, ?_⟩
    have hne : s.queue ≠ [] := by simpa using hq
    simp [Simulated.ring, hcount, hne]

lemma signalling_opened {mode : SourceMode} {s s' : Simulated} {source : Source}
    (hs : s.Registered) (h : Source.open mode s = (.ok source, s')) :
    (opened source s').Signalling := by
  intro _ n seen hr
  rw [source_opened] at hr
  rcases open_eq_ok h with ⟨s₁, h⟩ | h
  · rw [(startThread_eq_ok h).1] at hr
    cases hr
  · obtain ⟨n', rfl, hwatch⟩ := register_eq_ok h
    obtain ⟨rfl, rfl⟩ := Readiness.callback.inj hr
    obtain ⟨hwatcher, hcount⟩ := watch_eq_ok hwatch hs
    have heq : opened { readiness := .callback n' 0 } s' =
        rings (s'.rung.count n') { engine := s', source := { readiness := .callback n' 0 } } := rfl
    rw [heq, hcount]
    split_ifs at hcount ⊢ with hq
    · exact ⟨hwatcher, hcount, nofun, nofun, by simp [rings, isDue, hq]⟩
    · exact Rung.ring (p := { engine := s', source := { readiness := .callback n' 0 } }) hwatcher
        hcount rfl rfl rfl hq

/-! ### The watching thread -/

/-- The engine can be asked, and the thread of an open source has not exited. -/
def Watching (p : Intake Simulated) : Prop := ∀ w, p.source.readiness = .watched w →
  p.engine.waitSupported = true ∧ (w.stopped = false → w.phase ≠ .exited)

lemma step_asking {w : Worker} {s : Simulated} (hs : s.waitSupported = true)
    (hp : w.phase = .asking) :
    w.step s = some ({ w with phase := if s.queue = [] then .foundNothing else .foundAlerts },
      s, []) := by
  have hask : (Engine.hasAlerts s : Except EngineError Bool × Simulated) =
      (.ok !s.queue.isEmpty, s) := by
    show Simulated.hasAlerts s = _
    rw [Simulated.hasAlerts, if_pos hs]
  unfold Worker.step
  simp only [hp, hask]
  rcases s.queue with _ | ⟨a, queue⟩ <;> rfl

lemma exited_step {w w' : Worker} {s s' : Simulated} {notices : List Notice}
    (hs : s.waitSupported = true) (h : w.step s = some (w', s', notices)) (hw : w.stopped = false) :
    w'.phase ≠ .exited := by
  by_cases hp : w.phase = .asking
  · rw [step_asking hs hp] at h
    cases h
    dsimp only
    split_ifs <;> nofun
  · cases Worker.stride_step h with
    | asked hq => exact absurd hq hp
    | swallowed | resumed | sent | released => nofun
    | left _ _ hstop =>
      rw [hw] at hstop
      cases hstop

lemma Watching.frame (h : p.Watching) (hs : q.engine.waitSupported = p.engine.waitSupported)
    (hw : ∀ w', q.source.readiness = .watched w' → ∃ w, p.source.readiness = .watched w ∧
      w'.phase = w.phase ∧ (w'.stopped = false → w.stopped = false)) : q.Watching := by
  intro w' hr
  obtain ⟨w, hr, hphase, hstopped⟩ := hw w' hr
  obtain ⟨hsupported, halive⟩ := h w hr
  exact ⟨hs.trans hsupported, fun ho => hphase ▸ halive (hstopped ho)⟩

lemma Watching.settle (h : p.Watching) (errand : Errand) : (p.settle errand).Watching := by
  refine h.frame rfl fun w' hr => ?_
  unfold Intake.settle Source.acknowledge at hr
  rcases hp : p.source.readiness with ⟨n, seen⟩ | w <;> simp only [hp] at hr
  · cases hr
  · obtain rfl := Readiness.watched.inj hr
    exact ⟨w, rfl, rfl, id⟩

theorem watching_step (h : p.Watching) (hstep : Step Meanwhile p event q) : q.Watching := by
  have hstay : ∀ {q : Intake Simulated}, q.source = p.source →
      q.engine.waitSupported = p.engine.waitSupported → q.Watching := fun hsource hs =>
    h.frame hs fun w hr => ⟨w, hsource ▸ hr, rfl, id⟩
  cases hstep with
  | act hs => exact hstay (source_move _ _) (by rw [engine_move]; exact hs.eq.2.2.2)
  | @watch w w' engine notices hw hstep =>
    intro w'' hr
    obtain rfl := Readiness.watched.inj hr
    obtain rfl : engine = p.engine := Source.worker_step hstep
    obtain ⟨hsupported, -⟩ := h w hw
    exact ⟨hsupported, fun ho => exited_step hsupported hstep
      ((Worker.stride_step hstep).stopped.symm.trans ho)⟩
  | refuse | call | wait | despair | cancel => exact hstay rfl rfl
  | hear _ _ hsig =>
    refine h.frame (by rw [engine_heed]) fun w' hr => ?_
    rw [source_heed] at hr
    rcases signalled_eq_some hsig with ⟨n, seen, -, -, rfl⟩ | ⟨w, hw, -, rfl⟩
    · cases hr
    · obtain rfl := Readiness.watched.inj hr
      exact ⟨w, hw, rfl, id⟩
  | drain => exact hstay (source_move _ _) (by rw [engine_move]; rfl)
  | again | hand | fail => exact h.settle _
  | stop =>
    intro w' hr
    unfold Source.stop at hr ⊢
    split_ifs at hr ⊢
    · exact h w' hr
    · rcases hp : p.source.readiness with ⟨n, seen⟩ | w <;> simp only [hp] at hr ⊢
      · cases hr
      · obtain rfl := Readiness.watched.inj hr
        exact ⟨(h w hp).1, nofun⟩

lemma watching_opened {mode : SourceMode} {s s' : Simulated} {source : Source}
    (h : Source.open mode s = (.ok source, s')) : (opened source s').Watching := by
  intro w hr
  rw [source_opened] at hr
  rw [engine_opened]
  rcases open_eq_ok h with ⟨s₁, h⟩ | h
  · obtain ⟨rfl, b, hask⟩ := startThread_eq_ok h
    obtain rfl := Readiness.watched.inj hr
    refine ⟨?_, nofun⟩
    have hask : Simulated.hasAlerts s₁ = (.ok b, s') := hask
    unfold Simulated.hasAlerts at hask
    split_ifs at hask with hs <;> cases hask
    exact hs
  · obtain ⟨n, rfl, -⟩ := register_eq_ok h
    cases hr

/-! ### Readiness that is recorded -/

/-- Readiness is recorded: in a permit or a call that has one, or in a token on its way or a thread
that does not wait for one. -/
def Recorded (p : Intake Simulated) : Prop :=
  match p.source.readiness with
  | .callback _ _ => p.permit = true ∨ p.woken = true ∨ p.errand = .signalled
  | .watched w => w.ready = true ∨ w.drained = true ∨ p.inHand = true ∨
      (w.phase ≠ .parked ∧ w.phase ≠ .exited)

/-- **Whenever alerts are queued readiness is recorded.** -/
theorem recorded (hp : p.Signalling) (hw : p.Watching) (ha : p.InStep)
    (hopen : p.source.closed = false) (hq : p.engine.queue ≠ []) : p.Recorded := by
  unfold Recorded
  rcases hr : p.source.readiness with ⟨n, seen⟩ | w
  · -- called back: the ring for a non-empty queue is a permit, or woke the call, or is being used
    have hsignals := (hp hopen n seen hr).signals
    rw [if_neg hq] at hsignals
    dsimp only
    by_contra hnone
    simp only [not_or, Bool.not_eq_true] at hnone
    have hdue : p.isDue = false := by
      rw [Bool.eq_false_iff]
      intro hdue
      unfold isDue at hdue
      split at hdue
      · exact hnone.2.2 ‹_›
      · cases hdue
    rw [hnone.1, hnone.2.1, hdue] at hsignals
    cases hsignals
  · -- watched: a thread that is not parked is about to look at the queue
    have hagreed := ha w hr
    have halive := (hw w hr).2 (hagreed.stopped.trans hopen)
    dsimp only
    by_cases hparked : w.phase = .parked
    · have htokens := (hagreed.tokens_open hopen).2.mpr hparked
      by_contra hnone
      simp only [not_or, Bool.not_eq_true] at hnone
      rw [tokens, hnone.1, hnone.2.1, hnone.2.2.1] at htokens
      cases htokens
    · exact .inr (.inr (.inr ⟨hparked, halive⟩))

/-- How many steps the thread is from giving its signal while alerts are queued. -/
def stepsToSignal (p : Intake Simulated) : Nat :=
  match p.source.readiness with
  | .callback _ _ => 0
  | .watched w =>
    if w.ready then 0
    else
      match w.phase with
      | .foundAlerts => 1
      | .asking => 2
      | _ => 3

/-- A call that waits while alerts are queued: it has its signal, or the thread can take a step, and
comes nearer to its signal with every step it takes. -/
theorem waiting_signalled (hp : p.Signalling) (hw : p.Watching) (ha : p.InStep)
    (hopen : p.source.closed = false) (hq : p.engine.queue ≠ []) (he : p.errand = .waiting) :
    (p.isSignalled = true ∧ ∃ source, p.source.signalled? p.engine = some source) ∨
      ∃ w w', p.source.readiness = .watched w ∧ w.step p.engine = some (w', p.engine, []) ∧
        stepsToSignal { p with source := { p.source with readiness := .watched w' } } <
          p.stepsToSignal := by
  have hhand : p.inHand = false := by simp [inHand, he]
  rcases hr : p.source.readiness with ⟨n, seen⟩ | w
  · left
    have hb := hp hopen n seen hr
    have hcount := hb.count
    have hsignals := hb.signals
    rw [if_neg hq, hb.waiting he, show p.isDue = false by simp [isDue, he]] at hsignals
    -- the queue is not empty, so that one ring is unused, and it woke the call
    have hwoken : p.woken = true := by
      rcases hw : p.woken with _ | _
      · rw [hw] at hsignals
        cases hsignals
      · rfl
    have hlt : seen < Engine.rings n p.engine := by
      show seen < p.engine.rung.count n
      rw [hcount, hwoken, Bool.toNat_true]
      omega
    exact ⟨by simp only [isSignalled, hr, he, hwoken], _,
      by rw [Source.signalled?, hr]; exact if_pos hlt⟩
  · -- a thread watches: where it stands says which step comes next
    have hagreed := ha w hr
    have hstopped := hagreed.stopped.trans hopen
    obtain ⟨hsupported, halive⟩ := hw w hr
    by_cases hready : w.ready = true
    · exact .inl ⟨by simp only [isSignalled, hr, hready], _, by
        rw [Source.signalled?, hr]; exact if_pos hready⟩
    · right
      have hready : w.ready = false := by simpa using hready
      cases hphase : w.phase with
      | asking =>
        refine ⟨w, _, rfl, step_asking hsupported hphase, ?_⟩
        simp [stepsToSignal, hr, hready, hphase, hq]
      | foundNothing =>
        have hempty := hagreed.empty (by simp [hphase]) (by simp [hphase])
        refine ⟨w, { w with phase := .asking }, rfl, ?_, ?_⟩
        · simp [Worker.step, hphase, hempty.2, hstopped]
        · simp [stepsToSignal, hr, hready, hphase]
      | foundAlerts =>
        refine ⟨w, { w with phase := .parked, ready := true }, rfl, ?_, ?_⟩
        · simp [Worker.step, hphase, hready, hstopped]
        · simp [stepsToSignal, hr, hready, hphase]
      | parked =>
        have htokens := (hagreed.tokens_open hopen).2.mpr hphase
        rw [tokens, hready, hhand] at htokens
        -- a parked thread has its token on the way, and it can only be the one that releases it
        have hdrained : w.drained = true := by
          rcases hd : w.drained with _ | _
          · rw [hd] at htokens
            cases htokens
          · rfl
        refine ⟨w, { w with phase := .asking, drained := false }, rfl, ?_, ?_⟩
        · simp [Worker.step, hphase, hdrained]
        · simp [stepsToSignal, hr, hready, hphase]
      | exited => exact absurd hphase (halive hstopped)

lemma stepsToSignal_congr (h : q.source = p.source) : q.stepsToSignal = p.stepsToSignal := by
  simp only [stepsToSignal, h]

/-- **No step takes a waiting call further from its signal.** It is left only with the signal, the
queue then being there to be taken, or by giving the call up. -/
theorem waiting_step (hp : p.Signalling) (hw : p.Watching) (ha : p.InStep)
    (hopen : p.source.closed = false) (hq : p.engine.queue ≠ []) (he : p.errand = .waiting)
    (hstep : Step Meanwhile p event q) :
    (q.errand = .waiting ∧ q.engine.queue ≠ [] ∧ q.stepsToSignal ≤ p.stepsToSignal) ∨
      (q.errand = .signalled ∧ q.engine.queue ≠ []) ∨ q = p.giveUp := by
  have hnot : ∀ {errand : Errand}, p.errand = errand → errand ≠ .waiting → False := fun h hne =>
    hne (h.symm.trans he)
  cases hstep with
  | act hs =>
    refine .inl ⟨by rw [errand_move]; exact he, ?_,
      Nat.le_of_eq (stepsToSignal_congr (source_move _ _))⟩
    rw [engine_move, hs.eq.1]
    simp [hq]
  | @watch w w' engine notices hr hstep =>
    obtain rfl : engine = p.engine := Source.worker_step hstep
    refine .inl ⟨he, hq, ?_⟩
    rcases waiting_signalled hp hw ha hopen hq he with ⟨hs, -⟩ | ⟨w₀, w₁, hr₀, hstep₀, hlt⟩
    · -- the token is in the ready channel, where only the call takes it out
      have hready : w.ready = true := by simpa only [isSignalled, hr] using hs
      have hready' : w'.ready = true := by
        cases Worker.stride_step hstep with
        | sent => rfl
        | _ => exact hready
      simp [stepsToSignal, hready']
    · obtain rfl := Readiness.watched.inj (hr₀.symm.trans hr)
      obtain ⟨rfl, -⟩ := Prod.mk.inj (Option.some.inj (hstep₀.symm.trans hstep))
      exact Nat.le_of_lt hlt
  | call h | refuse h | stop h => exact (hnot h nofun).elim
  | wait h => exact (hnot h nofun).elim
  | hear _ _ _ => exact .inr (.inl ⟨errand_heed _ _, by rw [engine_heed]; exact hq⟩)
  | despair _ _ hd =>
    unfold Source.isDead at hd
    rcases hr : p.source.readiness with ⟨n, seen⟩ | w <;> rw [hr] at hd
    · cases hd
    · exact absurd (by simpa using hd) ((hw w hr).2 ((ha w hr).stopped.trans hopen))
  | cancel => exact .inr (.inr rfl)
  | drain h | again h | hand h | fail h => exact (hnot h nofun).elim

/-- A call that waits is on its way: it has its signal, or the thread can take a step and comes
nearer to the signal with it, and no other step undoes that. -/
structure Approaching (p : Intake Simulated) : Prop where
  next : (p.isSignalled = true ∧ ∃ source, p.source.signalled? p.engine = some source) ∨
    ∃ w w', p.source.readiness = .watched w ∧ w.step p.engine = some (w', p.engine, []) ∧
      stepsToSignal { p with source := { p.source with readiness := .watched w' } } <
      p.stepsToSignal
  step : ∀ event q, Step Meanwhile p event q →
    (q.errand = .waiting ∧ q.engine.queue ≠ [] ∧ q.stepsToSignal ≤ p.stepsToSignal) ∨
      (q.errand = .signalled ∧ q.engine.queue ≠ []) ∨ q = p.giveUp

end Intake

end TorrentFlow
