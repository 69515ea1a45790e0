import Mathlib.Tactic.ByContra
import Mathlib.Tactic.SplitIfs
import TorrentFlow.Engine.Bench
import TorrentFlow.Proofs.Intake.Steps

/-!
The handshake between the watching thread and the source, over any engine, one that fails at every
turn included. One token goes round: the thread puts it into the ready channel, the call for the
next batch takes it out, and puts it into the drained channel when it has taken the queue, from
where the thread takes it back. The thread is without it exactly while it is parked, and so nobody
ever finds a channel full. A thread that is told to stop asks the engine at most once more.
-/

namespace TorrentFlow

namespace Worker

variable {σ : Type} [Engine σ]

/-- What one step makes of the thread. -/
inductive Stride (w : Worker) : Worker → Prop
  | asked (hp : w.phase = .asking) {phase : WorkerPhase}
      (h : phase = .foundNothing ∨ phase = .foundAlerts ∨ phase = .exited) :
      Stride w { w with phase }
  /-- It looked whether to stop, and took a token that was not meant for that. -/
  | swallowed (hp : w.phase = .foundNothing) (hd : w.drained = true) :
    Stride w { w with phase := .asking, drained := false }
  | resumed (hp : w.phase = .foundNothing) (hd : w.drained = false) (hs : w.stopped = false) :
    Stride w { w with phase := .asking }
  | sent (hp : w.phase = .foundAlerts) (hs : w.stopped = false) (hr : w.ready = false) :
    Stride w { w with phase := .parked, ready := true }
  | released (hp : w.phase = .parked) (hd : w.drained = true) :
    Stride w { w with phase := .asking, drained := false }
  | left (hp : w.phase = .foundNothing ∨ w.phase = .foundAlerts ∨ w.phase = .parked)
      (hd : w.phase ≠ .foundAlerts → w.drained = false) (hs : w.stopped = true) :
    Stride w { w with phase := .exited }

lemma stride_step {w w' : Worker} {engine engine' : σ} {notices : List Notice}
    (h : w.step engine = some (w', engine', notices)) : w.Stride w' := by
  unfold step at h
  cases hp : w.phase with
  | asking =>
    simp only [hp] at h
    rcases hask : (Engine.hasAlerts engine : Except EngineError Bool × σ) with ⟨e | b, engine₁⟩
    · -- a failed ask ends the thread
      simp only [hask] at h
      cases h
      exact .asked hp (.inr (.inr rfl))
    · cases b <;> simp only [hask] at h <;> cases h
      · exact .asked hp (.inl rfl)
      · exact .asked hp (.inr (.inl rfl))
  | foundNothing =>
    simp only [hp] at h
    split_ifs at h with hd hs <;> cases h
    · exact .swallowed hp hd
    · exact .left (.inl hp) (fun _ => by simpa using hd) hs
    · exact .resumed hp (by simpa using hd) (by simpa using hs)
  | foundAlerts =>
    simp only [hp] at h
    split_ifs at h with hs hr <;> cases h
    · exact .left (.inr (.inl hp)) (fun hne => absurd hp hne) hs
    · exact .sent hp (by simpa using hs) (by simpa using hr)
  | parked =>
    simp only [hp] at h
    split_ifs at h with hd hs <;> cases h
    · exact .released hp hd
    · exact .left (.inr (.inr hp)) (fun _ => by simpa using hd) hs
  | exited => simp [hp] at h

lemma Stride.stopped {w w' : Worker} (h : w.Stride w') : w'.stopped = w.stopped := by
  cases h <;> rfl

/-- A thread stands still only when it has exited, is parked with no word from the source, or finds
the ready channel full. -/
lemma step_eq_none {w : Worker} {engine : σ} (h : w.step engine = none) : w.phase = .exited ∨
    w.stopped = false ∧ (w.phase = .parked ∧ w.drained = false ∨
      w.phase = .foundAlerts ∧ w.ready = true) := by
  unfold step at h
  cases hp : w.phase with
  | asking =>
    simp only [hp] at h
    rcases hask : (Engine.hasAlerts engine : Except EngineError Bool × σ) with ⟨e | b, engine₁⟩
    · simp [hask] at h
    · cases b <;> simp [hask] at h
  | foundNothing =>
    simp only [hp] at h
    split_ifs at h
  | foundAlerts =>
    simp only [hp] at h
    split_ifs at h with hs hr
    exact .inr ⟨by simpa using hs, .inr ⟨rfl, hr⟩⟩
  | parked =>
    simp only [hp] at h
    split_ifs at h with hd hs
    exact .inr ⟨by simpa using hs, .inl ⟨rfl, by simpa using hd⟩⟩
  | exited => exact .inl rfl

/-! ### A thread that is told to stop -/

/-- The thread is told to stop, and a token comes back to it only where it waits for one. -/
structure Dismissed (w : Worker) : Prop where
  stopped : w.stopped = true
  drained : w.drained = true → w.phase = .parked ∨ w.phase = .exited

def asksLeft (w : Worker) : Nat :=
  match w.phase with
  | .asking => 1
  | .parked => w.drained.toNat
  | _ => 0

def stepsLeft (w : Worker) : Nat :=
  match w.phase with
  | .asking => 2
  | .foundNothing | .foundAlerts => 1
  | .parked => if w.drained then 3 else 1
  | .exited => 0

lemma asksLeft_le (w : Worker) : w.asksLeft ≤ 1 := by
  unfold asksLeft
  split
  · exact Nat.le_refl _
  · exact Bool.toNat_le _
  · exact Nat.zero_le _

lemma stepsLeft_le (w : Worker) : w.stepsLeft ≤ stepsToExit := by
  unfold stepsLeft stepsToExit
  split
  · omega
  · omega
  · omega
  · split_ifs <;> omega
  · omega

lemma Dismissed.stride {w w' : Worker} (h : Dismissed w) (hs : w.Stride w') :
    Dismissed w' ∧ w'.stepsLeft < w.stepsLeft ∧
      w'.asksLeft + (if w.phase = .asking then 1 else 0) ≤ w.asksLeft := by
  obtain ⟨hstopped, hdrained⟩ := h
  cases hs with
  | asked hp hphase =>
    -- only a parked or exited thread has a token waiting
    have hd : w.drained = false := by
      by_contra hd
      rcases hdrained (by simpa using hd) with hq | hq <;> rw [hp] at hq <;> cases hq
    refine ⟨⟨hstopped, by simp [hd]⟩, ?_, ?_⟩ <;>
      rcases hphase with rfl | rfl | rfl <;> simp [stepsLeft, asksLeft, hp]
  | swallowed hp hd => rcases hdrained hd with hq | hq <;> rw [hp] at hq <;> cases hq
  | resumed _ _ hs =>
    rw [hstopped] at hs
    cases hs
  | sent _ hs =>
    rw [hstopped] at hs
    cases hs
  | released hp hd =>
    refine ⟨⟨hstopped, by simp⟩, ?_, ?_⟩ <;> simp [stepsLeft, asksLeft, hp, hd]
  | left hp hd =>
    refine ⟨⟨hstopped, fun _ => .inr rfl⟩, ?_, ?_⟩
    · rcases hp with hp | hp | hp <;> simp [stepsLeft, hp]
      split_ifs <;> omega
    · have hne : w.phase ≠ .asking := by
        rcases hp with hp | hp | hp <;> simp [hp]
      rw [if_neg hne]
      exact Nat.zero_le _

/-- **A thread that is told to stop exits**, whatever the engine answers. -/
theorem Dismissed.exits {w : Worker} (h : Dismissed w) {fuel : Nat} (hfuel : w.stepsLeft ≤ fuel)
    (engine : σ) : (w.join fuel engine).1.phase = .exited := by
  induction fuel generalizing w engine with
  | zero =>
    show w.phase = .exited
    unfold stepsLeft at hfuel
    split at hfuel
    · omega
    · omega
    · omega
    · split_ifs at hfuel <;> omega
    · assumption
  | succ fuel ih =>
    rw [join]
    rcases hstep : w.step engine with _ | ⟨w', engine', notices⟩
    · rcases step_eq_none hstep with hp | ⟨hs, -⟩
      · exact hp
      · rw [h.stopped] at hs
        cases hs
    · obtain ⟨h', hlt, -⟩ := h.stride (stride_step hstep)
      exact ih h' (by omega) engine'

end Worker

namespace Intake

variable {σ : Type}

/-- The call has taken the token out of the ready channel and not yet put one into the drained
channel. -/
def inHand (p : Intake σ) : Bool :=
  match p.errand with
  | .signalled => true
  | .drained _ => true
  | _ => false

/-- How many tokens are on their way between the thread and the source. -/
def tokens (p : Intake σ) (w : Worker) : Nat := w.ready.toNat + w.drained.toNat + p.inHand.toNat

/-- The thread and the source are agreed on who has the token. -/
structure Agreed (p : Intake σ) (w : Worker) : Prop where
  stopped : w.stopped = p.source.closed
  tokens : w.phase ≠ .exited → p.tokens w = if w.phase = .parked then 1 else 0
  exited : w.phase = .exited → w.stopped = false → p.tokens w = 0

/-- Where a thread watches the engine, it is agreed with the source. -/
def InStep (p : Intake σ) : Prop := ∀ w, p.source.readiness = .watched w → p.Agreed w

lemma inHand_congr {p q : Intake σ} (h : q.errand = p.errand) : q.inHand = p.inHand := by
  simp only [inHand, h]

namespace Agreed

variable {p q : Intake σ} {w w' : Worker}

lemma parked (h : p.Agreed w) (hr : p.AtRest) (hi : p.inHand = true) :
    w.phase = .parked ∧ w.ready = false ∧ w.drained = false := by
  have hopen : w.stopped = false := h.stopped.trans (hr.open fun he => by simp [inHand, he] at hi)
  have ht : p.tokens w = w.ready.toNat + w.drained.toNat + 1 := by rw [Intake.tokens, hi]; rfl
  by_cases hp : w.phase = .exited
  · have := h.exited hp hopen
    omega
  · have hbalance := h.tokens hp
    split_ifs at hbalance with hparked
    · refine ⟨hparked, Bool.toNat_eq_zero.mp ?_, Bool.toNat_eq_zero.mp ?_⟩ <;> omega
    · omega

lemma empty (h : p.Agreed w) (hp : w.phase ≠ .parked) (he : w.phase ≠ .exited) :
    w.ready = false ∧ w.drained = false := by
  have hbalance := h.tokens he
  rw [if_neg hp, Intake.tokens] at hbalance
  exact ⟨Bool.toNat_eq_zero.mp (by omega), Bool.toNat_eq_zero.mp (by omega)⟩

lemma dismissed (h : p.Agreed w) (hc : p.source.closed = true) : w.Dismissed := by
  refine ⟨h.stopped.trans hc, fun hd => ?_⟩
  by_contra hne
  rw [not_or] at hne
  rw [(h.empty hne.1 hne.2).2] at hd
  cases hd

/-- While the source is open there is a token on its way exactly if the thread is parked. -/
lemma tokens_open (h : p.Agreed w) (hc : p.source.closed = false) :
    p.tokens w ≤ 1 ∧ (p.tokens w = 1 ↔ w.phase = .parked) := by
  by_cases hp : w.phase = .exited
  · have h0 := h.exited hp (h.stopped.trans hc)
    simp [h0, hp]
  · rw [h.tokens hp]
    split_ifs with hparked <;> simp [hparked]

lemma congr (h : p.Agreed w) (hs : q.source.closed = p.source.closed) (hi : q.inHand = p.inHand) :
    q.Agreed w := by
  have ht : q.tokens w = p.tokens w := by rw [Intake.tokens, Intake.tokens, hi]
  refine ⟨?_, ?_, ?_⟩
  · rw [hs]
    exact h.stopped
  · rw [ht]
    exact h.tokens
  · rw [ht]
    exact h.exited

lemma stride (h : p.Agreed w) (hs : w.Stride w') (engine : σ) :
    Agreed { p with engine, source := { p.source with readiness := .watched w' } } w' := by
  have htokens : w.phase ≠ .exited → w.ready.toNat + w.drained.toNat + p.inHand.toNat =
      if w.phase = .parked then 1 else 0 := h.tokens
  have hq : ∀ w', Intake.tokens
      { p with engine, source := { p.source with readiness := .watched w' } } w' =
        w'.ready.toNat + w'.drained.toNat + p.inHand.toNat := fun _ => rfl
  cases hs with
  | asked hp hphase =>
    have h0 := htokens (by simp [hp])
    rw [if_neg (by simp [hp])] at h0
    refine ⟨h.stopped, fun _ => ?_, fun _ _ => (hq _).trans h0⟩
    rw [if_neg (by rcases hphase with rfl | rfl | rfl <;> simp)]
    exact (hq _).trans h0
  | swallowed hp hd =>
    -- there is no token to be swallowed
    have hnone := (h.empty (by simp [hp]) (by simp [hp])).2
    rw [hd] at hnone
    cases hnone
  | resumed hp hd hs =>
    have h0 := htokens (by simp [hp])
    rw [if_neg (by simp [hp])] at h0
    exact ⟨h.stopped, fun _ => (hq _).trans h0, nofun⟩
  | sent hp hs hr =>
    have h0 := htokens (by simp [hp])
    rw [if_neg (by simp [hp]), hr] at h0
    refine ⟨h.stopped, fun _ => (hq _).trans ?_, nofun⟩
    simp only [Bool.toNat_true, Bool.toNat_false, if_true] at h0 ⊢
    omega
  | released hp hd =>
    have h1 := htokens (by simp [hp])
    rw [if_pos hp, hd] at h1
    refine ⟨h.stopped, fun _ => (hq _).trans ?_, nofun⟩
    simp only [Bool.toNat_true, Bool.toNat_false, reduceCtorEq, if_false] at h1 ⊢
    omega
  | left hp hd hs =>
    refine ⟨h.stopped, fun hne => absurd rfl hne, fun _ hs' => ?_⟩
    rw [show w.stopped = false from hs'] at hs
    cases hs

lemma heed (h : p.Agreed w) (hr : w.ready = true) (hi : p.inHand = false) :
    Agreed (p.heed { p.source with readiness := .watched { w with ready := false } })
      { w with ready := false } := by
  have ht : (p.heed { p.source with readiness := .watched { w with ready := false } }).tokens
      { w with ready := false } = p.tokens w := by
    have hhand : (p.heed { p.source with readiness := .watched { w with ready := false } }).inHand =
        true := by simp only [inHand, errand_heed]
    rw [Intake.tokens, Intake.tokens, hhand, hr, hi]
    simp only [Bool.toNat_true, Bool.toNat_false]
    omega
  refine ⟨?_, fun hp => ht.trans (h.tokens hp), fun hp hs => ht.trans (h.exited hp hs)⟩
  rw [source_heed]
  exact h.stopped

lemma settle (h : p.Agreed w) (hrest : p.AtRest) (hw : p.source.readiness = .watched w)
    (hi : p.inHand = true) {errand : Errand} (he : errand = .looking ∨ errand = .resting) :
    (p.settle errand).source.readiness = .watched { w with drained := true } ∧
      (p.settle errand).Agreed { w with drained := true } := by
  obtain ⟨hp, hr, -⟩ := h.parked hrest hi
  have hsource : (p.settle errand).source =
      { p.source with readiness := .watched { w with drained := true } } := by
    simp only [Intake.settle, Source.acknowledge, hw]
  have hhand : (p.settle errand).inHand = false := by
    rcases he with rfl | rfl <;> rfl
  refine ⟨by rw [hsource], ?_, fun _ => ?_, fun hx => ?_⟩
  · rw [hsource]
    exact h.stopped
  · rw [if_pos hp, Intake.tokens, hhand, hr]
    rfl
  · rw [show w.phase = .exited from hx] at hp
    cases hp

end Agreed

/-! ### Steps -/

variable [Engine σ] {Acts : σ → List Alert → σ → Prop} {p q : Intake σ} {event : Event}

lemma inStep_stop (h : p.InStep) {w : Worker}
    (hw : (p.source.stop p.engine).1.readiness = .watched w) :
    Agreed
      { p with source := (p.source.stop p.engine).1, engine := (p.source.stop p.engine).2 } w := by
  unfold Source.stop at hw ⊢
  split_ifs at hw ⊢ with hc
  · exact (h w hw).congr rfl rfl
  · rcases hr : p.source.readiness with ⟨n, seen⟩ | w₀ <;> simp only [hr] at hw ⊢
    · cases hw
    · obtain rfl := Readiness.watched.inj hw
      have ha := h w₀ hr
      exact ⟨rfl, ha.tokens, nofun⟩

omit [Engine σ] in
lemma inStep_settle (h : p.InStep) (hrest : p.AtRest) (hi : p.inHand = true) {errand : Errand}
    (he : errand = .looking ∨ errand = .resting) : (p.settle errand).InStep := by
  intro w hw
  rcases hr : p.source.readiness with ⟨n, seen⟩ | w₀
  · simp only [settle, Source.acknowledge, hr] at hw
    cases hw
  · obtain ⟨hw', ha⟩ := (h w₀ hr).settle hrest hr hi he
    rw [hw'] at hw
    obtain rfl := Readiness.watched.inj hw
    exact ha

/-- **Every step leaves the thread and the source agreed.** -/
theorem inStep_step (h : p.InStep) (hrest : p.AtRest) (hstep : Step Acts p event q) : q.InStep := by
  intro w hw
  -- steps of the call that leave the source, and the token, where they are
  have hstay : ∀ {q : Intake σ}, q.source = p.source → q.inHand = p.inHand →
      q.source.readiness = .watched w → q.Agreed w := fun hs hi hw =>
    (h w (hs ▸ hw)).congr (by rw [hs]) hi
  cases hstep with
  | act => exact hstay (source_move _ _) (inHand_congr (errand_move _ _)) hw
  | watch hw₀ hstep =>
    obtain rfl := Readiness.watched.inj hw
    exact (h _ hw₀).stride (Worker.stride_step hstep) _
  | refuse => exact h w hw
  | call he | wait he => exact hstay rfl (by simp [inHand, he]) hw
  | despair he | cancel he =>
    exact hstay rfl (by rcases he with he | he <;> simp [inHand, giveUp, he]) hw
  | drain he => exact hstay (source_move _ _) (by simp [inHand, he]) hw
  | hear he _ hsig =>
    have hhand : p.inHand = false := by rcases he with he | he <;> simp [inHand, he]
    rw [source_heed] at hw
    rcases signalled_eq_some hsig with ⟨n, seen, -, -, rfl⟩ | ⟨w₀, hw₀, hr, rfl⟩
    · cases hw
    · obtain rfl := Readiness.watched.inj hw
      exact (h w₀ hw₀).heed hr hhand
  | again he => exact inStep_settle h hrest (by simp [inHand, he]) (.inl rfl) w hw
  | hand he | fail he => exact inStep_settle h hrest (by simp [inHand, he]) (.inr rfl) w hw
  | stop => exact inStep_stop h hw

/-! ### Runs -/

lemma open_eq_ok {mode : SourceMode} {engine engine' : σ} {source : Source}
    (h : Source.open mode engine = (.ok source, engine')) :
    (∃ engine₁, Source.startThread engine₁ = (.ok source, engine')) ∨
      Source.register engine = (.ok (some source), engine') := by
  unfold Source.open at h
  cases mode with
  | thread => exact .inl ⟨_, h⟩
  | notify =>
    dsimp only at h
    split at h <;> cases h
    exact .inr ‹_›
  | auto =>
    dsimp only at h
    split at h
    · cases h
      exact .inr ‹_›
    · exact .inl ⟨_, h⟩
    · cases h

lemma startThread_eq_ok {engine engine' : σ} {source : Source}
    (h : Source.startThread engine = (.ok source, engine')) :
    source = { readiness := .watched {} } ∧
      ∃ b, Engine.hasAlerts engine = (.ok b, engine') := by
  unfold Source.startThread at h
  split at h <;> cases h
  exact ⟨rfl, _, ‹_›⟩

lemma register_eq_ok {engine engine' : σ} {source : Source}
    (h : Source.register engine = (.ok (some source), engine')) :
    ∃ n, source = { readiness := .callback n 0 } ∧ Engine.watch engine = (.ok n, engine') := by
  unfold Source.register at h
  split at h
  · cases h
    exact ⟨_, rfl, ‹_›⟩
  · split_ifs at h <;> cases h

/-- A source that was just opened is open, and its thread has done nothing. -/
lemma open_spec {mode : SourceMode} {engine engine' : σ} {source : Source}
    (h : Source.open mode engine = (.ok source, engine')) :
    source = { readiness := .watched {} } ∨ ∃ n, source = { readiness := .callback n 0 } := by
  rcases open_eq_ok h with ⟨engine₁, h⟩ | h
  · exact .inl (startThread_eq_ok h).1
  · obtain ⟨n, rfl, -⟩ := register_eq_ok h
    exact .inr ⟨n, rfl⟩

variable {mode : SourceMode} {engine engine' : σ} {source : Source} {trace : List Event}

lemma run_agreed (ho : Source.open mode engine = (.ok source, engine'))
    (h : Run Acts (opened source engine') trace p) : p.AtRest ∧ p.InStep := by
  induction h with
  | nil =>
    have hsource := source_opened source engine'
    rcases open_spec ho with rfl | ⟨n, rfl⟩
    · refine ⟨fun hc => (by rw [hsource] at hc; cases hc), fun w hw => ?_⟩
      rw [hsource] at hw
      obtain rfl := Readiness.watched.inj hw
      have hhand : (opened { readiness := .watched {} } engine').inHand = false := by
        simp only [inHand, errand_opened]
      have ht : (opened { readiness := .watched {} } engine').tokens {} = 0 := by
        rw [tokens, hhand]
        rfl
      exact ⟨by rw [hsource], fun _ => ht, nofun⟩
    · exact ⟨fun hc => (by rw [hsource] at hc; cases hc),
        fun w hw => (by rw [hsource] at hw; cases hw)⟩
  | snoc _ hstep ih => exact ⟨atRest_step ih.1 hstep, inStep_step ih.2 ih.1 hstep⟩

/-- A source is closed when it was told to stop, and only then. -/
lemma run_closed (ho : Source.open mode engine = (.ok source, engine'))
    (h : Run Acts (opened source engine') trace p) : p.source.closed = true ↔ .stopped ∈ trace := by
  induction h with
  | nil =>
    rw [source_opened]
    rcases open_spec ho with rfl | ⟨n, rfl⟩ <;> simp
  | snoc h hstep ih =>
    rw [List.mem_append, List.mem_singleton]
    rcases closed_or_stopped hstep with ⟨hne, hc⟩ | ⟨rfl, hc, -⟩
    · rw [hc, ih, or_iff_left (Ne.symm hne)]
    · simp [hc]

lemma run_open (ho : Source.open mode engine = (.ok source, engine'))
    (h : Run Acts (opened source engine') trace p) (hn : .stopped ∉ trace) :
    p.source.closed = false := by
  rw [Bool.eq_false_iff]
  exact fun hc => hn ((run_closed ho h).mp hc)

lemma Closed.asksLeft (h : Closed Acts p event q) (ha : p.InStep) (hc : p.source.closed = true)
    {w' : Worker} (hw' : q.source.readiness = .watched w') : ∃ w, p.source.readiness = .watched w ∧
      w'.asksLeft + (if event.isAsked then 1 else 0) ≤ w.asksLeft := by
  cases h with
  | act =>
    rw [source_move] at hw'
    exact ⟨w', hw', Nat.le_refl _⟩
  | @watch w _ _ _ hw hstep =>
    obtain rfl := Readiness.watched.inj hw'
    have hle := (((ha w hw).dismissed hc).stride (Worker.stride_step hstep)).2.2
    refine ⟨w, hw, ?_⟩
    cases hp : w.phase <;> simpa [hp, Event.ofPhase, Event.isAsked] using hle
  | refuse | stop => exact ⟨w', hw', Nat.le_refl _⟩

/-- **After it was told to stop** the thread asks at most once more. -/
lemma run_asksLeft (ho : Source.open mode engine = (.ok source, engine'))
    (h : Run Acts (opened source engine') trace p) {before after : List Event}
    (ht : trace = before ++ .stopped :: after) {w : Worker} (hw : p.source.readiness = .watched w) :
    after.countP Event.isAsked + w.asksLeft ≤ 1 := by
  induction h generalizing after w with
  | nil => simp at ht
  | @snoc trace event p q h hstep ih =>
    obtain ⟨hrest, hagreed⟩ := run_agreed ho h
    rcases List.eq_nil_or_concat after with rfl | ⟨after, last, rfl⟩
    · have hle := w.asksLeft_le
      simpa using hle
    · rw [List.concat_eq_append, ← List.cons_append, ← List.append_assoc] at ht
      obtain ⟨hbefore, hlast⟩ := List.append_inj' ht rfl
      obtain rfl : event = last := List.singleton_inj.mp hlast
      have hc : p.source.closed = true := (run_closed ho h).mpr (by simp [hbefore])
      obtain ⟨w₀, hw₀, hle⟩ := (closed_step hrest hc hstep).asksLeft hagreed hc hw
      have hsofar := ih hbefore hw₀
      rw [List.concat_eq_append, List.countP_append, List.countP_singleton]
      split_ifs at hle ⊢ <;> omega

/-- **The handshake.** Whatever comes in between, failing asks and failing calls included: until the
source is told to stop there is at most one token on its way, and there is one exactly while the
thread is parked. So the call never finds the drained channel full when it acknowledges, the thread
never finds the ready channel full, and when it found no alerts there is no token that it could
swallow. After the source was told to stop the thread asks the engine at most once more, the ask
included that it may be about to make or in the middle of, and then exits. -/
theorem one_token (ho : Source.open mode engine = (.ok source, engine'))
    (h : Run Acts (opened source engine') trace p) {w : Worker}
    (hw : p.source.readiness = .watched w) :
    (.stopped ∉ trace → p.tokens w ≤ 1 ∧ (p.tokens w = 1 ↔ w.phase = .parked)) ∧
      (∀ answer, p.errand = .drained answer → w.drained = false) ∧
      (w.phase = .foundAlerts → w.ready = false) ∧
      (w.phase = .foundNothing → w.drained = false) ∧
      ∀ before after, trace = before ++ .stopped :: after →
        after.countP Event.isAsked + (if w.phase = .asking then 1 else 0) ≤ 1 ∧
          (w.join Worker.stepsToExit p.engine).1.phase = .exited := by
  obtain ⟨hrest, hagreed⟩ := run_agreed ho h
  have ha := hagreed w hw
  refine ⟨fun hn => ?_, fun answer he => ?_, fun hp => ?_, fun hp => ?_,
    fun before after ht => ⟨?_, ?_⟩⟩
  · have hopen : p.source.closed = false := by
      rw [Bool.eq_false_iff]
      exact fun hc => hn ((run_closed ho h).mp hc)
    exact ha.tokens_open hopen
  · exact (ha.parked hrest (by simp [inHand, he])).2.2
  · exact (ha.empty (by simp [hp]) (by simp [hp])).1
  · exact (ha.empty (by simp [hp]) (by simp [hp])).2
  · have hle := run_asksLeft ho h ht hw
    split_ifs with hp
    · simpa [Worker.asksLeft, hp] using hle
    · omega
  · have hc : p.source.closed = true := (run_closed ho h).mpr (by simp [ht])
    exact (ha.dismissed hc).exits w.stepsLeft_le p.engine

def jammed : Bench :=
  { engine := { mask := .sessionLog }
    faults := [{ point := .takeAlerts, times := some 1, error := .notSupported }] }

def Says (b : Bench) (accepted : List Alert) (b' : Bench) : Prop :=
  ∃ text, accepted = [.log text] ∧ b' = { b with engine := b.engine.postLog text }

/-- The call fails to take the queue while the thread is parked; the source is told to stop when the
thread has its token back, and the thread asks once more before it exits. -/
theorem one_token_jammed : ∃ (start p q : Intake Bench) (before after : List Event) (w w' : Worker),
    Run Says start before p ∧ p.source.readiness = .watched w ∧
      p.errand = .drained (.error .notSupported) ∧ p.tokens w = 1 ∧ w.drained = false ∧
      Run Says start (before ++ .returned (.error (.engine .notSupported)) :: .stopped :: after) q ∧
      q.source.readiness = .watched w' ∧ after.countP Event.isAsked = 1 ∧
      (w'.join Worker.stepsToExit q.engine).1.phase = .exited := by
  let before : List Event := [.acted [.log "hello"], .asked, .quiet, .quiet, .quiet, .quiet]
  have ho : Source.open .thread jammed = (.ok { readiness := .watched {} }, jammed) := rfl
  have hnil : Run Says (opened { readiness := .watched {} } jammed) []
    (opened { readiness := .watched {} } jammed) := .nil
  have hfound := (hnil.snoc (.act ⟨"hello", rfl, rfl⟩)).snoc (.watch rfl rfl)
  have hready := hfound.snoc (.watch rfl rfl)
  have hdrained := ((hready.snoc (.call rfl rfl)).snoc (.hear (.inl rfl) rfl rfl)).snoc (.drain rfl)
  have hstopped := (hdrained.snoc (.fail rfl)).snoc (.stop rfl)
  have hq := ((hstopped.snoc (.watch rfl rfl)).snoc (.watch rfl rfl)).snoc (.watch rfl rfl)
  have hfirst := one_token ho hdrained rfl
  refine ⟨_, _, _, before, [.quiet, .asked, .quiet], _, _, hdrained, rfl, rfl, ?_, ?_, hq,
    rfl, rfl, ?_⟩
  · exact (hfirst.1 (by simp [Event.ofPhase])).2.mpr rfl
  · exact hfirst.2.1 _ rfl
  · exact ((one_token ho hq rfl).2.2.2.2
      (before ++ [.returned (.error (.engine .notSupported))]) _ rfl).2

end Intake

end TorrentFlow
