import TorrentFlow.Proofs.Pumping.Changes

/-!
Pumping as a system over any engine, one that fails at every turn included. Subscribers come, ask,
give up and go, torrents turn out to be gone, pumps are set to work, go round, stall and are told to
stop, in any order; the engine, the mask and the services go their own way in between. What one step
does to the mailboxes and to the pumps is said once (`Effect`), and everything else follows from
that.
-/

namespace TorrentFlow.Pumping

open Delivery (isOver)

variable {σ : Type}

inductive Mark where
  | received (id : Nat) (answer : Option (Except DeliveryError Alert))
  | took (batch : List Alert)
  | dispatched (batch : List Alert) (slices : Table Nat (List Alert))
  | quiet

def Mark.handed (id : Nat) : Mark → List Alert
  | received id' answer => if id' = id then Mailbox.handed answer else []
  | _ => []

/-- The pump has found nobody busy, and has not yet delivered what it finds in the engine. -/
def isBetween (pump : Pump) : Bool :=
  match pump.phase with
  | .draining => true
  | .holding _ => true
  | _ => false

/-! ### What a step can do -/

/-- What a step of a pump makes of the pump and of the hub. -/
inductive Turn (p : Pipeline σ) (pump : Pump) : Mark → Pump → Hub → Prop
  | left {pump' : Pump} (h' : isOver pump' = true) : Turn p pump .quiet pump' p.hub.close
  | ended {pump' : Pump} (h : isOver pump = true) (h' : isOver pump' = true) :
    Turn p pump .quiet pump' p.hub
  | idle {pump' : Pump} (hb : p.hub.busy = 0) (h' : pump'.phase = .draining) :
    Turn p pump .quiet pump' p.hub
  | same {pump' : Pump} (h : pump'.phase = pump.phase) : Turn p pump .quiet pump' p.hub
  | took {pump' : Pump} {batch : List Alert} (h : pump.phase = .draining)
      (h' : pump'.phase = .holding batch) : Turn p pump (.took batch) pump' p.hub
  | dispatched {pump' : Pump} {batch : List Alert} {since : Nat} (h : pump.phase = .holding batch)
      (h' : pump'.phase = .idling since) :
    Turn p pump (.dispatched batch (p.hub.index.route id batch)) pump' (p.hub.dispatch batch)
  | stalled {pump' : Pump} {since : Nat} (h' : pump'.phase = .idling since) :
    Turn p pump .quiet pump' p.hub

/-- What a step does to the hub and to the pumps. -/
inductive Effect (p : Pipeline σ) : Mark → Pipeline σ → Prop
  | received {id : Nat} {q : Pipeline σ} (hh : q.hub = (p.hub.poll id).2)
      (hp : q.pumps = p.pumps) : Effect p (.received id (p.hub.poll id).1) q
  | beside {q : Pipeline σ} (hh : p.hub.Change Hub.nothing q.hub) (hp : q.pumps = p.pumps) :
    Effect p .quiet q
  | opened {q : Pipeline σ} {source : Source} {since : Nat} (hh : q.hub = p.hub)
      (hp : q.pumps = p.pumps ++ [⟨source, .idling since⟩]) : Effect p .quiet q
  | turned {mark : Mark} {q : Pipeline σ} {k : Nat} {pump pump' : Pump}
      (hk : p.pumps[k]? = some pump) (ht : Turn p pump mark pump' q.hub)
      (hp : q.pumps = p.pumps.set k pump') : Effect p mark q

/-- Only delivering a batch puts anything into a mailbox. -/
theorem change_or_dispatched {p q : Pipeline σ} {mark : Mark} (hs : p.hub.Sound)
    (he : Effect p mark q) : p.hub.Change (fun id => mark.handed id) q.hub ∨
      ∃ batch, mark = .dispatched batch (p.hub.index.route id batch) ∧
      q.hub = p.hub.dispatch batch := by
  cases he with
  | received hh _ => exact .inl (hh ▸ Hub.change_poll hs _)
  | beside hh _ => exact .inl hh
  | opened hh _ => exact .inl (.of_eq hs hh)
  | turned _ ht _ =>
    generalize hh : q.hub = hub at ht
    cases ht with
    | left => exact .inl (Hub.change_close hs)
    | dispatched => exact .inr ⟨_, rfl, rfl⟩
    | _ => exact .inl (.of_eq hs rfl)

/-! ### What holds after any number of steps -/

/-- Whoever is told to stop closes the hub, and so does a pump whose rounds are over. -/
structure Kept (p : Pipeline σ) : Prop where
  hub : p.hub.Sound
  asked : p.hub.stopped = true → p.hub.closed = true
  ended : ∀ pump ∈ p.pumps, isOver pump = true → p.hub.closed = true

lemma Kept.closed_turn {p : Pipeline σ} (h : Kept p) {mark : Mark} {pump pump' : Pump} {hub : Hub}
    (hmem : pump ∈ p.pumps) (ht : Turn p pump mark pump' hub) (ho : isOver pump' = true) :
    hub.closed = true := by
  cases ht with
  | left => exact p.hub.closed_close
  | ended ho' => exact h.ended pump hmem ho'
  | same hphase => exact h.ended pump hmem (by rwa [isOver, ← hphase])
  | idle _ h' | took _ h' | dispatched _ h' | stalled h' => simp [isOver, h'] at ho

lemma Kept.ended_effect {p q : Pipeline σ} (h : Kept p) {mark : Mark} (he : Effect p mark q)
    {pump : Pump} (hpump : pump ∈ q.pumps) (ho : isOver pump = true) :
    pump ∈ p.pumps ∨ q.hub.closed = true := by
  cases he with
  | received _ hp | beside _ hp => exact .inl (hp ▸ hpump)
  | opened _ hp =>
    rw [hp, List.mem_append, List.mem_singleton] at hpump
    rcases hpump with hpump | rfl
    · exact .inl hpump
    · cases ho
  | turned hk ht hp =>
    -- only the pump that takes its turn can come to its end
    rw [hp] at hpump
    rcases List.mem_or_eq_of_mem_set hpump with hpump | rfl
    · exact .inl hpump
    · exact .inr (h.closed_turn (List.mem_of_getElem? hk) ht ho)

theorem kept_effect {p q : Pipeline σ} {mark : Mark} (h : Kept p) (he : Effect p mark q) :
    Kept q := by
  obtain ⟨hsound, hclosed, hstopped⟩ : q.hub.Sound ∧ (p.hub.closed = true → q.hub.closed = true) ∧
      (q.hub.stopped = true → p.hub.stopped = true ∨ q.hub.closed = true) := by
    rcases change_or_dispatched h.hub he with hchange | ⟨batch, -, hh⟩
    · exact ⟨hchange.sound, hchange.closed, hchange.stopped⟩
    · rw [hh]
      refine ⟨Hub.sound_dispatch h.hub batch, fun hc => ?_, fun hs => .inl ?_⟩
      · rw [Hub.dispatch_eq, Hub.closed_onEach, hc]
      · rwa [Hub.dispatch_eq, Hub.stopped_onEach] at hs
  refine ⟨hsound, fun hs => ?_, fun pump hpump ho => ?_⟩
  · rcases hstopped hs with hs | hc
    · exact hclosed (h.asked hs)
    · exact hc
  · rcases h.ended_effect he hpump ho with hpump | hc
    · exact hclosed (h.ended pump hpump ho)
    · exact hc

/-! ### The steps -/

lemma effect_answerLiveness {p q : Pipeline σ} (hs : p.hub.Sound) {id : Nat}
    (h : p.answerLiveness id = some q) : Effect p .quiet q := by
  unfold Pipeline.answerLiveness at h
  rcases hget : p.hub.subscriptions.get? id with _ | s
  · simp [hget] at h
  rcases hl : s.liveness with _ | handle | answer <;> simp only [hget, hl] at h
  · cases h
  · cases h
  · rcases answer with e | _ | _ <;> cases h
    · exact .beside (Hub.change_fail hs hget .settled _) rfl
    · exact .beside (Hub.change_fail hs hget .settled _) rfl
    · exact .beside (Hub.change_liveness hs hget .settled) rfl

section Steps

variable [Engine σ]

def turnMark (p : Pipeline σ) (k : Nat) : Mark :=
  match p.pumps[k]? with
  | some ⟨_, .holding batch⟩ => .dispatched batch (p.hub.index.route id batch)
  | some ⟨source, .draining⟩ =>
    if p.hub.stopped then .quiet
    else
      match (source.poll p.engine).1 with
      | some (.ok batch) => .took batch
      | _ => .quiet
  | _ => .quiet

lemma turn_of_pumpStep {p q : Pipeline σ} {k : Nat} {source : Source} {phase : PumpPhase}
    (hk : p.pumps[k]? = some ⟨source, phase⟩) (h : p.pumpStep k = some q) :
    ∃ pump', Turn p ⟨source, phase⟩ (turnMark p k) pump' q.hub ∧ q.pumps = p.pumps.set k pump' := by
  simp only [Pipeline.pumpStep, hk] at h
  simp only [turnMark, hk]
  cases phase with
  | idling since =>
    dsimp only at h
    split_ifs at h with hs hb <;> cases h
    · exact ⟨_, .left rfl, rfl⟩
    · exact ⟨_, .idle hb rfl, rfl⟩
  | draining =>
    dsimp only at h ⊢
    split_ifs at h with hs
    · cases h
      rw [if_pos hs]
      exact ⟨_, .left rfl, rfl⟩
    rw [if_neg hs]
    rcases hpoll : source.poll p.engine with ⟨_ | _ | batch, source', engine⟩ <;>
      simp only [hpoll] at h ⊢
    · -- nothing is ready, though the source may have changed by being asked
      split_ifs at h
      cases h
      exact ⟨⟨source', .draining⟩, .same rfl, rfl⟩
    · cases h
      exact ⟨_, .left rfl, rfl⟩
    · cases h
      exact ⟨_, .took rfl rfl, rfl⟩
  | holding batch =>
    cases h
    exact ⟨_, .dispatched rfl rfl, rfl⟩
  | leaving result =>
    dsimp only at h
    split_ifs at h
    cases h
    exact ⟨_, .ended rfl rfl, rfl⟩
  | ended result => cases h

lemma effect_askLiveness {p q : Pipeline σ} (hs : p.hub.Sound) {id : Nat}
    (h : p.askLiveness id = some q) : Effect p .quiet q := by
  unfold Pipeline.askLiveness at h
  rcases hget : p.hub.subscriptions.get? id with _ | s
  · simp [hget] at h
  rcases hl : s.liveness with _ | handle | answer <;> simp only [hget, hl] at h
  · cases h
  · cases h
    exact .beside (Hub.change_liveness hs hget _) rfl
  · cases h

lemma kept_assemble (settings : Settings) (engine : σ) :
    Kept (Pipeline.assemble settings engine) := by
  simp only [Pipeline.assemble, Pipeline.withDemand_eq]
  refine ⟨Hub.sound_empty, fun hs => ?_, fun pump hpump => ?_⟩
  · cases hs
  · cases hpump

variable [DecidableEq σ]

inductive Step : Pipeline σ → Mark → Pipeline σ → Prop
  /-- The engine, the mask, the services and the clock are not the pumps' business. -/
  | aside (p : Pipeline σ) (engine : σ) (demand : Demand) (windows : Windows)
      (readers : Table Nat Reader) (waiters : Table Nat Waiter) (nextScope : Nat)
      (janitor : Option Nat) (now : Nat) (notices : List Notice) :
    Step p .quiet
      { p with engine, demand, windows, readers, waiters, nextScope, janitor, now, notices }
  | subscribe (p : Pipeline σ) (r : Request) : Step p .quiet (p.subscribe r).2
  | receive (p : Pipeline σ) (id : Nat) :
    Step p (.received id (p.pollSubscription id).1) (p.pollSubscription id).2
  | cancel (p : Pipeline σ) (id : Nat) : Step p .quiet (p.cancelSubscription id)
  | unsubscribe (p : Pipeline σ) (id : Nat) : Step p .quiet (p.unsubscribe id)
  | askLiveness {p q : Pipeline σ} {id : Nat} (h : p.askLiveness id = some q) : Step p .quiet q
  | answerLiveness {p q : Pipeline σ} {id : Nat} (h : p.answerLiveness id = some q) :
    Step p .quiet q
  | run (p : Pipeline σ) : Step p .quiet p.run.2
  | pump {p q : Pipeline σ} {k : Nat} (h : p.pumpStep k = some q) : Step p (turnMark p k) q
  | worker {p q : Pipeline σ} {k : Nat} (h : p.workerStep k = some q) : Step p .quiet q
  | stall (p : Pipeline σ) (k : Nat) : Step p .quiet (p.stall k)
  | stop (p : Pipeline σ) : Step p .quiet p.stopDelivery

inductive Run : Pipeline σ → List Mark → Pipeline σ → Prop
  | nil (p : Pipeline σ) : Run p [] p
  | snoc {p q r : Pipeline σ} {trace : List Mark} {mark : Mark} (h : Run p trace q)
      (hstep : Step q mark r) : Run p (trace ++ [mark]) r

lemma Run.one {p q : Pipeline σ} {mark : Mark} (h : Step p mark q) : Run p [mark] q :=
  (Run.nil p).snoc h

lemma step_engine (p : Pipeline σ) (engine : σ) : Step p .quiet { p with engine } :=
  .aside p engine p.demand p.windows p.readers p.waiters p.nextScope p.janitor p.now p.notices

lemma step_pumpStep (p : Pipeline σ) (k : Nat) (h : (p.pumpStep k).isSome = true) :
    Step p (turnMark p k) ((p.pumpStep k).getD p) := by
  obtain ⟨q, hq⟩ := Option.isSome_iff_exists.mp h
  rw [hq]
  exact .pump hq

/-- **Everything that a step can do.** -/
theorem effect_step {p q : Pipeline σ} {mark : Mark} (hs : p.hub.Sound) (hstep : Step p mark q) :
    Effect p mark q := by
  cases hstep with
  | aside => exact .beside (.of_eq hs rfl) rfl
  | subscribe r =>
    rw [Pipeline.subscribe_snd]
    exact .beside (Hub.change_add hs r) rfl
  | receive id => exact .received rfl rfl
  | cancel id => exact .beside (Hub.change_cancel hs id) rfl
  | unsubscribe id =>
    rcases hget : p.hub.subscriptions.get? id with _ | s
    · rw [Pipeline.unsubscribe_none hget]
      exact .beside (.of_eq hs rfl) rfl
    · rw [Pipeline.unsubscribe_some hget, Pipeline.withDemand_eq]
      exact .beside (Hub.change_remove hs id) rfl
  | askLiveness h => exact effect_askLiveness hs h
  | answerLiveness h => exact effect_answerLiveness hs h
  | run =>
    unfold Pipeline.run
    rcases Source.open p.settings.mode p.engine with ⟨_ | source, engine⟩
    · exact .beside (.of_eq hs rfl) rfl
    · exact .opened rfl rfl
  | @pump _ k h =>
    rcases hk : p.pumps[k]? with _ | ⟨source, phase⟩
    · simp [Pipeline.pumpStep, hk] at h
    · obtain ⟨pump', ht, hp⟩ := turn_of_pumpStep hk h
      exact .turned hk ht hp
  | @worker _ k h =>
    unfold Pipeline.workerStep at h
    rcases hk : p.pumps[k]? with _ | pump
    · simp [hk] at h
    · simp only [hk, Option.map_eq_some_iff] at h
      obtain ⟨⟨source, engine, notices⟩, -, rfl⟩ := h
      -- the thread works for the source, and the pump stays in its phase
      have ht : Turn p pump .quiet { pump with source } p.hub := .same rfl
      exact .turned hk ht rfl
  | stall k =>
    unfold Pipeline.stall
    split
    · rename_i hk
      exact .turned hk (.stalled rfl) rfl
    · exact .beside (.of_eq hs rfl) rfl
  | stop => exact .beside (Hub.change_stop hs) rfl

theorem kept_run {p q : Pipeline σ} {trace : List Mark} (h : Kept p) (hrun : Run p trace q) :
    Kept q := by
  induction hrun with
  | nil => exact h
  | snoc _ hstep ih => exact kept_effect ih (effect_step ih.hub hstep)

end Steps

/-- Two log lines are delivered to the only subscriber, who does not look into his mailbox. -/
def twoLines : List Mark × Pipeline Simulated :=
  let idle := (Pipeline.assemble {} ({} : Simulated)).run.2
  let subscribed := (idle.subscribe { kinds := [.log] }).2
  let logged : Pipeline Simulated := { subscribed with
    engine := (EngineCall.log "b").apply ((EngineCall.log "a").apply subscribed.engine) }
  let draining := (logged.pumpStep 0).getD logged
  let holding := (draining.pumpStep 0).getD draining
  ([.quiet] ++ [.quiet] ++ [.quiet] ++ [turnMark logged 0] ++ [turnMark draining 0] ++
    [turnMark holding 0], (holding.pumpStep 0).getD holding)

lemma run_twoLines : Run (Pipeline.assemble {} {}) twoLines.1 twoLines.2 :=
  (((((Run.one (.run _)).snoc (.subscribe _ _)).snoc (step_engine _ _)).snoc
    (step_pumpStep _ 0 (by decide +kernel))).snoc (step_pumpStep _ 0 (by decide +kernel))).snoc
    (step_pumpStep _ 0 (by decide +kernel))

end TorrentFlow.Pumping
