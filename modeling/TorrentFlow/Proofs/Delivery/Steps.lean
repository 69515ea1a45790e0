import TorrentFlow.Pipeline.Services
import TorrentFlow.Proofs.Calls
import TorrentFlow.Proofs.Subscriptions

/-!
Delivery as a system that takes one step after another. The engine is called, subscribers come, ask
and go, the mask is staged, and the pump goes round, in any order. Only the pump takes the engine's
queue and only the demand sets the engine's mask, since no step does anything else to them.
-/

namespace TorrentFlow

def Pump.batch (pump : Pump) : List Alert :=
  match pump.phase with
  | .holding batch => batch
  | _ => []

/-! ### The pipeline's own operations, spelled out -/

namespace Pipeline

variable {σ : Type}

lemma withDemand_eq (p : Pipeline σ) (change : Demand × σ × List Notice) :
    p.withDemand change = { p with
      demand := change.1, engine := change.2.1, notices := p.notices ++ change.2.2 } := by
  obtain ⟨demand, engine, notices⟩ := change
  rfl

lemma pollSubscription_fst (p : Pipeline σ) (id : Nat) :
    (p.pollSubscription id).1 = (p.hub.poll id).1 := rfl

lemma pollSubscription_snd (p : Pipeline σ) (id : Nat) : (p.pollSubscription id).2 =
    { p with hub := p.hub.onMailbox id fun m busy => (m.poll busy).2 } := by
  rw [← Hub.poll_snd]
  rfl

variable [Engine σ]

lemma subscribe_fst (p : Pipeline σ) (r : Request) : (p.subscribe r).1 = p.hub.nextId := by
  simp only [subscribe, withDemand_eq]
  rfl

lemma subscribe_snd (p : Pipeline σ) (r : Request) :
    (p.subscribe r).2 = { p.withDemand (p.demand.acquire r.requiredMask p.engine) with
      hub := (p.hub.add r).2 } := by
  simp only [subscribe, withDemand_eq]

lemma hub_subscribe (p : Pipeline σ) (r : Request) : (p.subscribe r).2.hub = (p.hub.add r).2 := by
  rw [subscribe_snd]

lemma nextId_subscribe (p : Pipeline σ) (r : Request) :
    (p.subscribe r).2.hub.nextId = p.hub.nextId + 1 := by
  rw [hub_subscribe, Hub.add_eq]

lemma unsubscribe_none {p : Pipeline σ} {id : Nat}
    (h : p.hub.subscriptions.get? id = none) : p.unsubscribe id = p := by
  simp only [unsubscribe, h]

lemma unsubscribe_some {p : Pipeline σ} {id : Nat} {s : Subscription}
    (h : p.hub.subscriptions.get? id = some s) :
    p.unsubscribe id = { p.withDemand (p.demand.release s.mask p.engine) with
      hub := p.hub.remove id } := by
  simp only [unsubscribe, h, withDemand_eq]

end Pipeline

namespace Delivery

inductive Note where
  | called (engine : Simulated) (call : EngineCall)
  | received (id : Nat) (answer : Option (Except DeliveryError Alert))
  | left (id : Nat)
  | stopped
  | quiet

namespace Note

/-- The alerts that the engine accepted into its queue. -/
def accepted : Note → List Alert
  | called engine call => call.accepted engine
  | _ => []

/-- The alerts that the engine generated and its mask did not let through. -/
def dropped : Note → List Alert
  | called engine call => (call.generated engine).filter fun a => !engine.accepts a
  | _ => []

def returned (id : Nat) : Note → List Alert
  | received id' answer => if id' = id then Mailbox.handed answer else []
  | _ => []

@[simp] lemma accepted_quiet : accepted .quiet = [] := rfl

lemma returned_eq_nil {id : Nat} {note : Note} (h : ∀ answer, note ≠ .received id answer) :
    note.returned id = [] := by
  cases note with
  | received id' answer =>
    refine if_neg fun e => h answer ?_
    rw [e]
  | _ => rfl

end Note

/-- One step of delivery. -/
inductive Step : Pipeline Simulated → Note → Pipeline Simulated → Prop
  | call (p : Pipeline Simulated) (c : EngineCall) :
    Step p (.called p.engine c) { p with engine := c.apply p.engine }
  | subscribe (p : Pipeline Simulated) (r : Request) : Step p .quiet (p.subscribe r).2
  | receive (p : Pipeline Simulated) (id : Nat) :
    Step p (.received id (p.pollSubscription id).1) (p.pollSubscription id).2
  | cancel (p : Pipeline Simulated) (id : Nat) : Step p .quiet (p.cancelSubscription id)
  | unsubscribe (p : Pipeline Simulated) (id : Nat) : Step p (.left id) (p.unsubscribe id)
  | stage (p : Pipeline Simulated) (mask : Category) : Step p .quiet (p.stage mask)
  | askLiveness {p q : Pipeline Simulated} {id : Nat} (h : p.askLiveness id = some q) :
    Step p .quiet q
  | answerLiveness {p q : Pipeline Simulated} {id : Nat} (h : p.answerLiveness id = some q) :
    Step p .quiet q
  /-- There is one pump, and it is set to work once. -/
  | run {p : Pipeline Simulated} (h : p.pumps = []) : Step p .quiet p.run.2
  | pump {p q : Pipeline Simulated} {k : Nat} (h : p.pumpStep k = some q) : Step p .quiet q
  | worker {p q : Pipeline Simulated} {k : Nat} (h : p.workerStep k = some q) : Step p .quiet q
  | stall (p : Pipeline Simulated) (k : Nat) : Step p .quiet (p.stall k)
  | stop (p : Pipeline Simulated) : Step p .stopped p.stopDelivery

/-- Any number of steps, with what they show in order. Between them the readers, the waiters, the
clock and the operator's log go their own way. -/
inductive Run : Pipeline Simulated → List Note → Pipeline Simulated → Prop
  | nil (p : Pipeline Simulated) : Run p [] p
  | snoc {p q r : Pipeline Simulated} {trace : List Note} {note : Note} (h : Run p trace q)
      (hstep : Step q note r) : Run p (trace ++ [note]) r
  | aside {p q : Pipeline Simulated} {trace : List Note} (h : Run p trace q) (windows : Windows)
      (readers : Table Nat Reader) (waiters : Table Nat Waiter) (nextScope : Nat)
      (janitor : Option Nat) (now : Nat) (notices : List Notice) :
    Run p trace { q with windows, readers, waiters, nextScope, janitor, now, notices }

lemma step_pumpStep (p : Pipeline Simulated) (h : (p.pumpStep 0).isSome = true) :
    Step p .quiet ((p.pumpStep 0).getD p) := by
  obtain ⟨q, hq⟩ := Option.isSome_iff_exists.mp h
  rw [hq]
  exact .pump hq

lemma Run.trans {p q r : Pipeline Simulated} {s t : List Note} (h : Run p s q) (h' : Run q t r) :
    Run p (s ++ t) r := by
  induction h' with
  | nil => simpa using h
  | snoc _ hstep ih =>
    rw [← List.append_assoc]
    exact ih.snoc hstep
  | aside _ windows readers waiters nextScope janitor now notices ih =>
    exact ih.aside windows readers waiters nextScope janitor now notices

lemma Run.one {p q : Pipeline Simulated} {note : Note} (h : Step p note q) : Run p [note] q :=
  (Run.nil p).snoc h

/-! ### What has not reached the mailboxes -/

/-- The batch that was taken out of the engine and not yet put into the mailboxes. -/
def inFlight (p : Pipeline Simulated) : List Alert := p.pumps.flatMap Pump.batch

/-- What the engine accepted and no mailbox has got yet. -/
def undelivered (p : Pipeline Simulated) : List Alert := inFlight p ++ p.engine.queue

/-- What a subscription is still to see: its mailbox, and what its filter accepts of the rest. -/
def outstanding (p : Pipeline Simulated) (s : Subscription) : List Alert :=
  s.mailbox.queue ++ (undelivered p).filter s.filter.accepts

lemma undelivered_of_pump {p q : Pipeline Simulated} {pump : Pump} (pump' : Pump)
    (hp : p.pumps = [pump]) (hq : q.pumps = [pump'])
    (h : pump'.batch ++ q.engine.queue = pump.batch ++ p.engine.queue) :
    undelivered q = undelivered p := by
  simpa [undelivered, inFlight, hp, hq] using h

lemma undelivered_of_mask {p q : Pipeline Simulated} (hp : q.pumps = p.pumps)
    (he : ∃ mask, q.engine = { p.engine with mask }) : undelivered q = undelivered p := by
  obtain ⟨mask, he⟩ := he
  simp [undelivered, inFlight, hp, he]

lemma undelivered_subscribe (p : Pipeline Simulated) (r : Request) :
    undelivered (p.subscribe r).2 = undelivered p := by
  rw [Pipeline.subscribe_snd, Pipeline.withDemand_eq]
  refine undelivered_of_mask rfl ?_
  dsimp only
  exact p.demand.engine_acquire r.requiredMask p.engine

lemma undelivered_unsubscribe (p : Pipeline Simulated) (id : Nat) :
    undelivered (p.unsubscribe id) = undelivered p := by
  rcases hs : p.hub.subscriptions.get? id with _ | s
  · rw [Pipeline.unsubscribe_none hs]
  · rw [Pipeline.unsubscribe_some hs, Pipeline.withDemand_eq]
    refine undelivered_of_mask rfl ?_
    dsimp only
    exact p.demand.engine_release s.mask p.engine

lemma undelivered_stage (p : Pipeline Simulated) (mask : Category) :
    undelivered (p.stage mask) = undelivered p := by
  rw [Pipeline.stage, Pipeline.withDemand_eq]
  refine undelivered_of_mask rfl ?_
  dsimp only
  exact p.demand.engine_stage mask p.engine

lemma hub_stage (p : Pipeline Simulated) (mask : Category) : (p.stage mask).hub = p.hub := by
  rw [Pipeline.stage, Pipeline.withDemand_eq]

/-! ### One pump -/

def isOver (pump : Pump) : Bool :=
  match pump.phase with
  | .leaving _ => true
  | .ended _ => true
  | _ => false

lemma pumps_eq {σ : Type} {p : Pipeline σ} {k : Nat} {pump : Pump} (h : p.pumps.length ≤ 1)
    (hk : p.pumps[k]? = some pump) : k = 0 ∧ p.pumps = [pump] := by
  rcases hp : p.pumps with _ | ⟨a, _ | ⟨b, rest⟩⟩
  · simp [hp] at hk
  · rcases k with _ | k
    · simpa [hp] using hk
    · simp [hp] at hk
  · simp [hp] at h

inductive Turn (p : Pipeline Simulated) (source : Source) : PumpPhase → Pipeline Simulated → Prop
  | stopped {phase : PumpPhase} (hb : (Pump.mk source phase).batch = [])
      (hs : p.hub.stopped = true) : Turn p source phase (p.leave 0 source (.ok ()))
  | idle {since : Nat} (hs : p.hub.stopped = false) (hb : p.hub.busy = 0) :
    Turn p source (.idling since) (p.putPump 0 ⟨source, .draining⟩)
  | unready {source' : Source} {engine : Simulated} (hs : p.hub.stopped = false)
      (h : source.poll p.engine = (none, source', engine)) :
    Turn p source .draining ({ p with engine }.putPump 0 ⟨source', .draining⟩)
  | drained {source' : Source} {engine : Simulated} {batch : List Alert}
      (hs : p.hub.stopped = false)
      (h : source.poll p.engine = (some (.ok batch), source', engine)) :
    Turn p source .draining ({ p with engine }.putPump 0 ⟨source', .holding batch⟩)
  | failed {source' : Source} {engine : Simulated} {e : DeliveryError}
      (hs : p.hub.stopped = false)
      (h : source.poll p.engine = (some (.error e), source', engine)) :
    Turn p source .draining (({ p with engine }.tell [.pumpFailed e]).leave 0 source' (.error e))
  | dispatched {batch : List Alert} :
    Turn p source (.holding batch)
      (({ p with hub := p.hub.dispatch batch }.tell (batch.map .dispatched)).putPump 0
        ⟨source, .idling p.now⟩)
  | ended {result : Except DeliveryError Unit} :
    Turn p source (.leaving result) (p.putPump 0 ⟨source, .ended result⟩)

lemma turn_of_pumpStep {p q : Pipeline Simulated} {source : Source} {phase : PumpPhase}
    (hp : p.pumps = [⟨source, phase⟩]) (h : p.pumpStep 0 = some q) : Turn p source phase q := by
  have hk : p.pumps[0]? = some ⟨source, phase⟩ := by rw [hp]; rfl
  simp only [Pipeline.pumpStep, hk] at h
  cases phase with
  | idling since =>
    dsimp only at h
    by_cases hs : p.hub.stopped = true
    · rw [if_pos hs] at h
      exact Option.some.inj h ▸ .stopped rfl hs
    · rw [if_neg hs] at h
      by_cases hb : p.hub.busy = 0
      · rw [if_pos hb] at h
        exact Option.some.inj h ▸ .idle (by simpa using hs) hb
      · simp [hb] at h
  | draining =>
    dsimp only at h
    by_cases hs : p.hub.stopped = true
    · rw [if_pos hs] at h
      exact Option.some.inj h ▸ .stopped rfl hs
    · have hs' : p.hub.stopped = false := by simpa using hs
      rw [if_neg hs] at h
      rcases hpoll : source.poll p.engine with ⟨_ | _ | batch, source', engine⟩
      · -- nothing is ready, though the source may have changed by being asked
        simp only [hpoll] at h
        by_cases heq : source' = source
        · simp [heq] at h
        · rw [if_neg heq] at h
          exact Option.some.inj h ▸ .unready hs' hpoll
      · simp only [hpoll] at h
        exact Option.some.inj h ▸ .failed hs' hpoll
      · simp only [hpoll] at h
        exact Option.some.inj h ▸ .drained hs' hpoll
  | holding batch => exact Option.some.inj h ▸ .dispatched
  | leaving result =>
    by_cases hd : source.isStopped = true
    · simp only [hd, if_true] at h
      exact Option.some.inj h ▸ .ended
    · simp [hd] at h
  | ended result => simp at h

end Delivery

end TorrentFlow
