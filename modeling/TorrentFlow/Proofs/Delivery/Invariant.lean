import TorrentFlow.Proofs.Delivery.Steps
import TorrentFlow.Proofs.Subscriptions

/-!
What holds after any number of steps: the hub's table and its index agree, an open hub has open
mailboxes only, there is one pump at most, and the demand counts each subscription under the
categories it needs.
-/

namespace TorrentFlow.Delivery

open Table

/-- The hub as it is as long as it is open: everybody is listed, and no mailbox is closed. -/
def Served (h : Hub) : Prop :=
  h.closed = false → ∀ id s, h.subscriptions.get? id = some s →
    s.listed = true ∧ s.mailbox.closed = false

structure Inv (p : Pipeline Simulated) : Prop where
  hub : p.hub.Wf
  served : Served p.hub
  single : p.pumps.length ≤ 1
  /-- A hub that closed by itself closed because its pump came to an end. -/
  ending : p.hub.closed = true → p.hub.stopped = false →
    ∃ pump, p.pumps = [pump] ∧ isOver pump = true
  balanced : p.demand.Balanced p.hub.holders
  told : p.demand.Told p.engine

/-! ### Steps that leave the subscriptions alone -/

/-- What the pump, the clock and the engine's own affairs may change. -/
lemma Inv.congr {p q : Pipeline Simulated} (h : Inv p) (hh : q.hub = p.hub)
    (hd : q.demand = p.demand) (hm : q.engine.mask = p.engine.mask)
    (hp : q.pumps.length ≤ 1 ∧ (p.hub.closed = true → p.hub.stopped = false →
      ∃ pump, q.pumps = [pump] ∧ isOver pump = true)) : Inv q where
  hub := hh ▸ h.hub
  served := hh ▸ h.served
  single := hp.1
  ending := hh ▸ hp.2
  balanced := by
    rw [hd, hh]
    exact h.balanced
  told := by
    rw [hd]
    exact h.told.congr hm

lemma Inv.pumps {p : Pipeline Simulated} (h : Inv p) : p.pumps.length ≤ 1 ∧
    (p.hub.closed = true → p.hub.stopped = false →
      ∃ pump, p.pumps = [pump] ∧ isOver pump = true) := ⟨h.single, h.ending⟩

lemma Served.alike {h h' : Hub} (hs : Served h) (ha : h.Alike h') (hc : h'.closed = h.closed)
    (hm : ∀ id s s', h.subscriptions.get? id = some s → h'.subscriptions.get? id = some s' →
      s'.mailbox.closed = s.mailbox.closed) : Served h' := by
  intro hopen id s' hs'
  obtain ⟨s, hget, ht⟩ := ha.back hs'
  obtain ⟨hl, hcl⟩ := hs (hc ▸ hopen) id s hget
  have hl' : s.listed = s'.listed := congrArg (fun t => t.2.2) ht
  exact ⟨hl' ▸ hl, hm id s s' hget hs' ▸ hcl⟩

/-- To do something to mailboxes is no concern of anything else. -/
lemma Inv.alike {p : Pipeline Simulated} (h : Inv p) {hub : Hub} (ha : p.hub.Alike hub)
    (hc : hub.closed = p.hub.closed) (hs : hub.stopped = p.hub.stopped) (hserved : Served hub) :
    Inv { p with hub } where
  hub := ha.wf h.hub
  served := hserved
  single := h.single
  ending hcl hst := h.ending (hc ▸ hcl) (hs ▸ hst)
  balanced := h.balanced.congr (ha.holders h.hub.sorted)
  told := h.told

lemma Served.onMailbox {h : Hub} (hs : Served h) (id : Nat) {f : Mailbox → Nat → Mailbox × Nat}
    (hf : ∀ m busy, (f m busy).1.closed = m.closed) : Served (h.onMailbox id f) := by
  refine hs.alike (h.alike_onMailbox id f) (h.closed_onMailbox id f) fun j s s' hj hj' => ?_
  rw [Hub.get?_onMailbox] at hj'
  split_ifs at hj' with heq
  · rw [← heq, hj, Option.map_some, Option.some.injEq] at hj'
    rw [← hj']
    exact hf _ _
  · rw [hj, Option.some.injEq] at hj'
    rw [hj']

lemma Inv.onMailbox {p : Pipeline Simulated} (h : Inv p) (id : Nat)
    {f : Mailbox → Nat → Mailbox × Nat} (hf : ∀ m busy, (f m busy).1.closed = m.closed) :
    Inv { p with hub := p.hub.onMailbox id f } :=
  h.alike (p.hub.alike_onMailbox id f) (p.hub.closed_onMailbox id f) (p.hub.stopped_onMailbox id f)
    (h.served.onMailbox id hf)

lemma Inv.liveness {p : Pipeline Simulated} (h : Inv p) {id : Nat} {s : Subscription}
    (hs : p.hub.subscriptions.get? id = some s) (liveness : Liveness) :
    Inv { p with hub :=
      { p.hub with subscriptions := p.hub.subscriptions.set id { s with liveness } } } := by
  have ha : p.hub.Alike
      { p.hub with subscriptions := p.hub.subscriptions.set id { s with liveness } } :=
    Hub.alike_set { s with liveness } hs rfl p.hub.busy p.hub.closed
  refine h.alike ha rfl rfl (h.served.alike ha rfl fun j t t' hj hj' => ?_)
  rw [get?_set] at hj'
  split_ifs at hj' with heq
  · rw [heq, hs, Option.some.injEq] at hj
    rw [Option.some.injEq] at hj'
    rw [← hj', ← hj]
  · rw [hj, Option.some.injEq] at hj'
    rw [hj']

/-! ### Subscribers -/

lemma inv_subscribe {p : Pipeline Simulated} (h : Inv p) (r : Request) :
    Inv (p.subscribe r).2 := by
  rw [Pipeline.subscribe_snd, Pipeline.withDemand_eq]
  constructor
  · exact h.hub.add r
  · intro hopen id s hs
    have hopen : p.hub.closed = false := hopen
    rw [Hub.add_eq, get?_set] at hs
    split_ifs at hs with hid
    · rw [← Option.some.inj hs]
      simp [Hub.newcomer, hopen]
    · exact h.served hopen id s hs
  · exact h.single
  · exact h.ending
  · dsimp only
    exact (h.balanced.acquire r.requiredMask p.engine).congr (Hub.holders_add h.hub r)
  · dsimp only
    exact h.told.acquire r.requiredMask

lemma inv_unsubscribe {p : Pipeline Simulated} (h : Inv p) (id : Nat) : Inv (p.unsubscribe id) := by
  rcases hs : p.hub.subscriptions.get? id with _ | s
  · rw [Pipeline.unsubscribe_none hs]
    exact h
  have hsum := Hub.holders_remove h.hub hs
  rw [Pipeline.unsubscribe_some hs, Pipeline.withDemand_eq]
  constructor
  · exact h.hub.remove id
  · intro hopen j t ht
    have hopen : p.hub.closed = false := (p.hub.closed_remove id).symm.trans hopen
    rw [Hub.get?_remove] at ht
    split_ifs at ht
    exact h.served hopen j t ht
  · exact h.single
  · intro hc hst
    exact h.ending ((p.hub.closed_remove id).symm.trans hc)
      ((p.hub.stopped_remove id).symm.trans hst)
  · dsimp only
    refine (h.balanced.release s.mask p.engine fun i _ => ?_).congr fun i => ?_
    · have := hsum i
      omega
    · have := hsum i
      omega
  · dsimp only
    exact h.told.release s.mask

lemma inv_askLiveness {p q : Pipeline Simulated} (h : Inv p) {id : Nat}
    (hq : p.askLiveness id = some q) : Inv q := by
  unfold Pipeline.askLiveness at hq
  rcases hs : p.hub.subscriptions.get? id with _ | s
  · simp [hs] at hq
  · rcases hl : s.liveness with _ | handle | answer <;> simp only [hs, hl] at hq
    · cases hq
    · cases hq
      exact h.liveness hs _
    · cases hq

lemma inv_answerLiveness {p q : Pipeline Simulated} (h : Inv p) {id : Nat}
    (hq : p.answerLiveness id = some q) : Inv q := by
  have hfail : ∀ (e : DeliveryError) (m : Mailbox) (busy : Nat),
      (m.fail e busy).1.closed = m.closed := fun e m busy => by rw [Mailbox.fst_fail]
  unfold Pipeline.answerLiveness at hq
  rcases hs : p.hub.subscriptions.get? id with _ | s
  · simp [hs] at hq
  · rcases hl : s.liveness with _ | handle | answer <;> simp only [hs, hl] at hq
    · cases hq
    · cases hq
    · have hset := h.liveness hs .settled
      rcases answer with e | _ | _ <;> cases hq
      · exact hset.onMailbox id (hfail _)
      · exact hset.onMailbox id (hfail _)
      · exact hset

/-! ### The pump -/

lemma inv_leave {p : Pipeline Simulated} (h : Inv p) {source source' : Source} {phase : PumpPhase}
    (hp : p.pumps = [⟨source, phase⟩]) (result : Except DeliveryError Unit) :
    Inv (p.leave 0 source' result) where
  hub := p.hub.alike_close.wf h.hub
  served hopen := by
    have hclosed : (p.leave 0 source' result).hub.closed = true := p.hub.closed_close
    rw [hclosed] at hopen
    cases hopen
  single := by simp [Pipeline.leave, Pipeline.putPump, hp]
  ending _ _ := ⟨⟨(source'.stop p.engine).1, .leaving result⟩,
    by simp [Pipeline.leave, Pipeline.putPump, hp], rfl⟩
  balanced := h.balanced.congr (p.hub.alike_close.holders h.hub.sorted)
  told := h.told.congr (Source.undisturbed_stop source' p.engine).mask

lemma closed_of_turn {p : Pipeline Simulated} (h : Inv p) {source : Source} {phase : PumpPhase}
    (hp : p.pumps = [⟨source, phase⟩]) (hover : isOver ⟨source, phase⟩ = false)
    (hs : p.hub.stopped = false) : p.hub.closed = false := by
  rcases hc : p.hub.closed with _ | _
  · rfl
  · obtain ⟨pump, hpump, ho⟩ := h.ending hc hs
    rw [hp] at hpump
    rw [← List.singleton_inj.mp hpump, hover] at ho
    cases ho

lemma inv_turn {p q : Pipeline Simulated} (h : Inv p) {source : Source} {phase : PumpPhase}
    (hp : p.pumps = [⟨source, phase⟩]) (ht : Turn p source phase q) : Inv q := by
  have hput : ∀ pump : Pump, p.pumps.set 0 pump = [pump] := fun pump => by rw [hp]; rfl
  -- a pump that goes on has an open hub before it, unless delivery was told to stop
  have hgo : ∀ pump : Pump, isOver ⟨source, phase⟩ = false → (p.pumps.set 0 pump).length ≤ 1 ∧
      (p.hub.closed = true → p.hub.stopped = false →
        ∃ pump', p.pumps.set 0 pump = [pump'] ∧ isOver pump' = true) := fun pump ho => by
    refine ⟨by simp [hp], fun hc hs => ?_⟩
    rw [closed_of_turn h hp ho hs] at hc
    cases hc
  cases ht with
  | stopped hb hs => exact inv_leave h hp _
  | idle hs hb => exact h.congr rfl rfl rfl (hgo _ rfl)
  | unready hs hpoll =>
    have hspec := source.poll_spec p.engine
    rw [hpoll] at hspec
    exact h.congr rfl rfl hspec.2.1 (hgo _ rfl)
  | drained hs hpoll =>
    have hspec := source.poll_spec p.engine
    rw [hpoll] at hspec
    exact h.congr rfl rfl hspec.2.1 (hgo _ rfl)
  | @failed source' engine e hs hpoll =>
    have hspec := source.poll_spec p.engine
    rw [hpoll] at hspec
    have hmid : Inv ({ p with engine }.tell [.pumpFailed e]) :=
      h.congr rfl rfl hspec.2.1 h.pumps
    exact inv_leave hmid hp _
  | @dispatched batch =>
    -- a delivery fills mailboxes, and opens or closes none
    have ha := p.hub.alike_dispatch batch
    have hclosed : (p.hub.dispatch batch).closed = p.hub.closed := by
      rw [Hub.dispatch_eq, Hub.closed_onEach]
    have hstopped : (p.hub.dispatch batch).stopped = p.hub.stopped := by
      rw [Hub.dispatch_eq, Hub.stopped_onEach]
    have hserved : Served (p.hub.dispatch batch) :=
      h.served.alike ha hclosed fun id s s' hs hs' => by
        rw [Hub.get?_dispatch, hs, Option.map_some, Option.some.injEq] at hs'
        rw [← hs', Mailbox.closed_deliver]
    refine (h.alike ha hclosed hstopped hserved).congr rfl rfl rfl ?_
    show _ ∧ ((p.hub.dispatch batch).closed = true → (p.hub.dispatch batch).stopped = false → _)
    rw [hclosed, hstopped]
    exact hgo _ rfl
  | ended =>
    refine h.congr rfl rfl rfl ⟨?_, fun _ _ => ⟨_, hput _, rfl⟩⟩
    show (p.pumps.set 0 _).length ≤ 1
    simp [hp]

/-! ### Every step -/

lemma snd_run (p : Pipeline Simulated) : ∃ engine, p.engine.Undisturbed engine ∧
    (p.run.2 = { p with engine } ∨
      ∃ source, p.run.2 = { p with engine, pumps := p.pumps ++ [⟨source, .idling p.now⟩] }) := by
  have hopen := Source.undisturbed_open p.settings.mode p.engine
  unfold Pipeline.run
  rcases hr : Source.open p.settings.mode p.engine with ⟨_ | source, engine⟩ <;> rw [hr] at hopen
  · exact ⟨engine, hopen, Or.inl rfl⟩
  · exact ⟨engine, hopen, Or.inr ⟨source, rfl⟩⟩

lemma workerStep_eq {p q : Pipeline Simulated} {k : Nat} (h : p.workerStep k = some q) :
    ∃ pump source notices, p.pumps[k]? = some pump ∧
      q = (p.tell notices).putPump k { pump with source } := by
  unfold Pipeline.workerStep at h
  rcases hk : p.pumps[k]? with _ | pump
  · simp [hk] at h
  · simp only [hk, Option.map_eq_some_iff] at h
    obtain ⟨⟨source, engine, notices⟩, hturn, rfl⟩ := h
    have heng := Source.workerTurn_engine hturn
    subst heng
    exact ⟨pump, source, notices, rfl, rfl⟩

/-- **Every step keeps the invariant.** -/
theorem step_inv {p q : Pipeline Simulated} {note : Note} (h : Inv p) (hstep : Step p note q) :
    Inv q := by
  cases hstep with
  | call c => exact h.congr rfl rfl (c.mask_apply p.engine) h.pumps
  | subscribe r => exact inv_subscribe h r
  | receive id =>
    rw [Pipeline.pollSubscription_snd]
    exact h.onMailbox id fun m busy => (Mailbox.looked_poll m busy).closed
  | cancel id => exact h.onMailbox id fun m busy => rfl
  | unsubscribe id => exact inv_unsubscribe h id
  | stage mask =>
    rw [Pipeline.stage, Pipeline.withDemand_eq]
    refine ⟨h.hub, h.served, h.single, h.ending, ?_, ?_⟩
    · dsimp only
      exact h.balanced.stage mask p.engine
    · dsimp only
      exact h.told.stage mask
  | askLiveness hq => exact inv_askLiveness h hq
  | answerLiveness hq => exact inv_answerLiveness h hq
  | run hp =>
    -- a closed hub without a pump was told to stop
    have hclosed : p.hub.closed = true → p.hub.stopped = true := fun hc => by
      rcases hs : p.hub.stopped with _ | _
      · obtain ⟨pump, hpump, -⟩ := h.ending hc hs
        simp [hp] at hpump
      · rfl
    obtain ⟨engine, hund, heq | ⟨source, heq⟩⟩ := snd_run p <;> rw [heq]
    · exact h.congr rfl rfl hund.mask h.pumps
    · refine h.congr rfl rfl hund.mask ⟨by simp [hp], fun hc hs => ?_⟩
      rw [hclosed hc] at hs
      cases hs
  | pump hq =>
    rename_i k
    rcases hk : p.pumps[k]? with _ | ⟨source, phase⟩
    · simp [Pipeline.pumpStep, hk] at hq
    · obtain ⟨rfl, hp⟩ := pumps_eq h.single hk
      exact inv_turn h hp (turn_of_pumpStep hp hq)
  | worker hq =>
    obtain ⟨pump, source, notices, hk, rfl⟩ := workerStep_eq hq
    obtain ⟨rfl, hp⟩ := pumps_eq h.single hk
    refine h.congr rfl rfl rfl ⟨?_, fun hc hs => ⟨{ pump with source }, ?_, ?_⟩⟩
    · simp [Pipeline.putPump, Pipeline.tell, hp]
    · simp [Pipeline.putPump, Pipeline.tell, hp]
    · obtain ⟨pump', hpump, ho⟩ := h.ending hc hs
      rw [hp] at hpump
      rw [List.singleton_inj.mp hpump]
      exact ho
  | stall k =>
    unfold Pipeline.stall
    split
    · -- an idle pump looks at the clock again, and is not over
      rename_i source since hk
      obtain ⟨rfl, hp⟩ := pumps_eq h.single hk
      refine h.congr rfl rfl rfl ⟨by simp [Pipeline.putPump, Pipeline.tell, hp], fun hc hs => ?_⟩
      rw [closed_of_turn h hp rfl hs] at hc
      cases hc
    · exact h
  | stop =>
    have hasked : p.hub.Alike { p.hub with stopped := true } :=
      ⟨rfl, rfl, id, fun _ => rfl, fun _ _ => rfl⟩
    have ha : p.hub.Alike p.hub.stop := hasked.trans (Hub.alike_close _)
    refine ⟨ha.wf h.hub, fun hopen => ?_, h.single, fun _ hs => ?_,
      h.balanced.congr (ha.holders h.hub.sorted), h.told⟩
    · have hc : p.hub.stop.closed = true := Hub.closed_close _
      have hopen : p.hub.stop.closed = false := hopen
      rw [hc] at hopen
      cases hopen
    · have hst : p.hub.stop.stopped = true := Hub.stopped_close _
      have hs : p.hub.stop.stopped = false := hs
      rw [hst] at hs
      cases hs

lemma inv_assemble (settings : Settings) (engine : Simulated) :
    Inv (Pipeline.assemble settings engine) := by
  simp only [Pipeline.assemble, Pipeline.withDemand_eq]
  constructor
  · exact Hub.wf_empty
  · intro _ id s hs
    simp [get?, find] at hs
  · simp
  · simp
  · exact Demand.balanced_start settings.mask engine
  · exact Demand.told_push fun hne => absurd rfl hne

theorem run_inv {p q : Pipeline Simulated} {trace : List Note} (h : Inv p) (hrun : Run p trace q) :
    Inv q := by
  induction hrun with
  | nil => exact h
  | snoc _ hstep ih => exact step_inv ih hstep
  | aside => rename_i ih; exact ⟨ih.hub, ih.served, ih.single, ih.ending, ih.balanced, ih.told⟩

end TorrentFlow.Delivery
