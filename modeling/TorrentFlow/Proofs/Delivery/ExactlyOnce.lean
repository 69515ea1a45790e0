import TorrentFlow.Proofs.Delivery.Invariant

/-!
Every subscriber gets what its filter accepts, each alert once and in the order in which the engine
accepted them. What is carried from step to step is a sum: what a subscriber has got, what is in its
mailbox, and what its filter accepts of the batch in flight and of the engine's queue.
-/

namespace TorrentFlow.Delivery

open Table

/-- The subscriptions that are there in `q` were there in `p` if they are old enough, on the same
terms. As long as one does not fail, what it got and has still to see is what it had to see before,
and what its filter accepts of the alerts that came. -/
structure Carries (p q : Pipeline Simulated) (returned : Nat → List Alert) (accepted : List Alert) :
    Prop where
  nextId : p.hub.nextId ≤ q.hub.nextId
  stopped : q.hub.stopped = p.hub.stopped
  back : ∀ id s', q.hub.subscriptions.get? id = some s' → id < p.hub.nextId →
    ∃ s, p.hub.subscriptions.get? id = some s ∧ s.terms = s'.terms ∧
      (s'.mailbox.failure = none → s.mailbox.failure = none ∧
        returned id ++ outstanding q s' =
          outstanding p s ++ accepted.filter s.filter.accepts)

lemma Carries.refl (p : Pipeline Simulated) : Carries p p (fun _ => []) [] :=
  ⟨Nat.le_refl _, rfl, fun _ s hs _ => ⟨s, hs, rfl, fun hf => ⟨hf, by simp⟩⟩⟩

lemma Carries.trans {p q r : Pipeline Simulated} {ret ret' : Nat → List Alert}
    {acc acc' : List Alert} (h : Carries p q ret acc) (h' : Carries q r ret' acc') :
    Carries p r (fun id => ret id ++ ret' id) (acc ++ acc') where
  nextId := Nat.le_trans h.nextId h'.nextId
  stopped := h'.stopped.trans h.stopped
  back id s'' hs'' hid := by
    obtain ⟨s', hs', ht', hc'⟩ := h'.back id s'' hs'' (Nat.lt_of_lt_of_le hid h.nextId)
    obtain ⟨s, hs, ht, hc⟩ := h.back id s' hs' hid
    refine ⟨s, hs, ht.trans ht', fun hf => ?_⟩
    obtain ⟨hf', heq'⟩ := hc' hf
    obtain ⟨hf, heq⟩ := hc hf'
    have hfilter : s.filter = s'.filter := congrArg (fun t => t.1) ht
    refine ⟨hf, ?_⟩
    calc ret id ++ ret' id ++ outstanding r s''
        = ret id ++ (outstanding q s' ++ acc'.filter s'.filter.accepts) := by
          rw [List.append_assoc, heq']
      _ = outstanding p s ++ acc.filter s.filter.accepts ++ acc'.filter s.filter.accepts := by
          rw [← List.append_assoc, heq, hfilter]
      _ = outstanding p s ++ (acc ++ acc').filter s.filter.accepts := by
          rw [List.append_assoc, List.filter_append]

/-! ### Steps that hand nothing out -/

lemma carries_of_hub_eq {p q : Pipeline Simulated} {acc : List Alert} (hh : q.hub = p.hub)
    (hu : undelivered q = undelivered p ++ acc) : Carries p q (fun _ => []) acc where
  nextId := by rw [hh]
  stopped := by rw [hh]
  back id s hs _ := by
    rw [hh] at hs
    refine ⟨s, hs, rfl, fun hf => ⟨hf, ?_⟩⟩
    simp [outstanding, hu]

lemma carries_of_alike {p : Pipeline Simulated} {hub : Hub} {ret : Nat → List Alert}
    (ha : p.hub.Alike hub) (hst : hub.stopped = p.hub.stopped)
    (hm : ∀ id s s', p.hub.subscriptions.get? id = some s → hub.subscriptions.get? id = some s' →
      s'.mailbox.failure = none →
      s.mailbox.failure = none ∧ ret id ++ s'.mailbox.queue = s.mailbox.queue) :
    Carries p { p with hub } ret [] where
  nextId := Nat.le_of_eq ha.nextId.symm
  stopped := hst
  back id s' hs' _ := by
    obtain ⟨s, hs, ht⟩ := ha.back hs'
    have hfilter : s.filter = s'.filter := congrArg (fun t => t.1) ht
    refine ⟨s, hs, ht, fun hf => ?_⟩
    obtain ⟨hf, hq⟩ := hm id s s' hs hs' hf
    refine ⟨hf, ?_⟩
    rw [List.filter_nil, List.append_nil, outstanding, ← List.append_assoc, hq, ← hfilter]
    rfl

lemma carries_onMailbox {p : Pipeline Simulated} {id : Nat} {f : Mailbox → Nat → Mailbox × Nat}
    {ret : Nat → List Alert} (hret : ∀ j, j ≠ id → ret j = [])
    (hf : ∀ s, p.hub.subscriptions.get? id = some s →
      (f s.mailbox p.hub.busy).1.failure = none → s.mailbox.failure = none ∧
        ret id ++ (f s.mailbox p.hub.busy).1.queue = s.mailbox.queue) :
    Carries p { p with hub := p.hub.onMailbox id f } ret [] := by
  refine carries_of_alike (p.hub.alike_onMailbox id f) (p.hub.stopped_onMailbox id f) ?_
  intro j s s' hs hs' hfail
  rw [Hub.get?_onMailbox] at hs'
  split_ifs at hs' with hj
  · subst hj
    rw [hs, Option.map_some, Option.some.injEq] at hs'
    rw [← hs'] at hfail ⊢
    exact hf s hs hfail
  · rw [hs, Option.some.injEq] at hs'
    rw [← hs'] at hfail ⊢
    exact ⟨hfail, by rw [hret j hj, List.nil_append]⟩

lemma carries_liveness {p : Pipeline Simulated} {id : Nat} {s : Subscription}
    (hs : p.hub.subscriptions.get? id = some s) (liveness : Liveness) :
    Carries p { p with hub :=
      { p.hub with subscriptions := p.hub.subscriptions.set id { s with liveness } } }
      (fun _ => []) [] := by
  refine carries_of_alike (Hub.alike_set { s with liveness } hs rfl _ _) rfl ?_
  intro j t t' hj hj' hf
  rw [get?_set] at hj'
  split_ifs at hj' with heq
  · rw [heq, hs, Option.some.injEq] at hj
    rw [Option.some.injEq] at hj'
    rw [← hj'] at hf ⊢
    rw [← hj]
    exact ⟨hf, rfl⟩
  · rw [hj, Option.some.injEq] at hj'
    rw [← hj'] at hf ⊢
    exact ⟨hf, rfl⟩

/-! ### Subscribers -/

lemma carries_subscribe {p : Pipeline Simulated} (r : Request) :
    Carries p (p.subscribe r).2 (fun _ => []) [] := by
  have hhub : (p.subscribe r).2.hub = (p.hub.add r).2 := p.hub_subscribe r
  refine ⟨?_, ?_, fun id s hs hid => ⟨s, ?_, rfl, fun hf => ⟨hf, ?_⟩⟩⟩
  · rw [hhub]
    exact Nat.le_succ _
  · rw [hhub]
    rfl
  · rw [hhub, Hub.add_eq, get?_set, if_neg (Nat.ne_of_lt hid)] at hs
    exact hs
  · simp [outstanding, undelivered_subscribe]

lemma carries_unsubscribe {p : Pipeline Simulated} (id : Nat) :
    Carries p (p.unsubscribe id) (fun _ => []) [] := by
  rcases hs : p.hub.subscriptions.get? id with _ | s
  · rw [Pipeline.unsubscribe_none hs]
    exact Carries.refl p
  have hhub : (p.unsubscribe id).hub = p.hub.remove id := by rw [Pipeline.unsubscribe_some hs]
  refine ⟨?_, ?_, fun j t ht _ => ⟨t, ?_, rfl, fun hf => ⟨hf, ?_⟩⟩⟩
  · rw [hhub, Hub.nextId_remove]
  · rw [hhub, Hub.stopped_remove]
  · rw [hhub, Hub.get?_remove] at ht
    split_ifs at ht
    exact ht
  · simp [outstanding, undelivered_unsubscribe]

lemma carries_answerLiveness {p q : Pipeline Simulated} {id : Nat}
    (hq : p.answerLiveness id = some q) : Carries p q (fun _ => []) [] := by
  unfold Pipeline.answerLiveness at hq
  rcases hs : p.hub.subscriptions.get? id with _ | s
  · simp [hs] at hq
  · rcases hl : s.liveness with _ | handle | answer <;> simp only [hs, hl] at hq
    · cases hq
    · cases hq
    · have hset := carries_liveness hs .settled
      -- a subscription that fails here is none of those that are to be accounted for
      have hfail : ∀ e : DeliveryError, Carries p { p with hub :=
          { p.hub with subscriptions :=
            p.hub.subscriptions.set id { s with liveness := .settled } }.fail id e }
          (fun _ => []) [] := fun e => by
        refine hset.trans (carries_onMailbox (fun _ _ => rfl) fun t ht hf => ?_)
        rw [Mailbox.fst_fail] at hf
        rcases t.mailbox.failure with _ | e' <;> simp at hf
      rcases answer with e | _ | _ <;> cases hq
      · exact hfail _
      · exact hfail _
      · exact hset

/-! ### The pump -/

/-- The pump comes to its end: what was queued in the mailboxes stays there. -/
lemma carries_leave {p : Pipeline Simulated} (h : Inv p) {source source' : Source}
    {phase : PumpPhase} (hp : p.pumps = [⟨source, phase⟩])
    (hb : (Pump.mk source phase).batch = []) (result : Except DeliveryError Unit) :
    Carries p (p.leave 0 source' result) (fun _ => []) [] := by
  have hclose : Carries p { p with hub := p.hub.close } (fun _ => []) [] := by
    refine carries_of_alike p.hub.alike_close p.hub.stopped_close fun id s s' hs hs' hf => ?_
    rw [Hub.get?_close h.hub.sorted, hs, Option.map_some, Option.some.injEq] at hs'
    rw [← hs'] at hf ⊢
    by_cases hl : s.listed = true
    · simp only [hl, if_true, Mailbox.fst_close] at hf ⊢
      exact ⟨hf, rfl⟩
    · rw [if_neg hl] at hf ⊢
      exact ⟨hf, rfl⟩
  have hund := Source.undisturbed_stop source' p.engine
  have hpumps : (p.leave 0 source' result).pumps =
      [⟨(source'.stop p.engine).1, .leaving result⟩] := by
    simp [Pipeline.leave, Pipeline.putPump, hp]
  refine hclose.trans (carries_of_hub_eq rfl ?_)
  rw [List.append_nil]
  refine undelivered_of_pump _ hp hpumps ?_
  rw [hb]
  exact hund.queue

/-- **A batch reaches every mailbox as what the filter accepts of it.** -/
lemma carries_dispatch {p : Pipeline Simulated} (h : Inv p) {source : Source} {batch : List Alert}
    (hp : p.pumps = [⟨source, .holding batch⟩]) (hs : p.hub.stopped = false)
    {q : Pipeline Simulated} {since : Nat} (hhub : q.hub = p.hub.dispatch batch)
    (hengine : q.engine = p.engine) (hq : q.pumps = [⟨source, .idling since⟩]) :
    Carries p q (fun _ => []) [] where
  nextId := by
    rw [hhub]
    exact Nat.le_of_eq (p.hub.alike_dispatch batch).nextId.symm
  stopped := by rw [hhub, Hub.dispatch_eq, Hub.stopped_onEach]
  back id s' hs' _ := by
    rw [hhub, Hub.get?_dispatch] at hs'
    obtain ⟨s, hget, rfl⟩ := Option.map_eq_some_iff.mp hs'
    refine ⟨s, hget, rfl, fun hf => ?_⟩
    rw [Mailbox.failure_deliver] at hf
    refine ⟨hf, ?_⟩
    obtain ⟨hl, hc⟩ := h.served (closed_of_turn h hp rfl hs) id s hget
    have hu : undelivered p = batch ++ p.engine.queue := by
      simp [undelivered, inFlight, hp, Pump.batch]
    have hu' : undelivered q = p.engine.queue := by
      simp [undelivered, inFlight, hq, Pump.batch, hengine]
    simp only [outstanding, hu, hu', Mailbox.queue_deliver hf hc, h.hub.slice_route hget hl,
      List.filter_append, List.filter_nil, List.append_nil, List.nil_append, List.append_assoc]

lemma carries_turn {p q : Pipeline Simulated} (h : Inv p) {source : Source} {phase : PumpPhase}
    (hp : p.pumps = [⟨source, phase⟩]) (hs : p.hub.stopped = false) (ht : Turn p source phase q) :
    Carries p q (fun _ => []) [] := by
  have hput : ∀ pump : Pump, p.pumps.set 0 pump = [pump] := fun pump => by rw [hp]; rfl
  cases ht with
  | stopped _ hst =>
    rw [hs] at hst
    cases hst
  | idle =>
    refine carries_of_hub_eq rfl ?_
    rw [List.append_nil]
    exact undelivered_of_pump _ hp (hput _) rfl
  | unready _ hpoll =>
    have hspec := (source.poll_spec p.engine).1
    rw [hpoll] at hspec
    refine carries_of_hub_eq rfl ?_
    rw [List.append_nil]
    exact undelivered_of_pump _ hp (hput _) hspec
  | drained _ hpoll =>
    have hspec := (source.poll_spec p.engine).1
    rw [hpoll] at hspec
    refine carries_of_hub_eq rfl ?_
    rw [List.append_nil]
    exact undelivered_of_pump _ hp (hput _) hspec
  | @failed source' engine e _ hpoll =>
    have hspec := source.poll_spec p.engine
    rw [hpoll] at hspec
    have hmid : Inv ({ p with engine }.tell [.pumpFailed e]) :=
      h.congr rfl rfl hspec.2.1 h.pumps
    -- a failing pop leaves the queue where it is, and then the pump leaves
    have hfirst : Carries p ({ p with engine }.tell [.pumpFailed e]) (fun _ => []) [] := by
      refine carries_of_hub_eq rfl ?_
      rw [List.append_nil]
      exact undelivered_of_pump _ hp hp (congrArg _ hspec.1)
    exact hfirst.trans (carries_leave hmid hp rfl _)
  | dispatched => exact carries_dispatch h hp hs rfl rfl (hput _)
  | ended =>
    refine carries_of_hub_eq rfl ?_
    rw [List.append_nil]
    exact undelivered_of_pump _ hp (hput _) rfl

/-! ### Every step -/

/-- **Every step carries what a subscription is owed**, unless it stops delivery. -/
theorem step_carries {p q : Pipeline Simulated} {note : Note} (h : Inv p)
    (hs : p.hub.stopped = false) (hn : note ≠ .stopped) (hstep : Step p note q) :
    Carries p q (fun id => note.returned id) note.accepted := by
  cases hstep with
  | call c =>
    refine carries_of_hub_eq rfl ?_
    simp [undelivered, inFlight, c.queue_apply, Note.accepted]
  | subscribe r => exact carries_subscribe r
  | receive id =>
    rw [Pipeline.pollSubscription_snd]
    refine carries_onMailbox (fun j hj => if_neg (Ne.symm hj)) fun s hget hf => ?_
    have hl := Mailbox.looked_poll s.mailbox p.hub.busy
    refine ⟨hl.failure ▸ hf, ?_⟩
    have hanswer : (p.pollSubscription id).1 = (s.mailbox.poll p.hub.busy).1 := by
      rw [Pipeline.pollSubscription_fst, Hub.poll_fst, hget]
      rfl
    simp only [Note.returned, if_true, hanswer]
    exact hl.queue.symm
  | cancel id => exact carries_onMailbox (fun _ _ => rfl) fun s _ hf => ⟨hf, rfl⟩
  | unsubscribe id => exact carries_unsubscribe id
  | stage mask =>
    refine carries_of_hub_eq (hub_stage p mask) ?_
    rw [Note.accepted_quiet, List.append_nil, undelivered_stage]
  | askLiveness hq =>
    rename_i id
    unfold Pipeline.askLiveness at hq
    rcases hget : p.hub.subscriptions.get? id with _ | s
    · simp [hget] at hq
    · rcases hl : s.liveness with _ | handle | answer <;> simp only [hget, hl] at hq
      · cases hq
      · cases hq
        exact carries_liveness hget _
      · cases hq
  | answerLiveness hq => exact carries_answerLiveness hq
  | run hp =>
    obtain ⟨engine, hund, heq | ⟨source, heq⟩⟩ := snd_run p <;> rw [heq]
    · refine carries_of_hub_eq rfl ?_
      simp [undelivered, inFlight, hund.queue, Note.accepted]
    · refine carries_of_hub_eq rfl ?_
      simp [undelivered, inFlight, hp, hund.queue, Note.accepted, Pump.batch]
  | pump hq =>
    rename_i k
    rcases hk : p.pumps[k]? with _ | ⟨source, phase⟩
    · simp [Pipeline.pumpStep, hk] at hq
    · obtain ⟨rfl, hp⟩ := pumps_eq h.single hk
      exact carries_turn h hp hs (turn_of_pumpStep hp hq)
  | worker hq =>
    obtain ⟨pump, source, notices, hk, rfl⟩ := workerStep_eq hq
    obtain ⟨rfl, hp⟩ := pumps_eq h.single hk
    refine carries_of_hub_eq rfl ?_
    rw [Note.accepted_quiet, List.append_nil]
    refine undelivered_of_pump { pump with source } hp ?_ rfl
    simp [Pipeline.putPump, Pipeline.tell, hp]
  | stall k =>
    unfold Pipeline.stall
    split
    · rename_i source since hk
      obtain ⟨rfl, hp⟩ := pumps_eq h.single hk
      refine carries_of_hub_eq rfl ?_
      rw [Note.accepted_quiet, List.append_nil]
      refine undelivered_of_pump ⟨source, .idling p.now⟩ hp ?_ rfl
      simp [Pipeline.putPump, Pipeline.tell, hp]
    · exact Carries.refl p
  | stop => exact absurd rfl hn

theorem run_carries {p q : Pipeline Simulated} {trace : List Note} (h : Inv p)
    (hs : p.hub.stopped = false) (hn : Note.stopped ∉ trace) (hrun : Run p trace q) :
    Carries p q (fun id => trace.flatMap (Note.returned id)) (trace.flatMap Note.accepted) := by
  induction hrun with
  | nil => exact Carries.refl _
  | @snoc q r trace note hrun hstep ih =>
    simp only [List.mem_append, List.mem_singleton, not_or] at hn
    have hc := ih hn.1
    have hstep := step_carries (run_inv h hrun) (hc.stopped.trans hs) (Ne.symm hn.2) hstep
    simpa using hc.trans hstep
  | aside _ windows readers waiters nextScope janitor now notices ih =>
    obtain ⟨hid, hst, hback⟩ := ih hn
    exact ⟨hid, hst, hback⟩

/-! ### What the mask lets through -/

/-- The engine emits every category that a subscription holds. -/
lemma Inv.has_mask {p : Pipeline Simulated} (h : Inv p) {id : Nat} {s : Subscription}
    (hs : p.hub.subscriptions.get? id = some s) {i : Nat} (hi : s.mask.has i = true) :
    p.engine.mask.has i = true :=
  h.balanced.has_mask h.told (Category.lt_of_has hi)
    (count_pos (f := fun s : Subscription => s.mask.has i) hs hi)

lemma step_dropped {p q : Pipeline Simulated} {note : Note} (h : Inv p) (hstep : Step p note q)
    {id : Nat} {s : Subscription} (hs : p.hub.subscriptions.get? id = some s) {r : Request}
    (hk : r.kinds ≠ []) (hm : s.mask = r.requiredMask) :
    ∀ a ∈ note.dropped, r.filter.accepts a = false := by
  intro a ha
  rcases note with ⟨engine, c⟩ | _ | _ | _ | _
  · obtain rfl : engine = p.engine := by cases hstep; rfl
    by_contra hacc
    have hpass := Request.intersects_of_accepts hk (fun i hi => h.has_mask hs (hm ▸ hi))
      (Bool.not_eq_false _ ▸ hacc)
    simp [Note.dropped, Simulated.accepts, hpass] at ha
  all_goals simp [Note.dropped] at ha

lemma run_dropped {p q : Pipeline Simulated} {trace : List Note} (h : Inv p)
    (hst : p.hub.stopped = false) (hn : Note.stopped ∉ trace) (hrun : Run p trace q) {id : Nat}
    (hid : id < p.hub.nextId) {s : Subscription} (hs : q.hub.subscriptions.get? id = some s)
    {r : Request} (hk : r.kinds ≠ []) (hm : s.mask = r.requiredMask) :
    ∀ a ∈ trace.flatMap Note.dropped, r.filter.accepts a = false := by
  induction hrun generalizing s with
  | nil => simp
  | @snoc q₁ q₂ trace note hrun hstep ih =>
    simp only [List.mem_append, List.mem_singleton, not_or] at hn
    have hinv := run_inv h hrun
    have hc := run_carries h hst hn.1 hrun
    have hc' := step_carries hinv (hc.stopped.trans hst) (Ne.symm hn.2) hstep
    obtain ⟨s₁, hs₁, ht, -⟩ := hc'.back id s hs (Nat.lt_of_lt_of_le hid hc.nextId)
    have hm₁ : s₁.mask = r.requiredMask := (congrArg (fun t => t.2.1) ht).trans hm
    intro a ha
    rw [List.flatMap_append, List.mem_append] at ha
    rcases ha with ha | ha
    · exact ih hn.1 hs₁ hm₁ a ha
    · rw [List.flatMap_singleton] at ha
      exact step_dropped hinv hstep hs₁ hk hm₁ a ha
  | aside _ windows readers waiters nextScope janitor now notices ih => exact ih hn hs hm

/-! ### Delivery from end to end -/

/-- **Exactly once and in order**: as long as delivery is not stopped, a subscription that has not
failed has got, or has in its mailbox, or is still to see, what its filter accepts of the alerts
that were undelivered when it was made and of those that the engine accepted since, in that order.
If it was made for certain kinds, the engine's mask holds none of them back. What was undelivered is
the batch that was in flight and then the engine's queue: the queue alone would not do, as the last
run below shows. -/
theorem exactly_once {settings : Settings} {engine : Simulated} {p q : Pipeline Simulated}
    {before after : List Note} {r : Request} {s : Subscription}
    (hbefore : Run (Pipeline.assemble settings engine) before p)
    (hafter : Run (p.subscribe r).2 after q) (hstop : Note.stopped ∉ before ++ after)
    (hs : q.hub.subscriptions.get? (p.subscribe r).1 = some s) (hf : s.mailbox.failure = none) :
    s.filter = r.filter ∧
      after.flatMap (Note.returned (p.subscribe r).1) ++ s.mailbox.queue ++
          (inFlight q ++ q.engine.queue).filter r.filter.accepts =
        (inFlight p ++ p.engine.queue ++ after.flatMap Note.accepted).filter r.filter.accepts ∧
      (r.kinds ≠ [] → ∀ a ∈ after.flatMap Note.dropped, r.filter.accepts a = false) := by
  simp only [List.mem_append, not_or] at hstop
  have hstart := inv_assemble settings engine
  have hp := run_inv hstart hbefore
  have hstp : p.hub.stopped = false :=
    (run_carries hstart rfl hstop.1 hbefore).stopped.trans rfl
  have hp' := inv_subscribe hp r
  rw [Pipeline.subscribe_fst] at hs ⊢
  have hid : p.hub.nextId < (p.subscribe r).2.hub.nextId := by
    rw [Pipeline.subscribe_snd]
    exact Nat.lt_succ_self _
  have hst : (p.subscribe r).2.hub.stopped = false := by
    rw [Pipeline.subscribe_snd]
    exact hstp
  have hc := run_carries hp' hst hstop.2 hafter
  obtain ⟨s₀, hs₀, ht, hsum⟩ := hc.back _ s hs hid
  -- the subscription is still the one that was made for the request
  obtain rfl : p.hub.newcomer r = s₀ := by
    rw [Pipeline.subscribe_snd, Hub.add_eq, get?_set, if_pos rfl, Option.some.injEq] at hs₀
    exact hs₀
  have hfilter : r.filter = s.filter := congrArg (fun t => t.1) ht
  have hmask : s.mask = r.requiredMask := (congrArg (fun t => t.2.1) ht).symm
  refine ⟨hfilter.symm, ?_, fun hk => run_dropped hp' hst hstop.2 hafter hid hs hk hmask⟩
  obtain ⟨-, hsum⟩ := hsum hf
  have hempty : (p.hub.newcomer r).mailbox.queue = [] := by
    unfold Hub.newcomer
    by_cases hc : p.hub.closed = true <;> simp [hc, Mailbox.shut]
  have hnew : (p.hub.newcomer r).filter = r.filter := rfl
  rw [outstanding, outstanding, hempty, List.nil_append, undelivered_subscribe,
    ← List.append_assoc, ← hfilter, hnew,
    ← List.filter_append] at hsum
  exact hsum

lemma get?_eq_getD {t : Table Nat Subscription} {id : Nat} (h : (t.get? id).isSome = true)
    (s : Subscription) : t.get? id = some ((t.get? id).getD s) := by
  rw [← Option.get_eq_getD _ (h := h), Option.some_get]

/-- A log line, from the engine to the one who asked for it. -/
theorem exactly_once_log : ∃ (p q : Pipeline Simulated) (r : Request) (after : List Note)
    (s : Subscription), Run (Pipeline.assemble {} {}) [.quiet] p ∧
    Run (p.subscribe r).2 after q ∧ Note.stopped ∉ [.quiet] ++ after ∧
    q.hub.subscriptions.get? (p.subscribe r).1 = some s ∧ s.mailbox.failure = none ∧
    after.flatMap (Note.returned (p.subscribe r).1) = [.log "up"] ∧
    after.flatMap (Note.returned (p.subscribe r).1) ++ s.mailbox.queue ++
        (inFlight q ++ q.engine.queue).filter r.filter.accepts =
      (inFlight p ++ p.engine.queue ++ after.flatMap Note.accepted).filter r.filter.accepts := by
  let r : Request := { kinds := [.log] }
  let p := (Pipeline.assemble {} ({} : Simulated)).run.2
  let p₀ := (p.subscribe r).2
  -- a line is logged, and the pump takes its three steps with it
  let p₁ : Pipeline Simulated := { p₀ with engine := (EngineCall.log "up").apply p₀.engine }
  let p₂ := (p₁.pumpStep 0).getD p₁
  let p₃ := (p₂.pumpStep 0).getD p₂
  let p₄ := (p₃.pumpStep 0).getD p₃
  let q := (p₄.pollSubscription 0).2
  let s := (q.hub.subscriptions.get? 0).getD (q.hub.newcomer r)
  have hbefore : Run (Pipeline.assemble {} {}) [.quiet] p := .one (.run (by decide +kernel))
  have hafter : Run p₀ ([.called p₀.engine (.log "up")] ++ [.quiet] ++ [.quiet] ++
      [.quiet] ++ [.received 0 (p₄.pollSubscription 0).1]) q :=
    ((((Run.one (.call p₀ (.log "up"))).snoc (step_pumpStep p₁ (by decide +kernel))).snoc
      (step_pumpStep p₂ (by decide +kernel))).snoc
      (step_pumpStep p₃ (by decide +kernel))).snoc (.receive p₄ 0)
  have hstop : Note.stopped ∉ [.quiet] ++ ([.called p₀.engine (.log "up")] ++ [.quiet] ++
      [.quiet] ++ [.quiet] ++ [.received 0 (p₄.pollSubscription 0).1]) := by simp
  have hid : (p.subscribe r).1 = 0 := by decide +kernel
  have hsome : (q.hub.subscriptions.get? 0).isSome = true := by decide +kernel
  have hget : q.hub.subscriptions.get? (p.subscribe r).1 = some s :=
    hid.symm ▸ get?_eq_getD hsome (q.hub.newcomer r)
  have hf : s.mailbox.failure = none := by decide +kernel
  exact ⟨p, q, r, _, s, hbefore, hafter, hstop, hget, hf, by decide +kernel,
    (exactly_once hbefore hafter hstop hget hf).2.1⟩

/-- A subscription made between the popping of a batch and its dispatch gets an alert that was
popped before it was there, and that is neither in the engine's queue then nor accepted later. -/
theorem batch_in_flight_uncounted : ∃ (p q : Pipeline Simulated) (r : Request)
    (before after : List Note) (s : Subscription), Run (Pipeline.assemble {} {}) before p ∧
    Run (p.subscribe r).2 after q ∧ Note.stopped ∉ before ++ after ∧
    q.hub.subscriptions.get? (p.subscribe r).1 = some s ∧ s.mailbox.failure = none ∧
    after.flatMap (Note.returned (p.subscribe r).1) ++ s.mailbox.queue ++
        (inFlight q ++ q.engine.queue).filter r.filter.accepts = [.log "up"] ∧
    (p.engine.queue ++ after.flatMap Note.accepted).filter r.filter.accepts = [] := by
  let r : Request := { kinds := [.log] }
  let p₀ := (Pipeline.assemble {} ({} : Simulated)).run.2
  -- a first subscription has the engine let log lines through
  let p₁ := (p₀.subscribe r).2
  let p₂ : Pipeline Simulated := { p₁ with engine := (EngineCall.log "up").apply p₁.engine }
  let p₃ := (p₂.pumpStep 0).getD p₂
  -- the pump has popped the line and holds it
  let p := (p₃.pumpStep 0).getD p₃
  let p₄ := (p.subscribe r).2
  let q := (p₄.pumpStep 0).getD p₄
  let s := (q.hub.subscriptions.get? 1).getD (q.hub.newcomer r)
  have hbefore : Run (Pipeline.assemble {} {}) ([.quiet] ++ [.quiet] ++
      [.called p₁.engine (.log "up")] ++ [.quiet] ++ [.quiet]) p :=
    ((((Run.one (.run (by decide +kernel))).snoc (.subscribe p₀ r)).snoc
      (.call p₁ (.log "up"))).snoc
      (step_pumpStep p₂ (by decide +kernel))).snoc (step_pumpStep p₃ (by decide +kernel))
  have hafter : Run p₄ [.quiet] q := .one (step_pumpStep p₄ (by decide +kernel))
  have hid : (p.subscribe r).1 = 1 := by decide +kernel
  have hsome : (q.hub.subscriptions.get? 1).isSome = true := by decide +kernel
  have hget : q.hub.subscriptions.get? (p.subscribe r).1 = some s :=
    hid.symm ▸ get?_eq_getD hsome (q.hub.newcomer r)
  have hlate : (p.engine.queue ++ ([.quiet] : List Note).flatMap Note.accepted).filter
      r.filter.accepts = [] := by decide +kernel
  exact ⟨p, q, r, _, _, s, hbefore, hafter, by simp, hget, by decide +kernel, by decide +kernel,
    hlate⟩

end TorrentFlow.Delivery
