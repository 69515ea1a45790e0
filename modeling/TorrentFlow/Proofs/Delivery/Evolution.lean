import TorrentFlow.Proofs.Delivery.Invariant
import TorrentFlow.Proofs.Torrents

/-!
What may become of a subscription in one step, whatever the step is and whether or not delivery is
being stopped: its terms stay, its mailbox gets only what its filter accepts of what was
undelivered, and it fails only by being told that its torrent is gone.
-/

namespace TorrentFlow.Delivery

open Table

/-- How a mailbox and what is known of the torrent may change. -/
inductive Fate (engine : Simulated) (s s' : Subscription) : Prop
  | same (hl : s'.liveness = s.liveness) (hf : s'.mailbox.failure = s.mailbox.failure)
  | asked {h : Handle} (hl : s.liveness = .unasked h)
      (hl' : s'.liveness = .answered (.ok (engine.torrent? h).isSome))
      (hf : s'.mailbox.failure = s.mailbox.failure)
  | found (hl : s.liveness = .answered (.ok true)) (hl' : s'.liveness = .settled)
      (hf : s'.mailbox.failure = s.mailbox.failure)
  | missed (hl : s.liveness = .answered (.ok false)) (hl' : s'.liveness = .settled)
      (hf : s'.mailbox.failure = s.mailbox.failure.or (some .handleInvalid))
  | refused {e : EngineError} (hl : s.liveness = .answered (.error e))
      (hl' : s'.liveness = .settled)
      (hf : s'.mailbox.failure = s.mailbox.failure.or (some (.ofEngine e)))

/-- What a subscription may become. -/
structure Grown (p : Pipeline Simulated) (s s' : Subscription) : Prop where
  terms : s'.terms = s.terms
  queue : ∀ a ∈ s'.mailbox.queue,
    a ∈ s.mailbox.queue ∨ (a ∈ undelivered p ∧ s.filter.accepts a = true)
  fate : Fate p.engine s s'

structure Fresh (s : Subscription) : Prop where
  queue : s.mailbox.queue = []
  failure : s.mailbox.failure = none
  liveness : s.liveness = .settled ∨ ∃ h, s.filter.handle = some h ∧ s.liveness = .unasked h

/-- What a step may do to the subscriptions. -/
structure Evolves (p q : Pipeline Simulated) (note : Note) : Prop where
  nextId : p.hub.nextId ≤ q.hub.nextId
  undelivered : ∀ a ∈ undelivered q, a ∈ undelivered p ∨ a ∈ note.accepted
  kept : ∀ id s, p.hub.subscriptions.get? id = some s → note ≠ .left id →
    ∃ s', q.hub.subscriptions.get? id = some s'
  grown : ∀ id s s', p.hub.subscriptions.get? id = some s → q.hub.subscriptions.get? id = some s' →
    Grown p s s'
  new : ∀ id s', q.hub.subscriptions.get? id = some s' → p.hub.subscriptions.get? id = none →
    p.hub.nextId ≤ id ∧ Fresh s'

lemma Fate.congr {engine engine' : Simulated} {s s' : Subscription} (h : Fate engine' s s')
    (he : ∀ g, engine'.torrent? g = engine.torrent? g) : Fate engine s s' := by
  cases h with
  | same hl hf => exact .same hl hf
  | asked hl hl' hf => exact .asked hl (he _ ▸ hl') hf
  | found hl hl' hf => exact .found hl hl' hf
  | missed hl hl' hf => exact .missed hl hl' hf
  | refused hl hl' hf => exact .refused hl hl' hf

lemma Grown.refl (p : Pipeline Simulated) (s : Subscription) : Grown p s s :=
  ⟨rfl, fun _ h => Or.inl h, .same rfl rfl⟩

lemma evolves_of_hub_eq {p q : Pipeline Simulated} {note : Note} (hh : q.hub = p.hub)
    (hu : ∀ a ∈ undelivered q, a ∈ undelivered p ∨ a ∈ note.accepted) : Evolves p q note where
  nextId := by rw [hh]
  undelivered := hu
  kept id s hs _ := ⟨s, hh ▸ hs⟩
  grown id s s' hs hs' := by
    rw [hh, hs, Option.some.injEq] at hs'
    exact hs' ▸ Grown.refl p s
  new id s' hs' hs := by
    rw [hh, hs] at hs'
    cases hs'

lemma evolves_of_alike {p q : Pipeline Simulated} {note : Note} (ha : p.hub.Alike q.hub)
    (hu : ∀ a ∈ undelivered q, a ∈ undelivered p ∨ a ∈ note.accepted)
    (hg : ∀ id s s', p.hub.subscriptions.get? id = some s →
      q.hub.subscriptions.get? id = some s' →
        (∀ a ∈ s'.mailbox.queue,
          a ∈ s.mailbox.queue ∨ (a ∈ undelivered p ∧ s.filter.accepts a = true)) ∧
        Fate p.engine s s') : Evolves p q note where
  nextId := Nat.le_of_eq ha.nextId.symm
  undelivered := hu
  kept id s hs _ := by
    have ht := ha.terms id
    rw [hs] at ht
    rcases hq : q.hub.subscriptions.get? id with _ | s'
    · rw [hq] at ht
      cases ht
    · exact ⟨s', rfl⟩
  grown id s s' hs hs' := by
    have ht := ha.terms id
    rw [hs, hs'] at ht
    obtain ⟨hqueue, hfate⟩ := hg id s s' hs hs'
    exact ⟨Option.some.inj ht, hqueue, hfate⟩
  new id s' hs' hs := by
    obtain ⟨s, hget, -⟩ := ha.back hs'
    rw [hs] at hget
    cases hget

lemma evolves_onMailbox {p : Pipeline Simulated} {note : Note} (id : Nat)
    {f : Mailbox → Nat → Mailbox × Nat}
    (hf : ∀ m busy, (f m busy).1.failure = m.failure ∧ ∀ a ∈ (f m busy).1.queue, a ∈ m.queue) :
    Evolves p { p with hub := p.hub.onMailbox id f } note := by
  refine evolves_of_alike (p.hub.alike_onMailbox id f) (fun a ha => Or.inl ha)
    fun j s s' hs hs' => ?_
  rw [Hub.get?_onMailbox] at hs'
  split_ifs at hs' with hj
  · rw [← hj, hs, Option.map_some, Option.some.injEq] at hs'
    obtain ⟨hfail, hqueue⟩ := hf s.mailbox p.hub.busy
    rw [← hs']
    exact ⟨fun a ha => Or.inl (hqueue a ha), .same rfl hfail⟩
  · rw [hs, Option.some.injEq] at hs'
    rw [hs']
    exact ⟨fun a ha => Or.inl ha, .same rfl rfl⟩

/-! ### Subscribers -/

lemma evolves_subscribe {p : Pipeline Simulated} (h : Inv p) (r : Request) :
    Evolves p (p.subscribe r).2 .quiet := by
  have hhub : (p.subscribe r).2.hub = (p.hub.add r).2 := p.hub_subscribe r
  have hget : ∀ id, (p.subscribe r).2.hub.subscriptions.get? id =
      if id = p.hub.nextId then some (p.hub.newcomer r) else p.hub.subscriptions.get? id := by
    intro id
    rw [hhub, Hub.add_eq, get?_set]
  constructor
  · rw [hhub]
    exact Nat.le_succ _
  · intro a ha
    rw [undelivered_subscribe] at ha
    exact Or.inl ha
  · intro id s hs _
    rw [hget]
    split_ifs
    · exact ⟨_, rfl⟩
    · exact ⟨s, hs⟩
  · intro id s s' hs hs'
    rw [hget, if_neg (Nat.ne_of_lt (h.hub.ids id s hs)), hs, Option.some.injEq] at hs'
    exact hs' ▸ Grown.refl p s
  · intro id s' hs' hs
    rw [hget] at hs'
    split_ifs at hs' with hid
    · obtain rfl := Option.some.inj hs'
      refine ⟨Nat.le_of_eq hid.symm, ?_, ?_, ?_⟩
      · by_cases hc : p.hub.closed = true <;> simp [Hub.newcomer, hc, Mailbox.shut]
      · by_cases hc : p.hub.closed = true <;> simp [Hub.newcomer, hc, Mailbox.shut]
      · -- only who asks for a torrent, and for its liveness, is to be told of it
        rcases r with ⟨kinds, _ | handle, mask, _ | _⟩
        · exact Or.inl rfl
        · exact Or.inl rfl
        · exact Or.inl rfl
        · exact Or.inr ⟨handle, rfl, rfl⟩
    · rw [hs] at hs'
      cases hs'

lemma evolves_unsubscribe {p : Pipeline Simulated} (id : Nat) :
    Evolves p (p.unsubscribe id) (.left id) := by
  rcases hs : p.hub.subscriptions.get? id with _ | s
  · rw [Pipeline.unsubscribe_none hs]
    exact evolves_of_hub_eq rfl fun a ha => Or.inl ha
  have hhub : (p.unsubscribe id).hub = p.hub.remove id := by rw [Pipeline.unsubscribe_some hs]
  constructor
  · rw [hhub, Hub.nextId_remove]
  · intro a ha
    rw [undelivered_unsubscribe] at ha
    exact Or.inl ha
  · intro j t ht hj
    rw [hhub, Hub.get?_remove, if_neg fun e => hj (congrArg Note.left e.symm)]
    exact ⟨t, ht⟩
  · intro j t t' ht ht'
    rw [hhub, Hub.get?_remove] at ht'
    split_ifs at ht'
    rw [ht, Option.some.injEq] at ht'
    exact ht' ▸ Grown.refl p t
  · intro j t' ht' ht
    rw [hhub, Hub.get?_remove] at ht'
    split_ifs at ht'
    rw [ht] at ht'
    cases ht'

lemma evolves_set {p : Pipeline Simulated} {note : Note} {hub : Hub} {id : Nat}
    {s s' : Subscription} (hs : p.hub.subscriptions.get? id = some s) (ha : p.hub.Alike hub)
    (hget : ∀ j, hub.subscriptions.get? j = if j = id then some s' else p.hub.subscriptions.get? j)
    (hq : ∀ a ∈ s'.mailbox.queue, a ∈ s.mailbox.queue) (hfate : Fate p.engine s s') :
    Evolves p { p with hub } note := by
  refine evolves_of_alike ha (fun a ha => Or.inl ha) fun j t t' ht ht' => ?_
  rw [hget] at ht'
  split_ifs at ht' with hj
  · rw [hj, hs, Option.some.injEq] at ht
    rw [Option.some.injEq] at ht'
    rw [← ht, ← ht']
    exact ⟨fun a ha => Or.inl (hq a ha), hfate⟩
  · rw [ht, Option.some.injEq] at ht'
    rw [ht']
    exact ⟨fun a ha => Or.inl ha, .same rfl rfl⟩

lemma evolves_askLiveness {p q : Pipeline Simulated} {id : Nat} (hq : p.askLiveness id = some q) :
    Evolves p q .quiet := by
  unfold Pipeline.askLiveness at hq
  rcases hs : p.hub.subscriptions.get? id with _ | s
  · simp [hs] at hq
  · rcases hl : s.liveness with _ | handle | answer <;> simp only [hs, hl] at hq
    · cases hq
    · cases hq
      let asked : Subscription :=
        { s with liveness := .answered (.ok (p.engine.torrent? handle).isSome) }
      exact evolves_set hs (Hub.alike_set asked hs rfl p.hub.busy p.hub.closed)
        (fun j => get?_set _ _ _ _) (fun a ha => ha) (.asked hl rfl rfl)
    · cases hq

lemma evolves_answerLiveness {p q : Pipeline Simulated} {id : Nat}
    (hq : p.answerLiveness id = some q) : Evolves p q .quiet := by
  unfold Pipeline.answerLiveness at hq
  rcases hs : p.hub.subscriptions.get? id with _ | s
  · simp [hs] at hq
  · rcases hl : s.liveness with _ | handle | answer <;> simp only [hs, hl] at hq
    · cases hq
    · cases hq
    · let settled : Subscription := { s with liveness := .settled }
      let hub : Hub := { p.hub with subscriptions := p.hub.subscriptions.set id settled }
      have ha : p.hub.Alike hub := Hub.alike_set settled hs rfl p.hub.busy p.hub.closed
      have hfail : ∀ (e : DeliveryError) (j : Nat), (hub.fail id e).subscriptions.get? j =
          if j = id then some { settled with mailbox := (s.mailbox.fail e p.hub.busy).1 }
          else p.hub.subscriptions.get? j := fun e j => by
        rw [Hub.fail, Hub.get?_onMailbox]
        simp only [hub, get?_set, if_true, Option.map_some]
        split_ifs <;> rfl
      have hempty : ∀ (e : DeliveryError), ∀ a ∈ (s.mailbox.fail e p.hub.busy).1.queue,
          a ∈ s.mailbox.queue := fun e a ha => by
        rw [Mailbox.fst_fail] at ha
        cases ha
      -- the query fails, or tells that the torrent is gone, or that it is there
      rcases answer with e | _ | _ <;> cases hq
      · exact evolves_set hs (ha.trans (hub.alike_onMailbox id _)) (hfail _) (hempty _)
          (.refused hl rfl (by rw [Mailbox.fst_fail]))
      · exact evolves_set hs (ha.trans (hub.alike_onMailbox id _)) (hfail _) (hempty _)
          (.missed hl rfl (by rw [Mailbox.fst_fail]))
      · exact evolves_set hs ha (fun j => get?_set _ _ _ _) (fun a ha => ha) (.found hl rfl rfl)

/-! ### The pump -/

/-- What closing does to a subscription. -/
lemma closing {p : Pipeline Simulated} {hub : Hub} {id : Nat} {s s' : Subscription}
    (hs : p.hub.subscriptions.get? id = some s)
    (hget : hub.subscriptions.get? id = (p.hub.subscriptions.get? id).map fun s =>
      if s.listed then { s with mailbox := (s.mailbox.close 0).1 } else s)
    (hs' : hub.subscriptions.get? id = some s') :
    (∀ a ∈ s'.mailbox.queue,
      a ∈ s.mailbox.queue ∨ (a ∈ undelivered p ∧ s.filter.accepts a = true)) ∧
    Fate p.engine s s' := by
  rw [hget, hs, Option.map_some, Option.some.injEq] at hs'
  rw [← hs']
  by_cases hl : s.listed = true
  · rw [if_pos hl, Mailbox.fst_close]
    exact ⟨fun a ha => Or.inl ha, .same rfl rfl⟩
  · rw [if_neg hl]
    exact ⟨fun a ha => Or.inl ha, .same rfl rfl⟩

lemma evolves_leave {p : Pipeline Simulated} (h : Inv p) {source source' : Source}
    {phase : PumpPhase} (hp : p.pumps = [⟨source, phase⟩])
    (hb : (Pump.mk source phase).batch = []) (result : Except DeliveryError Unit) :
    Evolves p (p.leave 0 source' result) .quiet := by
  have hund := Source.undisturbed_stop source' p.engine
  have hpumps : (p.leave 0 source' result).pumps =
      [⟨(source'.stop p.engine).1, .leaving result⟩] := by
    simp [Pipeline.leave, Pipeline.putPump, hp]
  have hu : undelivered (p.leave 0 source' result) = undelivered p := by
    refine undelivered_of_pump _ hp hpumps ?_
    rw [hb]
    exact hund.queue
  refine evolves_of_alike p.hub.alike_close (fun a ha => Or.inl (hu ▸ ha)) fun id s s' hs hs' => ?_
  exact closing hs (Hub.get?_close h.hub.sorted id) hs'

lemma evolves_turn {p q : Pipeline Simulated} (h : Inv p) {source : Source} {phase : PumpPhase}
    (hp : p.pumps = [⟨source, phase⟩]) (ht : Turn p source phase q) : Evolves p q .quiet := by
  have hput : ∀ pump : Pump, p.pumps.set 0 pump = [pump] := fun pump => by rw [hp]; rfl
  -- a pump that takes a batch only moves it from the engine into its own hands
  have hmove : ∀ {q : Pipeline Simulated} {pump : Pump}, q.hub = p.hub → q.pumps = [pump] →
      pump.batch ++ q.engine.queue = (Pump.mk source phase).batch ++ p.engine.queue →
      Evolves p q .quiet := fun hh hq hsum => by
    have hu := undelivered_of_pump _ hp hq hsum
    exact evolves_of_hub_eq hh fun a ha => Or.inl (hu ▸ ha)
  cases ht with
  | stopped hb => exact evolves_leave h hp hb _
  | idle => exact hmove rfl (hput _) rfl
  | unready _ hpoll =>
    have hspec := (source.poll_spec p.engine).1
    rw [hpoll] at hspec
    exact hmove rfl (hput _) hspec
  | drained _ hpoll =>
    have hspec := (source.poll_spec p.engine).1
    rw [hpoll] at hspec
    exact hmove rfl (hput _) hspec
  | @failed source' engine e _ hpoll =>
    have hspec := source.poll_spec p.engine
    rw [hpoll] at hspec
    have hmid : Inv ({ p with engine }.tell [.pumpFailed e]) :=
      h.congr rfl rfl hspec.2.1 h.pumps
    have hu : undelivered ({ p with engine }.tell [.pumpFailed e]) = undelivered p :=
      undelivered_of_pump _ hp hp (congrArg _ hspec.1)
    have hl :
        Evolves _ (({ p with engine }.tell [.pumpFailed e]).leave 0 source' (.error e)) .quiet :=
      evolves_leave hmid hp rfl (.error e)
    refine ⟨hl.nextId, fun a ha => ?_, hl.kept, fun id s s' hs hs' => ?_, hl.new⟩
    · rw [← hu]
      exact hl.undelivered a ha
    · obtain ⟨hterms, hqueue, hfate⟩ := hl.grown id s s' hs hs'
      exact ⟨hterms, hu ▸ hqueue, hfate.congr (Simulated.torrent?_congr hspec.2.2)⟩
  | @dispatched batch =>
    have hu : undelivered p = batch ++ p.engine.queue := by
      simp [undelivered, inFlight, hp, Pump.batch]
    refine evolves_of_alike (p.hub.alike_dispatch batch) (fun a ha => Or.inl ?_)
      fun id s s' hs hs' => ?_
    · rw [hu]
      refine List.mem_append_right _ ?_
      simpa [undelivered, inFlight, Pipeline.putPump, Pipeline.tell, hp, Pump.batch] using ha
    · have hs' : (p.hub.dispatch batch).subscriptions.get? id = some s' := hs'
      rw [Hub.get?_dispatch, hs, Option.map_some, Option.some.injEq] at hs'
      rw [← hs']
      refine ⟨fun a ha => ?_, .same rfl (Mailbox.failure_deliver _ _ _)⟩
      -- what is in the mailbox was there before, or is of the batch
      rcases Mailbox.mem_deliver ha with ha | ha
      · exact Or.inl ha
      · obtain ⟨hmem, hacc⟩ := h.hub.accepts_of_mem_slice hs ha
        exact Or.inr ⟨hu ▸ List.mem_append_left _ hmem, hacc⟩
  | ended => exact hmove rfl (hput _) rfl

/-! ### Every step -/

/-- **Nothing comes into a mailbox but what was accepted**, and nothing fails a subscription but the
news that its torrent is gone. -/
theorem step_evolves {p q : Pipeline Simulated} {note : Note} (h : Inv p)
    (hstep : Step p note q) : Evolves p q note := by
  cases hstep with
  | call c =>
    refine evolves_of_hub_eq rfl fun a ha => ?_
    simpa [undelivered, inFlight, c.queue_apply, Note.accepted, or_assoc] using ha
  | subscribe r => exact evolves_subscribe h r
  | receive id =>
    rw [Pipeline.pollSubscription_snd]
    refine evolves_onMailbox id fun m busy => ?_
    have hl := Mailbox.looked_poll m busy
    refine ⟨hl.failure, fun a ha => ?_⟩
    rw [hl.queue]
    exact List.mem_append_right _ ha
  | cancel id => exact evolves_onMailbox id fun m busy => ⟨rfl, fun a ha => ha⟩
  | unsubscribe id => exact evolves_unsubscribe id
  | stage mask =>
    refine evolves_of_hub_eq (hub_stage p mask) fun a ha => Or.inl ?_
    rwa [undelivered_stage] at ha
  | askLiveness hq => exact evolves_askLiveness hq
  | answerLiveness hq => exact evolves_answerLiveness hq
  | run hp =>
    obtain ⟨engine, hund, heq | ⟨source, heq⟩⟩ := snd_run p <;> rw [heq] <;>
      refine evolves_of_hub_eq rfl fun a ha => Or.inl ?_
    · simpa [undelivered, inFlight, hund.queue] using ha
    · simpa [undelivered, inFlight, hp, hund.queue, Pump.batch] using ha
  | pump hq =>
    rename_i k
    rcases hk : p.pumps[k]? with _ | ⟨source, phase⟩
    · simp [Pipeline.pumpStep, hk] at hq
    · obtain ⟨rfl, hp⟩ := pumps_eq h.single hk
      exact evolves_turn h hp (turn_of_pumpStep hp hq)
  | worker hq =>
    obtain ⟨pump, source, notices, hk, rfl⟩ := workerStep_eq hq
    obtain ⟨rfl, hp⟩ := pumps_eq h.single hk
    have hu := undelivered_of_pump (q := (p.tell notices).putPump 0 { pump with source })
      { pump with source } hp (by simp [Pipeline.putPump, Pipeline.tell, hp]) rfl
    exact evolves_of_hub_eq rfl fun a ha => Or.inl (hu ▸ ha)
  | stall k =>
    unfold Pipeline.stall
    split
    · rename_i source since hk
      obtain ⟨rfl, hp⟩ := pumps_eq h.single hk
      have hu := undelivered_of_pump
        (q := (p.tell [.stalled p.hub.busy p.settings.stallTimeout]).putPump 0
          ⟨source, .idling p.now⟩)
        ⟨source, .idling p.now⟩ hp (by simp [Pipeline.putPump, Pipeline.tell, hp]) rfl
      exact evolves_of_hub_eq rfl fun a ha => Or.inl (hu ▸ ha)
    · exact evolves_of_hub_eq rfl fun a ha => Or.inl ha
  | stop =>
    have hasked : p.hub.Alike { p.hub with stopped := true } :=
      ⟨rfl, rfl, id, fun _ => rfl, fun _ _ => rfl⟩
    refine evolves_of_alike (hasked.trans (Hub.alike_close _)) (fun a ha => Or.inl ha)
      fun j s s' hs hs' => ?_
    exact closing hs (Hub.get?_close (h := { p.hub with stopped := true }) h.hub.sorted j) hs'

/-! ### What delivery leaves alone -/

structure Beside (p q : Pipeline Simulated) : Prop where
  windows : q.windows = p.windows
  readers : q.readers = p.readers
  waiters : q.waiters = p.waiters
  nextScope : q.nextScope = p.nextScope
  janitor : q.janitor = p.janitor
  settings : q.settings = p.settings

lemma Beside.refl (p : Pipeline Simulated) : Beside p p := ⟨rfl, rfl, rfl, rfl, rfl, rfl⟩

lemma beside_withDemand (p : Pipeline Simulated) (change : Demand × Simulated × List Notice) :
    Beside p (p.withDemand change) := by
  rw [Pipeline.withDemand_eq]
  exact ⟨rfl, rfl, rfl, rfl, rfl, rfl⟩

lemma beside_subscribe (p : Pipeline Simulated) (r : Request) : Beside p (p.subscribe r).2 := by
  rw [Pipeline.subscribe_snd, Pipeline.withDemand_eq]
  exact ⟨rfl, rfl, rfl, rfl, rfl, rfl⟩

lemma beside_unsubscribe (p : Pipeline Simulated) (id : Nat) : Beside p (p.unsubscribe id) := by
  rcases hs : p.hub.subscriptions.get? id with _ | s
  · rw [Pipeline.unsubscribe_none hs]
    exact Beside.refl p
  · rw [Pipeline.unsubscribe_some hs, Pipeline.withDemand_eq]
    exact ⟨rfl, rfl, rfl, rfl, rfl, rfl⟩

lemma pumpStep_spec {p q : Pipeline Simulated} {k : Nat} (h : p.pumpStep k = some q) :
    Beside p q ∧ q.engine.slots = p.engine.slots := by
  unfold Pipeline.pumpStep at h
  rcases hk : p.pumps[k]? with _ | ⟨source, phase⟩ <;> simp only [hk] at h
  · cases h
  -- to leave only stops the source
  have hleave : ∀ (p' : Pipeline Simulated) (source' : Source) (result : Except DeliveryError Unit),
      Beside p p' → p'.engine.slots = p.engine.slots →
      Beside p (p'.leave k source' result) ∧
        (p'.leave k source' result).engine.slots = p.engine.slots :=
    fun p' source' result hb hs => ⟨⟨hb.1, hb.2, hb.3, hb.4, hb.5, hb.6⟩,
      (Source.undisturbed_stop source' p'.engine).slots.trans hs⟩
  have hspec := (source.poll_spec p.engine).2.2
  rcases phase with since | _ | batch | result | result <;> simp only at h
  · split_ifs at h <;> cases h
    · exact hleave p _ _ (Beside.refl p) rfl
    · exact ⟨⟨rfl, rfl, rfl, rfl, rfl, rfl⟩, rfl⟩
  · split_ifs at h
    · cases h
      exact hleave p _ _ (Beside.refl p) rfl
    · rcases hpoll : source.poll p.engine with ⟨_ | _ | batch, source', engine⟩ <;>
        rw [hpoll] at hspec <;> simp only [hpoll] at h
      · split_ifs at h
        cases h
        exact ⟨⟨rfl, rfl, rfl, rfl, rfl, rfl⟩, hspec⟩
      · cases h
        exact hleave _ _ _ ⟨rfl, rfl, rfl, rfl, rfl, rfl⟩ hspec
      · cases h
        exact ⟨⟨rfl, rfl, rfl, rfl, rfl, rfl⟩, hspec⟩
  · cases h
    exact ⟨⟨rfl, rfl, rfl, rfl, rfl, rfl⟩, rfl⟩
  · split_ifs at h
    cases h
    exact ⟨⟨rfl, rfl, rfl, rfl, rfl, rfl⟩, rfl⟩
  · cases h

lemma askLiveness_spec {p q : Pipeline Simulated} {id : Nat} (h : p.askLiveness id = some q) :
    Beside p q ∧ q.engine.slots = p.engine.slots := by
  unfold Pipeline.askLiveness at h
  split at h
  · cases h
  · split at h
    · cases h
      exact ⟨⟨rfl, rfl, rfl, rfl, rfl, rfl⟩, rfl⟩
    · cases h

lemma answerLiveness_spec {p q : Pipeline Simulated} {id : Nat}
    (h : p.answerLiveness id = some q) : Beside p q ∧ q.engine.slots = p.engine.slots := by
  unfold Pipeline.answerLiveness at h
  split at h
  · cases h
  · split at h
    · cases h
      exact ⟨⟨rfl, rfl, rfl, rfl, rfl, rfl⟩, rfl⟩
    · cases h

/-- **No step of delivery touches the readers, their windows or the waiters.** -/
theorem step_beside {p q : Pipeline Simulated} {note : Note} (hstep : Step p note q) :
    Beside p q := by
  cases hstep with
  | call c => exact ⟨rfl, rfl, rfl, rfl, rfl, rfl⟩
  | subscribe r => exact beside_subscribe p r
  | receive id => exact ⟨rfl, rfl, rfl, rfl, rfl, rfl⟩
  | cancel id => exact ⟨rfl, rfl, rfl, rfl, rfl, rfl⟩
  | unsubscribe id => exact beside_unsubscribe p id
  | stage mask => exact beside_withDemand p _
  | askLiveness h => exact (askLiveness_spec h).1
  | answerLiveness h => exact (answerLiveness_spec h).1
  | run h =>
    obtain ⟨engine, -, heq | ⟨source, heq⟩⟩ := snd_run p <;> rw [heq] <;>
      exact ⟨rfl, rfl, rfl, rfl, rfl, rfl⟩
  | pump h => exact (pumpStep_spec h).1
  | worker h =>
    obtain ⟨pump, source, notices, hk, rfl⟩ := workerStep_eq h
    exact ⟨rfl, rfl, rfl, rfl, rfl, rfl⟩
  | stall k =>
    unfold Pipeline.stall
    split <;> exact ⟨rfl, rfl, rfl, rfl, rfl, rfl⟩
  | stop => exact ⟨rfl, rfl, rfl, rfl, rfl, rfl⟩

/-- **Only a call touches the torrents.** -/
theorem step_slots {p q : Pipeline Simulated} {note : Note} (hstep : Step p note q) :
    (∃ c, note = .called p.engine c ∧ q = { p with engine := c.apply p.engine }) ∨
      q.engine.slots = p.engine.slots := by
  cases hstep with
  | call c => exact Or.inl ⟨c, rfl, rfl⟩
  | subscribe r =>
    right
    obtain ⟨mask, he⟩ := p.demand.engine_acquire r.requiredMask p.engine
    rw [Pipeline.subscribe_snd, Pipeline.withDemand_eq]
    dsimp only
    rw [he]
  | receive id => exact Or.inr rfl
  | cancel id => exact Or.inr rfl
  | unsubscribe id =>
    right
    rcases hs : p.hub.subscriptions.get? id with _ | s
    · rw [Pipeline.unsubscribe_none hs]
    · obtain ⟨mask, he⟩ := p.demand.engine_release s.mask p.engine
      rw [Pipeline.unsubscribe_some hs, Pipeline.withDemand_eq]
      dsimp only
      rw [he]
  | stage mask =>
    right
    obtain ⟨mask', he⟩ := p.demand.engine_stage mask p.engine
    rw [Pipeline.stage, Pipeline.withDemand_eq]
    dsimp only
    rw [he]
  | askLiveness h => exact Or.inr (askLiveness_spec h).2
  | answerLiveness h => exact Or.inr (answerLiveness_spec h).2
  | run h =>
    right
    obtain ⟨engine, hund, heq | ⟨source, heq⟩⟩ := snd_run p <;> rw [heq] <;> exact hund.slots
  | pump h => exact Or.inr (pumpStep_spec h).2
  | worker h =>
    obtain ⟨pump, source, notices, hk, rfl⟩ := workerStep_eq h
    exact Or.inr rfl
  | stall k =>
    right
    unfold Pipeline.stall
    split <;> rfl
  | stop => exact Or.inr rfl

end TorrentFlow.Delivery
