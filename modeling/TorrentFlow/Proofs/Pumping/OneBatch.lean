import TorrentFlow.Proofs.Pumping.Steps

/-!
One batch is in flight. A pump that has found nobody busy takes and delivers a batch before anybody
can be busy again, since only delivering makes somebody busy. So an open mailbox never holds
anything but the rest of its slice of the last batch, and the next one is not taken before that is
gone.
-/

namespace TorrentFlow.Pumping

open Delivery (isOver)
open SubscriberIndex (slice)

variable {σ : Type}

/-- The slices of the last batch that was delivered. -/
def lastSlices (trace : List Mark) : Table Nat (List Alert) :=
  trace.foldl (fun slices mark => match mark with
    | .dispatched _ slices => slices
    | _ => slices) {}

/-- What a subscriber was handed since the last batch was delivered. -/
def handedSince (trace : List Mark) (id : Nat) : List Alert :=
  trace.foldl (fun handed mark => match mark with
    | .dispatched _ _ => []
    | _ => handed ++ mark.handed id) []

lemma lastSlices_dispatched (trace : List Mark) (batch : List Alert)
    (slices : Table Nat (List Alert)) :
    lastSlices (trace ++ [.dispatched batch slices]) = slices := by
  simp [lastSlices]

lemma handedSince_dispatched (trace : List Mark) (batch : List Alert)
    (slices : Table Nat (List Alert)) (id : Nat) :
    handedSince (trace ++ [.dispatched batch slices]) id = [] := by
  simp [handedSince]

lemma lastSlices_snoc (trace : List Mark) {mark : Mark}
    (hm : ∀ batch slices, mark ≠ .dispatched batch slices) :
    lastSlices (trace ++ [mark]) = lastSlices trace := by
  cases mark with
  | dispatched batch slices => exact absurd rfl (hm batch slices)
  | _ => simp [lastSlices]

lemma handedSince_snoc (trace : List Mark) {mark : Mark}
    (hm : ∀ batch slices, mark ≠ .dispatched batch slices) (id : Nat) :
    handedSince (trace ++ [mark]) id = handedSince trace id ++ mark.handed id := by
  cases mark with
  | dispatched batch slices => exact absurd rfl (hm batch slices)
  | _ => simp [handedSince]

lemma slice_of_absent {h : Hub} (hw : h.Wf) {id : Nat} (hget : h.subscriptions.get? id = none)
    (batch : List Alert) : slice (h.index.route (fun a => a) batch) id = [] := by
  rw [SubscriberIndex.slice_route, List.filter_eq_nil_iff]
  intro a _ hfound
  obtain ⟨route, -, hroute⟩ := SubscriberIndex.mem_lookup.mp (decide_eq_true_iff.mp hfound)
  obtain ⟨s, hs, -⟩ := (hw.filed id route).mp hroute
  rw [hget] at hs
  cases hs

/-- A pump between finding nobody busy and delivering has still nobody busy, and what an open
mailbox holds is what is left of its last slice. -/
structure OneBatch (trace : List Mark) (p : Pipeline σ) : Prop where
  idle : ∀ pump ∈ p.pumps, isBetween pump = true → p.hub.busy = 0
  queue : ∀ id s, p.hub.subscriptions.get? id = some s → s.mailbox.IsOpen →
    handedSince trace id ++ s.mailbox.queue = slice (lastSlices trace) id
  fresh : ∀ id, p.hub.nextId ≤ id →
    handedSince trace id = [] ∧ slice (lastSlices trace) id = []

lemma absent_of_le {h : Hub} (hw : h.Wf) {id : Nat} (hid : h.nextId ≤ id) :
    h.subscriptions.get? id = none := by
  rcases hget : h.subscriptions.get? id with _ | s
  · rfl
  · have := hw.ids id s hget
    omega

/-- As long as nothing is delivered, slices only get shorter by what is handed out. -/
lemma OneBatch.change {p q : Pipeline σ} {trace : List Mark} {mark : Mark} (hk : Kept p)
    (h : OneBatch trace p) (hc : p.hub.Change (fun id => mark.handed id) q.hub)
    (hm : ∀ batch slices, mark ≠ .dispatched batch slices)
    (hp : ∀ pump' ∈ q.pumps, isBetween pump' = true →
      (∃ pump ∈ p.pumps, isBetween pump = true) ∨ p.hub.busy = 0) :
    OneBatch (trace ++ [mark]) q := by
  have hw := hk.hub.tallied.wf
  have hnone : ∀ id, p.hub.nextId ≤ id → mark.handed id = [] := fun id hid =>
    hc.absent id (absent_of_le hw hid)
  refine ⟨fun pump' hpump' hb => hc.busy hk.hub ?_, fun id s' hs' ho => ?_, fun id hid => ?_⟩
  · rcases hp pump' hpump' hb with ⟨pump, hpump, hb⟩ | hb
    · exact h.idle pump hpump hb
    · exact hb
  · rw [lastSlices_snoc trace hm, handedSince_snoc trace hm]
    rcases hc.back id s' hs' with ⟨s, hs, hpassed⟩ | ⟨rfl, hfresh⟩
    · rw [List.append_assoc, hpassed.queue ho.1]
      exact h.queue id s hs (hpassed.isOpen ho)
    · -- it came with this step, and its mailbox is empty
      obtain ⟨hhanded, hslice⟩ := h.fresh p.hub.nextId (Nat.le_refl _)
      have hempty : s'.mailbox.queue = [] := by
        rw [hfresh, Hub.fresh]
        split_ifs <;> rfl
      rw [hhanded, hslice, hnone _ (Nat.le_refl _), hempty]
      rfl
  · have hid := Nat.le_trans hc.nextId hid
    obtain ⟨hhanded, hslice⟩ := h.fresh id hid
    rw [lastSlices_snoc trace hm, handedSince_snoc trace hm, hhanded, hslice, hnone id hid]
    exact ⟨rfl, rfl⟩

/-- **A batch goes into empty mailboxes.** -/
lemma OneBatch.dispatched {p q : Pipeline σ} {trace : List Mark} (hk : Kept p) {batch : List Alert}
    (hb : p.hub.busy = 0) (hh : q.hub = p.hub.dispatch batch)
    (hp : ∀ pump' ∈ q.pumps, isBetween pump' = false) :
    OneBatch (trace ++ [.dispatched batch (p.hub.index.route id batch)]) q := by
  have hw := hk.hub.tallied.wf
  refine ⟨fun pump' hpump' hbetween => ?_, fun id s' hs' ho => ?_, fun id hid => ?_⟩
  · rw [hp pump' hpump'] at hbetween
    cases hbetween
  · rw [lastSlices_dispatched, handedSince_dispatched]
    rw [hh, Hub.get?_dispatch] at hs'
    obtain ⟨s, hs, rfl⟩ := Option.map_eq_some_iff.mp hs'
    have hopen : s.mailbox.IsOpen := by
      simpa only [Mailbox.IsOpen, Mailbox.failure_deliver, Mailbox.closed_deliver] using ho
    have hempty := hk.hub.tallied.emptied hs (hk.hub.tallied.idle hb hs) hopen
    rw [Mailbox.queue_deliver hopen.1 hopen.2, hempty]
    rfl
  · rw [hh, (p.hub.alike_dispatch batch).nextId] at hid
    rw [lastSlices_dispatched, handedSince_dispatched]
    exact ⟨rfl, slice_of_absent hw (absent_of_le hw hid) batch⟩

lemma length_effect {p q : Pipeline σ} {mark : Mark} (he : Effect p mark q) :
    p.pumps.length ≤ q.pumps.length := by
  cases he with
  | received _ hp => rw [hp]
  | beside _ hp => rw [hp]
  | opened _ hp => simp [hp]
  | turned _ _ hp => simp [hp]

lemma isBetween_of_isOver {pump : Pump} (h : isOver pump = true) : isBetween pump = false := by
  obtain ⟨source, phase⟩ := pump
  cases phase <;> first | rfl | cases h

/-- A pump gets between two batches only by finding nobody busy. -/
lemma between_turn {p : Pipeline σ} {mark : Mark} {pump pump' : Pump} {hub : Hub}
    (ht : Turn p pump mark pump' hub) (hb : isBetween pump' = true) :
    isBetween pump = true ∨ p.hub.busy = 0 := by
  cases ht with
  | left h' | ended _ h' => simp [isBetween_of_isOver h'] at hb
  | idle hbusy _ => exact .inr hbusy
  | same hphase => exact .inl (by rwa [isBetween, ← hphase])
  | took hdraining _ => exact .inl (by simp [isBetween, hdraining])
  | dispatched _ h' | stalled h' => simp [isBetween, h'] at hb

lemma between_effect {p q : Pipeline σ} {mark : Mark} (he : Effect p mark q) {pump' : Pump}
    (hpump : pump' ∈ q.pumps) (hb : isBetween pump' = true) :
    (∃ pump ∈ p.pumps, isBetween pump = true) ∨ p.hub.busy = 0 := by
  cases he with
  | received _ hp | beside _ hp => exact .inl ⟨pump', hp ▸ hpump, hb⟩
  | opened _ hp =>
    rw [hp, List.mem_append, List.mem_singleton] at hpump
    rcases hpump with hpump | rfl
    · exact .inl ⟨pump', hpump, hb⟩
    · cases hb
  | turned hk ht hp =>
    rw [hp] at hpump
    rcases List.mem_or_eq_of_mem_set hpump with hpump | rfl
    · exact .inl ⟨pump', hpump, hb⟩
    · exact (between_turn ht hb).imp_left fun hb => ⟨_, List.mem_of_getElem? hk, hb⟩

lemma between_of_took {p q : Pipeline σ} {batch : List Alert} (he : Effect p (.took batch) q) :
    ∃ pump ∈ p.pumps, isBetween pump = true := by
  cases he with
  | @turned _ _ k pump pump' hk ht =>
    generalize q.hub = hub at ht
    cases ht with
    | took hdraining => exact ⟨pump, List.mem_of_getElem? hk, by simp [isBetween, hdraining]⟩

lemma effect_dispatched {p q : Pipeline σ} {batch : List Alert} {slices : Table Nat (List Alert)}
    (he : Effect p (.dispatched batch slices) q) :
    slices = p.hub.index.route id batch ∧ q.hub = p.hub.dispatch batch ∧
      ∃ (k : Nat) (pump pump' : Pump), p.pumps[k]? = some pump ∧ isBetween pump = true ∧
        isBetween pump' = false ∧ q.pumps = p.pumps.set k pump' := by
  cases he with
  | @turned _ _ k pump pump' hk ht hp =>
    generalize q.hub = hub at ht
    cases ht with
    | dispatched hholding h' =>
      exact ⟨rfl, rfl, k, pump, pump', hk, by simp [isBetween, hholding],
        by simp [isBetween, h'], hp⟩

theorem oneBatch_effect {p q : Pipeline σ} {trace : List Mark} {mark : Mark} (hk : Kept p)
    (hone : p.pumps.length ≤ 1) (h : OneBatch trace p) (he : Effect p mark q) :
    OneBatch (trace ++ [mark]) q := by
  by_cases hd : ∃ batch slices, mark = .dispatched batch slices
  · obtain ⟨batch, slices, rfl⟩ := hd
    obtain ⟨rfl, hh, k, pump, pump', hget, hb, hb', hp⟩ := effect_dispatched he
    refine OneBatch.dispatched hk (h.idle pump (List.mem_of_getElem? hget) hb) hh
      fun pump'' hpump => ?_
    -- there is no other pump
    obtain ⟨rfl, hsingle⟩ := Delivery.pumps_eq hone hget
    rw [hp, hsingle] at hpump
    rw [List.mem_singleton.mp hpump, hb']
  · have hquiet : ∀ batch slices, mark ≠ .dispatched batch slices := fun batch slices hm =>
      hd ⟨batch, slices, hm⟩
    rcases change_or_dispatched hk.hub he with hchange | ⟨batch, hm, -⟩
    · exact h.change hk hchange hquiet fun pump' hpump hb => between_effect he hpump hb
    · exact absurd hm (hquiet _ _)

/-! ### Being done with a batch -/

/-- The number of pumps whose rounds are not over. -/
def atWork (p : Pipeline σ) : Nat := (p.pumps.filter fun pump => !isOver pump).length

/-- As long as delivery goes on, the pump that is at work is the only one there ever was. -/
lemma closed_or_single {p : Pipeline σ} (hk : Kept p) (hone : atWork p ≤ 1) :
    p.hub.closed = true ∨ p.pumps.length ≤ 1 := by
  by_cases hc : p.hub.closed = true
  · exact .inl hc
  · have hall : (p.pumps.filter fun pump => !isOver pump) = p.pumps :=
      List.filter_eq_self.mpr fun pump hpump => by
        by_contra ho
        exact hc (hk.ended pump hpump (by simpa using ho))
    rw [atWork, hall] at hone
    exact .inr hone

/-- Everybody who got a slice of the last batch has consumed it, failed, been closed or gone. -/
def AllDone (trace : List Mark) (p : Pipeline σ) : Prop :=
  ∀ id, slice (lastSlices trace) id ≠ [] →
    p.hub.subscriptions.get? id = none ∨
    ∃ s, p.hub.subscriptions.get? id = some s ∧
      (s.mailbox.failure ≠ none ∨ s.mailbox.closed = true ∨
        (s.mailbox.queue = [] ∧ handedSince trace id = slice (lastSlices trace) id))

lemma allDone_of_idle {trace : List Mark} {p : Pipeline σ} (hs : p.hub.Sound)
    (hqueue : ∀ id s, p.hub.subscriptions.get? id = some s → s.mailbox.IsOpen →
      handedSince trace id ++ s.mailbox.queue = slice (lastSlices trace) id)
    (hb : p.hub.busy = 0) : AllDone trace p := by
  intro id _
  rcases hget : p.hub.subscriptions.get? id with _ | s
  · exact .inl rfl
  refine .inr ⟨s, rfl, ?_⟩
  by_cases hf : s.mailbox.failure = none
  · by_cases hc : s.mailbox.closed = false
    · have hempty := hs.tallied.emptied hget (hs.tallied.idle hb hget) ⟨hf, hc⟩
      have hsum := hqueue id s hget ⟨hf, hc⟩
      rw [hempty, List.append_nil] at hsum
      exact .inr (.inr ⟨hempty, hsum⟩)
    · exact .inr (.inl (by simpa using hc))
  · exact .inl hf

/-! ### Any number of steps -/

section Runs

variable [Engine σ]

lemma oneBatch_assemble (settings : Settings) (engine : σ) :
    OneBatch [] (Pipeline.assemble settings engine) := by
  simp only [Pipeline.assemble, Pipeline.withDemand_eq]
  refine ⟨fun pump hpump => ?_, fun id s hs => ?_, fun id _ => ⟨rfl, rfl⟩⟩
  · cases hpump
  · cases hs

variable [DecidableEq σ]

theorem oneBatch_run {p q : Pipeline σ} {trace : List Mark} (hk : Kept p) (h : OneBatch [] p)
    (hrun : Run p trace q) (hone : q.pumps.length ≤ 1) : OneBatch trace q := by
  induction hrun with
  | nil => exact h
  | snoc hbefore hstep ih =>
    have hk := kept_run hk hbefore
    have he := effect_step hk.hub hstep
    have hone := Nat.le_trans (length_effect he) hone
    exact oneBatch_effect hk hone (ih hone) he

/-- **One batch in flight.** However subscribers come, ask, fail and go, and however often the pump
stalls: when a batch is delivered nobody is busy, so that every open mailbox is empty and gets what
its filter accepts of the batch; at any time an open mailbox holds the rest of its slice of the last
batch; and a pump does not as much as ask its source for a batch before everybody is done with the
last. -/
theorem one_batch_in_flight {settings : Settings} {engine : σ} {trace : List Mark} {p : Pipeline σ}
    (hrun : Run (Pipeline.assemble settings engine) trace p) (hone : atWork p ≤ 1) :
    (∀ batch slices q, Step p (.dispatched batch slices) q →
      p.hub.busy = 0 ∧ ∀ id s, p.hub.subscriptions.get? id = some s →
        s.mailbox.holding = false ∧
        (s.mailbox.IsOpen →
          s.mailbox.queue = [] ∧ slice slices id = batch.filter s.filter.accepts)) ∧
    (∀ id s, p.hub.subscriptions.get? id = some s → s.mailbox.IsOpen →
      s.mailbox.queue <:+ slice (lastSlices trace) id) ∧
    (∀ pump ∈ p.pumps, pump.phase = .draining → AllDone trace p) ∧
    (∀ batch q, Step p (.took batch) q → AllDone trace p) := by
  have hk : Kept p := kept_run (kept_assemble settings engine) hrun
  have hs := hk.hub
  have hkept : (∀ pump ∈ p.pumps, isBetween pump = true → p.hub.busy = 0) ∧
      ∀ id s, p.hub.subscriptions.get? id = some s → s.mailbox.IsOpen →
        handedSince trace id ++ s.mailbox.queue = slice (lastSlices trace) id := by
    -- with delivery over no mailbox is open; else the one pump keeps its invariant
    rcases closed_or_single hk hone with hc | hone
    · exact ⟨fun _ _ _ => hs.quiet hc, fun id s hget ho =>
        absurd ho (hs.not_isOpen hc hget)⟩
    · have h := oneBatch_run (kept_assemble settings engine) (oneBatch_assemble settings engine)
        hrun hone
      exact ⟨h.idle, h.queue⟩
  obtain ⟨hidle, hqueue⟩ := hkept
  refine ⟨fun batch slices q hstep => ?_, fun id s hget ho => ⟨_, hqueue id s hget ho⟩,
    fun pump hpump hd => ?_, fun batch q hstep => ?_⟩
  · -- a batch is delivered
    obtain ⟨rfl, -, k, pump, -, hget, hb, -⟩ := effect_dispatched (effect_step hs hstep)
    have hbusy := hidle pump (List.mem_of_getElem? hget) hb
    refine ⟨hbusy, fun id s hget => ?_⟩
    have hnot := hs.tallied.idle hbusy hget
    refine ⟨hnot, fun ho => ⟨hs.tallied.emptied hget hnot ho, ?_⟩⟩
    have hopen : p.hub.closed = false := by
      by_contra hc
      exact hs.not_isOpen (by simpa using hc) hget ho
    exact hs.tallied.wf.slice_route hget (hs.served hopen id s hget).1 batch
  · exact allDone_of_idle hs hqueue (hidle pump hpump (by simp [isBetween, hd]))
  · -- a batch is taken
    obtain ⟨pump, hpump, hb⟩ := between_of_took (effect_step hs hstep)
    exact allDone_of_idle hs hqueue (hidle pump hpump hb)

end Runs

/-- Of two log lines that were delivered one has been consumed. -/
theorem one_batch_in_flight_log : ∃ (trace : List Mark) (p : Pipeline Simulated) (s : Subscription),
    Run (Pipeline.assemble {} {}) trace p ∧ atWork p = 1 ∧
    p.hub.subscriptions.get? 0 = some s ∧ s.mailbox.IsOpen ∧ s.mailbox.queue = [.log "b"] ∧
    slice (lastSlices trace) 0 = [.log "a", .log "b"] ∧
    s.mailbox.queue <:+ slice (lastSlices trace) 0 := by
  let p := (twoLines.2.pollSubscription 0).2
  have hrun : Run (Pipeline.assemble {} {})
      (twoLines.1 ++ [.received 0 (twoLines.2.pollSubscription 0).1]) p :=
    run_twoLines.snoc (.receive twoLines.2 0)
  have hone : atWork p = 1 := by decide +kernel
  let s := (p.hub.subscriptions.get? 0).get (by decide +kernel)
  have hget : p.hub.subscriptions.get? 0 = some s := (Option.some_get _).symm
  have hopen : s.mailbox.IsOpen := ⟨by decide +kernel, by decide +kernel⟩
  exact ⟨_, p, s, hrun, hone, hget, hopen, by decide +kernel, by decide +kernel,
    (one_batch_in_flight hrun (Nat.le_of_eq hone)).2.1 0 s hget hopen⟩

end TorrentFlow.Pumping
