import TorrentFlow.Proofs.Tally

/-!
Any number of mailboxes and one number of busy ones, under whatever is done to them in whatever
order. The acts are the smallest there are. A slice is delivered into one mailbox, not a batch into
all; and a subscriber that asks for its next alert is roused and looks in two acts, so that anything
may come between the two, be it that it gives up. What the hub does to its mailboxes is made of such
acts.
-/

namespace TorrentFlow.Mailroom

inductive Touch where
  | deliver (slice : List Alert)
  | fail (e : DeliveryError)
  | close
  /-- Its subscriber, if it waits, uses the wake-up. -/
  | rouse
  /-- Its subscriber looks, unless it waits. -/
  | ask
  | cancel

def Touch.apply : Touch → Mailbox → Nat → Mailbox × Nat
  | deliver slice, m, busy => m.deliver slice busy
  | fail e, m, busy => m.fail e busy
  | close, m, busy => m.close busy
  | rouse, m, busy => (m.rouse, busy)
  | ask, m, busy => (m.ask busy).2
  | cancel, m, busy => (m.cancel, busy)

inductive Act where
  | subscribe (r : Request)
  | touch (id : Nat) (t : Touch)
  | closeAll
  | drop (id : Nat)

def Act.apply (h : Hub) : Act → Hub
  | subscribe r => (h.add r).2
  | touch id t => h.onMailbox id t.apply
  | closeAll => h.close
  | drop id => h.remove id

/-- The hub after one act and another. -/
def run (h : Hub) (acts : List Act) : Hub := acts.foldl Act.apply h

/-! ### The hub's own operations are made of acts -/

theorem dispatch_eq_run (h : Hub) (batch : List Alert) :
    h.dispatch batch =
      run h ((h.index.route id batch).entries.map fun e => .touch e.1 (.deliver e.2)) := by
  rw [run, List.foldl_map]
  rfl

/-- To ask for the next alert is to be roused and to look, once or twice. -/
theorem poll_eq_run (h : Hub) (id : Nat) :
    (h.poll id).2 = run h [.touch id .rouse, .touch id .ask] ∨
    (h.poll id).2 =
      run h [.touch id .rouse, .touch id .ask, .touch id .rouse, .touch id .ask] := by
  rcases hs : h.subscriptions.get? id with _ | s
  · left
    simp [Hub.poll, run, Act.apply, Hub.onMailbox, hs]
  · simp only [run, List.foldl_cons, List.foldl_nil, Act.apply, Touch.apply, Hub.poll,
      Hub.onMailbox, hs, Table.get?_set, if_true, Table.set_set, s.mailbox.poll_eq h.busy]
    split_ifs
    · exact .inl rfl
    · exact .inr rfl

/-! ### One act -/

lemma accounted_touch (t : Touch) (m : Mailbox) (busy : Nat) :
    Mailbox.Accounted m busy (t.apply m busy).1 (t.apply m busy).2 := by
  cases t with
  | deliver slice => exact m.accounted_deliver slice busy
  | fail e => exact m.accounted_fail e busy
  | close => exact m.accounted_close busy
  | rouse => exact m.accounted_rouse busy
  | ask => exact m.accounted_ask busy
  | cancel => exact m.accounted_cancel busy

lemma tallied_apply {h : Hub} (ht : h.Tallied) (act : Act) : (act.apply h).Tallied := by
  cases act with
  | subscribe r => exact ht.add r
  | touch id t => exact ht.onMailbox id (accounted_touch t)
  | closeAll => exact ht.close
  | drop id => exact ht.remove id

lemma failure_touch (t : Touch) {m : Mailbox} {e : DeliveryError} (hf : m.failure = some e)
    (busy : Nat) : (t.apply m busy).1.failure = some e := by
  cases t with
  | deliver slice => simp [Touch.apply, hf]
  | fail e' => simp [Touch.apply, Mailbox.fst_fail, hf]
  | close => simp [Touch.apply, Mailbox.fst_close, hf]
  | rouse =>
    rw [Touch.apply, Mailbox.rouse]
    split_ifs <;> exact hf
  | ask =>
    rw [Touch.apply, Mailbox.ask]
    split_ifs
    · exact hf
    · exact (m.looked_attempt busy).failure.trans hf
  | cancel => exact hf

/-- The mailbox of a number has failed, unless the subscription is gone. Numbers are not given out
again. -/
def Spoilt (id : Nat) (e : DeliveryError) (h : Hub) : Prop :=
  id < h.nextId ∧ ∀ s, h.subscriptions.get? id = some s → s.mailbox.failure = some e

lemma spoilt_apply {h : Hub} (ht : h.Tallied) {id : Nat} {e : DeliveryError} (hf : Spoilt id e h)
    (act : Act) : Spoilt id e (act.apply h) := by
  obtain ⟨hid, hf⟩ := hf
  cases act with
  | subscribe r =>
    refine ⟨Nat.lt_succ_of_lt hid, fun s hs => ?_⟩
    simp only [Act.apply, Hub.add_eq, Table.get?_set, Nat.ne_of_lt hid, if_false] at hs
    exact hf s hs
  | touch j t =>
    refine ⟨(h.alike_onMailbox j t.apply).nextId ▸ hid, fun s hs => ?_⟩
    rw [Act.apply, Hub.get?_onMailbox] at hs
    split_ifs at hs with hj
    · obtain ⟨s, hold, rfl⟩ := Option.map_eq_some_iff.mp hs
      exact failure_touch t (hf s (hj ▸ hold)) h.busy
    · exact hf s hs
  | closeAll =>
    refine ⟨h.alike_close.nextId ▸ hid, fun s hs => ?_⟩
    rw [Act.apply, Hub.get?_close ht.wf.sorted] at hs
    obtain ⟨s, hold, rfl⟩ := Option.map_eq_some_iff.mp hs
    split_ifs
    · exact (Mailbox.fst_close s.mailbox 0).symm ▸ hf s hold
    · exact hf s hold
  | drop j =>
    refine ⟨(h.nextId_remove j).symm ▸ hid, fun s hs => ?_⟩
    rw [Act.apply, Hub.get?_remove] at hs
    split_ifs at hs
    exact hf s hs

/-! ### Any number of acts -/

lemma tallied_run {h : Hub} (ht : h.Tallied) (acts : List Act) : (run h acts).Tallied := by
  induction acts generalizing h with
  | nil => exact ht
  | cons act rest ih => exact ih (tallied_apply ht act)

/-- **The failure of a mailbox is the first one, for good.** -/
theorem spoilt_run {h : Hub} (ht : h.Tallied) {id : Nat} {e : DeliveryError} (hf : Spoilt id e h)
    (acts : List Act) : Spoilt id e (run h acts) := by
  induction acts generalizing h with
  | nil => exact hf
  | cons act rest ih => exact ih (tallied_apply ht act) (spoilt_apply ht hf act)

/-- **Mailboxes are kept in order**, whatever is done to them. The number of busy ones is how many
are, and it is not zero when there is one to be taken out. A mailbox is busy exactly if something is
queued in it that has neither failed nor been closed. Failing it empties it, and only the first
error counts: from then on it keeps that error, is empty, and takes nothing. A subscriber that waits
and has no wake-up waits before an open and empty mailbox. -/
theorem kept_in_order (acts : List Act) :
    let h := run {} acts
    h.busy = h.subscriptions.count (fun s => s.mailbox.holding) ∧
    ∀ id s, h.subscriptions.get? id = some s →
      (s.mailbox.holding = true → 0 < h.busy) ∧
      (s.mailbox.holding = true ↔
        s.mailbox.queue ≠ [] ∧ s.mailbox.failure = none ∧ s.mailbox.closed = false) ∧
      (s.mailbox.waiting = true → s.mailbox.wake = false →
        s.mailbox.queue = [] ∧ s.mailbox.failure = none ∧ s.mailbox.closed = false) ∧
      (∀ e, ∃ s', (h.fail id e).subscriptions.get? id = some s' ∧
        s'.mailbox.failure = s.mailbox.failure.or (some e) ∧ s'.mailbox.queue = [] ∧
        s'.mailbox.holding = false) ∧
      ∀ e, s.mailbox.failure = some e → ∀ more s',
        (run h more).subscriptions.get? id = some s' →
          s'.mailbox.failure = some e ∧ s'.mailbox.queue = [] ∧
          ∀ slice busy, s'.mailbox.deliver slice busy = (s'.mailbox, busy) := by
  intro h
  have ht : h.Tallied := tallied_run Hub.tallied_empty acts
  refine ⟨ht.busy, fun id s hs => ?_⟩
  obtain ⟨holding, -, waiting⟩ := ht.proper id s hs
  refine ⟨ht.busy_pos hs, ?_, fun hw hk => ?_, fun e => ?_, fun e he more s' hs' => ?_⟩
  · rw [holding, Mailbox.IsOpen]
    exact and_comm
  · obtain ⟨hopen, hempty⟩ := waiting hw hk
    exact ⟨hempty, hopen⟩
  · refine ⟨{ s with mailbox := (s.mailbox.fail e h.busy).1 }, ?_, ?_, ?_, ?_⟩
    · rw [Hub.fail, Hub.get?_onMailbox, if_pos rfl, hs, Option.map_some]
    all_goals simp only [Mailbox.fst_fail]
  · -- whatever is done to it later, it keeps the first error
    have hspoilt : Spoilt id e h := ⟨ht.wf.ids id s hs, fun t hold => by
      rw [hs] at hold
      exact Option.some.inj hold ▸ he⟩
    have hfailure := (spoilt_run ht hspoilt more).2 s' hs'
    have hproper := (tallied_run ht more).proper id s' hs'
    refine ⟨hfailure, hproper.failed (by simp [hfailure]), fun slice busy => ?_⟩
    simp [Mailbox.deliver, hfailure]

end TorrentFlow.Mailroom
