import TorrentFlow.Proofs.Delivery.Invariant
import TorrentFlow.Proofs.Tally

/-!
What may become of the mailboxes of a hub while nothing is delivered: alerts leave them only by
being handed out or by a failure, a failure and a closing are for good, and a new mailbox is empty.
One lemma for each operation of the hub says so, and that the hub stays sound.
-/

namespace TorrentFlow

namespace Mailbox

/-- From `m` to `m'` nothing came in, and only `out` was handed out. -/
structure Passed (m : Mailbox) (out : List Alert) (m' : Mailbox) : Prop where
  failure : ∀ e, m.failure = some e → m'.failure = some e
  closed : m.closed = true → m'.closed = true
  queue : m'.failure = none → out ++ m'.queue = m.queue

namespace Passed

lemma refl (m : Mailbox) : Passed m [] m := ⟨fun _ he => he, fun hc => hc, fun _ => rfl⟩

lemma unfailed {m m' : Mailbox} {out : List Alert} (h : Passed m out m')
    (hf : m'.failure = none) : m.failure = none := by
  by_contra hne
  obtain ⟨e, he⟩ := Option.ne_none_iff_exists'.mp hne
  rw [h.failure e he] at hf
  cases hf

lemma isOpen {m m' : Mailbox} {out : List Alert} (h : Passed m out m') (ho : m'.IsOpen) :
    m.IsOpen := by
  obtain ⟨hf, hc⟩ := ho
  refine ⟨h.unfailed hf, ?_⟩
  by_contra hne
  rw [h.closed (by simpa using hne)] at hc
  cases hc

end Passed

lemma passed_poll (m : Mailbox) (busy : Nat) :
    Passed m (handed (m.poll busy).1) (m.poll busy).2.1 := by
  have hl := looked_poll m busy
  exact ⟨fun e he => hl.failure.trans he, fun hc => hl.closed.trans hc, fun _ => hl.queue.symm⟩

lemma passed_fail (e : DeliveryError) (m : Mailbox) (busy : Nat) :
    Passed m [] (m.fail e busy).1 := by
  rw [fst_fail]
  exact ⟨fun e' he => by simp [he], id, fun hf => by simp at hf⟩

lemma passed_close (m : Mailbox) (busy : Nat) : Passed m [] (m.close busy).1 := by
  rw [fst_close]
  exact ⟨fun _ => id, fun _ => rfl, fun _ => rfl⟩

/-- Nothing is delivered into a mailbox that is not open. -/
lemma deliver_of_not_isOpen {m : Mailbox} (ho : ¬ m.IsOpen) (slice : List Alert) (busy : Nat) :
    m.deliver slice busy = (m, busy) := by
  have hrefused : (m.failure.isSome || m.closed || slice.isEmpty) = true := by
    by_contra hne
    simp only [Bool.or_eq_true, not_or, Bool.not_eq_true, Option.isSome_eq_false_iff,
      Option.isNone_iff_eq_none] at hne
    exact ho hne.1
  simp only [deliver, hrefused, if_true]

end Mailbox

namespace Hub

open Table

def fresh (h : Hub) : Mailbox := if h.closed then .shut else {}

/-- What holds of a hub between any two steps. An open hub has open mailboxes, and a closed one
closed ones. -/
structure Sound (h : Hub) : Prop where
  tallied : h.Tallied
  served : Delivery.Served h
  shut : h.closed = true → ∀ id s, h.subscriptions.get? id = some s → s.mailbox.closed = true

lemma sound_empty : Sound {} where
  tallied := tallied_empty
  served _ id s hs := by simp [get?, find] at hs
  shut hc := by cases hc

lemma Sound.not_isOpen {h : Hub} (hs : h.Sound) (hc : h.closed = true) {id : Nat} {s : Subscription}
    (hget : h.subscriptions.get? id = some s) : ¬ s.mailbox.IsOpen := fun ho => by
  have hclosed := hs.shut hc id s hget
  rw [ho.2] at hclosed
  cases hclosed

lemma Sound.quiet {h : Hub} (hs : h.Sound) (hc : h.closed = true) : h.busy = 0 := by
  refine hs.tallied.busy_eq_zero fun id s hget => ?_
  by_contra hne
  exact hs.not_isOpen hc hget ((hs.tallied.proper id s hget).holding.mp (by simpa using hne)).1

/-- From `h` to `h'` the hub stayed sound, nothing was delivered, and each subscriber was handed
`out`. Whoever is new has a fresh mailbox, and whoever is told to stop closes. -/
structure Change (h : Hub) (out : Nat → List Alert) (h' : Hub) : Prop where
  sound : h'.Sound
  nextId : h.nextId ≤ h'.nextId
  closed : h.closed = true → h'.closed = true
  stopped : h'.stopped = true → h.stopped = true ∨ h'.closed = true
  absent : ∀ id, h.subscriptions.get? id = none → out id = []
  back : ∀ id s', h'.subscriptions.get? id = some s' →
    (∃ s, h.subscriptions.get? id = some s ∧ s.mailbox.Passed (out id) s'.mailbox) ∨
    (id = h.nextId ∧ s'.mailbox = h.fresh)

def nothing : Nat → List Alert := fun _ => []

lemma Change.of_eq {h h' : Hub} (hs : h.Sound) (he : h' = h) : Change h nothing h' := by
  rw [he]
  exact ⟨hs, Nat.le_refl _, id, .inl, fun _ _ => rfl, fun _ s hget => .inl ⟨s, hget, .refl _⟩⟩

/-- Nobody becomes busy as long as nothing is delivered. -/
lemma Change.busy {h h' : Hub} {out : Nat → List Alert} (hs : h.Sound) (hc : Change h out h')
    (hb : h.busy = 0) : h'.busy = 0 := by
  refine hc.sound.tallied.busy_eq_zero fun id s' hs' => ?_
  by_contra hne
  obtain ⟨hopen, hfull⟩ := (hc.sound.tallied.proper id s' hs').holding.mp (by simpa using hne)
  rcases hc.back id s' hs' with ⟨s, hget, hp⟩ | ⟨-, hfresh⟩
  · have hempty := hs.tallied.emptied hget (hs.tallied.idle hb hget) (hp.isOpen hopen)
    have hqueue := hp.queue hopen.1
    rw [hempty, List.append_eq_nil_iff] at hqueue
    exact hfull hqueue.2
  · rw [hfresh, fresh] at hfull
    split_ifs at hfull <;> exact hfull rfl

/-! ### One mailbox -/

lemma change_set {h : Hub} (hs : h.Sound) {id : Nat} {s : Subscription} (s' : Subscription)
    {busy : Nat} (hget : h.subscriptions.get? id = some s) (hterms : s'.terms = s.terms)
    (hm : s.mailbox.Accounted h.busy s'.mailbox busy)
    (hclosed : s'.mailbox.closed = s.mailbox.closed) {out : Nat → List Alert}
    (hself : s.mailbox.Passed (out id) s'.mailbox) (hothers : ∀ j, j ≠ id → out j = []) :
    Change h out { h with subscriptions := h.subscriptions.set id s', busy } where
  sound := by
    refine ⟨hs.tallied.set hget hterms hm, ?_, fun hc j t ht => ?_⟩
    · -- nobody else is changed, and this one stays as open as it was
      refine hs.served.alike (alike_set s' hget hterms busy h.closed) rfl fun j t t' ht ht' => ?_
      rw [get?_set] at ht'
      split_ifs at ht' with hj
      · obtain rfl := Option.some.inj ht'
        rw [hj, hget] at ht
        rw [hclosed, Option.some.inj ht]
      · rw [ht] at ht'
        rw [Option.some.inj ht']
    · rw [get?_set] at ht
      split_ifs at ht
      · obtain rfl := Option.some.inj ht
        rw [hclosed]
        exact hs.shut hc id s hget
      · exact hs.shut hc j t ht
  nextId := Nat.le_refl _
  closed hc := hc
  stopped := .inl
  absent j hj := hothers j fun e => by
    rw [e, hget] at hj
    cases hj
  back j t ht := by
    rw [get?_set] at ht
    split_ifs at ht with hj
    · obtain rfl := Option.some.inj ht
      exact .inl ⟨s, hj ▸ hget, hj ▸ hself⟩
    · rw [hothers j hj]
      exact .inl ⟨t, ht, .refl _⟩

lemma change_onMailbox {h : Hub} (hs : h.Sound) (id : Nat) {f : Mailbox → Nat → Mailbox × Nat}
    (hf : ∀ m busy, Mailbox.Accounted m busy (f m busy).1 (f m busy).2)
    (hc : ∀ m busy, (f m busy).1.closed = m.closed) {out : Nat → List Alert}
    (hself : ∀ s, h.subscriptions.get? id = some s →
      s.mailbox.Passed (out id) (f s.mailbox h.busy).1)
    (hnone : h.subscriptions.get? id = none → out id = []) (hothers : ∀ j, j ≠ id → out j = []) :
    Change h out (h.onMailbox id f) := by
  unfold onMailbox
  rcases hget : h.subscriptions.get? id with _ | s
  · have hout : out = nothing := funext fun j => by
      by_cases hj : j = id
      · rw [hj]
        exact hnone hget
      · exact hothers j hj
    rw [hout]
    exact .of_eq hs rfl
  · exact change_set hs { s with mailbox := (f s.mailbox h.busy).1 } hget rfl (hf _ _) (hc _ _)
      (hself s hget) hothers

lemma change_poll {h : Hub} (hs : h.Sound) (id : Nat) :
    Change h (fun j => if id = j then Mailbox.handed (h.poll id).1 else []) (h.poll id).2 := by
  rw [poll_snd]
  refine change_onMailbox hs id Mailbox.accounted_poll
    (fun m busy => (Mailbox.looked_poll m busy).closed) (fun s hget => ?_) (fun hget => ?_)
    fun j hj => if_neg fun e => hj e.symm
  · rw [if_pos rfl, poll_fst, hget]
    exact Mailbox.passed_poll s.mailbox h.busy
  · rw [if_pos rfl, poll_fst, hget]
    rfl

lemma change_cancel {h : Hub} (hs : h.Sound) (id : Nat) : Change h nothing (h.cancel id) :=
  change_onMailbox hs id Mailbox.accounted_cancel (fun _ _ => rfl)
    (fun _ _ => ⟨fun _ he => he, fun hc => hc, fun _ => rfl⟩) (fun _ => rfl) fun _ _ => rfl

lemma change_liveness {h : Hub} (hs : h.Sound) {id : Nat} {s : Subscription}
    (hget : h.subscriptions.get? id = some s) (liveness : Liveness) :
    Change h nothing { h with subscriptions := h.subscriptions.set id { s with liveness } } :=
  change_set hs { s with liveness } hget rfl (.refl _ _) rfl (.refl _) fun _ _ => rfl

/-- A subscription fails for what its torrent turned out to be. -/
lemma change_fail {h : Hub} (hs : h.Sound) {id : Nat} {s : Subscription}
    (hget : h.subscriptions.get? id = some s) (liveness : Liveness) (e : DeliveryError) :
    Change h nothing
      (fail { h with subscriptions := h.subscriptions.set id { s with liveness } } id e) := by
  simp only [fail, onMailbox, get?_set, if_true, set_set]
  exact change_set hs { s with liveness, mailbox := (s.mailbox.fail e h.busy).1 } hget rfl
    (Mailbox.accounted_fail e s.mailbox h.busy) (by rw [Mailbox.fst_fail])
    (s.mailbox.passed_fail e h.busy) fun _ _ => rfl

/-! ### Coming and going -/

lemma change_add {h : Hub} (hs : h.Sound) (r : Request) : Change h nothing (h.add r).2 := by
  have hget : ∀ j, (h.add r).2.subscriptions.get? j =
      if j = h.nextId then some (h.newcomer r) else h.subscriptions.get? j := fun j => by
    rw [add_eq, get?_set]
  refine ⟨⟨hs.tallied.add r, fun hopen j t ht => ?_, fun hc j t ht => ?_⟩, Nat.le_succ _,
    fun hc => hc, .inl, fun _ _ => rfl, fun j t ht => ?_⟩
  · have hopen : h.closed = false := hopen
    rw [hget] at ht
    split_ifs at ht
    · obtain rfl := Option.some.inj ht
      simp [newcomer, hopen]
    · exact hs.served hopen j t ht
  · have hc : h.closed = true := hc
    rw [hget] at ht
    split_ifs at ht
    · obtain rfl := Option.some.inj ht
      simp [newcomer, hc, Mailbox.shut]
    · exact hs.shut hc j t ht
  · rw [hget] at ht
    split_ifs at ht with hj
    · obtain rfl := Option.some.inj ht
      exact .inr ⟨hj, rfl⟩
    · exact .inl ⟨t, ht, .refl _⟩

lemma change_remove {h : Hub} (hs : h.Sound) (id : Nat) : Change h nothing (h.remove id) := by
  have hback : ∀ j t, (h.remove id).subscriptions.get? j = some t →
      h.subscriptions.get? j = some t := fun j t ht => by
    rw [get?_remove] at ht
    split_ifs at ht
    exact ht
  refine ⟨⟨hs.tallied.remove id, fun hopen j t ht => ?_, fun hc j t ht => ?_⟩,
    Nat.le_of_eq (h.nextId_remove id).symm, fun hc => (h.closed_remove id).trans hc,
    fun hst => .inl ((h.stopped_remove id).symm.trans hst), fun _ _ => rfl,
    fun j t ht => .inl ⟨t, hback j t ht, .refl _⟩⟩
  · exact hs.served ((h.closed_remove id).symm.trans hopen) j t (hback j t ht)
  · exact hs.shut ((h.closed_remove id).symm.trans hc) j t (hback j t ht)

/-! ### Closing -/

lemma change_close {h : Hub} (hs : h.Sound) : Change h nothing h.close where
  sound := by
    refine ⟨hs.tallied.close, fun hopen => ?_, fun _ j t ht => ?_⟩
    · rw [closed_close] at hopen
      cases hopen
    · rw [get?_close hs.tallied.wf.sorted] at ht
      obtain ⟨s, hget, rfl⟩ := Option.map_eq_some_iff.mp ht
      split_ifs with hl
      · exact congrArg Mailbox.closed (Mailbox.fst_close s.mailbox 0)
      · -- everybody is listed as long as the hub is open
        refine hs.shut ?_ j s hget
        by_contra hne
        exact hl (hs.served (by simpa using hne) j s hget).1
  nextId := Nat.le_of_eq h.alike_close.nextId.symm
  closed _ := h.closed_close
  stopped _ := .inr h.closed_close
  absent _ _ := rfl
  back j t ht := by
    rw [get?_close hs.tallied.wf.sorted] at ht
    obtain ⟨s, hget, rfl⟩ := Option.map_eq_some_iff.mp ht
    refine .inl ⟨s, hget, ?_⟩
    split_ifs
    · exact s.mailbox.passed_close 0
    · exact .refl _

lemma change_stop {h : Hub} (hs : h.Sound) : Change h nothing h.stop := by
  have hasked : Sound { h with stopped := true } :=
    ⟨hs.tallied.flags h.closed true, hs.served, hs.shut⟩
  obtain ⟨sound, nextId, closed, -, absent, back⟩ := change_close hasked
  exact ⟨sound, nextId, closed, fun _ => .inr (closed_close _), absent, back⟩

/-! ### Delivering -/

lemma sound_dispatch {h : Hub} (hs : h.Sound) (batch : List Alert) : (h.dispatch batch).Sound := by
  have hclosed : (h.dispatch batch).closed = h.closed := by
    rw [dispatch_eq, closed_onEach]
  refine ⟨hs.tallied.dispatch batch, ?_, fun hc j t ht => ?_⟩
  · refine hs.served.alike (h.alike_dispatch batch) hclosed fun j s t hget ht => ?_
    rw [get?_dispatch, hget, Option.map_some, Option.some.injEq] at ht
    rw [← ht, Mailbox.closed_deliver]
  · rw [hclosed] at hc
    rw [get?_dispatch] at ht
    obtain ⟨s, hget, rfl⟩ := Option.map_eq_some_iff.mp ht
    rw [Mailbox.closed_deliver]
    exact hs.shut hc j s hget

/-- **Nothing is delivered when delivery has ended.** -/
lemma get?_dispatch_of_closed {h : Hub} (hs : h.Sound) (hc : h.closed = true) (batch : List Alert)
    (j : Nat) : (h.dispatch batch).subscriptions.get? j = h.subscriptions.get? j := by
  rw [get?_dispatch]
  rcases hget : h.subscriptions.get? j with _ | s
  · rfl
  · rw [Option.map_some, Mailbox.deliver_of_not_isOpen (hs.not_isOpen hc hget)]

lemma change_dispatch_of_closed {h : Hub} (hs : h.Sound) (hc : h.closed = true)
    (batch : List Alert) : Change h nothing (h.dispatch batch) where
  sound := sound_dispatch hs batch
  nextId := Nat.le_of_eq (h.alike_dispatch batch).nextId.symm
  closed _ := by rw [dispatch_eq, closed_onEach, hc]
  stopped hst := .inl (by rwa [dispatch_eq, stopped_onEach] at hst)
  absent _ _ := rfl
  back j t ht := by
    rw [get?_dispatch_of_closed hs hc] at ht
    exact .inl ⟨t, ht, .refl _⟩

end Hub

end TorrentFlow
