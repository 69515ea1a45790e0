import TorrentFlow.Proofs.Subscriptions

/-!
How busy a hub is. A mailbox is busy exactly as long as it is open and something is queued in it,
and the hub's number of busy mailboxes is how many of its mailboxes are. Whatever is done to a
mailbox answers the number without the mailbox as it was and with the mailbox as it is
(`Accounted`), so that the number stays right whichever of many mailboxes it is done to, and is
never lowered below zero.
-/

namespace TorrentFlow

namespace Mailbox

def IsOpen (m : Mailbox) : Prop := m.failure = none ∧ m.closed = false

/-- What holds of a mailbox between any two operations. -/
structure Proper (m : Mailbox) : Prop where
  holding : m.holding = true ↔ m.IsOpen ∧ m.queue ≠ []
  failed : m.failure ≠ none → m.queue = []
  /-- A subscriber that waits and has no wake-up misses nothing. -/
  waiting : m.waiting = true → m.wake = false → m.IsOpen ∧ m.queue = []

/-- How much a mailbox adds to the number of busy ones. -/
def weight (m : Mailbox) : Nat := if m.holding then 1 else 0

lemma weight_of_holding {m : Mailbox} (h : m.holding = true) : m.weight = 1 := by simp [weight, h]

lemma weight_of_not_holding {m : Mailbox} (h : m.holding = false) :
    m.weight = 0 := by simp [weight, h]

lemma proper_empty : Proper {} := by
  constructor <;> simp

lemma proper_shut : Proper shut := by
  constructor <;> simp [shut, IsOpen]

/-! ### What is done to a mailbox is accounted for -/

/-- From `m` and `busy` to `m'` and `busy'` the mailbox stayed proper and the number went along. -/
structure Accounted (m : Mailbox) (busy : Nat) (m' : Mailbox) (busy' : Nat) : Prop where
  proper : m.Proper → m'.Proper
  counts : (m.holding = true → 0 < busy) → busy' + m.weight = busy + m'.weight

namespace Accounted

variable {m m' m'' : Mailbox} {busy busy' busy'' : Nat}

lemma refl (m : Mailbox) (busy : Nat) : Accounted m busy m busy := ⟨id, fun _ => rfl⟩

lemma trans (h : Accounted m busy m' busy') (h' : Accounted m' busy' m'' busy'') :
    Accounted m busy m'' busy'' where
  proper hm := h'.proper (h.proper hm)
  counts hb := by
    have hfirst := h.counts hb
    have hpos : m'.holding = true → 0 < busy' := fun hh => by
      rw [weight_of_holding hh] at hfirst
      rcases hold : m.holding with _ | _
      · rw [weight_of_not_holding hold] at hfirst
        omega
      · have := hb hold
        rw [weight_of_holding hold] at hfirst
        omega
    have := h'.counts hpos
    omega

end Accounted

lemma counts_release (m : Mailbox) (busy : Nat) (hb : m.holding = true → 0 < busy) :
    (m.release busy).2 + m.weight = busy := by
  unfold release
  rcases hh : m.holding with _ | _
  · simp [weight_of_not_holding hh]
  · have := hb hh
    simp only [if_true, weight_of_holding hh]
    omega

lemma accounted_deliver (slice : List Alert) (m : Mailbox) (busy : Nat) :
    Accounted m busy (m.deliver slice busy).1 (m.deliver slice busy).2 := by
  unfold deliver
  split_ifs with hrefused hheld
  · exact .refl m busy
  all_goals
    simp only [Bool.or_eq_true, Option.isSome_iff_ne_none, List.isEmpty_iff, not_or, not_not,
      Bool.not_eq_true] at hrefused
    obtain ⟨⟨hf, hc⟩, hs⟩ := hrefused
    refine ⟨fun hm => ⟨?_, fun hne => absurd hf hne, fun _ hw => by cases hw⟩, fun _ => ?_⟩
    · simp [IsOpen, hf, hc, hs]
    · simp [weight, hheld]

lemma accounted_fail (e : DeliveryError) (m : Mailbox) (busy : Nat) :
    Accounted m busy (m.fail e busy).1 (m.fail e busy).2 := by
  refine ⟨fun _ => ?_, fun hb => ?_⟩
  · rw [fst_fail]
    constructor <;> simp
  · have hweight : ((m.fail e busy).1).weight = 0 := by rw [fst_fail]; rfl
    rw [hweight]
    exact counts_release { m with failure := m.failure.or (some e), queue := [] } busy hb

lemma accounted_close (m : Mailbox) (busy : Nat) :
    Accounted m busy (m.close busy).1 (m.close busy).2 := by
  refine ⟨fun hm => ?_, fun hb => ?_⟩
  · rw [fst_close]
    exact ⟨by simp [IsOpen], hm.failed, fun _ hw => by cases hw⟩
  · have hweight : ((m.close busy).1).weight = 0 := by rw [fst_close]; rfl
    rw [hweight]
    exact counts_release { m with closed := true } busy hb

lemma accounted_cancel (m : Mailbox) (busy : Nat) : Accounted m busy m.cancel busy :=
  ⟨fun hm => ⟨hm.holding, hm.failed, fun hw => by cases hw⟩, fun _ => rfl⟩

/-! ### A subscriber's turn, in its smallest steps -/

def rouse (m : Mailbox) : Mailbox :=
  if m.waiting && m.wake then { m with wake := false, waiting := false } else m

/-- A subscriber looks, unless it waits; if it finds nothing it waits from then on. -/
def ask (m : Mailbox) (busy : Nat) : Option (Except DeliveryError Alert) × Mailbox × Nat :=
  if m.waiting then (none, m, busy) else m.attempt busy

lemma accounted_rouse (m : Mailbox) (busy : Nat) : Accounted m busy m.rouse busy := by
  unfold rouse
  split_ifs
  · exact ⟨fun hm => ⟨hm.holding, hm.failed, fun hw => by cases hw⟩, fun _ => rfl⟩
  · exact .refl m busy

lemma proper_attempt {m : Mailbox} (hm : m.Proper) (busy : Nat) : (m.attempt busy).2.1.Proper := by
  obtain ⟨holding, failed, -⟩ := hm
  obtain ⟨queue, holding', failure, closed, wake, waiting⟩ := m
  rcases failure with _ | e
  · rcases queue with _ | ⟨a, rest⟩
    · -- whoever waits after this look has found the mailbox open and empty
      constructor
      · simp [attempt, look, fst_release]
      · simp [attempt, look, fst_release]
      · rintro hw -
        simpa [attempt, look, fst_release, IsOpen] using hw
    · by_cases hr : rest = []
      · constructor <;> simp [attempt, look, fst_release, hr]
      · constructor <;> simp [attempt, look, hr]
        simpa [IsOpen] using holding
  · constructor
    · simpa [attempt, look, IsOpen] using holding
    · simpa [attempt, look] using failed
    · simp [attempt, look]

lemma accounted_attempt (m : Mailbox) (busy : Nat) :
    Accounted m busy (m.attempt busy).2.1 (m.attempt busy).2.2 := by
  refine ⟨fun hm => proper_attempt hm busy, fun hb => ?_⟩
  obtain ⟨queue, holding, failure, closed, wake, waiting⟩ := m
  rcases failure with _ | e
  · rcases queue with _ | ⟨a, rest⟩
    · have hc := counts_release ⟨[], holding, none, closed, wake, waiting⟩ busy hb
      simpa [attempt, look, fst_release, weight] using hc
    · have hc := counts_release ⟨rest, holding, none, closed, wake, waiting⟩ busy hb
      by_cases hr : rest = []
      · simpa [attempt, look, fst_release, weight, hr] using hc
      · simp [attempt, look, weight, hr]
  · rfl

lemma accounted_ask (m : Mailbox) (busy : Nat) :
    Accounted m busy (m.ask busy).2.1 (m.ask busy).2.2 := by
  unfold ask
  split_ifs
  · exact .refl m busy
  · exact accounted_attempt m busy

/-- Whether somebody waited before it looked makes no difference to what it finds. -/
lemma attempt_waiting (m : Mailbox) (busy : Nat) (waiting : Bool) :
    { m with waiting }.attempt busy = m.attempt busy := by
  obtain ⟨queue, holding, failure, closed, wake, waiting'⟩ := m
  rcases failure with _ | e
  · rcases queue with _ | ⟨a, rest⟩
    · by_cases hh : holding = true <;> simp [attempt, look, release, hh]
    · by_cases hr : rest = [] <;> by_cases hh : holding = true <;>
        simp [attempt, look, release, hr, hh]
  · simp [attempt, look]

lemma waiting_ask {m : Mailbox} {busy : Nat} (h : (m.ask busy).1 = none) :
    (m.ask busy).2.1.waiting = true := by
  by_cases hw : m.waiting = true
  · rw [ask, if_pos hw]
    exact hw
  · rw [ask, if_neg hw] at h ⊢
    have hfound : (m.look busy).1 = none := h
    simp [attempt, hfound]

lemma ask_rouse_of_isAwake {m : Mailbox} (h : m.isAwake = true) (busy : Nat) :
    m.useWake.attempt busy = m.rouse.ask busy := by
  obtain ⟨queue, holding, failure, closed, wake, waiting⟩ := m
  rcases waiting with _ | _
  · simp [useWake, rouse, ask]
  · obtain rfl : wake = true := by simpa [isAwake] using h
    have hlook := attempt_waiting ⟨queue, holding, failure, closed, false, true⟩ busy false
    simpa [useWake, rouse, ask] using hlook.symm

lemma ask_rouse_of_not_isAwake {m : Mailbox} (h : m.isAwake = false) (busy : Nat) :
    m.rouse.ask busy = (none, m, busy) := by
  unfold isAwake at h
  simp only [Bool.or_eq_false_iff, Bool.not_eq_false'] at h
  simp [rouse, ask, h.1, h.2]

/-- **Polling is being roused and looking, at most twice.** -/
theorem poll_eq (m : Mailbox) (busy : Nat) : m.poll busy =
    if (m.rouse.ask busy).1.isSome then m.rouse.ask busy
    else (m.rouse.ask busy).2.1.rouse.ask (m.rouse.ask busy).2.2 := by
  unfold poll
  rcases ha : m.isAwake with _ | _
  · simp [ask_rouse_of_not_isAwake ha]
  simp only [Bool.not_true, Bool.false_eq_true, if_false]
  rw [ask_rouse_of_isAwake ha]
  have hwaits := @waiting_ask m.rouse busy
  rcases hask : m.rouse.ask busy with ⟨_ | r, m', busy'⟩
  · have hw : m'.waiting = true := by simpa [hask] using hwaits
    rcases hk : m'.wake with _ | _
    · simp [hk, ask_rouse_of_not_isAwake (show m'.isAwake = false by simp [isAwake, hw, hk])]
    · simp [hk, ask_rouse_of_isAwake (show m'.isAwake = true by simp [isAwake, hk])]
  · simp

lemma accounted_poll (m : Mailbox) (busy : Nat) :
    Accounted m busy (m.poll busy).2.1 (m.poll busy).2.2 := by
  have hturn : ∀ (m : Mailbox) (busy : Nat),
      Accounted m busy (m.rouse.ask busy).2.1 (m.rouse.ask busy).2.2 := fun m busy =>
    (accounted_rouse m busy).trans (accounted_ask m.rouse busy)
  rw [poll_eq]
  split_ifs
  · exact hturn m busy
  · exact (hturn m busy).trans (hturn _ _)

end Mailbox

namespace Hub

open Table

/-- Mailboxes are proper, and the number of busy ones is right. -/
structure Tallied (h : Hub) : Prop where
  wf : h.Wf
  proper : ∀ id s, h.subscriptions.get? id = some s → s.mailbox.Proper
  busy : h.busy = h.subscriptions.count fun s => s.mailbox.holding

lemma tallied_empty : Tallied {} where
  wf := wf_empty
  proper id s h := by simp [get?, find] at h
  busy := rfl

lemma Tallied.busy_pos {h : Hub} (ht : h.Tallied) {id : Nat} {s : Subscription}
    (hs : h.subscriptions.get? id = some s) (hh : s.mailbox.holding = true) : 0 < h.busy :=
  ht.busy ▸ count_pos hs hh

lemma Tallied.idle {h : Hub} (ht : h.Tallied) (hb : h.busy = 0) {id : Nat} {s : Subscription}
    (hs : h.subscriptions.get? id = some s) : s.mailbox.holding = false := by
  rcases hh : s.mailbox.holding with _ | _
  · rfl
  · have := ht.busy_pos hs hh
    omega

/-- When nobody is busy whatever is open has been emptied. -/
lemma Tallied.emptied {h : Hub} (ht : h.Tallied) {id : Nat} {s : Subscription}
    (hs : h.subscriptions.get? id = some s) (hh : s.mailbox.holding = false)
    (ho : s.mailbox.IsOpen) : s.mailbox.queue = [] := by
  by_contra hne
  rw [(ht.proper id s hs).holding.mpr ⟨ho, hne⟩] at hh
  cases hh

lemma Tallied.busy_eq_zero {h : Hub} (ht : h.Tallied)
    (hidle : ∀ id s, h.subscriptions.get? id = some s → s.mailbox.holding = false) :
    h.busy = 0 := by
  rw [ht.busy]
  by_contra hne
  obtain ⟨id, s, hs, hh⟩ := exists_of_count_pos ht.wf.sorted (Nat.pos_of_ne_zero hne)
  rw [hidle id s hs] at hh
  cases hh

lemma Tallied.set {h : Hub} (ht : h.Tallied) {id : Nat} {s s' : Subscription} {busy : Nat}
    (hs : h.subscriptions.get? id = some s) (hterms : s'.terms = s.terms)
    (hm : s.mailbox.Accounted h.busy s'.mailbox busy) :
    Tallied { h with subscriptions := h.subscriptions.set id s', busy } where
  wf := (alike_set s' hs hterms busy h.closed).wf ht.wf
  proper j t hj := by
    rw [get?_set] at hj
    split_ifs at hj
    · exact Option.some.inj hj ▸ hm.proper (ht.proper id s hs)
    · exact ht.proper j t hj
  busy := by
    have hc := count_set ht.wf.sorted (fun s => s.mailbox.holding) id s'
    rw [hs, weight_some, ← ht.busy] at hc
    have := hm.counts (ht.busy_pos hs)
    simp only [Mailbox.weight] at this
    dsimp only
    omega

/-- **Whatever is done to one mailbox, and accounted for, keeps the number right.** -/
theorem Tallied.onMailbox {h : Hub} (ht : h.Tallied) (id : Nat) {f : Mailbox → Nat → Mailbox × Nat}
    (hf : ∀ m busy, Mailbox.Accounted m busy (f m busy).1 (f m busy).2) :
    (h.onMailbox id f).Tallied := by
  unfold Hub.onMailbox
  rcases hs : h.subscriptions.get? id with _ | s
  · exact ht
  · exact ht.set hs rfl (hf s.mailbox h.busy)

lemma Tallied.onEach {α : Type} {f : α → Mailbox → Nat → Mailbox × Nat}
    (hf : ∀ a m busy, Mailbox.Accounted m busy (f a m busy).1 (f a m busy).2) (l : List (Nat × α))
    {h : Hub} (ht : h.Tallied) : (onEach f l h).Tallied := by
  induction l generalizing h with
  | nil => exact ht
  | cons e rest ih => exact ih (ht.onMailbox e.1 (hf e.2))

lemma Tallied.dispatch {h : Hub} (ht : h.Tallied) (batch : List Alert) :
    (h.dispatch batch).Tallied := by
  rw [dispatch_eq]
  exact ht.onEach Mailbox.accounted_deliver _

lemma Tallied.flags {h : Hub} (ht : h.Tallied) (closed stopped : Bool) :
    Tallied { h with closed, stopped } :=
  ⟨⟨ht.wf.ids, ht.wf.sorted, ht.wf.tidy, ht.wf.filed⟩, ht.proper, ht.busy⟩

lemma Tallied.close {h : Hub} (ht : h.Tallied) : h.close.Tallied := by
  rw [close_eq]
  exact (ht.flags true h.stopped).onEach (fun _ => Mailbox.accounted_close) _

lemma Tallied.add {h : Hub} (ht : h.Tallied) (r : Request) : (h.add r).2.Tallied := by
  have hmailbox : (h.newcomer r).mailbox = .shut ∨ (h.newcomer r).mailbox = {} := by
    by_cases hc : h.closed = true <;> simp [newcomer, hc]
  refine ⟨ht.wf.add r, fun j t hj => ?_, ?_⟩
  · rw [add_eq, get?_set] at hj
    split_ifs at hj
    · rw [← Option.some.inj hj]
      rcases hmailbox with heq | heq
      · exact heq ▸ Mailbox.proper_shut
      · exact heq ▸ Mailbox.proper_empty
    · exact ht.proper j t hj
  · have hc := count_set ht.wf.sorted (fun s => s.mailbox.holding) h.nextId (h.newcomer r)
    have hidle : (h.newcomer r).mailbox.holding = false := by
      rcases hmailbox with heq | heq <;> exact heq ▸ rfl
    rw [ht.wf.fresh, weight_none, ← ht.busy, hidle] at hc
    rw [add_eq]
    exact hc.symm

lemma Tallied.remove {h : Hub} (ht : h.Tallied) (id : Nat) : (h.remove id).Tallied := by
  refine ⟨ht.wf.remove id, fun j t hj => ?_, ?_⟩
  · rw [get?_remove] at hj
    split_ifs at hj
    exact ht.proper j t hj
  · rcases hs : h.subscriptions.get? id with _ | s
    · simp only [Hub.remove, hs]
      exact ht.busy
    · -- who goes has let go before, so that the number is already without it
      have hlet := Mailbox.counts_release s.mailbox h.busy (ht.busy_pos hs)
      have hset := count_set ht.wf.sorted (fun s => s.mailbox.holding) id
        { s with mailbox := (s.mailbox.release h.busy).1 }
      have herase := count_erase
        (ht.wf.sorted.set id { s with mailbox := (s.mailbox.release h.busy).1 })
        (fun s => s.mailbox.holding) id
      rw [get?_set, if_pos rfl, weight_some] at herase
      rw [hs, weight_some, ← ht.busy] at hset
      simp only [Mailbox.fst_release, Mailbox.weight] at hlet hset herase
      rw [remove_eq hs]
      simp only [Hub.onMailbox, hs, Mailbox.fst_release]
      omega

end Hub

end TorrentFlow
