import Mathlib.Tactic.Lemma
import Mathlib.Tactic.SplitIfs
import TorrentFlow.Delivery.Mailbox

/-!
What each operation on a mailbox does to its queue, its failure and its being closed. The number of
busy mailboxes decides none of this, so it is left open throughout.
-/

namespace TorrentFlow.Mailbox

def handed : Option (Except DeliveryError Alert) → List Alert
  | some (.ok a) => [a]
  | _ => []

/-! ### Filling -/

lemma deliver_nil (m : Mailbox) (busy : Nat) : m.deliver [] busy = (m, busy) := by
  simp [deliver]

/-- An open mailbox takes the whole slice, behind what it has. -/
lemma queue_deliver {m : Mailbox} (hf : m.failure = none) (hc : m.closed = false)
    (slice : List Alert) (busy : Nat) : (m.deliver slice busy).1.queue = m.queue ++ slice := by
  rcases slice with _ | ⟨a, rest⟩
  · simp [deliver_nil]
  · simp [deliver, hf, hc]

lemma mem_deliver {m : Mailbox} {slice : List Alert} {busy : Nat} {a : Alert}
    (h : a ∈ (m.deliver slice busy).1.queue) : a ∈ m.queue ∨ a ∈ slice := by
  unfold deliver at h
  split_ifs at h
  · exact Or.inl h
  all_goals exact List.mem_append.mp h

@[simp] lemma failure_deliver (m : Mailbox) (slice : List Alert) (busy : Nat) :
    (m.deliver slice busy).1.failure = m.failure := by
  unfold deliver
  split_ifs <;> rfl

@[simp] lemma closed_deliver (m : Mailbox) (slice : List Alert) (busy : Nat) :
    (m.deliver slice busy).1.closed = m.closed := by
  unfold deliver
  split_ifs <;> rfl

lemma fst_deliver (m : Mailbox) (slice : List Alert) (busy busy' : Nat) :
    (m.deliver slice busy).1 = (m.deliver slice busy').1 := by
  unfold deliver
  split_ifs <;> rfl

/-! ### Letting go, closing, failing -/

lemma fst_release (m : Mailbox) (busy : Nat) :
    (m.release busy).1 = { m with holding := false } := by
  unfold release
  by_cases h : m.holding = true
  · simp [h]
  · obtain ⟨queue, holding, failure, closed, wake, waiting⟩ := m
    simp only [Bool.not_eq_true] at h
    simp [h]

lemma fst_close (m : Mailbox) (busy : Nat) :
    (m.close busy).1 = { m with closed := true, holding := false, wake := true } := by
  simp [close, fst_release]

lemma fst_fail (e : DeliveryError) (m : Mailbox) (busy : Nat) :
    (m.fail e busy).1 = { m with
      failure := m.failure.or (some e), queue := [], holding := false, wake := true } := by
  simp [fail, fst_release]

/-! ### Emptying -/

@[simp] lemma queue_useWake (m : Mailbox) : m.useWake.queue = m.queue := by
  unfold useWake
  split_ifs <;> rfl

@[simp] lemma failure_useWake (m : Mailbox) : m.useWake.failure = m.failure := by
  unfold useWake
  split_ifs <;> rfl

@[simp] lemma closed_useWake (m : Mailbox) : m.useWake.closed = m.closed := by
  unfold useWake
  split_ifs <;> rfl

/-- What one look may find, and what it leaves behind. -/
structure Looked (m : Mailbox) (found : Option (Except DeliveryError Alert)) (m' : Mailbox) :
    Prop where
  queue : m.queue = handed found ++ m'.queue
  failure : m'.failure = m.failure
  closed : m'.closed = m.closed
  ok : ∀ a, found = some (.ok a) → m.failure = none
  error : ∀ e, found = some (.error e) →
    m.failure = some e ∨ (e = .shutdown ∧ m.closed = true)

lemma looked_look (m : Mailbox) (busy : Nat) :
    Looked m (m.look busy).1 (m.look busy).2.1 := by
  obtain ⟨queue, holding, failure, closed, wake, waiting⟩ := m
  rcases failure with _ | e
  · rcases queue with _ | ⟨a, rest⟩
    · by_cases hc : closed = true <;> constructor <;> simp [look, handed, fst_release, hc]
    · by_cases hr : rest = [] <;> constructor <;> simp [look, handed, fst_release, hr]
  · constructor <;> simp [look, handed]

lemma looked_attempt (m : Mailbox) (busy : Nat) :
    Looked m (m.attempt busy).1 (m.attempt busy).2.1 := by
  obtain ⟨queue, failure, closed, ok, error⟩ := looked_look m busy
  exact ⟨queue, failure, closed, ok, error⟩

/-- To look a second time after having found nothing is to look once. -/
lemma Looked.again {m m' m'' : Mailbox} {found : Option (Except DeliveryError Alert)}
    (h : Looked m none m') (h' : Looked m' found m'') : Looked m found m'' where
  queue := by rw [h.queue, h'.queue]; rfl
  failure := h'.failure.trans h.failure
  closed := h'.closed.trans h.closed
  ok a ha := h.failure ▸ h'.ok a ha
  error e he := h.failure ▸ h.closed ▸ h'.error e he

lemma Looked.of_useWake {m m' : Mailbox} {found : Option (Except DeliveryError Alert)}
    (h : Looked m.useWake found m') : Looked m found m' := by
  obtain ⟨queue, failure, closed, ok, error⟩ := h
  simp only [queue_useWake, failure_useWake, closed_useWake] at queue failure closed ok error
  exact ⟨queue, failure, closed, ok, error⟩

/-- **A subscriber takes alerts off the front**, and learns of a failure only if there is one. -/
theorem looked_poll (m : Mailbox) (busy : Nat) :
    Looked m (m.poll busy).1 (m.poll busy).2.1 := by
  unfold poll
  by_cases ha : m.isAwake = true
  · have h := (looked_attempt m.useWake busy).of_useWake
    simp only [ha, Bool.not_true, Bool.false_eq_true, if_false]
    rcases hat : m.useWake.attempt busy with ⟨_ | r, m', busy'⟩
    · rw [hat] at h
      by_cases hw : m'.wake = true
      · simp only [hw, if_true]
        exact h.again (looked_attempt m'.useWake busy').of_useWake
      · simp only [hw]
        exact h
    · rw [hat] at h
      exact h
  · simp only [ha, Bool.not_false, if_true]
    constructor <;> simp [handed]

end TorrentFlow.Mailbox
