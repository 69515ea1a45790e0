import TorrentFlow.Proofs.Pumping.Steps
import TorrentFlow.Session.Control

/-!
The end of delivery. Once it was told to stop, or a pump has come to an end, the hub is closed for
good and so is every mailbox in it, the mailboxes of those who come later included. Nobody waits any
more: whoever asks gets what is left in his mailbox, and after that the news of the shutdown; or the
failure, if there was one.
-/

namespace TorrentFlow

namespace Mailbox

/-- What is answered of a queue to which nothing will be added. -/
def firstOf : List Alert → Except DeliveryError Alert
  | a :: _ => .ok a
  | [] => .error .shutdown

/-- What a mailbox answers that is not open. -/
def lastWord (m : Mailbox) : Except DeliveryError Alert :=
  match m.failure with
  | some e => .error e
  | none => firstOf m.queue

/-- **Nobody waits before a mailbox that is not open.** -/
theorem poll_of_not_isOpen {m : Mailbox} (hm : m.Proper) (ho : ¬ m.IsOpen) (busy : Nat) :
    (m.poll busy).1 = some m.lastWord := by
  have hawake : m.isAwake = true := by
    by_contra hne
    simp only [isAwake, Bool.or_eq_true, Bool.not_eq_true', not_or, Bool.not_eq_false,
      Bool.not_eq_true] at hne
    exact ho (hm.waiting hne.1 hne.2).1
  have hlook : (m.useWake.attempt busy).1 = some m.lastWord := by
    show (m.useWake.look busy).1 = some m.lastWord
    simp only [look, lastWord, failure_useWake, queue_useWake]
    rcases hf : m.failure with _ | e
    · rcases hq : m.queue with _ | ⟨a, rest⟩
      · have hc : m.closed = true := by
          by_contra hne
          exact ho ⟨hf, by simpa using hne⟩
        simp [fst_release, hc, firstOf]
      · by_cases hr : rest = [] <;> simp [hr, firstOf]
    · rfl
  rcases hattempt : m.useWake.attempt busy with ⟨found, m', busy'⟩
  obtain rfl : found = some m.lastWord := by simpa only [hattempt] using hlook
  simp only [poll, hawake, Bool.not_true, Bool.false_eq_true, if_false, hattempt]

end Mailbox

namespace Pumping

open Delivery (isOver)

variable {σ : Type}

def answers (id : Nat) (trace : List Mark) : List (Option (Except DeliveryError Alert)) :=
  trace.filterMap fun mark => match mark with
    | .received id' answer => if id' = id then some answer else none
    | _ => none

/-- What somebody is answered who asks so many times for what is left in a queue. -/
def farewell : List Alert → Nat → List (Option (Except DeliveryError Alert))
  | _, 0 => []
  | a :: rest, n + 1 => some (.ok a) :: farewell rest n
  | [], n + 1 => some (.error .shutdown) :: farewell [] n

lemma farewell_succ (queue : List Alert) (n : Nat) :
    farewell queue (n + 1) = farewell queue n ++ [some (Mailbox.firstOf (queue.drop n))] := by
  induction n generalizing queue with
  | zero => cases queue <;> rfl
  | succ n ih =>
    cases queue with
    | nil =>
      have hrest := congrArg (some (.error .shutdown) :: ·) (ih [])
      rw [List.drop_nil] at hrest ⊢
      exact hrest
    | cons a rest => exact congrArg (some (.ok a) :: ·) (ih rest)

lemma answers_snoc (id : Nat) (trace : List Mark) (mark : Mark) :
    answers id (trace ++ [mark]) = answers id trace ++ answers id [mark] :=
  List.filterMap_append

lemma asked_or_not {p q : Pipeline σ} {mark : Mark} (he : Effect p mark q) (id : Nat) :
    (answers id [mark] = [] ∧ mark.handed id = []) ∨ mark = .received id (p.hub.poll id).1 := by
  cases he with
  | @received id' =>
    by_cases hid : id' = id
    · exact .inr (by rw [hid])
    · exact .inl ⟨by simp [answers, hid], if_neg hid⟩
  | beside | opened => exact .inl ⟨rfl, rfl⟩
  | turned _ ht =>
    generalize q.hub = hub at ht
    cases ht <;> exact .inl ⟨rfl, rfl⟩

/-! ### One step after the end -/

lemma change_of_closed {p q : Pipeline σ} {mark : Mark} (hs : p.hub.Sound)
    (hc : p.hub.closed = true) (he : Effect p mark q) :
    p.hub.Change (fun id => mark.handed id) q.hub := by
  rcases change_or_dispatched hs he with hchange | ⟨batch, rfl, hh⟩
  · exact hchange
  · exact hh ▸ Hub.change_dispatch_of_closed hs hc batch

/-- **Whoever asks is answered**, after the end. -/
lemma answer_of_closed {h : Hub} (hs : h.Sound) (hc : h.closed = true) {id : Nat} {s : Subscription}
    (hget : h.subscriptions.get? id = some s) : (h.poll id).1 = some s.mailbox.lastWord := by
  rw [Hub.poll_fst, hget]
  exact Mailbox.poll_of_not_isOpen (hs.tallied.proper id s hget) (hs.not_isOpen hc hget) h.busy

/-! ### All steps after the end -/

/-- From one mailbox to another what was there is handed out, and then the news of the end; unless
there was a failure, which is all that is handed out. -/
structure Parting (m : Mailbox) (answered : List (Option (Except DeliveryError Alert)))
    (m' : Mailbox) : Prop where
  failure : ∀ e, m.failure = some e → m'.failure = some e ∧ ∀ a ∈ answered, a = some (.error e)
  queue : m'.failure = none → m.failure = none ∧ answered = farewell m.queue answered.length ∧
    m'.queue = m.queue.drop answered.length

lemma Parting.refl (m : Mailbox) : Parting m [] m :=
  ⟨fun _ he => ⟨he, nofun⟩, fun hf => ⟨hf, by cases m.queue <;> rfl, rfl⟩⟩

lemma Parting.still {m m' m'' : Mailbox} {answered : List (Option (Except DeliveryError Alert))}
    (h : Parting m answered m') (hp : m'.Passed [] m'') : Parting m answered m'' where
  failure e he := by
    obtain ⟨he', hall⟩ := h.failure e he
    exact ⟨hp.failure e he', hall⟩
  queue hf := by
    obtain ⟨hf', hq⟩ := h.queue (hp.unfailed hf)
    exact ⟨hf', hq.1, (hp.queue hf).trans hq.2⟩

lemma Parting.ask {m m' m'' : Mailbox} {answered : List (Option (Except DeliveryError Alert))}
    (h : Parting m answered m') (hp : m'.Passed (Mailbox.handed (some m'.lastWord)) m'') :
    Parting m (answered ++ [some m'.lastWord]) m'' where
  failure e he := by
    obtain ⟨he', hall⟩ := h.failure e he
    refine ⟨hp.failure e he', fun a ha => ?_⟩
    rcases List.mem_append.mp ha with ha | ha
    · exact hall a ha
    · rw [List.mem_singleton.mp ha, Mailbox.lastWord, he']
  queue hf := by
    obtain ⟨hf₀, hanswered, hq⟩ := h.queue (hp.unfailed hf)
    have hword : m'.lastWord = Mailbox.firstOf (m.queue.drop answered.length) := by
      rw [Mailbox.lastWord, hp.unfailed hf, hq]
    have hrest := hp.queue hf
    refine ⟨hf₀, ?_, ?_⟩
    · rw [List.length_append, List.length_singleton, farewell_succ, ← hanswered, hword]
    · rw [hword, hq] at hrest
      rw [List.length_append, List.length_singleton, ← List.tail_drop]
      rcases hd : m.queue.drop answered.length with _ | ⟨a, rest⟩ <;> rw [hd] at hrest
      · exact hrest
      · exact (List.cons.inj hrest).2

section Runs

variable [Engine σ] [DecidableEq σ]

/-- What holds of all steps that follow the end. -/
structure Closing (p q : Pipeline σ) (trace : List Mark) : Prop where
  kept : Kept q
  closed : q.hub.closed = true
  nextId : p.hub.nextId ≤ q.hub.nextId
  parting : ∀ id s s', p.hub.subscriptions.get? id = some s →
    q.hub.subscriptions.get? id = some s' → Parting s.mailbox (answers id trace) s'.mailbox

theorem closing_run {p q : Pipeline σ} {trace : List Mark} (hk : Kept p)
    (hc : p.hub.closed = true) (hrun : Run p trace q) : Closing p q trace := by
  induction hrun with
  | nil =>
    refine ⟨hk, hc, Nat.le_refl _, fun id s s' hs hs' => ?_⟩
    rw [hs] at hs'
    exact Option.some.inj hs' ▸ .refl _
  | @snoc q r trace mark _ hstep ih =>
    have hs := ih.kept.hub
    have he := effect_step hs hstep
    have hchange := change_of_closed hs ih.closed he
    refine ⟨kept_effect ih.kept he, hchange.closed ih.closed, Nat.le_trans ih.nextId hchange.nextId,
      fun id s s'' hget hget'' => ?_⟩
    rcases hchange.back id s'' hget'' with ⟨s', hget', hp⟩ | ⟨hid, -⟩
    · have hparting := ih.parting id s s' hget hget'
      rw [answers_snoc]
      rcases asked_or_not he id with ⟨hnone, hout⟩ | rfl
      · rw [hnone, List.append_nil]
        exact hparting.still (hout ▸ hp)
      · have hword := answer_of_closed hs ih.closed hget'
        simp only [Mark.handed, if_true, hword] at hp
        simpa [answers, hword] using hparting.ask hp
    · -- numbers are not given out again
      have := hk.hub.tallied.wf.ids id s hget
      have := ih.nextId
      omega

/-- **The end of delivery.** After it, in whatever state: nobody is busy, so that to wait until
nobody is succeeds at once; delivering changes no mailbox; whoever asks is answered, and never
waits; and all that a subscriber is answered is what was queued, in order, and then the news of the
shutdown, unless its subscription fails. If it had failed before it is answered that failure each
time. -/
theorem closed_for_good {settings : Settings} {engine : σ} {trace more : List Mark}
    {p q : Pipeline σ} (hrun : Run (Pipeline.assemble settings engine) trace p)
    (hend : p.hub.stopped = true ∨ ∃ pump ∈ p.pumps, isOver pump = true) (hmore : Run p more q) :
    q.hub.busy = 0 ∧
    (∀ (session : Session σ) (timeout : Duration), session.pipeline = q →
      (session.awaitIdle timeout).1 = .ok ()) ∧
    (∀ batch id, (q.hub.dispatch batch).subscriptions.get? id = q.hub.subscriptions.get? id) ∧
    (∀ id s, q.hub.subscriptions.get? id = some s →
      (q.pollSubscription id).1 = some s.mailbox.lastWord) ∧
    ∀ id s s', p.hub.subscriptions.get? id = some s → q.hub.subscriptions.get? id = some s' →
      (s'.mailbox.failure = none →
        answers id more = farewell s.mailbox.queue (answers id more).length) ∧
      ∀ e, s.mailbox.failure = some e → ∀ answer ∈ answers id more, answer = some (.error e) := by
  have hk : Kept p := kept_run (kept_assemble settings engine) hrun
  have hc : p.hub.closed = true := by
    rcases hend with hs | ⟨pump, hpump, ho⟩
    · exact hk.asked hs
    · exact hk.ended pump hpump ho
  obtain ⟨hkept, hclosed, -, hparting⟩ := closing_run hk hc hmore
  have hbusy := hkept.hub.quiet hclosed
  refine ⟨hbusy, fun session timeout hq => ?_, Hub.get?_dispatch_of_closed hkept.hub hclosed,
    fun id s hget => answer_of_closed hkept.hub hclosed hget, fun id s s' hget hget' => ?_⟩
  · have hidle : session.isIdle = true := by simp [Session.isIdle, hq, hbusy]
    rw [Session.awaitIdle, if_pos hidle]
  · obtain ⟨hfailure, hqueue⟩ := hparting id s s' hget hget'
    exact ⟨fun hf => (hqueue hf).2.1, fun e he => (hfailure e he).2⟩

end Runs

/-- Delivery is stopped when two log lines have been delivered, and the subscriber asks three
times. -/
theorem closed_for_good_log : ∃ (p q : Pipeline Simulated) (trace more : List Mark),
    Run (Pipeline.assemble {} {}) trace p ∧ p.hub.stopped = true ∧ Run p more q ∧ q.hub.busy = 0 ∧
    answers 0 more = [some (.ok (.log "a")), some (.ok (.log "b")), some (.error .shutdown)] := by
  let p := twoLines.2.stopDelivery
  let q₁ := (p.pollSubscription 0).2
  let q₂ := (q₁.pollSubscription 0).2
  let q := (q₂.pollSubscription 0).2
  have hrun : Run (Pipeline.assemble {} {}) (twoLines.1 ++ [.quiet]) p :=
    run_twoLines.snoc (.stop twoLines.2)
  have hstop : p.hub.stopped = true := by decide +kernel
  have hmore : Run p ([.received 0 (p.pollSubscription 0).1] ++
      [.received 0 (q₁.pollSubscription 0).1] ++ [.received 0 (q₂.pollSubscription 0).1]) q :=
    ((Run.one (.receive p 0)).snoc (.receive q₁ 0)).snoc (.receive q₂ 0)
  let s := (p.hub.subscriptions.get? 0).get (by decide +kernel)
  let s' := (q.hub.subscriptions.get? 0).get (by decide +kernel)
  have hget : p.hub.subscriptions.get? 0 = some s := (Option.some_get _).symm
  have hget' : q.hub.subscriptions.get? 0 = some s' := (Option.some_get _).symm
  have hf : s'.mailbox.failure = none := by decide +kernel
  have hqueue : s.mailbox.queue = [.log "a", .log "b"] := by decide +kernel
  obtain ⟨hbusy, -, -, -, hanswers⟩ := closed_for_good hrun (.inl hstop) hmore
  have hall := (hanswers 0 s s' hget hget').1 hf
  rw [hqueue] at hall
  exact ⟨p, q, _, _, hrun, hstop, hmore, hbusy, hall⟩

end Pumping

end TorrentFlow
