import TorrentFlow.Proofs.Pumping.Steps
import TorrentFlow.Proofs.Services.Outcome

/-!
A reader that has ended keeps its subscription until it is dropped, and never looks into its mailbox
again. Whatever is delivered to it from then on stays there, and its mailbox is busy; and a pump
does not go on while somebody is busy. So a reader that is kept after its end holds up delivery to
everybody, as soon as one more alert about its torrent is delivered.
-/

namespace TorrentFlow

namespace Mailbox

/-- Nothing has been taken out since `m`, as long as the mailbox is open. -/
def Stays (m m' : Mailbox) : Prop := m'.IsOpen → m.IsOpen ∧ m.queue <+: m'.queue

lemma Stays.refl (m : Mailbox) : Stays m m := fun ho => ⟨ho, List.prefix_refl _⟩

lemma Stays.trans {m m' m'' : Mailbox} (h : Stays m m') (h' : Stays m' m'') : Stays m m'' :=
  fun ho => by
  obtain ⟨ho', hq'⟩ := h' ho
  obtain ⟨ho₀, hq⟩ := h ho'
  exact ⟨ho₀, hq.trans hq'⟩

lemma stays_deliver (m : Mailbox) (slice : List Alert) (busy : Nat) :
    Stays m (m.deliver slice busy).1 := fun ho => by
  have hopen : m.IsOpen := by
    simpa only [IsOpen, failure_deliver, closed_deliver] using ho
  rw [queue_deliver hopen.1 hopen.2]
  exact ⟨hopen, List.prefix_append _ _⟩

end Mailbox

/-- **An alert that somebody's filter accepts makes his mailbox busy**, if it is open. -/
lemma Hub.holding_dispatch {h : Hub} (hs : h.Sound) {id : Nat} {s : Subscription}
    (hget : h.subscriptions.get? id = some s) (ho : s.mailbox.IsOpen) {batch : List Alert}
    {a : Alert} (ha : a ∈ batch) (hacc : s.filter.accepts a = true) :
    ∃ s', (h.dispatch batch).subscriptions.get? id = some s' ∧ s'.mailbox.holding = true := by
  have hopen : h.closed = false := by
    by_contra hc
    exact hs.not_isOpen (by simpa using hc) hget ho
  have hslice := hs.tallied.wf.slice_route hget (hs.served hopen id s hget).1 batch
  refine ⟨_, by rw [get?_dispatch, hget, Option.map_some], ?_⟩
  have hne : batch.filter s.filter.accepts ≠ [] :=
    List.ne_nil_of_mem (List.mem_filter.mpr ⟨ha, hacc⟩)
  simp [hslice, Mailbox.deliver, ho.1, ho.2, hne]

namespace Services

open Delivery (Note)
open Pumping (Kept Mark)

/-! ### Delivery is pumping -/

lemma handed_turnMark (p : Pipeline Simulated) (k id : Nat) :
    (Pumping.turnMark p k).handed id = [] := by
  unfold Pumping.turnMark
  split
  · rfl
  · split_ifs
    · rfl
    · split <;> rfl
  · rfl

lemma pumping_of_delivery {p q : Pipeline Simulated} {note : Note} (h : Delivery.Step p note q) :
    ∃ mark, Pumping.Step p mark q ∧ ∀ id, mark.handed id = note.returned id := by
  cases h with
  | call c => exact ⟨.quiet, Pumping.step_engine p _, fun _ => rfl⟩
  | subscribe r => exact ⟨.quiet, .subscribe p r, fun _ => rfl⟩
  | receive id => exact ⟨_, .receive p id, fun _ => rfl⟩
  | cancel id => exact ⟨.quiet, .cancel p id, fun _ => rfl⟩
  | unsubscribe id => exact ⟨.quiet, .unsubscribe p id, fun _ => rfl⟩
  | stage mask =>
    rw [Pipeline.stage, Pipeline.withDemand_eq]
    exact ⟨.quiet, .aside p _ _ p.windows p.readers p.waiters p.nextScope p.janitor p.now _,
      fun _ => rfl⟩
  | askLiveness h => exact ⟨.quiet, .askLiveness h, fun _ => rfl⟩
  | answerLiveness h => exact ⟨.quiet, .answerLiveness h, fun _ => rfl⟩
  | run => exact ⟨.quiet, .run p, fun _ => rfl⟩
  | pump h => exact ⟨_, .pump h, fun id => handed_turnMark p _ id⟩
  | worker h => exact ⟨.quiet, .worker h, fun _ => rfl⟩
  | stall k => exact ⟨.quiet, .stall p k, fun _ => rfl⟩
  | stop => exact ⟨.quiet, .stop p, fun _ => rfl⟩

lemma kept_delivery {p q : Pipeline Simulated} {notes : List Note} (h : Kept p)
    (hrun : Delivery.Run p notes q) : Kept q := by
  induction hrun with
  | nil => exact h
  | snoc _ hstep ih =>
    obtain ⟨mark, hpumping, -⟩ := pumping_of_delivery hstep
    exact Pumping.kept_effect ih (Pumping.effect_step ih.hub hpumping)
  | aside _ _ _ _ _ _ _ _ ih => exact ⟨ih.hub, ih.asked, ih.ended⟩

theorem run_kept {settings : Settings} {trace : List Event} {p : Pipeline Simulated}
    (h : Run settings trace p) : Kept p := by
  induction h with
  | start _ hp => exact kept_delivery (Pumping.kept_assemble _ _) (start_spec hp).1
  | snoc hrun hstep ih =>
    obtain ⟨hsound, hstaffed⟩ := run_sound_staffed hrun
    cases course_step hsound.inv hstaffed hstep with
    | delivery hnote => exact kept_delivery ih (.one hnote)
    | discreet hc => exact kept_delivery ih hc.run
    | reading g pieces => exact kept_delivery ih (run_read _ g pieces)

/-! ### A subscription that is left alone -/

/-- The subscription is not asked, and not dropped. -/
def Spares (sub : Nat) (note : Note) : Prop := note.returned sub = [] ∧ note ≠ .left sub

lemma spares_own {sub sub' : Nat} {note : Note} (h : Own sub' note) (hne : sub' ≠ sub) :
    Spares sub note := by
  cases note with
  | received id answer =>
    obtain rfl : id = sub' := h
    exact ⟨if_neg hne, nofun⟩
  | left => cases h
  | _ => exact ⟨rfl, nofun⟩

lemma spares_of_allowed {p : Pipeline Simulated} {note : Note} (h : Allowed p note) {id : Nat}
    {r : Reader} (hr : p.readers.get? id = some r) : Spares r.subscription note := by
  cases note with
  | received sub answer => exact ⟨if_neg (Ne.symm (h.2 id r hr)), nofun⟩
  | left sub => exact ⟨rfl, fun e => h.2 id r hr (Note.left.inj e).symm⟩
  | _ => exact ⟨rfl, nofun⟩

lemma spares_of_idle {p : Pipeline Simulated} {note : Note} (h : Idle p note) {id : Nat}
    {r : Reader} (hr : p.readers.get? id = some r) : Spares r.subscription note := by
  cases note with
  | received sub answer => exact ⟨if_neg (Ne.symm (h id r hr)), nofun⟩
  | left sub => exact ⟨rfl, fun e => h id r hr (Note.left.inj e).symm⟩
  | _ => exact ⟨rfl, nofun⟩

lemma stays_step {p q : Pipeline Simulated} {note : Note} (hinv : Delivery.Inv p) (hk : Kept p)
    (hstep : Delivery.Step p note q) {sub : Nat} (hspares : Spares sub note) {s : Subscription}
    (hget : p.hub.subscriptions.get? sub = some s) :
    ∃ s', q.hub.subscriptions.get? sub = some s' ∧ s.mailbox.Stays s'.mailbox := by
  obtain ⟨s', hget'⟩ := (Delivery.step_evolves hinv hstep).kept sub s hget hspares.2
  refine ⟨s', hget', ?_⟩
  obtain ⟨mark, hpumping, hhanded⟩ := pumping_of_delivery hstep
  have he := Pumping.effect_step hk.hub hpumping
  rcases Pumping.change_or_dispatched hk.hub he with hchange | ⟨batch, -, hh⟩
  · rcases hchange.back sub s' hget' with ⟨s₀, hget₀, hp⟩ | ⟨hid, -⟩
    · rw [hget, Option.some.injEq] at hget₀
      rw [← hget₀, hhanded, hspares.1] at hp
      exact fun ho => ⟨hp.isOpen ho, by rw [← hp.queue ho.1]; exact List.prefix_refl _⟩
    · have := hinv.hub.ids sub s hget
      omega
  · rw [hh, Hub.get?_dispatch, hget, Option.map_some, Option.some.injEq] at hget'
    rw [← hget']
    exact s.mailbox.stays_deliver _ 0

lemma stays_run {p q : Pipeline Simulated} {notes : List Note} (hinv : Delivery.Inv p) (hk : Kept p)
    (hrun : Delivery.Run p notes q) {sub : Nat} (hspares : ∀ note ∈ notes, Spares sub note)
    {s : Subscription} (hget : p.hub.subscriptions.get? sub = some s) :
    ∃ s', q.hub.subscriptions.get? sub = some s' ∧ s.mailbox.Stays s'.mailbox := by
  induction hrun with
  | nil => exact ⟨s, hget, .refl _⟩
  | snoc hrun hstep ih =>
    obtain ⟨s', hget', hstays⟩ := ih fun note hn => hspares note (by simp [hn])
    obtain ⟨s'', hget'', hstays'⟩ := stays_step (Delivery.run_inv hinv hrun)
      (kept_delivery hk hrun) hstep (hspares _ (by simp)) hget'
    exact ⟨s'', hget'', hstays.trans hstays'⟩
  | aside _ _ _ _ _ _ _ _ ih => exact ih hspares

/-- **A reader that has ended is left alone**, until it is dropped: it stays as it is, and nobody
asks its subscription or drops it. -/
theorem left_alone {p q : Pipeline Simulated} {event : Event} (hinv : Delivery.Inv p)
    (h : Staffed p) {id : Nat} {r : Reader} (hr : p.readers.get? id = some r)
    (hf : r.finished = true) (hstep : Step p event q) (hdrop : event ≠ .dropped id) :
    q.readers.get? id = some r ∧
      ∃ notes, Delivery.Run p notes q ∧ ∀ note ∈ notes, Spares r.subscription note := by
  -- no two readers have the same subscription
  have happart : ∀ {j : Nat} {r' : Reader}, p.readers.get? j = some r' → j ≠ id →
      r'.subscription ≠ r.subscription := fun hr' hj e => hj (h.apart _ _ _ _ hr' hr e)
  cases movement_step h hstep with
  | @delivery _ note hnote ha =>
    refine ⟨(Delivery.step_beside hnote).readers ▸ hr, [note], .one hnote, fun n hn => ?_⟩
    rw [List.mem_singleton.mp hn]
    exact spares_of_allowed ha hr
  | @idling _ _ notes hi =>
    exact ⟨hi.readers ▸ hr, notes, hi.continues.run, fun note hn =>
      spares_of_idle (hi.idle note hn) hr⟩
  | reading handle pieces =>
    have hid : id ≠ p.nextScope := Nat.ne_of_lt (h.bound id r hr)
    refine ⟨by rw [get?_read, if_neg hid, hr], _, run_read p handle pieces, fun note hn => ?_⟩
    rw [List.mem_singleton.mp hn]
    exact ⟨rfl, nofun⟩
  | @polled _ j r' answer hr' hpolls =>
    by_cases hj : j = id
    · subst hj
      rw [hr, Option.some.injEq] at hr'
      subst hr'
      cases hpolls with
      | past => exact ⟨hr, [], .nil p, by simp⟩
      | ended hno | overflow hno | refused hno | slipped hno | went hno =>
        rw [hf] at hno
        cases hno
    · have hattended := Attended.polls hr' hpolls
      obtain ⟨notes, hrun, hown⟩ := hattended.run
      exact ⟨(hattended.others id (Ne.symm hj)).trans hr, notes, hrun, fun note hn =>
        spares_own (hown note hn) (happart hr' hj)⟩
  | dropped j =>
    have hj : j ≠ id := fun e => hdrop (congrArg Event.dropped e)
    refine ⟨((others_dropReader p j).2 id (Ne.symm hj)).trans hr, ?_⟩
    rcases hr' : p.readers.get? j with _ | r'
    · rw [dropReader_none hr']
      exact ⟨[], .nil p, by simp⟩
    · obtain ⟨notes, hc, hparting⟩ := continues_dropReader hinv h hr'
      refine ⟨notes, hc.run, fun note hn => ?_⟩
      rcases hparting note hn with hown | rfl
      · exact spares_own hown (happart hr' hj)
      · exact ⟨rfl, fun e => happart hr' hj (Note.left.inj e)⟩

inductive Steps : Pipeline Simulated → List Event → Pipeline Simulated → Prop
  | nil (p : Pipeline Simulated) : Steps p [] p
  | snoc {p q r : Pipeline Simulated} {trace : List Event} {event : Event} (h : Steps p trace q)
      (hstep : Step q event r) : Steps p (trace ++ [event]) r

/-- What is in the mailbox of a reader that has ended stays in it. -/
theorem steps_stay {settings : Settings} {trace : List Event} {p : Pipeline Simulated}
    (hrun : Run settings trace p) {id : Nat} {r : Reader} (hr : p.readers.get? id = some r)
    (hf : r.finished = true) {s : Subscription}
    (hget : p.hub.subscriptions.get? r.subscription = some s) {events : List Event}
    {q : Pipeline Simulated} (hmore : Steps p events q) (hdrop : Event.dropped id ∉ events) :
    Run settings (trace ++ events) q ∧ q.readers.get? id = some r ∧
      ∃ s', q.hub.subscriptions.get? r.subscription = some s' ∧ s.mailbox.Stays s'.mailbox := by
  induction hmore with
  | nil => exact ⟨by rwa [List.append_nil], hr, s, hget, .refl _⟩
  | @snoc q q' events event _ hstep ih =>
    simp only [List.mem_append, List.mem_singleton, not_or] at hdrop
    obtain ⟨hrun', hr', s', hget', hstays⟩ := ih hdrop.1
    obtain ⟨hsound, hstaffed⟩ := run_sound_staffed hrun'
    obtain ⟨hr'', notes, hnotes, hspares⟩ :=
      left_alone hsound.inv hstaffed hr' hf hstep (Ne.symm hdrop.2)
    obtain ⟨s'', hget'', hstays'⟩ := stays_run hsound.inv (run_kept hrun') hnotes hspares hget'
    exact ⟨by rw [← List.append_assoc]; exact hrun'.snoc hstep, hr'', s'', hget'',
      hstays.trans hstays'⟩

lemma pumpStep_of_busy {p : Pipeline Simulated} {k since : Nat} {source : Source}
    (hk : p.pumps[k]? = some ⟨source, .idling since⟩) (hs : p.hub.stopped = false)
    (hb : 0 < p.hub.busy) : p.pumpStep k = none := by
  have hne : p.hub.busy ≠ 0 := Nat.ne_of_gt hb
  simp [Pipeline.pumpStep, hk, hs, hne]

lemma idling_of_stallDue {p : Pipeline Simulated} {k : Nat} (h : (p.stallDue? k).isSome = true) :
    ∃ source since, p.pumps[k]? = some ⟨source, .idling since⟩ := by
  unfold Pipeline.stallDue? at h
  split at h
  · rename_i source since hk
    exact ⟨source, since, hk⟩
  · cases h

/-- **A reader that is kept after its end holds up delivery.** To ask it again answers that there is
nothing more and does nothing. Its mailbox is counted as busy exactly if it is open and something is
in it; an alert that its subscription accepts gets it there; and whatever is done then, short of
dropping the reader, the mailbox stays as full as it is or gets fuller for as long as it is open, so
that every pump that waits for subscribers goes on waiting. -/
theorem finished_reader_stalls {settings : Settings} {trace : List Event} {p : Pipeline Simulated}
    (hrun : Run settings trace p) {id : Nat} {r : Reader} (hr : p.readers.get? id = some r)
    (hf : r.finished = true) : (p.pollReader id).1 = .done ∧ (p.pollReader id).2 = p ∧
      ∃ s, p.hub.subscriptions.get? r.subscription = some s ∧
        (s.mailbox.holding = true ↔ s.mailbox.IsOpen ∧ s.mailbox.queue ≠ []) ∧
        (∀ batch, s.mailbox.IsOpen → (∃ a ∈ batch, s.filter.accepts a = true) →
          ∃ s', (p.hub.dispatch batch).subscriptions.get? r.subscription = some s' ∧
            s'.mailbox.holding = true) ∧
        ∀ events q, Steps p events q → Event.dropped id ∉ events →
          ∃ s', q.hub.subscriptions.get? r.subscription = some s' ∧
            (s'.mailbox.IsOpen → s.mailbox.queue <+: s'.mailbox.queue ∧
              (s.mailbox.queue ≠ [] → s'.mailbox.holding = true ∧ 0 < q.hub.busy ∧
                ∀ k source since, q.pumps[k]? = some ⟨source, .idling since⟩ →
                  q.pumpStep k = none)) := by
  obtain ⟨hsound, hstaffed⟩ := run_sound_staffed hrun
  have hkept := (run_kept hrun).hub
  obtain ⟨s, hget, -⟩ := hstaffed.subscribed id r hr
  have hpast : p.pollReader id = (.done, p) := by simp [Pipeline.pollReader, hr, hf]
  refine ⟨by rw [hpast], by rw [hpast], s, hget, (hkept.tallied.proper _ s hget).holding,
    fun batch ho hmatch => ?_, fun events q hmore hdrop => ?_⟩
  · obtain ⟨a, ha, hacc⟩ := hmatch
    exact Hub.holding_dispatch hkept hget ho ha hacc
  obtain ⟨hrun', -, s', hget', hstays⟩ := steps_stay hrun hr hf hget hmore hdrop
  have hq := run_kept hrun'
  refine ⟨s', hget', fun ho => ?_⟩
  obtain ⟨-, hlonger⟩ := hstays ho
  refine ⟨hlonger, fun hne => ?_⟩
  have hfull : s'.mailbox.queue ≠ [] := fun hempty => by
    rw [hempty] at hlonger
    exact hne (List.prefix_nil.mp hlonger)
  have hholding := (hq.hub.tallied.proper _ s' hget').holding.mpr ⟨ho, hfull⟩
  have hbusy := hq.hub.tallied.busy_pos hget' hholding
  -- delivery has not been told to stop, since the mailbox is open
  have hgoing : q.hub.stopped = false := by
    by_contra hs
    exact hq.hub.not_isOpen (hq.asked (by simpa using hs)) hget' ho
  exact ⟨hholding, hbusy, fun k source since hk => pumpStep_of_busy hk hgoing hbusy⟩

/-! ### A reader that is kept after its end -/

lemma step_ends (p : Pipeline Simulated) (id : Nat) (h : (p.readers.get? id).isSome = true)
    (hp : (match (p.pollReader id).1 with | .done => true | _ => false) = true) :
    Step p (.polled id (p.advancing? id) .done) (p.pollReader id).2 := by
  have hstep := step_next p id h
  rcases hanswer : (p.pollReader id).1 with _ | value | _ | _ <;> rw [hanswer] at hstep hp
  · cases hp
  · cases hp
  · exact hstep
  · cases hp

def turned (p : Pipeline Simulated) : Pipeline Simulated := (p.pumpStep 0).getD p

/-- A batch goes from the engine into the mailboxes: the pump finds nobody busy, takes it, delivers
it. -/
lemma run_turned {settings : Settings} {trace : List Event} {p : Pipeline Simulated}
    (hrun : Run settings trace p) (hidle : (p.pumpStep 0).isSome = true)
    (htake : ((turned p).pumpStep 0).isSome = true)
    (hdeliver : ((turned (turned p)).pumpStep 0).isSome = true) :
    Run settings (trace ++ [.quiet] ++ [.quiet] ++ [.quiet]) (turned (turned (turned p))) :=
  ((hrun.snoc (step_pump p hidle)).snoc (step_pump _ htake)).snoc (step_pump _ hdeliver)

/-- Two readers share a torrent. The first yields its one piece, answers that there is nothing more,
and is kept; then the second gets another piece. -/
lemma busy_after_end : ∃ (trace : List Event) (advance : Option Nat) (p : Pipeline Simulated)
    (r : Reader) (s : Subscription) (source : Source) (since : Nat), Run {} trace p ∧
    Event.polled 0 advance .done ∈ trace ∧ p.readers.get? 0 = some r ∧ r.finished = true ∧
    p.hub.subscriptions.get? r.subscription = some s ∧ s.mailbox.holding = true ∧
    p.pumps[0]? = some ⟨source, .idling since⟩ := by
  let start := (Pipeline.start {} ({} : Simulated)).toOption.getD (.assemble {} {})
  let added : EngineCall := .add "film" [[7], [8]] .downloading
  let fed (q : Piece) : EngineCall := .feed ⟨0, 1⟩ q
  let p₁ : Pipeline Simulated := { start with engine := added.apply start.engine }
  let p₂ := (p₁.read ⟨0, 1⟩ [⟨0⟩]).2
  let p₃ := (p₂.read ⟨0, 1⟩ [⟨0⟩, ⟨1⟩]).2
  let p₄ := (p₃.pollReader 0).2
  let p₅ := (p₄.pollReader 1).2
  let p₆ : Pipeline Simulated := { p₅ with engine := (fed ⟨0⟩).apply p₅.engine }
  let p₇ := turned (turned (turned p₆))
  let p₈ := (p₇.pollReader 0).2
  let p₉ := (p₈.pollReader 0).2
  let p₁₀ := (p₉.pollReader 1).2
  let p₁₁ : Pipeline Simulated := { p₁₀ with engine := (fed ⟨1⟩).apply p₁₀.engine }
  let p₁₂ := turned (turned (turned p₁₁))
  let p₁₃ := (p₁₂.pollReader 1).2
  have hadd : Step start (.added ⟨0, 1⟩ [[7], [8]]) p₁ := step_add start (by decide +kernel)
  have hfeed : ∀ (p : Pipeline Simulated) (q : Piece),
      Step p .quiet { p with engine := (fed q).apply p.engine } := fun p q =>
    step_call (c := fed q) p rfl
  -- both readers begin, ask, and get the piece that they share
  have hread := ((((run_start {} (by decide +kernel)).snoc hadd).snoc (.read p₁ ⟨0, 1⟩ [⟨0⟩])).snoc
    (.read p₂ ⟨0, 1⟩ [⟨0⟩, ⟨1⟩]))
  have hasked := ((hread.snoc (step_next p₃ 0 (by decide +kernel))).snoc
    (step_next p₄ 1 (by decide +kernel))).snoc (hfeed p₅ ⟨0⟩)
  have hfirst := run_turned hasked (by decide +kernel) (by decide +kernel) (by decide +kernel)
  -- the first is at its end, and is not dropped
  have hended := (hfirst.snoc (step_next p₇ 0 (by decide +kernel))).snoc
    (step_ends p₈ 0 (by decide +kernel) (by decide +kernel))
  -- the other piece comes in, which only the second one takes
  have hgoing := (hended.snoc (step_next p₉ 1 (by decide +kernel))).snoc (hfeed p₁₀ ⟨1⟩)
  have hsecond := run_turned hgoing (by decide +kernel) (by decide +kernel) (by decide +kernel)
  have hrun := hsecond.snoc (step_next p₁₂ 1 (by decide +kernel))
  have hstate : ((p₁₃.readers.get? 0).bind fun r =>
      (p₁₃.hub.subscriptions.get? r.subscription).map fun s => (r.finished, s.mailbox.holding)) =
        some (true, true) := by decide +kernel
  obtain ⟨r, hr, hs⟩ := Option.bind_eq_some_iff.mp hstate
  obtain ⟨s, hget, hboth⟩ := Option.map_eq_some_iff.mp hs
  obtain ⟨hf, hholding⟩ := Prod.mk.inj hboth
  have hidling : (p₁₃.stallDue? 0).isSome = true := by decide +kernel
  obtain ⟨source, since, hpump⟩ := idling_of_stallDue hidling
  exact ⟨_, p₈.advancing? 0, p₁₃, r, s, source, since, hrun, by simp, hr, hf, hget, hholding, hpump⟩

/-- The pump waits for a reader that has ended. -/
theorem finished_reader_stalls_pump : ∃ (trace : List Event) (p : Pipeline Simulated) (r : Reader),
    Run {} trace p ∧ p.readers.get? 0 = some r ∧ r.finished = true ∧ 0 < p.hub.busy ∧
      p.pumpStep 0 = none := by
  obtain ⟨trace, advance, p, r, s, source, since, hrun, -, hr, hf, hget, hholding, hpump⟩ :=
    busy_after_end
  obtain ⟨-, -, s', hget', hcounted, -, hstays⟩ := finished_reader_stalls hrun hr hf
  obtain rfl : s = s' := Option.some.inj (hget.symm.trans hget')
  obtain ⟨hopen, hfull⟩ := hcounted.mp hholding
  obtain ⟨s', hget', hafter⟩ := hstays [] p (.nil p) (by simp)
  obtain rfl : s = s' := Option.some.inj (hget.symm.trans hget')
  obtain ⟨-, hbusy, hwaits⟩ := (hafter hopen).2 hfull
  exact ⟨trace, p, r, hrun, hr, hf, hbusy, hwaits 0 source since hpump⟩

/-- It is not so that nobody is counted as busy who has answered that there is nothing more. -/
theorem finished_reader_counted : ¬ ∀ (settings : Settings) (trace : List Event)
    (p : Pipeline Simulated), Run settings trace p → ∀ id advance,
      Event.polled id advance .done ∈ trace → ∀ r s, p.readers.get? id = some r →
        p.hub.subscriptions.get? r.subscription = some s → s.mailbox.holding = false := by
  intro hclaim
  obtain ⟨trace, advance, p, r, s, -, -, hrun, hdone, hr, -, hget, hholding, -⟩ := busy_after_end
  have hnot := hclaim {} trace p hrun 0 advance hdone r s hr hget
  rw [hholding] at hnot
  cases hnot

end Services

end TorrentFlow
