import TorrentFlow.Proofs.Services.Outcome

/-!
A handle that was given out and has lost its torrent names nothing ever after: not in the engine,
and not to those who learn of it in alerts or from a liveness check. This rests on what engines
promise, that no handle is given out twice.
-/

namespace TorrentFlow

/-- What a call does to the torrent of a handle that was given out, if it does not give it out
again. -/
lemma EngineCall.torrent?_apply_issued {issued : Handle → Prop} {s : Simulated}
    (hi : s.Issued issued) {c : EngineCall} (hc : c.isAdd = true → ¬ issued s.nextHandle)
    {g : Handle} (hg : issued g) :
    (c.apply s).torrent? g =
      if c.handle? = some g then (s.torrent? g).bind fun t => c.onTorrent t else s.torrent? g := by
  rcases hadd : c.isAdd with _ | _
  · exact c.torrent?_apply hadd s g
  · cases c with
    | add name payloads state =>
      have hne : g ≠ s.nextHandle := fun e => hc hadd (e ▸ hg)
      rw [EngineCall.apply, Simulated.torrent?_insertTorrent hi (hc hadd), if_neg hne]
      rfl
    | _ => cases hadd

/-- Only a removal tells of a removal. -/
lemma EngineCall.remove_of_generated {s : Simulated} {c : EngineCall} {h : Handle} {name : String}
    (ha : .torrentRemoved h name ∈ c.generated s) :
    c = .remove h ∧ ∃ t, s.torrent? h = some t := by
  cases c with
  | remove g =>
    rcases ht : s.torrent? g with _ | t <;> simp only [EngineCall.generated, ht] at ha
    · cases ha
    · obtain ⟨rfl, -⟩ := Alert.torrentRemoved.inj (List.mem_singleton.mp ha)
      exact ⟨rfl, t, ht⟩
  | finishChecking g =>
    rcases ht : s.torrent? g with _ | t <;> simp [EngineCall.generated, ht] at ha
  | feed g q =>
    rcases hp : s.piece? g q with _ | ⟨t, i⟩ <;>
      simp [EngineCall.generated, hp, Simulated.feedAlerts] at ha
  | fail g q e =>
    rcases hp : s.piece? g q with _ | ⟨t, i⟩ <;> simp [EngineCall.generated, hp] at ha
  | setDeadline g q deadline alert =>
    rcases hp : s.piece? g q with _ | ⟨t, i⟩ <;> simp [EngineCall.generated, hp] at ha
  | _ => simp [EngineCall.generated] at ha

lemma EngineCall.deadlines_onTorrent {c : EngineCall} (hc : c.isPublic = true)
    {t t' : SimulatedTorrent} (h : c.onTorrent t = some t') : t'.deadlines = t.deadlines := by
  cases c with
  | setDeadline => cases hc
  | resetDeadline => cases hc
  | remove => cases h
  | feed _ p =>
    simp only [EngineCall.onTorrent] at h
    split at h <;> cases h <;> rfl
  | _ =>
    cases h
    rfl

namespace Services

open Delivery (Note)
open Pipeline (readRequest)

/-- A torrent was added under this handle. -/
def GivenOut (trace : List Event) (h : Handle) : Prop := ∃ payloads, Added trace h payloads

def Event.given? : Event → Option Handle
  | .added h _ => some h
  | _ => none

def handlesGiven (trace : List Event) : List Handle := trace.filterMap Event.given?

lemma handlesGiven_append (trace : List Event) (event : Event) :
    handlesGiven (trace ++ [event]) = handlesGiven trace ++ event.given?.toList := by
  rcases h : event.given? with _ | g <;> simp [handlesGiven, h]

/-- What is promised of those who use the services: the engine gives no handle out twice, what is
read was added before, and no read fails for an invalid handle. -/
structure Orderly (trace : List Event) : Prop where
  fresh : (handlesGiven trace).Nodup
  reads : ∀ before id h pieces after, trace = before ++ .began id h pieces :: after →
    GivenOut before h
  failures : ∀ e, Occurred trace e → e.isInvalidHandle = false

lemma GivenOut.append {trace : List Event} {h : Handle} (hg : GivenOut trace h)
    (more : List Event) :
    GivenOut (trace ++ more) h := by
  obtain ⟨payloads, hadd⟩ := hg
  exact ⟨payloads, hadd.append more⟩

lemma nodup_before {trace more : List Event} (h : (handlesGiven (trace ++ more)).Nodup) :
    (handlesGiven trace).Nodup := by
  rw [handlesGiven, List.filterMap_append] at h
  exact (List.nodup_append.mp h).1

lemma Orderly.init {trace : List Event} {event : Event} (h : Orderly (trace ++ [event])) :
    Orderly trace where
  fresh := nodup_before h.fresh
  reads before id g pieces after heq :=
    h.reads before id g pieces (after ++ [event]) (by rw [heq, List.append_assoc, List.cons_append])
  failures e ho := h.failures e (ho.append _)

lemma Orderly.snoc {trace : List Event} {event : Event} (h : Orderly trace)
    (hf : ∀ g, event.given? = some g → g ∉ handlesGiven trace)
    (hr : ∀ id g pieces, event = .began id g pieces → GivenOut trace g)
    (he : ∀ g q e, event = .failed g q e → e.isInvalidHandle = false) :
    Orderly (trace ++ [event]) where
  fresh := by
    rw [handlesGiven_append]
    rcases hgiven : event.given? with _ | f
    · simpa using h.fresh
    · have hnew := hf f hgiven
      rw [Option.toList_some, List.nodup_append]
      refine ⟨h.fresh, by simp, fun g hg g' hg' e => hnew ?_⟩
      rw [← List.mem_singleton.mp hg', ← e]
      exact hg
  reads before id g pieces after heq := by
    rcases List.eq_nil_or_concat after with rfl | ⟨rest, last, rfl⟩
    · -- the read is the event that is added
      obtain ⟨rfl, hlast⟩ := List.append_inj' heq rfl
      exact hr id g pieces (List.cons.inj hlast).1
    · rw [List.concat_eq_append, ← List.cons_append, ← List.append_assoc] at heq
      obtain ⟨rfl, -⟩ := List.append_inj' heq rfl
      exact h.reads before id g pieces rest rfl
  failures e := by
    rintro ⟨g, q, hmem⟩
    rcases List.mem_append.mp hmem with hmem | hmem
    · exact h.failures e ⟨g, q, hmem⟩
    · exact he g q e (List.mem_singleton.mp hmem).symm

lemma orderly_nil : Orderly [] := ⟨List.nodup_nil, by simp, by simp [Occurred]⟩

lemma Orderly.added {trace : List Event} {g : Handle} {payloads : List Payload} (h : Orderly trace)
    (hg : g ∉ handlesGiven trace) : Orderly (trace ++ [.added g payloads]) :=
  h.snoc (fun _ he => Option.some.inj he ▸ hg) (fun _ _ _ he => by cases he)
    fun _ _ _ he => by cases he

lemma Orderly.began {trace : List Event} {id : Nat} {g : Handle} {pieces : List Piece}
    (h : Orderly trace) (hg : GivenOut trace g) : Orderly (trace ++ [.began id g pieces]) :=
  h.snoc (fun _ he => by cases he) (fun _ _ _ he => (Event.began.inj he).2.1 ▸ hg)
    fun _ _ _ he => by cases he

lemma Orderly.polled {trace : List Event} {id : Nat} {advance : Option Nat}
    {answer : Polled (Except PieceError PieceData)} (h : Orderly trace) :
    Orderly (trace ++ [.polled id advance answer]) :=
  h.snoc (fun _ he => by cases he) (fun _ _ _ he => by cases he) fun _ _ _ he => by cases he

lemma Orderly.quiet {trace : List Event} (h : Orderly trace) : Orderly (trace ++ [.quiet]) :=
  h.snoc (fun _ he => by cases he) (fun _ _ _ he => by cases he) fun _ _ _ he => by cases he

lemma Orderly.dropped {trace : List Event} {id : Nat} (h : Orderly trace) :
    Orderly (trace ++ [.dropped id]) :=
  h.snoc (fun _ he => by cases he) (fun _ _ _ he => by cases he) fun _ _ _ he => by cases he

lemma not_givenOut {trace : List Event} {h : Handle} {payloads : List Payload}
    (hfresh : (handlesGiven (trace ++ [.added h payloads])).Nodup) : ¬ GivenOut trace h := by
  rintro ⟨payloads', hadd⟩
  rw [handlesGiven_append, List.nodup_append] at hfresh
  exact hfresh.2.2 h (List.mem_filterMap.mpr ⟨_, hadd, rfl⟩) h (by simp [Event.given?]) rfl

lemma Orderly.givenOut {trace : List Event} {id : Nat} {h : Handle} {pieces : List Piece}
    (ho : Orderly (trace ++ [.began id h pieces])) : GivenOut trace h :=
  ho.reads trace id h pieces [] rfl

/-! ### What a subscription knows of its torrent -/

/-- A subscription asks about its own torrent, and is told that it is gone only if it is. -/
structure Watch (engine : Simulated) (h : Handle) (s : Subscription) : Prop where
  unasked : ∀ g, s.liveness = .unasked g → g = h
  answered : ∀ a, s.liveness = .answered a → ∃ b, a = .ok b ∧ (b = false → engine.torrent? h = none)
  failure : ∀ e, s.mailbox.failure = some e → e = .handleInvalid ∧ engine.torrent? h = none

lemma Watch.fate {engine engine' : Simulated} {h : Handle} {s s' : Subscription}
    (hw : Watch engine h s) (hf : Delivery.Fate engine s s')
    (hgone : engine.torrent? h = none → engine'.torrent? h = none) : Watch engine' h s' := by
  have hfailure : s'.mailbox.failure = s.mailbox.failure → ∀ e, s'.mailbox.failure = some e →
      e = .handleInvalid ∧ engine'.torrent? h = none := fun heq e he =>
    (hw.failure e (heq ▸ he)).imp id hgone
  cases hf with
  | same hl hf =>
    refine ⟨fun g hg => hw.unasked g (hl ▸ hg), fun a ha => ?_, hfailure hf⟩
    obtain ⟨b, hb, hnone⟩ := hw.answered a (hl ▸ ha)
    exact ⟨b, hb, fun e => hgone (hnone e)⟩
  | asked hl hl' hf =>
    rename_i g
    obtain rfl := hw.unasked g hl
    refine ⟨fun g' hg' => ?_, fun a ha => ?_, hfailure hf⟩
    · rw [hl'] at hg'
      cases hg'
    · rw [hl'] at ha
      obtain rfl := Liveness.answered.inj ha
      exact ⟨_, rfl, fun hb => hgone (by simpa using hb)⟩
  | found _ hl' hf =>
    refine ⟨fun g hg => ?_, fun a ha => ?_, hfailure hf⟩
    · rw [hl'] at hg
      cases hg
    · rw [hl'] at ha
      cases ha
  | missed hl hl' hf =>
    -- the answer says that the torrent is gone, and so it was when it was given
    obtain ⟨b, hb, hnone⟩ := hw.answered _ hl
    have hgone' := hgone (hnone (Except.ok.inj hb).symm)
    refine ⟨fun g hg => ?_, fun a ha => ?_, fun e he => ?_⟩
    · rw [hl'] at hg
      cases hg
    · rw [hl'] at ha
      cases ha
    · rw [hf] at he
      rcases hfail : s.mailbox.failure with _ | e'
      · rw [hfail, Option.none_or, Option.some.injEq] at he
        exact ⟨he.symm, hgone'⟩
      · rw [hfail, Option.some_or] at he
        exact ⟨(hw.failure e (hfail.trans he)).1, hgone'⟩
  | refused hl =>
    obtain ⟨b, hb, -⟩ := hw.answered _ hl
    cases hb

lemma watch_fresh {engine : Simulated} {h : Handle} {s : Subscription} (hs : Delivery.Fresh s)
    (hh : s.filter.handle = some h) : Watch engine h s := by
  refine ⟨fun g hg => ?_, fun a ha => ?_, fun e he => ?_⟩
  · rcases hs.liveness with hl | ⟨g', hg', hl⟩
    · rw [hl] at hg
      cases hg
    · rw [hl] at hg
      obtain rfl := Liveness.unasked.inj hg
      exact Option.some.inj (hg'.symm.trans hh)
  · rcases hs.liveness with hl | ⟨g', -, hl⟩ <;> rw [hl] at ha <;> cases ha
  · rw [hs.failure] at he
    cases he

def Watched (p : Pipeline Simulated) (sub : Nat) (h : Handle) : Prop :=
  ∃ s, p.hub.subscriptions.get? sub = some s ∧ Watch p.engine h s

/-- As long as the subscription is there it knows no more than what is so. -/
def Heeds (p : Pipeline Simulated) (sub : Nat) (h : Handle) : Prop :=
  ∀ s, p.hub.subscriptions.get? sub = some s → Watch p.engine h s

lemma Watched.heeds {p : Pipeline Simulated} {sub : Nat} {h : Handle} (hw : Watched p sub h) :
    Heeds p sub h := by
  intro s' hs'
  obtain ⟨s, hs, hwatch⟩ := hw
  obtain rfl := Option.some.inj (hs.symm.trans hs')
  exact hwatch

/-- A subscription is told that delivery has ended, or that its torrent is gone when it is. -/
lemma Heeds.told {p : Pipeline Simulated} {sub : Nat} {h : Handle} (hw : Heeds p sub h)
    {e : DeliveryError} (hp : (p.pollSubscription sub).1 = some (.error e)) :
    e = .shutdown ∨ e = .handleInvalid ∧ p.engine.torrent? h = none := by
  rw [Pipeline.pollSubscription_fst, Hub.poll_fst] at hp
  obtain ⟨s, hs, hlook⟩ := Option.bind_eq_some_iff.mp hp
  rcases (Mailbox.looked_poll s.mailbox p.hub.busy).error e hlook with hfail | ⟨hshut, -⟩
  · exact .inr ((hw s hs).failure e hfail)
  · exact .inl hshut

lemma Heeds.gone {p : Pipeline Simulated} {sub : Nat} {h : Handle} (hw : Heeds p sub h)
    {e : DeliveryError} (hp : (p.pollSubscription sub).1 = some (.error e)) (he : e ≠ .shutdown) :
    p.engine.torrent? h = none := ((hw.told hp).resolve_left he).2

lemma watched_step {p q : Pipeline Simulated} {note : Note} (hinv : Delivery.Inv p)
    (hstep : Delivery.Step p note q) {sub : Nat} {h : Handle} (hw : Watched p sub h)
    (hleft : note ≠ .left sub) (hgone : p.engine.torrent? h = none → q.engine.torrent? h = none) :
    Watched q sub h := by
  obtain ⟨s, hs, hw⟩ := hw
  have hev := Delivery.step_evolves hinv hstep
  obtain ⟨s', hs'⟩ := hev.kept sub s hs hleft
  exact ⟨s', hs', hw.fate (hev.grown sub s s' hs hs').fate hgone⟩

/-! ### Discreet steps -/

lemma tended_step {p q : Pipeline Simulated} {note : Note} (hstep : Delivery.Step p note q)
    (hd : Discreet note) : p.engine.Tended q.engine := by
  rcases Delivery.step_slots hstep with ⟨c, rfl, rfl⟩ | hslots
  · exact Simulated.tended_apply hd p.engine
  · exact .of_slots hslots

lemma tended_run {p q : Pipeline Simulated} {notes : List Note} (hrun : Delivery.Run p notes q)
    (hd : ∀ note ∈ notes, Discreet note) : p.engine.Tended q.engine := by
  induction hrun with
  | nil => exact .of_slots rfl
  | snoc _ hstep ih =>
    exact (ih fun n hn => hd n (List.mem_append_left _ hn)).trans
      (tended_step hstep (hd _ (List.mem_append_right _ (List.mem_singleton_self _))))
  | aside _ _ _ _ _ _ _ _ ih => exact ih hd

lemma watched_run {p q : Pipeline Simulated} {notes : List Note} (hinv : Delivery.Inv p)
    (hrun : Delivery.Run p notes q) (hd : ∀ note ∈ notes, Discreet note) {sub : Nat} {h : Handle}
    (hw : Watched p sub h) (hleft : Note.left sub ∉ notes) : Watched q sub h := by
  induction hrun with
  | nil => exact hw
  | snoc hrun hstep ih =>
    simp only [List.mem_append, List.mem_singleton, not_or] at hleft
    have hd' := hd _ (List.mem_append_right _ (List.mem_singleton_self _))
    exact watched_step (Delivery.run_inv hinv hrun) hstep
      (ih (fun n hn => hd n (List.mem_append_left _ hn)) hleft.1) (Ne.symm hleft.2)
      ((tended_step hstep hd').gone h)
  | aside _ _ _ _ _ _ _ _ ih => exact ih hd hleft

/-- No removal is told but by a removal. -/
lemma inPlay_removed_run {p q : Pipeline Simulated} {notes : List Note} (hinv : Delivery.Inv p)
    (hrun : Delivery.Run p notes q) (hd : ∀ note ∈ notes, Discreet note) {h : Handle}
    {name : String} (ha : InPlay q (.torrentRemoved h name)) :
    InPlay p (.torrentRemoved h name) := by
  induction hrun with
  | nil => exact ha
  | @snoc q r trace note hrun hstep ih =>
    refine ih (fun n hn => hd n (List.mem_append_left _ hn)) ?_
    rcases inPlay_step (Delivery.run_inv hinv hrun) hstep ha with ha | ha
    · exact ha
    · have hd' := hd note (List.mem_append_right _ (List.mem_singleton_self _))
      rcases note with ⟨engine, c⟩ | _ | _ | _ | _
      · have hmem : .torrentRemoved h name ∈ (c.generated engine).filter engine.accepts := ha
        obtain ⟨rfl, -⟩ := EngineCall.remove_of_generated (List.mem_filter.mp hmem).1
        cases hd'
      all_goals cases ha
  | aside _ _ _ _ _ _ _ _ ih => exact ih hd ha

/-! ### The invariant -/

/-- The engine knows the handles that were given out, and whoever is told of a removal is told the
truth. -/
structure Faithful (trace : List Event) (p : Pipeline Simulated) : Prop where
  issued : p.engine.Issued (GivenOut trace)
  removed : ∀ h name, InPlay p (.torrentRemoved h name) →
    GivenOut trace h ∧ p.engine.torrent? h = none

namespace Faithful

variable {trace : List Event} {p q : Pipeline Simulated} {c : EngineCall} {g : Handle}

lemma append (h : Faithful trace p) (more : List Event) : Faithful (trace ++ more) p where
  issued := h.issued.mono fun _ hg => hg.append more
  removed g name ha := (h.removed g name ha).imp (fun hg => hg.append more) id

lemma discreet {notes : List Note} (h : Faithful trace p) (hinv : Delivery.Inv p)
    (hrun : Delivery.Run p notes q) (hd : ∀ note ∈ notes, Discreet note) : Faithful trace q := by
  have ht := tended_run hrun hd
  exact ⟨h.issued.congr ht.generations, fun g name ha =>
    (h.removed g name (inPlay_removed_run hinv hrun hd ha)).imp id (ht.gone g)⟩

lemma torrent?_apply (h : Faithful trace p)
    (hfresh : (handlesGiven (trace ++ [.ofCall p.engine c])).Nodup) (hg : GivenOut trace g) :
    (c.apply p.engine).torrent? g =
      if c.handle? = some g then (p.engine.torrent? g).bind fun t => c.onTorrent t
      else p.engine.torrent? g := by
  refine EngineCall.torrent?_apply_issued h.issued (fun hadd => ?_) hg
  cases c with
  | add name payloads state => exact not_givenOut hfresh
  | _ => cases hadd

lemma gone (h : Faithful trace p) (hfresh : (handlesGiven (trace ++ [.ofCall p.engine c])).Nodup)
    (hg : GivenOut trace g) (hnone : p.engine.torrent? g = none) :
    (c.apply p.engine).torrent? g = none := by
  rw [h.torrent?_apply hfresh hg, hnone]
  split_ifs <;> rfl

end Faithful

lemma issued_ofCall {trace : List Event} {s : Simulated} (h : s.Issued (GivenOut trace))
    {c : EngineCall} (hfresh : (handlesGiven (trace ++ [.ofCall s c])).Nodup) :
    (c.apply s).Issued (GivenOut (trace ++ [.ofCall s c])) := by
  rcases hadd : c.isAdd with _ | _
  · exact (h.congr (c.generations_apply hadd s)).mono fun _ hg => hg.append _
  · cases c with
    | add name payloads state =>
      refine (h.insertTorrent (not_givenOut hfresh) name payloads state).mono fun g hg => ?_
      rcases hg with hg | rfl
      · exact hg.append _
      · exact ⟨payloads, List.mem_append_right _ (List.mem_singleton_self _)⟩
    | _ => cases hadd

lemma Faithful.called {trace : List Event} {p q : Pipeline Simulated} {c : EngineCall}
    (h : Faithful trace p) (hinv : Delivery.Inv p) (hstep : Delivery.Step p (.called p.engine c) q)
    (heq : q.engine = c.apply p.engine)
    (hfresh : (handlesGiven (trace ++ [.ofCall p.engine c])).Nodup) :
    Faithful (trace ++ [.ofCall p.engine c]) q := by
  refine ⟨?_, fun g name ha => ?_⟩
  · rw [heq]
    exact issued_ofCall h.issued hfresh
  · rcases inPlay_step hinv hstep ha with ha | ha
    · obtain ⟨hg, hnone⟩ := h.removed g name ha
      rw [heq]
      exact ⟨hg.append _, h.gone hfresh hg hnone⟩
    · have hmem : .torrentRemoved g name ∈ (c.generated p.engine).filter p.engine.accepts := ha
      obtain ⟨rfl, t, ht⟩ := EngineCall.remove_of_generated (List.mem_filter.mp hmem).1
      refine ⟨(Simulated.issued_of_torrent h.issued ht).append _, ?_⟩
      rw [heq, EngineCall.torrent?_apply rfl, ht]
      exact if_pos rfl

lemma Faithful.delivery {trace : List Event} {p q : Pipeline Simulated} {note : Note}
    (h : Faithful trace p) (hinv : Delivery.Inv p) (hstep : Delivery.Step p note q)
    (hfresh : (handlesGiven (trace ++ [.ofNote note])).Nodup) :
    Faithful (trace ++ [.ofNote note]) q := by
  have hquiet : Discreet note → Faithful (trace ++ [.ofNote note]) q := fun hd =>
    (h.discreet hinv (.one hstep) fun n hn => List.mem_singleton.mp hn ▸ hd).append _
  cases hstep with
  | call c => exact h.called hinv (.call p c) rfl hfresh
  | _ => exact hquiet trivial

lemma Faithful.gone_delivery {trace : List Event} {p q : Pipeline Simulated} {note : Note}
    (h : Faithful trace p) (hstep : Delivery.Step p note q)
    (hfresh : (handlesGiven (trace ++ [.ofNote note])).Nodup) {g : Handle} (hg : GivenOut trace g)
    (hnone : p.engine.torrent? g = none) : q.engine.torrent? g = none := by
  rcases Delivery.step_slots hstep with ⟨c, rfl, rfl⟩ | hslots
  · exact h.gone hfresh hg hnone
  · exact (Simulated.torrent?_congr hslots g).trans hnone

/-- And nobody who reads learns anything of his torrent but what is so. -/
structure Tracked (trace : List Event) (p : Pipeline Simulated) :
    Prop extends Faithful trace p where
  readers : ∀ id r, p.readers.get? id = some r → GivenOut trace r.handle
  windows : ∀ h k, p.windows.current.get? h = some k → GivenOut trace h
  watched : ∀ id r, p.readers.get? id = some r → Watched p r.subscription r.handle

lemma Tracked.append {trace : List Event} {p : Pipeline Simulated} (h : Tracked trace p)
    (more : List Event) : Tracked (trace ++ more) p where
  toFaithful := h.toFaithful.append more
  readers id r hr := (h.readers id r hr).append more
  windows g k hk := (h.windows g k hk).append more
  watched := h.watched

lemma Tracked.discreet {trace : List Event} {p q : Pipeline Simulated} {notes : List Note}
    (h : Tracked trace p) (hinv : Delivery.Inv p) (hc : Continues notes p q)
    (hd : ∀ note ∈ notes, Discreet note) : Tracked trace q where
  toFaithful := h.toFaithful.discreet hinv hc.run hd
  readers id r' hr' := by
    obtain ⟨r, hr, hk⟩ := hc.readers id r' hr'
    rw [hk.handle]
    exact h.readers id r hr
  windows g k hk := h.windows g k (hc.current g k hk)
  watched id r' hr' := by
    obtain ⟨r, hr, hk⟩ := hc.readers id r' hr'
    have hleft := hc.left id r' hr'
    rw [hk.subscription] at hleft ⊢
    rw [hk.handle]
    exact watched_run hinv hc.run hd (h.watched id r hr) hleft

lemma Tracked.delivery {trace : List Event} {p q : Pipeline Simulated} {note : Note}
    (h : Tracked trace p) (hinv : Delivery.Inv p) (hstep : Delivery.Step p note q)
    (hc : Continues [note] p q) (hfresh : (handlesGiven (trace ++ [.ofNote note])).Nodup) :
    Tracked (trace ++ [.ofNote note]) q where
  toFaithful := h.toFaithful.delivery hinv hstep hfresh
  readers id r' hr' := by
    obtain ⟨r, hr, hk⟩ := hc.readers id r' hr'
    rw [hk.handle]
    exact (h.readers id r hr).append _
  windows g k hk := (h.windows g k (hc.current g k hk)).append _
  watched id r' hr' := by
    obtain ⟨r, hr, hk⟩ := hc.readers id r' hr'
    have hleft := hc.left id r' hr'
    rw [hk.subscription, List.mem_singleton] at hleft
    rw [hk.handle, hk.subscription]
    exact watched_step hinv hstep (h.watched id r hr) (Ne.symm hleft)
      (h.gone_delivery hstep hfresh (h.readers id r hr))

lemma watched_subscribe {p : Pipeline Simulated} (hinv : Delivery.Inv p) {request : Request}
    {h : Handle} (hh : request.handle = some h) :
    Watched (p.subscribe request).2 p.hub.nextId h := by
  have hs : (p.subscribe request).2.hub.subscriptions.get? p.hub.nextId =
      some (p.hub.newcomer request) := by
    rw [Pipeline.subscribe_snd, Hub.add_eq, Table.get?_set]
    exact if_pos rfl
  have hnone : p.hub.subscriptions.get? p.hub.nextId = none := by
    rcases hs' : p.hub.subscriptions.get? p.hub.nextId with _ | s
    · rfl
    · exact absurd (hinv.hub.ids _ s hs') (Nat.lt_irrefl _)
  have hfresh := ((Delivery.evolves_subscribe hinv request).new _ _ hs hnone).2
  exact ⟨_, hs, watch_fresh hfresh hh⟩

lemma watched_read {p : Pipeline Simulated} (hinv : Delivery.Inv p) (h : Handle)
    (pieces : List Piece) :
    Watched (p.read h pieces).2 p.hub.nextId h := by
  obtain ⟨s, hs, hwatch⟩ : Watched (p.subscribe (readRequest h)).2 p.hub.nextId h :=
    watched_subscribe hinv rfl
  rw [← hub_read p h pieces] at hs
  rw [← engine_read p h pieces] at hwatch
  exact ⟨s, hs, hwatch⟩

lemma discreet_read : ∀ note ∈ [Note.quiet], Discreet note := by simp [Discreet]

lemma Tracked.read {trace : List Event} {p : Pipeline Simulated} {g : Handle} {pieces : List Piece}
    (h : Tracked trace p) (hinv : Delivery.Inv p) (hstaffed : Staffed p) (hg : GivenOut trace g) :
    Tracked trace (p.read g pieces).2 where
  toFaithful := h.toFaithful.discreet hinv (run_read p g pieces) discreet_read
  readers id r hr := by
    rcases get?_read_cases hr with ⟨-, rfl⟩ | hr
    · exact hg
    · exact h.readers id r hr
  windows f k hk := by
    rw [windows_read,
      (share_spec p.windows g p.settings.pieceDeadline hstaffed.current hstaffed.next).1] at hk
    split_ifs at hk with hf
    · exact hf ▸ hg
    · exact h.windows f k hk
  watched id r hr := by
    rcases get?_read_cases hr with ⟨-, rfl⟩ | hr
    · exact watched_read hinv g pieces
    · exact watched_run hinv (run_read p g pieces) discreet_read (h.watched id r hr) (by simp)

/-! ### Every run -/

/-- Before there are services nobody waits for anything, and no handle is given out twice. -/
lemma prepared_issued {trace : List Event} {s : Simulated} (h : Prepared trace s)
    (hfresh : (handlesGiven trace).Nodup) : s.Issued (GivenOut trace) := by
  induction h with
  | nil => exact ⟨by simp, by simp, by simp⟩
  | snoc _ c _ ih => exact issued_ofCall (ih (nodup_before hfresh)) hfresh

lemma faithful_start {settings : Settings} {trace : List Event} {engine : Simulated}
    {p : Pipeline Simulated} (he : Prepared trace engine)
    (hp : Pipeline.start settings engine = .ok p) (hfresh : (handlesGiven trace).Nodup) :
    Faithful trace p := by
  obtain ⟨hrun, -, -, -, hslots, -⟩ := start_spec hp
  refine ⟨(prepared_issued he hfresh).congr (by rw [hslots]), fun g name ha => ?_⟩
  have ha' := inPlay_removed_run (Delivery.inv_assemble settings engine) hrun (fun note hn => by
    simp only [List.mem_cons, List.not_mem_nil, or_false, or_self] at hn
    rw [hn]
    trivial) ha
  exact absurd ha' (not_inPlay_assemble he settings _)

lemma tracked_start {settings : Settings} {trace : List Event} {engine : Simulated}
    {p : Pipeline Simulated} (he : Prepared trace engine)
    (hp : Pipeline.start settings engine = .ok p) (ho : Orderly trace) : Tracked trace p := by
  obtain ⟨-, hreaders, hwindows, -, -, -⟩ := start_spec hp
  have hnone : ∀ id r, p.readers.get? id ≠ some r := fun id r hr => by
    simp [hreaders, Table.get?, Table.find] at hr
  refine ⟨faithful_start he hp ho.fresh, fun id r hr => absurd hr (hnone id r), fun g k hk => ?_,
    fun id r hr => absurd hr (hnone id r)⟩
  simp [hwindows, Table.get?, Table.find] at hk

lemma faithful_step {trace : List Event} {p q : Pipeline Simulated} {event : Event}
    (hinv : Delivery.Inv p) (hstaffed : Staffed p) (h : Faithful trace p) (hstep : Step p event q)
    (hfresh : (handlesGiven (trace ++ [event])).Nodup) : Faithful (trace ++ [event]) q := by
  cases course_step hinv hstaffed hstep with
  | delivery hnote => exact h.delivery hinv hnote hfresh
  | discreet hc hd => exact (h.discreet hinv hc.run hd).append _
  | reading g pieces => exact (h.discreet hinv (run_read p g pieces) discreet_read).append _

/-- **Handles that were given out are never taken for others**, as far as the engine and its alerts
go. -/
theorem run_faithful {settings : Settings} {trace : List Event} {p : Pipeline Simulated}
    (h : Run settings trace p) (hfresh : (handlesGiven trace).Nodup) : Faithful trace p := by
  induction h with
  | start he hp => exact faithful_start he hp hfresh
  | snoc hrun hstep ih =>
    obtain ⟨hsound, hstaffed⟩ := run_sound_staffed hrun
    exact faithful_step hsound.inv hstaffed (ih (nodup_before hfresh)) hstep hfresh

theorem tracked_step {trace : List Event} {p q : Pipeline Simulated} {event : Event}
    (hinv : Delivery.Inv p) (hstaffed : Staffed p) (h : Tracked trace p) (hstep : Step p event q)
    (ho : Orderly (trace ++ [event])) : Tracked (trace ++ [event]) q := by
  cases course_step hinv hstaffed hstep with
  | delivery hnote _ hc => exact h.delivery hinv hnote hc ho.fresh
  | discreet hc hd => exact (h.discreet hinv hc hd).append _
  | reading g pieces => exact (h.read hinv hstaffed ho.givenOut).append _

/-- **Handles that were given out are never taken for others.** -/
theorem run_tracked {settings : Settings} {trace : List Event} {p : Pipeline Simulated}
    (h : Run settings trace p) (ho : Orderly trace) : Tracked trace p := by
  induction h with
  | start he hp => exact tracked_start he hp ho
  | snoc hrun hstep ih =>
    obtain ⟨hsound, hstaffed⟩ := run_sound_staffed hrun
    exact tracked_step hsound.inv hstaffed (ih ho.init) hstep ho

/-! ### Handles are not given out twice -/

lemma numbered_ofCall {trace : List Event} {s : Simulated} (h : s.Numbered (handlesGiven trace))
    (c : EngineCall) (hfew : (handlesGiven (trace ++ [.ofCall s c])).length < UInt32.size) :
    (c.apply s).Numbered (handlesGiven (trace ++ [.ofCall s c])) := by
  rw [handlesGiven_append] at hfew ⊢
  rcases hadd : c.isAdd with _ | _
  · have hnone : (Event.ofCall s c).given? = none := by
      cases c with
      | add => cases hadd
      | _ => rfl
    rw [hnone, Option.toList_none, List.append_nil]
    exact h.congr (c.generations_apply hadd s)
  · cases c with
    | add name payloads state =>
      rw [List.length_append] at hfew
      exact h.insertTorrent hfew name payloads state
    | _ => cases hadd

lemma prepared_numbered {trace : List Event} {s : Simulated} (h : Prepared trace s)
    (hfew : (handlesGiven trace).length < UInt32.size) : s.Numbered (handlesGiven trace) := by
  induction h with
  | nil => exact ⟨List.nodup_nil, Nat.le_refl _, by simp, by simp [handlesGiven]⟩
  | snoc _ c _ ih =>
    refine numbered_ofCall (ih ?_) c hfew
    rw [handlesGiven_append, List.length_append] at hfew
    omega

lemma generations_step {p q : Pipeline Simulated} {event : Event} (hinv : Delivery.Inv p)
    (hstaffed : Staffed p) (hstep : Step p event q) (hn : event.given? = none) :
    q.engine.slots.map (·.generation) = p.engine.slots.map (·.generation) := by
  cases course_step hinv hstaffed hstep with
  | delivery hnote =>
    rcases Delivery.step_slots hnote with ⟨c, rfl, heq⟩ | hslots
    · rw [heq]
      refine c.generations_apply ?_ p.engine
      cases c with
      | add => cases hn
      | _ => rfl
    · rw [hslots]
  | discreet hc hd => exact (tended_run hc.run hd).generations
  | reading h pieces => exact (tended_run (run_read p h pieces) (by simp [Discreet])).generations

/-- **Handles are not given out twice** before generations run out. -/
theorem run_numbered {settings : Settings} {trace : List Event} {p : Pipeline Simulated}
    (h : Run settings trace p) (hfew : (handlesGiven trace).length < UInt32.size) :
    p.engine.Numbered (handlesGiven trace) := by
  induction h with
  | start he hp =>
    obtain ⟨-, -, -, -, hslots, -⟩ := start_spec hp
    exact (prepared_numbered he hfew).congr (by rw [hslots])
  | @snoc trace p q event hrun hstep ih =>
    obtain ⟨hsound, hstaffed⟩ := run_sound_staffed hrun
    have hbefore : p.engine.Numbered (handlesGiven trace) := ih (by
      rw [handlesGiven_append, List.length_append] at hfew
      omega)
    rcases hg : event.given? with _ | g
    · have hsame := generations_step hsound.inv hstaffed hstep hg
      rw [handlesGiven_append, hg, Option.toList_none, List.append_nil]
      exact hbefore.congr hsame
    · cases hstep with
      | deliver hnote ha =>
        cases hnote with
        | call c => exact numbered_ofCall hbefore c hfew
        | _ => cases hg
      | _ => cases hg

/-- Whoever reads only what was added, and is told of no invalid handle, need not worry about
handles. -/
lemma orderly_of_few {settings : Settings} {trace : List Event} {p : Pipeline Simulated}
    (h : Run settings trace p) (hfew : (handlesGiven trace).length < UInt32.size)
    (hreads : ∀ before id h pieces after, trace = before ++ .began id h pieces :: after →
      GivenOut before h)
    (hfailures : ∀ e, Occurred trace e → e.isInvalidHandle = false) : Orderly trace :=
  ⟨(run_numbered h hfew).nodup, hreads, hfailures⟩

/-! ### Whoever reads -/

/-- What is known of the services as long as no handle is given out twice. -/
structure Steady (trace : List Event) (p : Pipeline Simulated) : Prop where
  sound : Sound (Added trace) (Failed trace) p
  staffed : Staffed p
  faithful : Faithful trace p

theorem run_steady {settings : Settings} {trace : List Event} {p : Pipeline Simulated}
    (h : Run settings trace p) (hfresh : (handlesGiven trace).Nodup) : Steady trace p :=
  ⟨(run_sound_staffed h).1, (run_sound_staffed h).2, run_faithful h hfresh⟩

structure Sane (trace : List Event) (p : Pipeline Simulated) : Prop where
  sound : Sound (Added trace) (Failed trace) p
  staffed : Staffed p
  tracked : Tracked trace p

lemma Sane.steady {trace : List Event} {p : Pipeline Simulated} (h : Sane trace p) :
    Steady trace p :=
  ⟨h.sound, h.staffed, h.tracked.toFaithful⟩

lemma Sane.attended {trace : List Event} {p q : Pipeline Simulated} {id : Nat} (h : Sane trace p)
    {r : Reader} (hr : p.readers.get? id = some r) (ha : Attended id r.subscription p q) :
    Sane trace q := by
  obtain ⟨notes, hc, hown⟩ := ha.continues ⟨r, hr⟩
  have hd : ∀ note ∈ notes, Discreet note := fun note hn => (hown note hn).discreet
  exact ⟨sound_run h.sound hc.run hd, h.staffed.continues h.sound.inv hc,
    h.tracked.discreet h.sound.inv hc hd⟩

theorem run_sane {settings : Settings} {trace : List Event} {p : Pipeline Simulated}
    (h : Run settings trace p) (ho : Orderly trace) : Sane trace p :=
  ⟨(run_sound_staffed h).1, (run_sound_staffed h).2, run_tracked h ho⟩

end Services

end TorrentFlow
