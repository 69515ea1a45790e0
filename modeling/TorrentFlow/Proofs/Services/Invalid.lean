import TorrentFlow.Proofs.Services.Ledger
import TorrentFlow.Proofs.Services.Stalling
import TorrentFlow.Proofs.Services.Waiters

/-!
Who is told that a handle is not valid, and whether it is so. Subscribers and waiters are told the
truth. A reader is, unless the engine failed to read a piece with an error that says the same: that
is taken for news of the handle, the reader ends without giving anything back, and its deadlines
stay where they are.
-/

namespace TorrentFlow.Services

open Delivery (Note)

/-- The engine does not track the handle, and nothing has a deadline under it. -/
def Untracked (s : Simulated) (h : Handle) : Prop :=
  (s.isTracked h).1 = .ok false ∧ ∀ x, s.hasDeadline h x = false

lemma untracked_of_gone {s : Simulated} {h : Handle} (hnone : s.torrent? h = none) :
    Untracked s h := by
  simp [Untracked, Simulated.isTracked, Simulated.hasDeadline, hnone]

/-! ### A subscription that is kept in mind -/

lemma heeds_step {p q : Pipeline Simulated} {note : Note} (hinv : Delivery.Inv p)
    (hstep : Delivery.Step p note q) {sub : Nat} {h : Handle} (hsub : sub < p.hub.nextId)
    (hw : Heeds p sub h) (hgone : p.engine.torrent? h = none → q.engine.torrent? h = none) :
    Heeds q sub h := by
  intro s' hs'
  have hev := Delivery.step_evolves hinv hstep
  rcases hs : p.hub.subscriptions.get? sub with _ | s
  · -- numbers are not given to others
    exact absurd (hev.new sub s' hs' hs).1 (Nat.not_le_of_lt hsub)
  · exact (hw s hs).fate (hev.grown sub s s' hs hs').fate hgone

lemma heeds_run {p q : Pipeline Simulated} {notes : List Note} (hinv : Delivery.Inv p)
    (hrun : Delivery.Run p notes q) (hd : ∀ note ∈ notes, Discreet note) {sub : Nat} {h : Handle}
    (hsub : sub < p.hub.nextId) (hw : Heeds p sub h) : Heeds q sub h := by
  induction hrun with
  | nil => exact hw
  | snoc hrun hstep ih =>
    have hd' := hd _ (List.mem_append_right _ (List.mem_singleton_self _))
    exact heeds_step (Delivery.run_inv hinv hrun) hstep
      (Nat.lt_of_lt_of_le hsub (nextId_run hinv hrun))
      (ih fun n hn => hd n (List.mem_append_left _ hn)) ((tended_step hstep hd').gone h)
  | aside _ _ _ _ _ _ _ _ ih => exact ih hd

/-! ### Asking a reader -/

structure Briefed (trace : List Event) (p : Pipeline Simulated) (r : Reader) : Prop where
  steady : Steady trace p
  heeds : Heeds p r.subscription r.handle
  stocked : Stocked (Added trace) (Failed trace) r

/-- The engine failed to read the reader's next piece, with an error which says that a handle is not
valid. -/
def Misled (trace : List Event) (r : Reader) : Prop :=
  ∃ x e, r.pieces[r.cursor]? = some x ∧ e.isInvalidHandle = true ∧ Failed trace r.handle x e

section Asking

variable {trace : List Event} {p q : Pipeline Simulated} {id : Nat} {r r' : Reader}

lemma Briefed.attended (h : Briefed trace p r) (hr : p.readers.get? id = some r)
    (ha : Attended id r.subscription p q) (hk : r.Kin r')
    (hst : Stocked (Added trace) (Failed trace) r') : Briefed trace q r' := by
  obtain ⟨hsound, hstaffed, hfaithful⟩ := h.steady
  obtain ⟨notes, hc, hown⟩ := ha.continues ⟨r, hr⟩
  have hd : ∀ note ∈ notes, Discreet note := fun note hn => (hown note hn).discreet
  obtain ⟨s, hs, -⟩ := hstaffed.subscribed id r hr
  refine ⟨⟨sound_run hsound hc.run hd, hstaffed.continues hsound.inv hc,
    hfaithful.discreet hsound.inv hc.run hd⟩, ?_, hst⟩
  rw [hk.subscription, hk.handle]
  exact heeds_run hsound.inv hc.run hd (hsound.inv.hub.ids _ s hs) h.heeds

lemma Briefed.took (h : Briefed trace p r) (hr : p.readers.get? id = some r) {a : Alert}
    (hp : (p.pollSubscription r.subscription).1 = some (.ok a)) (ht : r.take a = .ok r') :
    Briefed trace ((p.pollSubscription r.subscription).2.putReader id r') r' := by
  obtain ⟨hplay, hhandle⟩ := received_spec h.steady.sound h.steady.staffed hr hp
  have hk := Reader.kin_take ht
  have hput : Attended id r.subscription (p.pollSubscription r.subscription).2
      ((p.pollSubscription r.subscription).2.putReader id r') := .putReader hr hk
  exact h.attended hr ((Attended.pollSubscription p).trans hput) hk
    (stocked_take h.stocked (h.steady.sound.honest a hplay) hhandle ht)

lemma engine_failReader (hr : p.readers.get? id = some r) :
    (p.failReader id .handleInvalid).2.engine = p.engine := by
  have hinvalid : (r.marked .handleInvalid).handleInvalid = true := by simp [Reader.marked]
  rw [failReader_snd hr]
  simp only [Pipeline.endReader, get?_putReader_self, hinvalid, if_true]
  unfold Pipeline.discardClaims
  split <;> rfl

/-- A reader that reads on answers that its handle is not valid only if its torrent is gone or it
was misled, and calls nothing. -/
lemma invalid_reading {answer : Polled (Except PieceError PieceData)} (h : Reading id p answer q) :
    ∀ r, p.readers.get? id = some r → Briefed trace p r → answer = .item (.error .handleInvalid) →
      q.engine = p.engine ∧ (p.engine.torrent? r.handle = none ∨ Misled trace r) := by
  induction h with
  | served => nofun
  | @soured p r₀ r' e hr hs =>
    intro r hr' hb ha
    obtain rfl := Option.some.inj (hr.symm.trans hr')
    obtain ⟨-, x, e', hx, hready, he⟩ := Reader.serve_error hs
    obtain rfl : e = .handleInvalid := by simpa using ha
    refine ⟨engine_failReader (get?_putReader_self p id r'), Or.inr ⟨x, e', hx, ?_, ?_⟩⟩
    · -- any other failure of the read would be told as the engine's
      by_contra hvalid
      rw [PieceError.ofEngine, if_neg hvalid] at he
      cases he
    · exact hb.stocked x (.error e') hready
  | waited => nofun
  | @failed p r₀ e hr hs hp =>
    intro r hr' hb ha
    obtain rfl := Option.some.inj (hr.symm.trans hr')
    have he : PieceError.ofDelivery e = .handleInvalid := by simpa using ha
    rw [he]
    exact ⟨engine_failReader (p := (p.pollSubscription r₀.subscription).2) hr,
      Or.inl (gone_of_delivery hb.heeds hp he)⟩
  | @ousted p r₀ a e hr hs hp ht =>
    intro r hr' hb ha
    obtain rfl := Option.some.inj (hr.symm.trans hr')
    obtain rfl : e = .handleInvalid := by simpa using ha
    exact ⟨engine_failReader (p := (p.pollSubscription r₀.subscription).2) hr,
      Or.inl (gone_of_take hb.steady hr hp ht)⟩
  | @took p q r₀ r' a answer hr hs hp ht h ih =>
    intro r hr' hb ha
    obtain rfl := Option.some.inj (hr.symm.trans hr')
    have hnext := hb.took hr hp ht
    obtain ⟨ready, rfl⟩ := Reader.take_ok ht
    have hrest := ih { r₀ with ready } (get?_putReader_self _ _ _) hnext ha
    exact hrest

/-- What there is to say of a reader that answers that its handle is not valid: nothing is called
after the window was slid, and the handle is not tracked unless the reader was misled. -/
structure Ousted (trace : List Event) (p : Pipeline Simulated) (id : Nat) (r : Reader)
    (wanted : OrderedSet Piece) : Prop where
  reader : p.readers.get? id = some r
  slid : r.upcoming? = some wanted
  silent : (p.pollReader id).2.engine = (p.slideReader id r wanted).2.engine
  cause : Untracked (p.pollReader id).2.engine r.handle ∨ Misled trace r

/-- **A reader that is told so has lost its torrent, or was misled.** -/
theorem ousted_of_polled (hr : p.readers.get? id = some r) (hb : Briefed trace p r)
    (ha : (p.pollReader id).1 = .item (.error .handleInvalid)) :
    ∃ wanted, Ousted trace p id r wanted := by
  have hpolls := polls_pollReader hr
  rw [ha] at hpolls
  generalize hq : (p.pollReader id).2 = q at hpolls
  -- in both cases what is left of the engine is what sliding made of it
  have hwanted : ∀ wanted, r.upcoming? = some wanted →
      q.engine = (p.slideReader id r wanted).2.engine →
      ((p.slideReader id r wanted).2.engine.torrent? r.handle = none ∨ Misled trace r) →
      ∃ wanted, Ousted trace p id r wanted := fun wanted hu he hcause =>
    ⟨wanted, hr, hu, hq ▸ he, hcause.imp_left fun hnone => by
      rw [hq, he]
      exact untracked_of_gone hnone⟩
  cases hpolls with
  | @slipped hf hc pieces hu hn e hm =>
    exact hwanted pieces hu (engine_failReader (get?_slideReader p id hr pieces))
      (Or.inl (gone_of_slide hb.steady.staffed hr hm))
  | @went hf hc pieces hu hn hm answer q h =>
    have hslide : Attended id r.subscription p (p.slideReader id r pieces).2 :=
      .slideReader hr pieces
    have hget := get?_slideReader p id hr pieces
    obtain ⟨he, hcause⟩ : q.engine = (p.slideReader id r pieces).2.engine ∧ _ := by
      refine invalid_reading h _ hget (hb.attended hr hslide ?_ ?_) rfl
      · split_ifs
        · exact .refl r
        · exact r.kin_slide pieces
      · split_ifs
        · exact hb.stocked
        · exact hb.stocked.slide pieces
    refine hwanted pieces hu he ?_
    split_ifs at hcause <;> exact hcause

end Asking

/-! ### From some moment on -/

section Moment

variable {settings : Settings} {trace : List Event} {p q : Pipeline Simulated} {event : Event}
  {h : Handle} {id sub : Nat} {pieces : List Piece}

lemma Run.steps {events : List Event} (hrun : Run settings trace p) (hsteps : Steps p events q) :
    Run settings (trace ++ events) q := by
  induction hsteps with
  | nil => rwa [List.append_nil]
  | snoc _ hstep ih =>
    rw [← List.append_assoc]
    exact ih.snoc hstep

/-- **What is gone stays gone.** -/
lemma gone_step (hs : Steady trace p) (hg : GivenOut trace h)
    (hfresh : (handlesGiven (trace ++ [event])).Nodup) (hstep : Step p event q)
    (hnone : p.engine.torrent? h = none) : q.engine.torrent? h = none := by
  cases course_step hs.sound.inv hs.staffed hstep with
  | delivery hnote => exact hs.faithful.gone_delivery hnote hfresh hg hnone
  | discreet hc hd => exact (tended_run hc.run hd).gone h hnone
  | reading g pieces => exact (tended_run (run_read p g pieces) discreet_read).gone h hnone

/-- Whoever got the handle before he subscribed is told no more than what is so. -/
structure Listens (p : Pipeline Simulated) (sub : Nat) (h : Handle) : Prop where
  made : sub < p.hub.nextId
  heeds : Heeds p sub h

lemma listens_step (hs : Steady trace p) (hg : GivenOut trace h)
    (hfresh : (handlesGiven (trace ++ [event])).Nodup) (hl : Listens p sub h)
    (hstep : Step p event q) : Listens q sub h := by
  have hinv := hs.sound.inv
  have hdiscreet : ∀ {notes : List Note} {q : Pipeline Simulated}, Delivery.Run p notes q →
      (∀ note ∈ notes, Discreet note) → Listens q sub h := fun hrun hd =>
    ⟨Nat.lt_of_lt_of_le hl.made (nextId_run hinv hrun), heeds_run hinv hrun hd hl.made hl.heeds⟩
  cases course_step hinv hs.staffed hstep with
  | delivery hnote =>
    have hnext := (Delivery.step_evolves hinv hnote).nextId
    exact ⟨Nat.lt_of_lt_of_le hl.made hnext, heeds_step hinv hnote hl.made hl.heeds
      (hs.faithful.gone_delivery hnote hfresh hg)⟩
  | discreet hc hd => exact hdiscreet hc.run hd
  | reading g pieces => exact hdiscreet (run_read p g pieces) discreet_read

lemma listens_subscribe (hinv : Delivery.Inv p) {request : Request} (hh : request.handle = some h) :
    Listens (p.subscribe request).2 (p.subscribe request).1 h := by
  rw [Pipeline.subscribe_fst]
  refine ⟨?_, (watched_subscribe hinv hh).heeds⟩
  rw [Pipeline.subscribe_snd]
  exact Nat.lt_succ_self _

lemma waits_step (hs : Steady trace p) (hg : GivenOut trace h)
    (hfresh : (handlesGiven (trace ++ [event])).Nodup) (hw : Waits p id h)
    (hstep : Step p event q) :
    Waits q id h :=
  hw.step hstep (settings_step hs.sound.inv hs.staffed hstep).2 (gone_step hs hg hfresh hstep)

/-- A reader, as long as it is there, with the subscription that was made for it. -/
structure Serves (p : Pipeline Simulated) (id sub : Nat) (h : Handle) (pieces : List Piece) :
    Prop where
  scope : id < p.nextScope
  reader : ∀ r, p.readers.get? id = some r → r.handle = h ∧ r.subscription = sub ∧ r.pieces = pieces
  listens : Listens p sub h

lemma serves_step (hs : Steady trace p) (hg : GivenOut trace h)
    (hfresh : (handlesGiven (trace ++ [event])).Nodup) (hr : Serves p id sub h pieces)
    (hstep : Step p event q) : Serves q id sub h pieces := by
  have hinv := hs.sound.inv
  have hkin : ∀ {notes : List Note} {q : Pipeline Simulated}, Continues notes p q → ∀ r',
      q.readers.get? id = some r' → r'.handle = h ∧ r'.subscription = sub ∧ r'.pieces = pieces :=
    fun hc r' hr' => by
      obtain ⟨r, hget, hk⟩ := hc.readers id r' hr'
      rw [hk.handle, hk.subscription, hk.pieces]
      exact hr.reader r hget
  refine ⟨Nat.lt_of_lt_of_le hr.scope (settings_step hinv hs.staffed hstep).2, ?_,
    listens_step hs hg hfresh hr.listens hstep⟩
  cases course_step hinv hs.staffed hstep with
  | delivery _ _ hc => exact hkin hc
  | discreet hc => exact hkin hc
  | reading g pieces' =>
    intro r' hr'
    rcases get?_read_cases hr' with ⟨hid, -⟩ | hget
    · exact absurd hid (Nat.ne_of_lt hr.scope)
    · exact hr.reader r' hget

lemma serves_read (hs : Steady trace p) (h : Handle) (pieces : List Piece) :
    Serves (p.read h pieces).2 (p.read h pieces).1 p.hub.nextId h pieces := by
  rw [fst_read]
  refine ⟨?_, fun r hr => ?_, ?_, (watched_read hs.sound.inv h pieces).heeds⟩
  · rw [nextScope_read]
    exact Nat.lt_succ_self _
  · rcases get?_read_cases hr with ⟨-, rfl⟩ | hget
    · exact ⟨rfl, rfl, rfl⟩
    · exact absurd (hs.staffed.bound _ r hget) (Nat.lt_irrefl _)
  · rw [nextId_read]
    exact Nat.lt_succ_self _

lemma handlesGiven_skip {begin : Event} (hbegin : begin.given? = none) (trace more : List Event) :
    handlesGiven (trace ++ [begin] ++ more) = handlesGiven (trace ++ more) := by
  simp [handlesGiven, hbegin]

/-- What holds at some moment of a run, and is kept by every step as long as no handle is given out
twice, holds from then on. -/
lemma steps_induction {P : List Event → Pipeline Simulated → Prop} (hrun : Run settings trace p)
    (hp : P [] p) (hkeep : ∀ {events : List Event} {p q : Pipeline Simulated} {event : Event},
      Run settings (trace ++ events) p → (handlesGiven (trace ++ events ++ [event])).Nodup →
      P events p →
      Step p event q → P (events ++ [event]) q)
    {events : List Event} (hsteps : Steps p events q)
    (hfresh : (handlesGiven (trace ++ events)).Nodup) :
    P events q := by
  induction hsteps with
  | nil => exact hp
  | snoc hsteps hstep ih =>
    rw [← List.append_assoc] at hfresh
    exact hkeep (hrun.steps hsteps) hfresh (ih (nodup_before hfresh)) hstep

/-- What every step keeps holds from the moment on at which somebody begins with a handle that had
been given out. -/
lemma steps_keep {P : Pipeline Simulated → Prop} (hg : GivenOut trace h)
    (hkeep : ∀ {trace : List Event} {p q : Pipeline Simulated} {event : Event}, Steady trace p →
      GivenOut trace h → (handlesGiven (trace ++ [event])).Nodup → P p → Step p event q → P q)
    {begin : Event} (hbegin : begin.given? = none) (hrun : Run settings (trace ++ [begin]) p)
    (hp : P p) {events : List Event} (hsteps : Steps p events q)
    (hfresh : (handlesGiven (trace ++ events)).Nodup) : P q :=
  steps_induction (P := fun _ => P) hrun hp
    (fun hrun hnext hp hstep =>
      hkeep (run_steady hrun (nodup_before hnext)) ((hg.append _).append _) hnext hp hstep)
    hsteps (by rwa [handlesGiven_skip hbegin])

end Moment

/-! ### A torrent that is removed, and one that is not -/

def saysInvalid {α : Type} : Polled (Except PieceError α) → Bool
  | .item (.error .handleInvalid) => true
  | _ => false

lemma eq_of_saysInvalid {α : Type} {answer : Polled (Except PieceError α)}
    (h : saysInvalid answer = true) : answer = .item (.error .handleInvalid) := by
  unfold saysInvalid at h
  split at h
  · rfl
  · cases h

def filmed : Pipeline Simulated :=
  let start := (Pipeline.start {} ({} : Simulated)).toOption.getD (.assemble {} {})
  { start with engine := (EngineCall.add "film" [[7]] .downloading).apply start.engine }

lemma run_filmed : Run {} [.added ⟨0, 1⟩ [[7]]] filmed :=
  (run_start {} (by decide +kernel)).snoc (step_add _ (by decide +kernel))

lemma givenOut_film : GivenOut [.added ⟨0, 1⟩ [[7]]] ⟨0, 1⟩ := ⟨[[7]], List.mem_singleton_self _⟩

def bereft (p : Pipeline Simulated) : Pipeline Simulated :=
  { p with engine := (EngineCall.remove ⟨0, 1⟩).apply p.engine }

lemma step_bereft (p : Pipeline Simulated) : Step p .quiet (bereft p) :=
  step_call (c := .remove ⟨0, 1⟩) p rfl

lemma step_askLiveness (p : Pipeline Simulated) (sub : Nat)
    (h : (p.askLiveness sub).isSome = true) :
    Step p .quiet ((p.askLiveness sub).getD p) := by
  obtain ⟨q, hq⟩ := Option.isSome_iff_exists.mp h
  rw [hq]
  exact .deliver (.askLiveness hq) trivial

lemma step_answerLiveness (p : Pipeline Simulated) (sub : Nat)
    (h : (p.answerLiveness sub).isSome = true) : Step p .quiet ((p.answerLiveness sub).getD p) := by
  obtain ⟨q, hq⟩ := Option.isSome_iff_exists.mp h
  rw [hq]
  exact .deliver (.answerLiveness hq) trivial

lemma steps_turned {p q : Pipeline Simulated} {events : List Event} (h : Steps p events q)
    (hidle : (q.pumpStep 0).isSome = true) (htake : ((turned q).pumpStep 0).isSome = true)
    (hdeliver : ((turned (turned q)).pumpStep 0).isSome = true) :
    Steps p (events ++ [.quiet] ++ [.quiet] ++ [.quiet]) (turned (turned (turned q))) :=
  ((h.snoc (step_pump q hidle)).snoc (step_pump _ htake)).snoc (step_pump _ hdeliver)

/-! ### Everybody who is told -/

/-- **That a handle is not valid is said of no handle that the engine tracks**, unless it was given
out twice or the engine itself misleads a reader. Whoever got a handle from the engine and begins
with it, a waiter, a subscriber or a reader, is told so only when the engine does not track it any
more and nothing has a deadline under it; but a reader is told so too when the engine failed to read
its next piece with an error of that kind. However it comes to be told, it makes no more calls, so
that in this one case its deadlines stay. -/
theorem invalid_handles_untracked {settings : Settings} {trace : List Event}
    {p : Pipeline Simulated} (hrun : Run settings trace p) {h : Handle} (hgiven : GivenOut trace h)
    {events : List Event} {q : Pipeline Simulated}
    (hfresh : (handlesGiven (trace ++ events)).Nodup) :
    (∀ pieces interval, (p.wait h pieces interval).1 = .error .handleInvalid →
      Untracked p.engine h) ∧
    (∀ pieces interval id p', p.wait h pieces interval = (.ok id, p') → Steps p' events q →
      (q.pollWaiter id).1 = .item (.error .handleInvalid) → Untracked q.engine h) ∧
    (∀ request : Request, request.handle = some h → Steps (p.subscribe request).2 events q →
      (q.pollSubscription (p.subscribe request).1).1 = some (.error .handleInvalid) →
        Untracked q.engine h) ∧
    ∀ pieces, Steps (p.read h pieces).2 events q →
      (q.pollReader (p.read h pieces).1).1 = .item (.error .handleInvalid) →
        ∃ r wanted, r.handle = h ∧ r.pieces = pieces ∧
          Ousted (trace ++ events) q (p.read h pieces).1 r wanted := by
  have hs : Steady trace p := run_steady hrun (nodup_before hfresh)
  refine ⟨fun pieces interval hw => untracked_of_gone (gone_of_refused hw), ?_, ?_, ?_⟩
  · intro pieces interval id p' hw hsteps ha
    have hstep : Step p .quiet p' := by
      have hwait := Step.wait p h pieces interval
      rwa [hw] at hwait
    have hkept : Waits q id h := steps_keep (P := fun p => Waits p id h) hgiven waits_step rfl
      (hrun.snoc hstep) (waits_wait hw) hsteps hfresh
    exact untracked_of_gone (hkept.gone ha)
  · intro request hh hsteps ha
    have hstep : Step p .quiet (p.subscribe request).2 := .deliver (.subscribe p request) trivial
    have hkept : Listens q _ h := steps_keep (P := fun p => Listens p _ h) hgiven listens_step rfl
      (hrun.snoc hstep) (listens_subscribe hs.sound.inv hh) hsteps hfresh
    exact untracked_of_gone (hkept.heeds.gone ha nofun)
  · intro pieces hsteps ha
    have hbegun := hrun.snoc (.read p h pieces)
    have hall := hbegun.steps hsteps
    have hr := steps_keep (P := fun p => Serves p _ _ h pieces) hgiven serves_step rfl hbegun
      (serves_read hs h pieces) hsteps hfresh
    have hs' := run_steady hall (by rwa [handlesGiven_skip rfl])
    rcases hget : q.readers.get? (p.read h pieces).1 with _ | r
    · rw [Pipeline.pollReader, hget] at ha
      cases ha
    obtain ⟨rfl, hsub, rfl⟩ := hr.reader r hget
    obtain ⟨wanted, ho⟩ := ousted_of_polled hget
      ⟨hs', hsub ▸ hr.listens.heeds, run_stocked hall _ r hget⟩ ha
    refine ⟨r, wanted, rfl, rfl, ho.reader, ho.slid, ho.silent, ho.cause.imp_right ?_⟩
    rintro ⟨x, e, hx, he, hfailed⟩
    exact ⟨x, e, hx, he, by simpa [Failed] using hfailed⟩

/-- A waiter, a subscriber and a reader of a torrent that is removed. -/
theorem invalid_handles_untracked_removed : ∃ (trace : List Event) (p : Pipeline Simulated),
    Run {} trace p ∧ GivenOut trace ⟨0, 1⟩ ∧
    (∃ pieces interval id p' events q, p.wait ⟨0, 1⟩ pieces interval = (.ok id, p') ∧
      Steps p' events q ∧ (handlesGiven (trace ++ events)).Nodup ∧
      (q.pollWaiter id).1 = .item (.error .handleInvalid) ∧ Untracked q.engine ⟨0, 1⟩) ∧
    (∃ request events q, Steps (p.subscribe request).2 events q ∧
      (handlesGiven (trace ++ events)).Nodup ∧ request.handle = some ⟨0, 1⟩ ∧
      (q.pollSubscription (p.subscribe request).1).1 = some (.error .handleInvalid) ∧
      Untracked q.engine ⟨0, 1⟩) ∧
    ∃ pieces events q, Steps (p.read ⟨0, 1⟩ pieces).2 events q ∧
      (handlesGiven (trace ++ events)).Nodup ∧
      (q.pollReader (p.read ⟨0, 1⟩ pieces).1).1 = .item (.error .handleInvalid) ∧
      Untracked (q.pollReader (p.read ⟨0, 1⟩ pieces).1).2.engine ⟨0, 1⟩ := by
  refine ⟨_, filmed, run_filmed, givenOut_film, ?_, ?_, ?_⟩
  · let p' := (filmed.wait ⟨0, 1⟩ [⟨0⟩] (.ofSeconds 1)).2
    let q := ((bereft p').askPoll 0).publishPoll 0
    have hw : filmed.wait ⟨0, 1⟩ [⟨0⟩] (.ofSeconds 1) = (.ok 0, p') :=
      Prod.ext (by decide +kernel) rfl
    have hsteps : Steps p' _ q :=
      (((Steps.nil p').snoc (step_bereft p')).snoc (.askPoll _ 0)).snoc (.publishPoll _ 0)
    have hfresh : (handlesGiven ([.added ⟨0, 1⟩ [[7]]] ++
        ([] ++ [.quiet] ++ [.quiet] ++ [.quiet]))).Nodup := by decide
    have ha : (q.pollWaiter 0).1 = .item (.error .handleInvalid) :=
      eq_of_saysInvalid (by decide +kernel)
    exact ⟨_, _, 0, p', _, q, hw, hsteps, hfresh, ha,
      (invalid_handles_untracked run_filmed givenOut_film hfresh).2.1 _ _ 0 p' hw hsteps ha⟩
  · let request : Request := { handle := some ⟨0, 1⟩, raiseIfRemoved := true }
    let p₁ := bereft (filmed.subscribe request).2
    let p₂ := (p₁.askLiveness 1).getD p₁
    let q := (p₂.answerLiveness 1).getD p₂
    have hsteps : Steps (filmed.subscribe request).2 _ q :=
      (((Steps.nil _).snoc (step_bereft _)).snoc (step_askLiveness p₁ 1 (by decide +kernel))).snoc
        (step_answerLiveness p₂ 1 (by decide +kernel))
    have hfresh : (handlesGiven ([.added ⟨0, 1⟩ [[7]]] ++
        ([] ++ [.quiet] ++ [.quiet] ++ [.quiet]))).Nodup := by decide
    have ha : (q.pollSubscription (filmed.subscribe request).1).1 =
        some (.error .handleInvalid) := by
      decide +kernel
    exact ⟨request, _, q, hsteps, hfresh, rfl, ha,
      (invalid_handles_untracked run_filmed givenOut_film hfresh).2.2.1 request rfl hsteps ha⟩
  · let p₁ := (filmed.read ⟨0, 1⟩ [⟨0⟩]).2
    let p₂ := bereft (p₁.pollReader 0).2
    let q := turned (turned (turned p₂))
    have hsteps : Steps p₁ _ q := steps_turned
      (((Steps.nil p₁).snoc (step_waits p₁ 0 (by decide +kernel) (by decide +kernel))).snoc
        (step_bereft _)) (by decide +kernel) (by decide +kernel) (by decide +kernel)
    have hfresh : (handlesGiven ([.added ⟨0, 1⟩ [[7]]] ++
        ([] ++ [.polled 0 (p₁.advancing? 0) .pending] ++ [.quiet] ++ [.quiet] ++ [.quiet] ++
          [.quiet]))).Nodup := List.pairwise_singleton _ _
    have ha : (q.pollReader (filmed.read ⟨0, 1⟩ [⟨0⟩]).1).1 = .item (.error .handleInvalid) :=
      eq_of_saysInvalid (by decide +kernel)
    obtain ⟨r, wanted, hh, -, ho⟩ :=
      (invalid_handles_untracked run_filmed givenOut_film hfresh).2.2.2 _ hsteps ha
    have hcause := ho.cause
    rw [hh] at hcause
    refine ⟨_, _, q, hsteps, hfresh, ha, hcause.resolve_right ?_⟩
    rintro ⟨x, e, -, -, hfailed⟩
    simp [Failed] at hfailed

/-- It is not so that whoever reads and is told that its handle is not valid leaves no deadline that
nobody wants any more, and so not that the engine does not track the handle either: reading a piece
failed with an error that says so. -/
theorem invalid_handle_left_deadline : ¬ ∀ (settings : Settings) (trace : List Event)
    (p : Pipeline Simulated) (h : Handle), Run settings trace p → GivenOut trace h →
      ∀ pieces events q, Steps (p.read h pieces).2 events q →
      (handlesGiven (trace ++ events)).Nodup →
        (q.pollReader (p.read h pieces).1).1 = .item (.error .handleInvalid) →
        ∀ x, wanting (q.pollReader (p.read h pieces).1).2 h x = 0 →
          (q.pollReader (p.read h pieces).1).2.engine.hasDeadline h x = false := by
  intro hclaim
  let p₁ := (filmed.read ⟨0, 1⟩ [⟨0⟩]).2
  let p₂ := (p₁.pollReader 0).2
  let misread : EngineCall := .fail ⟨0, 1⟩ ⟨0⟩ .invalidHandle
  let p₃ : Pipeline Simulated := { p₂ with engine := misread.apply p₂.engine }
  let q := turned (turned (turned p₃))
  have hsteps : Steps p₁ _ q := steps_turned
    (((Steps.nil p₁).snoc (step_waits p₁ 0 (by decide +kernel) (by decide +kernel))).snoc
      (step_call (c := misread) p₂ rfl)) (by decide +kernel) (by decide +kernel) (by decide +kernel)
  have ha : (q.pollReader (filmed.read ⟨0, 1⟩ [⟨0⟩]).1).1 = .item (.error .handleInvalid) :=
    eq_of_saysInvalid (by decide +kernel)
  have hleft : (q.pollReader (filmed.read ⟨0, 1⟩ [⟨0⟩]).1).2.engine.hasDeadline ⟨0, 1⟩ ⟨0⟩ =
      true := by
    decide +kernel
  have hnone := hclaim {} _ filmed ⟨0, 1⟩ run_filmed givenOut_film [⟨0⟩] _ q hsteps
    (List.pairwise_singleton _ _) ha ⟨0⟩ (by decide +kernel)
  rw [hleft] at hnone
  cases hnone

end TorrentFlow.Services
