import TorrentFlow.Proofs.Services.Promises

/-!
No read is lost. Whatever others call and whoever is asked, the promises to the readers are kept, as
long as delivery goes on. So a reader that was asked and had no answer yet waits for something that
comes: the piece at its cursor is in its window and is asked for, or the alert that ends its waiting
is on the way.
-/

namespace TorrentFlow.Services

open Delivery (Note outstanding)
open Pipeline (readRequest)

/-! ### What others call -/

/-- A piece that is asked for goes on being asked for, or comes. -/
lemma asked_apply {s : Simulated} {c : EngineCall} (hc : c.isPublic = true) {h : Handle} {x : Piece}
    (heq : (c.apply s).torrent? h =
      if c.handle? = some h then (s.torrent? h).bind fun t => c.onTorrent t else s.torrent? h)
    (ha : s.Asked h x) {t' : SimulatedTorrent} (ht' : (c.apply s).torrent? h = some t') :
    (c.apply s).Asked h x ∨ ∃ a ∈ c.generated s, Brings h x a := by
  obtain ⟨t, i, ht, hi, hav, hmem⟩ := ha
  have hkept : t' = t → (c.apply s).Asked h x := by
    rintro rfl
    exact ⟨t', i, ht', hi, hav, hmem⟩
  have hcall := ht'
  rw [heq, ht, Option.bind_some] at hcall
  split_ifs at hcall with hh
  · cases c with
    | remove g => cases hcall
    | setDeadline => cases hc
    | resetDeadline => cases hc
    | finishChecking g =>
      left
      obtain rfl := Option.some.inj hcall
      exact ⟨_, i, ht', hi, hav, hmem⟩
    | feed g y =>
      obtain rfl : g = h := Option.some.inj hh
      simp only [EngineCall.onTorrent] at hcall
      rcases hj : t.position? y with _ | j <;> simp only [hj, Option.some.injEq] at hcall
      · exact Or.inl (hkept hcall.symm)
      · subst hcall
        by_cases hxy : x = y
        · -- the piece that is asked for comes
          subst hxy
          refine Or.inr ⟨.readPiece g t.name x (t.payload j) none, ?_, rfl, rfl⟩
          simp [EngineCall.generated, Simulated.piece?_eq_some.mpr ⟨ht, hj⟩, Simulated.feedAlerts,
            OrderedSet.contains_iff.mpr hmem]
        · have hij : j ≠ i := fun e => hxy (position?_inj hi (e ▸ hj))
          refine Or.inl ⟨_, i, ht', hi, ?_, OrderedSet.mem_erase.mpr ⟨hmem, hxy⟩⟩
          simpa only [SimulatedTorrent.isAvailable, Simulated.fed,
            List.getElem?_set_ne hij] using hav
    | _ => exact Or.inl (hkept (Option.some.inj hcall).symm)
  · exact Or.inl (hkept (Option.some.inj hcall).symm)

section Call

variable {trace : List Event} {p : Pipeline Simulated} {id : Nat} {r : Reader} {c : EngineCall}
  {s : Subscription}

/-- What a call generates for a reader gets on its way to it. -/
lemma outstanding_of_generated (hs : Sane trace p) (hr : p.readers.get? id = some r)
    (hsub : p.hub.subscriptions.get? r.subscription = some s) {a : Alert}
    (ha : a ∈ c.generated p.engine) (hacc : (readRequest r.handle).filter.accepts a = true) :
    a ∈ outstanding { p with engine := c.apply p.engine } s := by
  refine outstanding_of_queue hs.staffed hr hsub ?_ hacc
  rw [EngineCall.queue_apply]
  exact List.mem_append_right _
    (List.mem_filter.mpr ⟨ha, emits_of_reader hs.sound.inv hs.staffed hr hacc⟩)

lemma Attentive.called (h : Attentive p id) (hs : Sane trace p) (hc : c.isPublic = true)
    (ho : Orderly (trace ++ [.ofCall p.engine c]))
    (hq : Tracked (trace ++ [.ofCall p.engine c]) { p with engine := c.apply p.engine }) :
    Attentive { p with engine := c.apply p.engine } id := by
  intro r s hr hf hsub
  have heq := hs.tracked.torrent?_apply ho.fresh (hs.tracked.readers id r hr)
  have hqueue : ∀ a ∈ p.engine.queue, a ∈ (c.apply p.engine).queue := fun a ha => by
    rw [EngineCall.queue_apply]
    exact List.mem_append_left _ ha
  have hway : ∀ a ∈ outstanding p s, a ∈ outstanding { p with engine := c.apply p.engine } s :=
    fun a ha => mem_outstanding (p := p) rfl hqueue ha
  refine (h r s hr hf hsub).onward ⟨rfl, fun hfail => ⟨hfail, fun a ha => Or.inl (hway a ha)⟩,
    fine_of_tracked hq hr hsub, fun t' ht' => ?_, fun _ _ x hx => Or.inl ⟨hx, fun hready => hready⟩,
    fun t' ht' x _ _ hx => ?_, fun _ x hx => hx, fun t ht hnone _ => ?_⟩
  · have hcall : (c.apply p.engine).torrent? r.handle = some t' := ht'
    rw [heq] at hcall
    split_ifs at hcall
    · obtain ⟨t, ht, hon⟩ := Option.bind_eq_some_iff.mp hcall
      exact ⟨t, ht, (EngineCall.payloads_onTorrent hon).1⟩
    · exact ⟨t', hcall, rfl⟩
  · rcases asked_apply hc heq hx ht' with hasked | ⟨a, ha, hb⟩
    · exact Or.inr (Or.inl hasked)
    · exact Or.inr (Or.inr ⟨a, outstanding_of_generated hs hr hsub ha (accepts_of_brings hb), hb⟩)
  · -- only a removal takes the torrent away, and it tells
    have hcall : (c.apply p.engine).torrent? r.handle = none := hnone
    rw [heq, ht, Option.bind_some] at hcall
    split_ifs at hcall with hh
    cases c with
    | remove g =>
      obtain rfl : g = r.handle := Option.some.inj hh
      have hmem : .torrentRemoved r.handle t.name ∈
          (EngineCall.remove r.handle).generated p.engine := by simp [EngineCall.generated, ht]
      exact ⟨_, outstanding_of_generated hs hr hsub hmem (accepts_of_tells rfl), rfl⟩
    | feed g y =>
      simp only [EngineCall.onTorrent] at hcall
      split at hcall <;> cases hcall
    | setDeadline => cases hc
    | resetDeadline => cases hc
    | _ => cases hcall

end Call

/-! ### Every step -/

section Step

variable {trace : List Event} {p q : Pipeline Simulated}

lemma attentive_delivery {note : Note} (hb : Booked trace p) (hopen : p.hub.stopped = false)
    (hall : ∀ j, Attentive p j) (hstep : Delivery.Step p note q) (ha : Allowed p note)
    (ho : Orderly (trace ++ [.ofNote note])) (hq : Tracked (trace ++ [.ofNote note]) q)
    (hn : note ≠ .stopped) (j : Nat) : Attentive q j := by
  rcases Delivery.step_slots hstep with ⟨c, rfl, -⟩ | hslots
  · obtain rfl : q = { p with engine := c.apply p.engine } := by
      cases hstep
      rfl
    exact (hall j).called hb.sane ha ho hq
  · have hreaders := (Delivery.step_beside hstep).readers
    refine (hall j).carried hb.sane.sound.inv hb.sane.staffed hopen (.one hstep)
      (by simpa using hn.symm) (by rw [hreaders]) (fun r hr note' hmem => ?_) hq (.of_slots hslots)
      fun r hr x hx hasked => asked_congr (Simulated.torrent?_congr hslots _) hasked
    refine Note.returned_eq_nil fun answer e => ?_
    rw [← List.mem_singleton.mp hmem, e] at ha
    exact ha.2 j r hr rfl

lemma attentive_idling {event : Event} {notes : List Note} (hb : Booked trace p)
    (hopen : p.hub.stopped = false) (hall : ∀ j, Attentive p j) (hi : Idling notes p q)
    (hq : Tracked (trace ++ [event]) q) (j : Nat) : Attentive q j := by
  refine (hall j).carried hb.sane.sound.inv hb.sane.staffed hopen hi.continues.run
    (fun hn => hi.idle _ hn) (by rw [hi.readers]) (fun r hr note hn => ?_) hq
    (tended_run hi.continues.run fun note hn => (hi.idle note hn).discreet)
    fun r hr x hx hasked => asked_congr (hi.torrent? _) hasked
  refine Note.returned_eq_nil fun answer e => ?_
  have hidle := hi.idle note hn
  rw [e] at hidle
  exact hidle j r hr rfl

lemma attentive_read {event : Event} (hb : Booked trace p) (hopen : p.hub.stopped = false)
    (hall : ∀ j, Attentive p j) (h : Handle) (pieces : List Piece)
    (hq : Tracked (trace ++ [event]) (p.read h pieces).2) (j : Nat) :
    Attentive (p.read h pieces).2 j := by
  by_cases hj : j = p.nextScope
  · intro r s hr hf hs
    rw [get?_read, if_pos hj, Option.some.injEq] at hr
    have hnothing : ∀ x, x ∉ r.current := fun x hx => by
      rw [← hr] at hx
      exact OrderedSet.not_mem_empty hx
    exact ⟨fun t ht x hx => absurd hx (hnothing x), fun hnone x hx => absurd hx (hnothing x)⟩
  · have hquiet : ∀ note ∈ [Note.quiet], Discreet note := by
      simp [Discreet]
    have hrun := run_read p h pieces
    refine (hall j).carried hb.sane.sound.inv hb.sane.staffed hopen hrun (by simp)
      (by rw [get?_read, if_neg hj]) (fun r hr note hn => ?_) hq (tended_run hrun hquiet)
      fun r hr x hx hasked => asked_congr (torrent?_read p h pieces _) hasked
    rw [List.mem_singleton.mp hn]
    rfl

lemma engine_dropReader {id : Nat} {r : Reader} (hr : p.readers.get? id = some r) (h : Handle) :
    (p.dropReader id).engine.torrent? h = (p.endReader id).engine.torrent? h := by
  simp only [Pipeline.dropReader, hr]
  refine Simulated.torrent?_congr ?_ h
  rcases Delivery.step_slots (.unsubscribe _ r.subscription) with ⟨c, hc, -⟩ | hslots
  · cases hc
  · exact hslots

lemma attentive_dropReader {event : Event} (hb : Booked trace p) (hopen : p.hub.stopped = false)
    (hall : ∀ j, Attentive p j) (id : Nat) (hq : Tracked (trace ++ [event]) (p.dropReader id))
    (j : Nat) : Attentive (p.dropReader id) j := by
  rcases hr : p.readers.get? id with _ | r
  · rw [dropReader_none hr]
    exact hall j
  have hstaffed := hb.sane.staffed
  obtain ⟨hgone, hothers⟩ := others_dropReader p id
  by_cases hj : j = id
  · intro r₁ s hr₁
    rw [hj, hgone] at hr₁
    cases hr₁
  · obtain ⟨notes, hc, hparting⟩ := continues_dropReader hb.sane.sound.inv hstaffed hr
    refine (hall j).carried hb.sane.sound.inv hstaffed hopen hc.run (fun hn => ?_) (hothers j hj)
      (fun r₂ hr₂ note hn => ?_) hq (tended_run hc.run fun note hn => ?_)
      fun r₂ hr₂ x hx hasked => ?_
    · -- to drop a reader does not stop delivery
      rcases hparting _ hn with hown | hleft
      · exact hown
      · cases hleft
    · -- the others are handed nothing
      refine Note.returned_eq_nil fun answer e => hj ?_
      rcases hparting _ hn with hown | rfl
      · rw [e] at hown
        exact hstaffed.apart j id r₂ r hr₂ hr hown
      · cases e
    · rcases hparting _ hn with hown | rfl
      · exact hown.discreet
      · trivial
    · -- the window is shared, and what the others want stays asked for
      exact asked_congr (engine_dropReader hr _)
        (asked_endReader hb.ledger hstaffed hr hr₂ hj hx hasked)

/-- **Every step keeps the promises to all readers**, unless delivery is told to stop. -/
theorem attentive_step {event : Event} (hb : Booked trace p) (hopen : p.hub.stopped = false)
    (hall : ∀ j, Attentive p j) (hstep : Step p event q) (ho : Orderly (trace ++ [event]))
    (hq : Tracked (trace ++ [event]) q) (hn : event ≠ .stopped) : ∀ j, Attentive q j := by
  cases movement_step hb.sane.staffed hstep with
  | delivery hnote ha =>
    exact attentive_delivery hb hopen hall hnote ha ho hq fun e => hn (e ▸ rfl)
  | idling hi => exact attentive_idling hb hopen hall hi hq
  | reading h pieces => exact attentive_read hb hopen hall h pieces hq
  | polled hr hpolls => exact attentive_polls ho.init hr hpolls hb hopen hall
  | dropped id => exact attentive_dropReader hb hopen hall id hq

lemma running_step {event : Event} (hinv : Delivery.Inv p) (hstaffed : Staffed p)
    (hopen : p.hub.stopped = false) (hstep : Step p event q) (hn : event ≠ .stopped) :
    q.hub.stopped = false := by
  cases movement_step hstaffed hstep with
  | delivery hnote ha =>
    refine running_run hinv hopen (.one hnote) fun hmem => hn ?_
    rw [← List.mem_singleton.mp hmem]
    rfl
  | idling hi => exact running_run hinv hopen hi.continues.run fun hmem => hi.idle _ hmem
  | reading h pieces => exact running_run hinv hopen (run_read p h pieces) (by simp)
  | polled hr hpolls => exact running_attended hinv hopen (.polls hr hpolls)
  | dropped id =>
    rcases hr : p.readers.get? id with _ | r
    · rw [dropReader_none hr]
      exact hopen
    · obtain ⟨notes, hc, hparting⟩ := continues_dropReader hinv hstaffed hr
      refine running_run hinv hopen hc.run fun hmem => ?_
      rcases hparting _ hmem with hown | hleft
      · exact hown
      · cases hleft

end Step

/-- **Promises to readers are kept** as long as delivery goes on. -/
theorem run_attentive {settings : Settings} {trace : List Event} {p : Pipeline Simulated}
    (h : Run settings trace p) (ho : Orderly trace) (hn : Event.stopped ∉ trace) :
    p.hub.stopped = false ∧ ∀ j, Attentive p j := by
  induction h with
  | @start trace engine p he hp =>
    obtain ⟨hrun, hreaders, -⟩ := start_spec hp
    refine ⟨running_run (Delivery.inv_assemble settings engine) ?_ hrun (by simp),
      fun j r s hr => ?_⟩
    · rfl
    · simp [hreaders, Table.get?, Table.find] at hr
  | @snoc trace p q event hrun hstep ih =>
    simp only [List.mem_append, List.mem_singleton, not_or] at hn
    obtain ⟨hopen, hall⟩ := ih ho.init hn.1
    have hb := run_booked hrun ho.init
    have hevent : event ≠ .stopped := fun e => hn.2 e.symm
    exact ⟨running_step hb.sane.sound.inv hb.sane.staffed hopen hstep hevent,
      attentive_step hb hopen hall hstep ho (run_tracked (hrun.snoc hstep) ho) hevent⟩

/-! ### Whoever waits -/

/-- The last that was done with the reader was to ask it, and it had no answer. -/
def Pending (trace : List Event) (id : Nat) : Prop :=
  ∃ advance, (trace.filter fun event => event.reader? = some id).getLast? =
    some (.polled id advance .pending)

/-- A reader whose piece has not come in. -/
structure Expecting (r : Reader) : Prop where
  going : r.finished = false
  more : r.cursor < r.pieces.length
  slid : r.upcoming? = some r.current
  missing : r.serve? = none

lemma pending_cases {trace : List Event} {event : Event} {id : Nat}
    (h : Pending (trace ++ [event]) id) : (∃ advance, event = .polled id advance .pending) ∨
      event.reader? ≠ some id ∧ Pending trace id := by
  obtain ⟨advance, hlast⟩ := h
  rw [List.filter_append, List.getLast?_append] at hlast
  by_cases he : event.reader? = some id
  · have hself : [event].filter (fun event => event.reader? = some id) = [event] := by
      simp [he]
    rw [hself] at hlast
    exact Or.inl ⟨advance, Option.some.inj hlast⟩
  · have hnone : [event].filter (fun event => event.reader? = some id) = [] := by
      simp [he]
    rw [hnone, List.getLast?_nil, Option.none_or] at hlast
    exact Or.inr ⟨he, advance, hlast⟩

/-- Whoever waits has slid its window to where its cursor is, and misses the piece there. -/
theorem run_expecting {settings : Settings} {trace : List Event} {p : Pipeline Simulated}
    (h : Run settings trace p) {id : Nat} (hp : Pending trace id) :
    ∃ r, p.readers.get? id = some r ∧ Expecting r := by
  induction h with
  | start he =>
    obtain ⟨advance, hlast⟩ := hp
    have hmem := (List.mem_filter.mp (List.mem_of_getLast? hlast)).1
    cases prepared_readerless he _ hmem
  | @snoc trace p q event hrun hstep ih =>
    obtain ⟨hsound, hstaffed⟩ := run_sound_staffed hrun
    rcases pending_cases hp with ⟨advance, rfl⟩ | ⟨hne, hp⟩
    · cases (fortune_step hsound hstaffed (fun r hr => run_stocked hrun id r hr) hstep).1 with
      | apart he => exact absurd rfl he
      | @polled r r' _ hr hr' hk ho =>
        cases ho with
        | waits hf hlt hu hn hf' hc hs =>
          refine ⟨r', hr', hf', by rwa [hk.pieces, hc], ?_, hs⟩
          rw [← hu]
          simp only [Reader.upcoming?, hk.pieces, hk.ahead, hc]
    · rw [step_others hstaffed hstep hne]
      exact ih hp

lemma Expecting.wants {r : Reader} (h : Expecting r) (ha : 0 < r.ahead) :
    ∃ x, r.pieces[r.cursor]? = some x ∧ x ∈ r.current ∧ r.ready.get? x = none := by
  have hlt := h.more
  have hx : r.pieces[r.cursor]? = some r.pieces[r.cursor] := List.getElem?_eq_getElem hlt
  refine ⟨_, hx, ?_, Reader.serve_none h.missing hx⟩
  rw [Reader.upcoming?_eq h.slid, OrderedSet.mem_ofList, List.drop_eq_getElem_cons hlt]
  obtain ⟨n, hn⟩ := Nat.exists_eq_add_of_lt ha
  rw [hn, List.take_succ_cons]
  exact List.mem_cons_self

/-! ### No read is lost -/

/-- The places where an alert is that a subscription is still to see. -/
def OnTheWay (p : Pipeline Simulated) (s : Subscription) (a : Alert) : Prop :=
  a ∈ p.engine.queue ∨ a ∈ Delivery.inFlight p ∨ a ∈ s.mailbox.queue

lemma onTheWay_of_outstanding {p : Pipeline Simulated} {s : Subscription} {a : Alert}
    (ha : a ∈ outstanding p s) : OnTheWay p s a := by
  rcases List.mem_append.mp ha with ha | ha
  · exact Or.inr (Or.inr ha)
  · rcases List.mem_append.mp (List.mem_filter.mp ha).1 with ha | ha
    · exact Or.inr (Or.inl ha)
    · exact Or.inl ha

/-- **No read is lost**: in every state that the services come to while delivery is not told to
stop, whatever is asked, given up, dropped, fed, failed, added or removed, a reader that was asked
and has no answer yet waits for the piece at its cursor, which is in its window and has not come in;
and if its torrent is there, then that piece is one of the torrent's and either is not downloaded
and its bytes are asked for, or they, or an error in their place, are on the way to the reader; if
the torrent is gone, then word of that is on the way, or has come as a failure. -/
theorem no_lost_read {settings : Settings} {trace : List Event} {p : Pipeline Simulated}
    (hrun : Run settings trace p) (ho : Orderly trace) (hn : Event.stopped ∉ trace) {id : Nat}
    (hp : Pending trace id) : ∃ r s x, p.readers.get? id = some r ∧
      p.hub.subscriptions.get? r.subscription = some s ∧ r.pieces[r.cursor]? = some x ∧
      x ∈ r.current ∧ r.ready.get? x = none ∧
      ((∃ t i, p.engine.torrent? r.handle = some t ∧ t.position? x = some i ∧
          ((t.isAvailable i = false ∧ x ∈ t.readRequests) ∨
            ∃ name data error, OnTheWay p s (.readPiece r.handle name x data error))) ∨
        p.engine.torrent? r.handle = none ∧
        ((∃ name, OnTheWay p s (.torrentRemoved r.handle name)) ∨
          s.mailbox.failure = some .handleInvalid)) := by
  obtain ⟨r, hr, hexp⟩ := run_expecting hrun hp
  have hsane := run_sane hrun ho
  have hahead : 0 < r.ahead := by
    rw [hsane.staffed.ahead id r hr]
    omega
  obtain ⟨x, hx, hcur, hready⟩ := hexp.wants hahead
  obtain ⟨s, hs, hwatch⟩ := hsane.tracked.watched id r hr
  have hw := (run_attentive hrun ho hn).2 id r s hr hexp.going hs
  refine ⟨r, s, x, hr, hs, hx, hcur, hready, ?_⟩
  rcases ht : p.engine.torrent? r.handle with _ | t
  · refine Or.inr ⟨rfl, ?_⟩
    rcases hw.gone ht x hcur with hfail | ⟨a, ha, htells⟩
    · obtain ⟨e, he⟩ := Option.ne_none_iff_exists'.mp hfail
      exact Or.inr (he.trans (congrArg some (hwatch.failure e he).1))
    · cases a with
      | torrentRemoved g name =>
        obtain rfl : g = r.handle := htells
        exact Or.inl ⟨name, onTheWay_of_outstanding ha⟩
      | _ => cases htells
  · obtain ⟨hhas, hpromised⟩ := hw.here t ht x hcur
    obtain ⟨i, hi⟩ := Option.isSome_iff_exists.mp hhas
    refine Or.inl ⟨t, i, rfl, hi, ?_⟩
    -- what came in would be ready; else it is asked for, or on the way
    rcases hpromised with hin | ⟨t', i', ht', hi', hav, hreq⟩ | ⟨a, ha, hbrings⟩
    · simp [Table.contains, hready] at hin
    · obtain rfl : t = t' := Option.some.inj (ht.symm.trans ht')
      obtain rfl : i = i' := Option.some.inj (hi.symm.trans hi')
      exact Or.inl ⟨hav, hreq⟩
    · cases a with
      | readPiece g name y data error =>
        obtain ⟨rfl, rfl⟩ := hbrings
        exact Or.inr ⟨name, data, error, onTheWay_of_outstanding ha⟩
      | _ => cases hbrings

/-- A reader that waits for two pieces, of which the first one has come in the meantime: its bytes
are in the engine's queue, and the reader still waits for them. -/
theorem no_lost_read_fed : ∃ (trace : List Event) (p : Pipeline Simulated), Run {} trace p ∧
    Orderly trace ∧ Event.stopped ∉ trace ∧ Pending trace 0 ∧
      .readPiece ⟨0, 1⟩ "film" ⟨0⟩ [7] none ∈ p.engine.queue ∧
      ∃ r x, p.readers.get? 0 = some r ∧ r.pieces[r.cursor]? = some x ∧ x ∈ r.current ∧
        r.ready.get? x = none := by
  let start := (Pipeline.start {} ({} : Simulated)).toOption.getD (.assemble {} {})
  let added : EngineCall := .add "film" [[7], [8]] .downloading
  let fed : EngineCall := .feed ⟨0, 1⟩ ⟨0⟩
  let p₁ : Pipeline Simulated := { start with engine := added.apply start.engine }
  let p₂ := (p₁.read ⟨0, 1⟩ [⟨0⟩, ⟨1⟩]).2
  let p₃ := (p₂.pollReader 0).2
  let p₄ : Pipeline Simulated := { p₃ with engine := fed.apply p₃.engine }
  have hadd : Step start (.added ⟨0, 1⟩ [[7], [8]]) p₁ := step_add start (by decide +kernel)
  have hwaits : Step p₂ (.polled 0 (p₂.advancing? 0) .pending) p₃ :=
    step_waits p₂ 0 (by decide +kernel) (by decide +kernel)
  have hfed : Step p₃ .quiet p₄ := step_call (c := fed) p₃ rfl
  have hrun := ((((run_start {} (by decide +kernel)).snoc hadd).snoc
    (.read p₁ ⟨0, 1⟩ [⟨0⟩, ⟨1⟩])).snoc hwaits).snoc hfed
  have ho : Orderly ([] ++ [.added ⟨0, 1⟩ [[7], [8]]] ++ [.began p₁.nextScope ⟨0, 1⟩ [⟨0⟩, ⟨1⟩]] ++
      [.polled 0 (p₂.advancing? 0) .pending] ++ [.quiet]) :=
    (((orderly_nil.added (by simp [handlesGiven])).began
      ⟨[[7], [8]], by simp [Added]⟩).polled).quiet
  have hpending : Pending ([] ++ [.added ⟨0, 1⟩ [[7], [8]]] ++
      [.began p₁.nextScope ⟨0, 1⟩ [⟨0⟩, ⟨1⟩]] ++ [.polled 0 (p₂.advancing? 0) .pending] ++
      [.quiet]) 0 :=
    ⟨p₂.advancing? 0, by simp [Event.reader?]⟩
  obtain ⟨r, s, x, hr, -, hx, hcur, hready, -⟩ := no_lost_read hrun ho (by simp) hpending
  exact ⟨_, p₄, hrun, ho, by simp, hpending, by decide +kernel, r, x, hr, hx, hcur, hready⟩

end TorrentFlow.Services
