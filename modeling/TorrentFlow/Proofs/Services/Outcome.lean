import TorrentFlow.Proofs.Services.Invariant

/-!
What asking a reader comes to for the reader itself. It yields the piece at its cursor with the
bytes that the torrent was added with, or goes on waiting for it, or ends; and what is done with one
reader changes no other.
-/

namespace TorrentFlow.Services

open Delivery (Note)
open Pipeline (readRequest)

variable {added : Handle → List Payload → Prop} {faults : Handle → Piece → EngineError → Prop}

/-- What has come in for a reader is true. -/
def Stocked (added : Handle → List Payload → Prop) (faults : Handle → Piece → EngineError → Prop)
    (r : Reader) : Prop :=
  ∀ q x, r.ready.get? q = some x → Genuine added faults r.handle q x

lemma Stocked.of_ready {r r' : Reader} (h : Stocked added faults r) (hh : r'.handle = r.handle)
    (hr : ∀ q x, r'.ready.get? q = some x → r.ready.get? q = some x) : Stocked added faults r' :=
  fun q x hx => hh ▸ h q x (hr q x hx)

lemma stocked_of_empty {r : Reader} (h : r.ready = {}) : Stocked added faults r := by
  intro q x hx
  simp [h, Table.get?, Table.find] at hx

lemma Stocked.slide {r : Reader} (h : Stocked added faults r) (pieces : OrderedSet Piece) :
    Stocked added faults (r.slide pieces) := by
  refine h.of_ready rfl fun q x hx => ?_
  simp only [Reader.slide, Table.get?_filterKeys] at hx
  split_ifs at hx
  exact hx

/-! ### What a reader gets -/

lemma received_spec {p : Pipeline Simulated} (hs : Sound added faults p) (h : Staffed p) {id : Nat}
    {r : Reader} (hr : p.readers.get? id = some r) {a : Alert}
    (hp : (p.pollSubscription r.subscription).1 = some (.ok a)) :
    InPlay p a ∧ a.handle? = some r.handle := by
  obtain ⟨s, hget, hfilter, -⟩ := h.subscribed id r hr
  rw [Pipeline.pollSubscription_fst, Hub.poll_fst, hget, Option.bind_some] at hp
  have hl := Mailbox.looked_poll s.mailbox p.hub.busy
  have hmem : a ∈ s.mailbox.queue := by
    rw [hl.queue, hp]
    exact List.mem_append_left _ (List.mem_singleton_self a)
  have hacc := hs.fits _ s a hget hmem
  rw [hfilter, Filter.accepts, Bool.and_eq_true] at hacc
  exact ⟨Or.inr ⟨_, s, hget, hmem⟩, by
    simpa [readRequest, Request.filter, Filter.ofKinds] using hacc.2⟩

lemma stocked_take {r r' : Reader} (h : Stocked added faults r) {a : Alert}
    (ha : Honest added faults a) (hh : a.handle? = some r.handle) (ht : r.take a = .ok r') :
    Stocked added faults r' := by
  cases a with
  | readPiece g name q data error =>
    obtain rfl : g = r.handle := Option.some.inj hh
    simp only [Reader.take] at ht
    split_ifs at ht <;> cases ht
    · intro q' x hx
      simp only [Table.get?_set] at hx
      split_ifs at hx with hq
      · cases hx
        subst hq
        rcases error with _ | e <;> exact ha
      · exact h q' x hx
    · exact h
  | torrentRemoved => cases ht
  | _ =>
    cases ht
    exact h

/-! ### How a poll ends -/

/-- What a poll makes of the reader, by its answer. -/
inductive Outcome (added : Handle → List Payload → Prop)
    (faults : Handle → Piece → EngineError → Prop) (r r' : Reader) :
    Polled (Except PieceError PieceData) → Prop
  | past (hf : r.finished = true) (h : r' = r) : Outcome added faults r r' .done
  | ended (hf : r.finished = false) (hc : r.pieces.length ≤ r.cursor) (hf' : r'.finished = true)
      (hw : r'.current = {}) : Outcome added faults r r' .done
  | overflow (hf : r.finished = false) (hc : r.cursor < r.pieces.length) (hu : r.upcoming? = none)
      (h : r' = r) : Outcome added faults r r' .overflow
  | failed {e : PieceError} (hf : r.finished = false) (hf' : r'.finished = true)
      (hw : r'.current = {}) : Outcome added faults r r' (.item (.error e))
  | yielded {d : PieceData} (hf : r.finished = false) (hu : r.upcoming? = some r'.current)
      (hn : Reader.negative? r'.current = none) (hf' : r'.finished = false)
      (hc : r'.cursor = r.cursor + 1) (hp : r.pieces[r.cursor]? = some d.piece)
      (hd : Genuine added faults r.handle d.piece (.ok d.data)) :
    Outcome added faults r r' (.item (.ok d))
  | waits (hf : r.finished = false) (hlt : r.cursor < r.pieces.length)
      (hu : r.upcoming? = some r'.current)
      (hn : Reader.negative? r'.current = none) (hf' : r'.finished = false)
      (hc : r'.cursor = r.cursor) (hs : r'.serve? = none) : Outcome added faults r r' .pending

/-- What came in before, and which pieces it wanted, is not what an outcome is about. -/
lemma Outcome.back {r r₁ r' : Reader} {answer : Polled (Except PieceError PieceData)}
    (h : Outcome added faults r₁ r' answer) (hf : r.finished = false) (hf₁ : r₁.finished = false)
    {pieces : OrderedSet Piece} (hu : r.upcoming? = some pieces) (hup : r₁.upcoming? = r.upcoming?)
    (hp : r₁.pieces = r.pieces) (hc : r₁.cursor = r.cursor) (hh : r₁.handle = r.handle) :
    Outcome added faults r r' answer := by
  cases h with
  | past hf' => exact absurd (hf₁.symm.trans hf') Bool.false_ne_true
  | ended _ hlen hf' hw => exact .ended hf (by rwa [hp, hc] at hlen) hf' hw
  | overflow _ _ hu' =>
    rw [hup, hu] at hu'
    cases hu'
  | failed _ hf' hw => exact .failed hf hf' hw
  | yielded _ hu' hn hf' hc' hp' hd =>
    rw [hup] at hu'
    rw [hc] at hc'
    rw [hp, hc] at hp'
    rw [hh] at hd
    exact .yielded hf hu' hn hf' hc' hp' hd
  | waits _ hlt hu' hn hf' hc' hs =>
    rw [hup] at hu'
    rw [hp, hc] at hlt
    exact .waits hf hlt hu' hn hf' (hc'.trans hc) hs

lemma get?_endReader {σ : Type} [Engine σ] {p : Pipeline σ} {id : Nat} {r : Reader}
    (hr : p.readers.get? id = some r) : (p.endReader id).readers.get? id = some r.ended := by
  unfold Pipeline.endReader
  simp only [hr]
  split_ifs
  · rw [← get?_putReader_self p id r.ended]
    unfold Pipeline.discardClaims
    split <;> rfl
  · exact get?_putReader_self p id r.ended
  · rw [readers_moveClaims, get?_putReader_self]

lemma get?_failReader {σ : Type} [Engine σ] {p : Pipeline σ} {id : Nat} {r : Reader}
    (hr : p.readers.get? id = some r) (e : PieceError) :
    ∃ r', (p.failReader id e).2.readers.get? id = some r' ∧ r'.finished = true ∧ r'.current = {} ∧
      r'.ready = {} := by
  simp only [Pipeline.failReader, hr]
  exact ⟨_, get?_endReader (get?_putReader_self _ _ _), rfl, rfl, rfl⟩

lemma outcome_reading {id : Nat} {p q : Pipeline Simulated}
    {answer : Polled (Except PieceError PieceData)} (h : Reading id p answer q) :
    ∀ r, p.readers.get? id = some r → Sound added faults p → Staffed p → Stocked added faults r →
      r.finished = false → r.cursor < r.pieces.length → r.upcoming? = some r.current →
      Reader.negative? r.current = none →
      ∃ r', q.readers.get? id = some r' ∧ Stocked added faults r' ∧
      Outcome added faults r r' answer := by
  induction h with
  | @served p r r' d hr hs =>
    intro r₀ hr₀ _ _ hst hf _ hu hn
    rw [hr, Option.some.injEq] at hr₀
    subst hr₀
    obtain ⟨rfl, hp, hd⟩ := Reader.serve_ok hs
    exact ⟨_, get?_putReader_self _ _ _, hst, .yielded hf hu hn hf rfl hp (hst _ _ hd)⟩
  | @soured p r r' e hr hs =>
    intro r₀ hr₀ _ _ _ hf _ _ _
    rw [hr, Option.some.injEq] at hr₀
    subst hr₀
    obtain ⟨r', hr', hf', hw, hempty⟩ := get?_failReader (get?_putReader_self p id r') e
    exact ⟨r', hr', stocked_of_empty hempty, .failed hf hf' hw⟩
  | @waited p r hr hs hp =>
    intro r₀ hr₀ _ _ hst hf hlt hu hn
    rw [hr, Option.some.injEq] at hr₀
    subst hr₀
    exact ⟨r, hr, hst, .waits hf hlt hu hn hf rfl hs⟩
  | @failed p r e hr hs hp =>
    intro r₀ hr₀ _ _ _ hf _ _ _
    rw [hr, Option.some.injEq] at hr₀
    subst hr₀
    obtain ⟨r', hr', hf', hw, hempty⟩ :=
      get?_failReader (p := (p.pollSubscription r.subscription).2) hr (.ofDelivery e)
    exact ⟨r', hr', stocked_of_empty hempty, .failed hf hf' hw⟩
  | @ousted p r a e hr hs hp ht =>
    intro r₀ hr₀ _ _ _ hf _ _ _
    rw [hr, Option.some.injEq] at hr₀
    subst hr₀
    obtain ⟨r', hr', hf', hw, hempty⟩ :=
      get?_failReader (p := (p.pollSubscription r.subscription).2) hr e
    exact ⟨r', hr', stocked_of_empty hempty, .failed hf hf' hw⟩
  | @took p q r r' a answer hr hs hp ht h ih =>
    intro r₀ hr₀ hsound hstaffed hst hf hlt hu hn
    rw [hr, Option.some.injEq] at hr₀
    subst hr₀
    -- what was received is honest, so that what is kept of it is
    obtain ⟨hplay, hhandle⟩ := received_spec hsound hstaffed hr hp
    have hst' := stocked_take hst (hsound.honest a hplay) hhandle ht
    have hk := Reader.kin_take ht
    have hatt : Attended id r.subscription p
        ((p.pollSubscription r.subscription).2.putReader id r') :=
      (Attended.pollSubscription p).trans
        (Attended.putReader (p := (p.pollSubscription r.subscription).2) hr hk)
    obtain ⟨notes, hc, hown⟩ := hatt.continues ⟨r, hr⟩
    have hsound' := sound_run hsound hc.run fun note hn => (hown note hn).discreet
    have hstaffed' := hstaffed.continues hsound.inv hc
    obtain ⟨ready, rfl⟩ := Reader.take_ok ht
    obtain ⟨r'', hr'', hst'', hout⟩ :=
      ih { r with ready } (get?_putReader_self _ _ _) hsound' hstaffed' hst' hf hlt hu hn
    exact ⟨r'', hr'', hst'', hout.back hf hf hu rfl rfl rfl rfl⟩

/-- **What a poll comes to.** -/
theorem outcome_polls {id : Nat} {p q : Pipeline Simulated} {r : Reader}
    {answer : Polled (Except PieceError PieceData)} (hr : p.readers.get? id = some r)
    (h : Polls id p r answer q) (hsound : Sound added faults p) (hstaffed : Staffed p)
    (hst : Stocked added faults r) :
    ∃ r', q.readers.get? id = some r' ∧ Stocked added faults r' ∧
    Outcome added faults r r' answer := by
  cases h with
  | past hf => exact ⟨r, hr, hst, .past hf rfl⟩
  | ended hf hc => exact ⟨r.ended, get?_endReader hr, stocked_of_empty rfl, .ended hf hc rfl rfl⟩
  | overflow hf hc hu => exact ⟨r, hr, hst, .overflow hf hc hu rfl⟩
  | refused hf hc hu hn =>
    obtain ⟨r', hr', hf', hw, hempty⟩ := get?_failReader hr (.outOfRange _)
    exact ⟨r', hr', stocked_of_empty hempty, .failed hf hf' hw⟩
  | slipped hf hc hu hn hm =>
    obtain ⟨r', hr', hf', hw, hempty⟩ := get?_failReader (get?_slideReader p id hr _) _
    exact ⟨r', hr', stocked_of_empty hempty, .failed hf hf' hw⟩
  | @went hf hc pieces hu hn hm answer q h =>
    have hatt : Attended id r.subscription p (p.slideReader id r pieces).2 := .slideReader hr pieces
    obtain ⟨notes, hcont, hown⟩ := hatt.continues ⟨r, hr⟩
    have hsound' := sound_run hsound hcont.run fun note hn => (hown note hn).discreet
    have hstaffed' := hstaffed.continues hsound.inv hcont
    have hget := get?_slideReader p id hr pieces
    by_cases heq : pieces = r.current
    · subst heq
      rw [if_pos rfl] at hget
      exact outcome_reading h r hget hsound' hstaffed' hst hf hc hu hn
    · -- what it comes to is told without the stretch, which is the new one here
      rw [if_neg heq] at hget
      obtain ⟨r', hr', hst', hout⟩ := outcome_reading h (r.slide pieces) hget hsound' hstaffed'
        (hst.slide pieces) hf hc hu hn
      exact ⟨r', hr', hst', hout.back hf hf hu rfl rfl rfl rfl⟩

/-! ### One reader at each step -/

lemma others_dropReader (p : Pipeline Simulated) (id : Nat) :
    (p.dropReader id).readers.get? id = none ∧
      ∀ j, j ≠ id → (p.dropReader id).readers.get? j = p.readers.get? j := by
  unfold Pipeline.dropReader
  rcases hr : p.readers.get? id with _ | r
  · exact ⟨hr, fun _ _ => rfl⟩
  · have hb := Delivery.beside_unsubscribe
      { p.endReader id with readers := (p.endReader id).readers.erase id } r.subscription
    have hend : Attended id r.subscription p (p.endReader id) := .endReader hr
    dsimp only
    rw [hb.readers]
    refine ⟨by simp, fun j hj => ?_⟩
    rw [Table.get?_erase, if_neg hj]
    exact hend.others j hj

lemma readers_cancelReader (p : Pipeline Simulated) (id : Nat) :
    (p.cancelReader id).readers = p.readers := by
  unfold Pipeline.cancelReader
  rcases p.readers.get? id with _ | r <;> rfl

/-- **Whatever is done with one reader changes no other.** -/
lemma step_others {p q : Pipeline Simulated} {event : Event} (h : Staffed p)
    (hstep : Step p event q) {j : Nat} (hj : event.reader? ≠ some j) :
    q.readers.get? j = p.readers.get? j := by
  cases movement_step h hstep with
  | delivery hstep => rw [(Delivery.step_beside hstep).readers]
  | idling hi => rw [hi.readers]
  | reading handle pieces => rw [get?_read, if_neg fun e => hj (congrArg some e.symm)]
  | polled hr hpolls => exact (Attended.polls hr hpolls).others j fun e => hj (congrArg some e.symm)
  | dropped id => exact (others_dropReader p id).2 j fun e => hj (congrArg some e.symm)

/-- What a step makes of one reader. -/
inductive Fortune (added : Handle → List Payload → Prop)
    (faults : Handle → Piece → EngineError → Prop) (id : Nat) (p q : Pipeline Simulated) :
    Event → Prop
  | apart {event : Event} (he : event.reader? ≠ some id)
      (h : q.readers.get? id = p.readers.get? id) : Fortune added faults id p q event
  | began {h : Handle} {pieces : List Piece} (hid : id = p.nextScope) (hlt : id < q.nextScope)
      (hq : q.readers.get? id = some (newReader p h pieces)) :
    Fortune added faults id p q (.began id h pieces)
  | polled {r r' : Reader} {answer : Polled (Except PieceError PieceData)}
      (hr : p.readers.get? id = some r) (hr' : q.readers.get? id = some r') (hk : r.Kin r')
      (ho : Outcome added faults r r' answer) :
    Fortune added faults id p q (.polled id (p.advancing? id) answer)
  | cancelled (h : q.readers.get? id = p.readers.get? id) :
    Fortune added faults id p q (.cancelled id)
  | dropped (h : q.readers.get? id = none) : Fortune added faults id p q (.dropped id)

theorem fortune_step {p q : Pipeline Simulated} {event : Event} (hsound : Sound added faults p)
    (hstaffed : Staffed p) {id : Nat}
    (hst : ∀ r, p.readers.get? id = some r → Stocked added faults r) (hstep : Step p event q) :
    Fortune added faults id p q event ∧
      ∀ r', q.readers.get? id = some r' → Stocked added faults r' := by
  -- only what this reader does itself is of account for it
  by_cases he : event.reader? = some id
  · cases hstep with
    | deliver =>
      rw [Event.reader?_ofNote] at he
      cases he
    | read handle pieces =>
      obtain rfl : p.nextScope = id := Option.some.inj he
      have hget : (p.read handle pieces).2.readers.get? p.nextScope =
          some (newReader p handle pieces) := by
        rw [get?_read, if_pos rfl]
      have hlt : p.nextScope < (p.read handle pieces).2.nextScope := by
        rw [nextScope_read]
        exact Nat.lt_succ_self _
      refine ⟨.began rfl hlt hget, fun r' hr' => ?_⟩
      rw [hget, Option.some.injEq] at hr'
      exact hr' ▸ stocked_of_empty rfl
    | @next j r hr =>
      obtain rfl : j = id := Option.some.inj he
      have hpolls := polls_pollReader hr
      obtain ⟨r', hr', hst', ho⟩ := outcome_polls hr hpolls hsound hstaffed (hst r hr)
      obtain ⟨r'', hr'', hk⟩ := (Attended.polls hr hpolls).itself r hr
      rw [hr', Option.some.injEq] at hr''
      refine ⟨.polled hr hr' (hr''.symm ▸ hk) ho, fun r₁ hr₁ => ?_⟩
      rw [hr', Option.some.injEq] at hr₁
      exact hr₁ ▸ hst'
    | cancel j =>
      obtain rfl : j = id := Option.some.inj he
      have hget : (p.cancelReader j).readers.get? j = p.readers.get? j := by
        rw [readers_cancelReader]
      exact ⟨.cancelled hget, fun r' hr' => hst r' (hget.symm.trans hr')⟩
    | drop j =>
      obtain rfl : j = id := Option.some.inj he
      have hget := (others_dropReader p j).1
      refine ⟨.dropped hget, fun r' hr' => ?_⟩
      rw [hget] at hr'
      cases hr'
    | _ => cases he
  · have hget := step_others hstaffed hstep he
    exact ⟨.apart he hget, fun r' hr' => hst r' (hget.symm.trans hr')⟩

lemma Stocked.mono {trace : List Event} {r : Reader} (h : Stocked (Added trace) (Failed trace) r)
    (more : List Event) : Stocked (Added (trace ++ more)) (Failed (trace ++ more)) r :=
  fun q x hx => (h q x hx).mono (fun _ _ ha => ha.append more) fun _ _ _ hf => hf.append more

/-- **What comes in for a reader is true.** -/
theorem run_stocked {settings : Settings} {trace : List Event} {p : Pipeline Simulated}
    (h : Run settings trace p) : ∀ id r, p.readers.get? id = some r →
      Stocked (Added trace) (Failed trace) r := by
  induction h with
  | start he hp =>
    intro id r hr
    simp [(start_spec hp).2.1, Table.get?, Table.find] at hr
  | snoc hrun hstep ih =>
    obtain ⟨hsound, hstaffed⟩ := run_sound_staffed hrun
    intro id r hr
    exact ((fortune_step hsound hstaffed (ih id) hstep).2 r hr).mono _

/-! ### What is settled from the start -/

lemma settings_step {p q : Pipeline Simulated} {event : Event} (hinv : Delivery.Inv p)
    (h : Staffed p) (hstep : Step p event q) : q.settings = p.settings ∧
    p.nextScope ≤ q.nextScope := by
  cases course_step hinv h hstep with
  | delivery _ _ hc => exact ⟨hc.settings, hc.nextScope⟩
  | discreet hc => exact ⟨hc.settings, hc.nextScope⟩
  | reading g pieces =>
    rw [read_snd]
    have hb := Delivery.beside_subscribe p (readRequest g)
    exact ⟨hb.settings, Nat.le_succ _⟩

lemma run_settings {settings : Settings} {trace : List Event} {p : Pipeline Simulated}
    (h : Run settings trace p) : p.settings = settings := by
  induction h with
  | start _ hp => exact (start_spec hp).2.2.2.1
  | snoc hrun hstep ih =>
    obtain ⟨hsound, hstaffed⟩ := run_sound_staffed hrun
    exact (settings_step hsound.inv hstaffed hstep).1.trans ih

lemma run_unasked {settings : Settings} {trace : List Event} {p : Pipeline Simulated}
    (h : Run settings trace p) : ∀ id, p.nextScope ≤ id →
      ∀ advance answer, Event.polled id advance answer ∉ trace := by
  induction h with
  | start he _ =>
    intro id _ advance answer hmem
    cases prepared_readerless he _ hmem
  | @snoc trace p q event hrun hstep ih =>
    intro id hid advance answer hmem
    obtain ⟨hsound, hstaffed⟩ := run_sound_staffed hrun
    have hle := (settings_step hsound.inv hstaffed hstep).2
    rcases List.mem_append.mp hmem with hmem | hmem
    · exact ih id (Nat.le_trans hle hid) advance answer hmem
    · obtain rfl := List.mem_singleton.mp hmem
      cases (fortune_step hsound hstaffed (fun r hr => run_stocked hrun id r hr) hstep).1 with
      | apart he => exact he rfl
      | polled hr =>
        have := hstaffed.bound id _ hr
        omega

end TorrentFlow.Services
