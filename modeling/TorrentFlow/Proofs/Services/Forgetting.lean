import TorrentFlow.Proofs.Services.Latecomers

/-!
The registry of windows, and who takes windows out of it. A read puts the window of its torrent
there if there is none. It is taken out when the janitor learns that the torrent was removed, when a
reader is told that its handle is not valid, and when a reader that was told so is dropped; by
nobody else. So a read that is begun after the janitor's turn leaves a window behind unless some
reader of the torrent is told from then on that the handle is not valid. Whoever asks for pieces is
told; a reader that is dropped before it is asked, or that ends before it comes to ask the engine,
is not.
-/

namespace TorrentFlow.Services

/-- New readers of the torrent share a window that is there. -/
def Shelved (p : Pipeline Simulated) (h : Handle) : Prop := (p.windows.current.get? h).isSome = true

/-- The janitor takes in the news that a torrent was removed. -/
def Consumes (p : Pipeline Simulated) (h : Handle) (q : Pipeline Simulated) : Prop :=
  ∃ sub name, p.janitor = some sub ∧
    (p.pollSubscription sub).1 = some (.ok (.torrentRemoved h name)) ∧ p.janitorStep = some q

/-- A step by which the window of a torrent is forgotten: a reader of it is told that its handle is
not valid, or was told so and is dropped, or the janitor takes in that the torrent was removed. -/
def Forgets (h : Handle) (p : Pipeline Simulated) (event : Event) (q : Pipeline Simulated) : Prop :=
  (∃ id advance r, event = .polled id advance (.item (.error .handleInvalid)) ∧
    p.readers.get? id = some r ∧ r.handle = h) ∨
  (∃ id r, event = .dropped id ∧ p.readers.get? id = some r ∧ r.handle = h ∧
    r.handleInvalid = true) ∨
  Consumes p h q

/-! ### Readers that were told -/

/-- Whoever was told that its handle is not valid has ended. -/
def ToldEnded (p : Pipeline Simulated) : Prop :=
  ∀ id r, p.readers.get? id = some r → r.handleInvalid = true → r.finished = true

variable {p q : Pipeline Simulated} {id : Nat} {r : Reader}

lemma current_moveClaims (p : Pipeline Simulated) (window : Nat) (old new : OrderedSet Piece) :
    (p.moveClaims window old new).2.windows.current = p.windows.current := by
  rcases h : p.windows.windows.get? window with _ | w
  · rw [moveClaims_none h]
  · rw [moveClaims_some h]
    rfl

lemma current_discardClaims (p : Pipeline Simulated) (window : Nat) (pieces : OrderedSet Piece) :
    (p.discardClaims window pieces).windows.current = p.windows.current := by
  unfold Pipeline.discardClaims
  split <;> rfl

lemma current_slideReader (p : Pipeline Simulated) (id : Nat) (r : Reader)
    (pieces : OrderedSet Piece) :
    (p.slideReader id r pieces).2.windows.current = p.windows.current := by
  unfold Pipeline.slideReader
  split_ifs
  · rfl
  · exact current_moveClaims _ _ _ _

/-- **A reader that ends forgets the window if it was told that its handle is not valid**, and else
leaves it where it is. -/
lemma current_endReader (hr : p.readers.get? id = some r) : (p.endReader id).windows.current =
    if r.handleInvalid then p.windows.current.erase r.handle else p.windows.current := by
  unfold Pipeline.endReader
  simp only [hr]
  split_ifs
  · simp only [Pipeline.forgetWindow, Windows.forget, current_discardClaims]
    rfl
  · rfl
  · exact current_moveClaims _ _ _ _

/-- What asking a reader comes to for the registry, and for the reader. -/
structure Shelves (id : Nat) (r : Reader) (answer : Polled (Except PieceError PieceData))
    (p q : Pipeline Simulated) : Prop where
  current : q.windows.current =
    if saysInvalid answer then p.windows.current.erase r.handle else p.windows.current
  ended : ∀ r', q.readers.get? id = some r' → r'.handleInvalid = true → r'.finished = true

lemma shelves_fail (hr : p.readers.get? id = some r) (hv : r.handleInvalid = false)
    (e : PieceError) :
    Shelves id r (.item (.error e)) p (p.failReader id e).2 := by
  have hmarked :
      (r.marked e).handleInvalid =
        saysInvalid (.item (.error e) : Polled (Except _ PieceData)) := by
    simp only [Reader.marked, hv, Bool.false_or]
    cases e <;> rfl
  rw [failReader_snd hr]
  refine ⟨?_, fun r' hr' _ => ?_⟩
  · rw [current_endReader (get?_putReader_self p id _), hmarked]
    rfl
  · rw [get?_endReader (get?_putReader_self p id _)] at hr'
    obtain rfl := Option.some.inj hr'
    rfl

lemma shelves_still {answer : Polled (Except PieceError PieceData)} {r' : Reader}
    (ha : saysInvalid answer = false) (hw : q.windows = p.windows)
    (hr : q.readers.get? id = some r') (hv : r'.handleInvalid = false) :
    Shelves id r answer p q := by
  refine ⟨by rw [hw, ha]; rfl, fun r₁ hr₁ hinv => ?_⟩
  rw [hr] at hr₁
  obtain rfl := Option.some.inj hr₁
  rw [hv] at hinv
  cases hinv

lemma shelves_reading {answer : Polled (Except PieceError PieceData)} (h : Reading id p answer q) :
    ∀ r, p.readers.get? id = some r → r.handleInvalid = false → Shelves id r answer p q := by
  induction h with
  | served hr hs =>
    intro r hr' hv
    obtain rfl := Option.some.inj (hr.symm.trans hr')
    obtain ⟨rfl, -⟩ := Reader.serve_ok hs
    exact shelves_still rfl rfl (get?_putReader_self _ _ _) hv
  | @soured p r₀ r' e hr hs =>
    intro r hr' hv
    obtain rfl := Option.some.inj (hr.symm.trans hr')
    obtain ⟨rfl, -⟩ := Reader.serve_error hs
    obtain ⟨hc, hended⟩ :=
      shelves_fail (get?_putReader_self p id { r₀ with cursor := r₀.cursor + 1 }) hv e
    exact ⟨hc, hended⟩
  | waited hr =>
    intro r hr' hv
    obtain rfl := Option.some.inj (hr.symm.trans hr')
    exact shelves_still rfl rfl hr hv
  | @failed p _ e hr hs hp =>
    intro r hr' hv
    obtain ⟨hc, hended⟩ := shelves_fail (p := (p.pollSubscription _).2) hr' hv (.ofDelivery e)
    obtain rfl := Option.some.inj (hr.symm.trans hr')
    exact ⟨hc, hended⟩
  | @ousted p _ a e hr hs hp ht =>
    intro r hr' hv
    obtain ⟨hc, hended⟩ := shelves_fail (p := (p.pollSubscription _).2) hr' hv e
    obtain rfl := Option.some.inj (hr.symm.trans hr')
    exact ⟨hc, hended⟩
  | took hr hs hp ht h ih =>
    intro r hr' hv
    obtain rfl := Option.some.inj (hr.symm.trans hr')
    obtain ⟨ready, rfl⟩ := Reader.take_ok ht
    obtain ⟨hc, hended⟩ := ih _ (get?_putReader_self _ _ _) hv
    exact ⟨hc, hended⟩

/-- **What asking a reader comes to for the registry**: the window is forgotten exactly if the
reader is told that its handle is not valid. -/
theorem shelves_polls {answer : Polled (Except PieceError PieceData)}
    (hr : p.readers.get? id = some r) (ht : ToldEnded p) (h : Polls id p r answer q) :
    Shelves id r answer p q := by
  have hrunning : r.finished = false → r.handleInvalid = false := fun hf => by
    rw [Bool.eq_false_iff]
    intro hv
    rw [ht id r hr hv] at hf
    cases hf
  have hsame : ∀ {answer : Polled (Except PieceError PieceData)}, saysInvalid answer = false →
      Shelves id r answer p p := fun ha => ⟨by rw [ha]; rfl, ht id⟩
  -- the reader after it slid its window, if it did
  have hslid : ∀ pieces : OrderedSet Piece, r.finished = false → ∃ r', r'.handle = r.handle ∧
      (p.slideReader id r pieces).2.readers.get? id = some r' ∧ r'.handleInvalid = false := by
    intro pieces hf
    refine ⟨_, ?_, get?_slideReader p id hr pieces, ?_⟩ <;> split_ifs
    · rfl
    · rfl
    · exact hrunning hf
    · exact hrunning hf
  cases h with
  | past => exact hsame rfl
  | overflow => exact hsame rfl
  | ended hf =>
    refine ⟨?_, fun r' hr' _ => ?_⟩
    · rw [current_endReader hr, hrunning hf]
      rfl
    · rw [get?_endReader hr] at hr'
      obtain rfl := Option.some.inj hr'
      rfl
  | refused hf => exact shelves_fail hr (hrunning hf) _
  | @slipped hf hc pieces hu hn e hm =>
    obtain ⟨r', hh, hr', hv⟩ := hslid pieces hf
    obtain ⟨hcurrent, hended⟩ := shelves_fail hr' hv e
    rw [hh, current_slideReader] at hcurrent
    exact ⟨hcurrent, hended⟩
  | @went hf hc pieces hu hn hm answer q h =>
    obtain ⟨r', hh, hr', hv⟩ := hslid pieces hf
    obtain ⟨hcurrent, hended⟩ := shelves_reading h r' hr' hv
    rw [hh, current_slideReader] at hcurrent
    exact ⟨hcurrent, hended⟩

/-! ### Steps -/

variable {event : Event} {h : Handle}

theorem toldEnded_step (hs : Staffed p) (ht : ToldEnded p) (hstep : Step p event q) :
    ToldEnded q := by
  intro id r hr hv
  by_cases he : event.reader? = some id
  · cases hstep with
    | deliver =>
      rw [Event.reader?_ofNote] at he
      cases he
    | read handle pieces =>
      rcases get?_read_cases hr with ⟨-, rfl⟩ | hr
      · cases hv
      · exact ht id r hr hv
    | @next j r₀ hr₀ =>
      obtain rfl : j = id := Option.some.inj he
      exact (shelves_polls hr₀ ht (polls_pollReader hr₀)).ended r hr hv
    | cancel j =>
      rw [readers_cancelReader] at hr
      exact ht id r hr hv
    | drop j =>
      obtain rfl : j = id := Option.some.inj he
      rw [(others_dropReader p j).1] at hr
      cases hr
    | _ => cases he
  · rw [step_others hs hstep he] at hr
    exact ht id r hr hv

lemma run_toldEnded {settings : Settings} {trace : List Event} (hrun : Run settings trace p) :
    ToldEnded p := by
  induction hrun with
  | start _ hp =>
    intro id r hr
    simp [(start_spec hp).2.1, Table.get?, Table.find] at hr
  | snoc hrun hstep ih => exact toldEnded_step (run_sound_staffed hrun).2 ih hstep

lemma windows_stopJanitor (p : Pipeline Simulated) : p.stopJanitor.windows = p.windows := by
  unfold Pipeline.stopJanitor
  split
  · rfl
  · exact (Delivery.beside_unsubscribe _ _).windows

/-- What a step does to the registry. -/
inductive Shelving (p : Pipeline Simulated) : Event → Pipeline Simulated → Prop
  | kept {event : Event} {q : Pipeline Simulated}
      (he : event.reader? = none ∨ ∃ id, event = .cancelled id)
      (hq : q.windows = p.windows) : Shelving p event q
  | began (id : Nat) (h : Handle) (pieces : List Piece) {q : Pipeline Simulated}
      (hq : q.windows = (p.windows.share h p.settings.pieceDeadline).2) :
    Shelving p (.began id h pieces) q
  | polled {id : Nat} {advance : Option Nat} {answer : Polled (Except PieceError PieceData)}
      {r : Reader}
      {q : Pipeline Simulated} (hr : p.readers.get? id = some r) (hq : q.windows.current =
        if saysInvalid answer then p.windows.current.erase r.handle else p.windows.current) :
    Shelving p (.polled id advance answer) q
  | dropped {id : Nat} {r : Reader} {q : Pipeline Simulated} (hr : p.readers.get? id = some r)
      (hq : q.windows.current =
        if r.handleInvalid then p.windows.current.erase r.handle else p.windows.current) :
    Shelving p (.dropped id) q
  | absent {id : Nat} (hr : p.readers.get? id = none) : Shelving p (.dropped id) p
  | swept {h : Handle} {q : Pipeline Simulated} (hc : Consumes p h q) : Shelving p .quiet q

theorem shelving_step (ht : ToldEnded p) (hstep : Step p event q) : Shelving p event q := by
  cases hstep with
  | deliver hstep =>
    exact .kept (.inl (Event.reader?_ofNote _)) (Delivery.step_beside hstep).windows
  | read handle pieces => exact .began _ _ _ (windows_read p handle pieces)
  | next hr => exact .polled hr (shelves_polls hr ht (polls_pollReader hr)).current
  | cancel id =>
    refine .kept (.inr ⟨id, rfl⟩) ?_
    unfold Pipeline.cancelReader
    split <;> rfl
  | drop id =>
    rcases hr : p.readers.get? id with _ | r
    · rw [dropReader_none hr]
      exact .absent hr
    · -- to unsubscribe does nothing to the windows
      refine .dropped hr ?_
      rw [← current_endReader hr]
      simp only [Pipeline.dropReader, hr]
      rw [(Delivery.beside_unsubscribe _ _).windows]
  | janitor hq =>
    obtain ⟨sub, hj, hswept⟩ := swept_janitorStep hq
    cases hswept with
    | looked => exact .kept (.inl rfl) rfl
    | forgot hp => exact .swept ⟨sub, _, hj, hp, hq⟩
    | quit notices => exact .kept (.inl rfl) (windows_stopJanitor _)
  | dismiss => exact .kept (.inl rfl) (windows_stopJanitor p)
  | wait =>
    refine .kept (.inl rfl) ?_
    unfold Pipeline.wait
    dsimp only
    split <;> rfl
  | pollWaiter =>
    refine .kept (.inl rfl) ?_
    unfold Pipeline.pollWaiter
    split <;> rfl
  | dropWaiter => exact .kept (.inl rfl) rfl
  | askPoll =>
    refine .kept (.inl rfl) ?_
    unfold Pipeline.askPoll
    split <;> rfl
  | publishPoll =>
    refine .kept (.inl rfl) ?_
    unfold Pipeline.publishPoll
    split <;> rfl
  | aside => exact .kept (.inl rfl) rfl

lemma Consumes.current (hc : Consumes p h q) : q.windows.current = p.windows.current.erase h := by
  obtain ⟨sub, name, hj, hp, hq⟩ := hc
  unfold Pipeline.janitorStep at hq
  simp only [hj] at hq
  split_ifs at hq
  rcases hpoll : p.pollSubscription sub with ⟨found, p'⟩
  rw [hpoll] at hp hq
  obtain rfl : found = some (.ok (.torrentRemoved h name)) := hp
  obtain rfl := Option.some.inj hq
  have hw : p'.windows = p.windows := (congrArg (fun found => found.2.windows) hpoll).symm
  simp only [Pipeline.forgetWindow, Windows.forget, hw]

lemma shelved_erase {g : Handle} (hq : q.windows.current = p.windows.current.erase g) :
    Shelved q h ↔ h ≠ g ∧ Shelved p h := by
  unfold Shelved
  rw [hq, Table.get?_erase]
  split_ifs with hg <;> simp [hg]

lemma shelved_congr (hq : q.windows.current = p.windows.current) : Shelved q h ↔ Shelved p h := by
  unfold Shelved
  rw [hq]

lemma shelved_share {g : Handle} {deadline : Duration}
    (hq : q.windows = (p.windows.share g deadline).2) : Shelved q h ↔ h = g ∨ Shelved p h := by
  unfold Shelved
  rw [hq, Windows.share]
  rcases hg : p.windows.current.get? g with _ | k
  · simp only [Table.get?_set]
    split_ifs with hh <;> simp [hh]
  · refine ⟨.inr, ?_⟩
    rintro (rfl | hsome)
    · rw [hg]
      rfl
    · exact hsome

lemma Shelving.gone (hs : Shelving p event q) (hf : Forgets h p event q) : ¬ Shelved q h := by
  rcases hf with ⟨id, advance, r, rfl, hr, rfl⟩ | ⟨id, r, rfl, hr, rfl, hv⟩ | hc
  · cases hs with
    | kept he => simp [Event.reader?] at he
    | polled hr' hq =>
      obtain rfl := Option.some.inj (hr.symm.trans hr')
      rw [shelved_erase hq]
      exact fun hne => hne.1 rfl
  · cases hs with
    | kept he => simp [Event.reader?] at he
    | absent hnone =>
      rw [hr] at hnone
      cases hnone
    | dropped hr' hq =>
      obtain rfl := Option.some.inj (hr.symm.trans hr')
      rw [hv, if_pos rfl] at hq
      rw [shelved_erase hq]
      exact fun hne => hne.1 rfl
  · rw [shelved_erase hc.current]
    exact fun hne => hne.1 rfl

lemma Shelving.stays (hs : Shelving p event q) (hp : Shelved p h) (hf : ¬ Forgets h p event q) :
    Shelved q h := by
  cases hs with
  | kept _ hq => exact (shelved_congr (by rw [hq])).mpr hp
  | began id g pieces hq => exact (shelved_share hq).mpr (.inr hp)
  | @polled id advance answer r q hr hq =>
    split_ifs at hq with hi
    · refine (shelved_erase hq).mpr ⟨fun hh => hf ?_, hp⟩
      rw [eq_of_saysInvalid hi]
      exact .inl ⟨id, advance, r, rfl, hr, hh.symm⟩
    · exact (shelved_congr hq).mpr hp
  | @dropped id r q hr hq =>
    split_ifs at hq with hi
    · refine (shelved_erase hq).mpr ⟨fun hh => hf ?_, hp⟩
      exact .inr (.inl ⟨id, r, rfl, hr, hh.symm, hi⟩)
    · exact (shelved_congr hq).mpr hp
  | absent => exact hp
  | swept hc => exact (shelved_erase hc.current).mpr ⟨fun hh => hf (.inr (.inr (hh ▸ hc))), hp⟩

lemma Shelving.back (hs : Shelving p event q) (hq : Shelved q h) :
    (∃ id pieces, event = .began id h pieces) ∨ Shelved p h := by
  cases hs with
  | kept _ hw => exact .inr ((shelved_congr (by rw [hw])).mp hq)
  | began id g pieces hw =>
    rcases (shelved_share hw).mp hq with rfl | hp
    · exact .inl ⟨id, pieces, rfl⟩
    · exact .inr hp
  | polled _ hw =>
    split_ifs at hw
    · exact .inr ((shelved_erase hw).mp hq).2
    · exact .inr ((shelved_congr hw).mp hq)
  | dropped _ hw =>
    split_ifs at hw
    · exact .inr ((shelved_erase hw).mp hq).2
    · exact .inr ((shelved_congr hw).mp hq)
  | absent => exact .inr hq
  | swept hc => exact .inr ((shelved_erase hc.current).mp hq).2

/-- **What is in the registry after a step**: what a read was begun on, and what was there before
and was not forgotten. -/
theorem shelved_step (ht : ToldEnded p) (hstep : Step p event q) : Shelved q h ↔
    (∃ id pieces, event = .began id h pieces) ∨ Shelved p h ∧ ¬ Forgets h p event q := by
  have hs := shelving_step ht hstep
  refine ⟨fun hq => (hs.back hq).imp_right fun hp => ⟨hp, fun hf => hs.gone hf hq⟩, ?_⟩
  rintro (⟨id, pieces, rfl⟩ | ⟨hp, hf⟩)
  · cases hs with
    | kept he => simp [Event.reader?] at he
    | began _ _ _ hw => exact (shelved_share hw).mpr (.inl rfl)
  · exact hs.stays hp hf

/-! ### After the janitor's turn -/

/-- Steps by none of which the window of a torrent is forgotten. -/
inductive Spared (h : Handle) (p : Pipeline Simulated) : List Event → Pipeline Simulated → Prop
  | nil : Spared h p [] p
  | snoc {events : List Event} {event : Event} {q r : Pipeline Simulated} (hs : Spared h p events q)
      (hstep : Step q event r) (hf : ¬ Forgets h q event r) : Spared h p (events ++ [event]) r

variable {settings : Settings} {trace events : List Event} {p₀ p₁ : Pipeline Simulated}

lemma Spared.steps (hs : Spared h p events q) : Steps p events q := by
  induction hs with
  | nil => exact .nil p
  | snoc _ hstep _ ih => exact ih.snoc hstep

/-- A read on the torrent was begun, and the window was not forgotten since. -/
def Left (h : Handle) (p : Pipeline Simulated) (events : List Event)
    (q : Pipeline Simulated) : Prop :=
  ∃ before id pieces after p₂ p₃, events = before ++ .began id h pieces :: after ∧
    Steps p before p₂ ∧ Step p₂ (.began id h pieces) p₃ ∧ Spared h p₃ after q

lemma run_consumes (hrun : Run settings trace p₀) (hc : Consumes p₀ h p₁) :
    Run settings (trace ++ [.quiet]) p₁ := by
  obtain ⟨sub, name, hj, hp, hq⟩ := hc
  exact hrun.snoc (.janitor hq)

lemma shelved_spared (hrun : Run settings trace p) (hp : Shelved p h) (hs : Spared h p events q) :
    Run settings (trace ++ events) q ∧ Shelved q h := by
  induction hs with
  | nil => exact ⟨by rwa [List.append_nil], hp⟩
  | snoc _ hstep hf ih =>
    obtain ⟨hrun', hshelved⟩ := ih
    refine ⟨?_, (shelved_step (run_toldEnded hrun') hstep).mpr (.inr ⟨hshelved, hf⟩)⟩
    rw [← List.append_assoc]
    exact hrun'.snoc hstep

lemma left_of_shelved (hrun : Run settings trace p₁) (hnone : ¬ Shelved p₁ h)
    (hsteps : Steps p₁ events q) (hq : Shelved q h) : Left h p₁ events q := by
  induction hsteps with
  | nil => exact absurd hq hnone
  | @snoc q r events event hsteps hstep ih =>
    rcases (shelved_step (run_toldEnded (hrun.steps hsteps)) hstep).mp hq with
      ⟨id, pieces, rfl⟩ | ⟨hp, hf⟩
    · exact ⟨events, id, pieces, [], q, r, rfl, hsteps, hstep, .nil⟩
    · obtain ⟨before, id, pieces, after, p₂, p₃, rfl, hb, hbegan, hs⟩ := ih hp
      exact ⟨before, id, pieces, after ++ [event], p₂, p₃, by simp, hb, hbegan, hs.snoc hstep hf⟩

structure ReadsFrom (p : Pipeline Simulated) (id : Nat) (h : Handle) : Prop where
  scope : id < p.nextScope
  handle : ∀ r, p.readers.get? id = some r → r.handle = h

lemma readsFrom_began (hs : Staffed p) {pieces : List Piece}
    (hstep : Step p (.began id h pieces) q) :
    ReadsFrom q id h := by
  have hu := unasked_began hs hstep
  exact ⟨hu.scope, fun r hr => (hu.reader r hr).1⟩

lemma readsFrom_step (hinv : Delivery.Inv p) (hs : Staffed p) (hr : ReadsFrom p id h)
    (hstep : Step p event q) : ReadsFrom q id h := by
  refine ⟨Nat.lt_of_lt_of_le hr.scope (settings_step hinv hs hstep).2, ?_⟩
  have hkin : ∀ {notes : List Delivery.Note} {q : Pipeline Simulated}, Continues notes p q →
      ∀ r', q.readers.get? id = some r' → r'.handle = h := fun hc r' hr' => by
    obtain ⟨r, hget, hk⟩ := hc.readers id r' hr'
    exact hk.handle.trans (hr.handle r hget)
  cases course_step hinv hs hstep with
  | delivery _ _ hc => exact hkin hc
  | discreet hc => exact hkin hc
  | reading g pieces =>
    intro r hget
    rcases get?_read_cases hget with ⟨hid, -⟩ | hget
    · exact absurd hid (Nat.ne_of_lt hr.scope)
    · exact hr.handle r hget

/-- Where the window is spared nobody who reads from the torrent is told that its handle is not
valid. -/
lemma untold_spared (hrun : Run settings trace p) (hr : ReadsFrom p id h)
    (hs : Spared h p events q) :
    (Run settings (trace ++ events) q ∧ ReadsFrom q id h) ∧
      ∀ advance, .polled id advance (.item (.error .handleInvalid)) ∉ events := by
  induction hs with
  | nil => exact ⟨⟨by rwa [List.append_nil], hr⟩, fun _ => List.not_mem_nil⟩
  | @snoc events event q q' _ hstep hf ih =>
    obtain ⟨⟨hrun', hr'⟩, huntold⟩ := ih
    obtain ⟨hsound, hstaffed⟩ := run_sound_staffed hrun'
    refine ⟨⟨?_, readsFrom_step hsound.inv hstaffed hr' hstep⟩, fun advance hmem => ?_⟩
    · rw [← List.append_assoc]
      exact hrun'.snoc hstep
    · rcases List.mem_append.mp hmem with hmem | hmem
      · exact huntold advance hmem
      · obtain rfl := List.mem_singleton.mp hmem
        cases shelving_step (run_toldEnded hrun') hstep with
        | kept he => simp [Event.reader?] at he
        | polled hget => exact hf (.inl ⟨id, advance, _, rfl, hget, hr'.handle _ hget⟩)

/-- The janitor is told of a removal only if the torrent was there and is gone, and so it stays. -/
lemma gone_of_consumes (hrun : Run settings trace p₀) (hc : Consumes p₀ h p₁)
    (hsteps : Steps p₁ events q) (hfresh : (handlesGiven (trace ++ events)).Nodup) :
    GivenOut trace h ∧ q.engine.torrent? h = none := by
  have hs := run_steady hrun (nodup_before hfresh)
  obtain ⟨sub, name, -, hp, hstep⟩ := hc
  obtain ⟨hgiven, hnone⟩ := hs.faithful.removed h name (inPlay_of_poll hp)
  have hquiet : (handlesGiven (trace ++ [.quiet])).Nodup := by
    simpa [handlesGiven, List.filterMap_cons, Event.given?] using nodup_before hfresh
  exact ⟨hgiven, steps_keep (P := fun p => p.engine.torrent? h = none) hgiven
    (fun hs hg hfresh hnone hstep => gone_step hs hg hfresh hstep hnone) rfl
    (hrun.snoc (.janitor hstep)) (gone_step hs hgiven hquiet (.janitor hstep) hnone) hsteps hfresh⟩

lemma untold_of_shelved (hrun : Run settings trace p₁) (hnone : ¬ Shelved p₁ h)
    (hsteps : Steps p₁ events q) (hq : Shelved q h) : ∃ before id pieces after p₂ p₃,
      events = before ++ .began id h pieces :: after ∧ Steps p₁ before p₂ ∧
        Step p₂ (.began id h pieces) p₃ ∧ Steps p₃ after q ∧
          ∀ advance, .polled id advance (.item (.error .handleInvalid)) ∉ after := by
  obtain ⟨before, id, pieces, after, p₂, p₃, heq, hb, hbegan, hs⟩ :=
    left_of_shelved hrun hnone hsteps hq
  have hrun₂ := hrun.steps hb
  have hreads : ReadsFrom p₃ id h := readsFrom_began (run_sound_staffed hrun₂).2 hbegan
  exact ⟨before, id, pieces, after, p₂, p₃, heq, hb, hbegan, hs.steps,
    (untold_spared (hrun₂.snoc hbegan) hreads hs).2⟩

/-- **What is left of a torrent that was removed.** Once the janitor has taken in the news, the
registry has a window for the handle exactly if a read was begun on it after that, and since then no
reader of it was told that the handle is not valid, none that had been told so was dropped, and the
janitor did not take in such news again. So no window outlives its torrent where every read that is
begun on it later is asked until it is told; and to ask it once is enough, if there are pieces to be
read and none of them is negative. -/
theorem window_left_iff (hrun : Run settings trace p₀) (hc : Consumes p₀ h p₁)
    (hsteps : Steps p₁ events q) : (Shelved q h ↔ Left h p₁ events q) ∧
      ((∀ before id pieces after, events = before ++ .began id h pieces :: after →
        ∃ advance, .polled id advance (.item (.error .handleInvalid)) ∈ after) → ¬ Shelved q h) ∧
      (settings.readWindow < Numeral.wordSize → (handlesGiven (trace ++ events)).Nodup →
        (∀ before id pieces after, events = before ++ .began id h pieces :: after →
          Readable pieces ∧ ∃ advance answer, .polled id advance answer ∈ after) →
          ¬ Shelved q h) := by
  have hrun₁ := run_consumes hrun hc
  have hnone : ¬ Shelved p₁ h := by
    rw [shelved_erase hc.current]
    exact fun hne => hne.1 rfl
  refine ⟨⟨left_of_shelved hrun₁ hnone hsteps, ?_⟩, fun htold hq => ?_,
    fun hword hfresh hasked hq => ?_⟩
  · -- a read that was begun shelves a window, and nothing that spares it takes it away
    rintro ⟨before, id, pieces, after, p₂, p₃, -, hb, hbegan, hs⟩
    have hrun₂ := hrun₁.steps hb
    have hshelved : Shelved p₃ h :=
      (shelved_step (run_toldEnded hrun₂) hbegan).mpr (.inl ⟨id, pieces, rfl⟩)
    exact (shelved_spared (hrun₂.snoc hbegan) hshelved hs).2
  · -- every reader was told
    obtain ⟨before, id, pieces, after, p₂, p₃, heq, -, -, -, huntold⟩ :=
      untold_of_shelved hrun₁ hnone hsteps hq
    obtain ⟨advance, hmem⟩ := htold before id pieces after heq
    exact huntold advance hmem
  · -- every reader was asked, and so it was told
    obtain ⟨before, id, pieces, after, p₂, p₃, rfl, hb, hbegan, hafter, huntold⟩ :=
      untold_of_shelved hrun₁ hnone hsteps hq
    obtain ⟨hpieces, hpolled⟩ := hasked before id pieces after rfl
    -- no handle is given out but by an addition
    have hall :
        (handlesGiven (trace ++ [.quiet] ++ before ++ [.began id h pieces] ++ after)).Nodup := by
      simpa [handlesGiven, List.filterMap_cons, Event.given?] using hfresh
    have hold : (handlesGiven (trace ++ (before ++ [.began id h pieces]) ++ after)).Nodup := by
      simpa using hfresh
    obtain ⟨hgiven, hgone⟩ := gone_of_consumes hrun hc (hb.snoc hbegan) (nodup_before hold)
    have hrun₂ := hrun₁.steps hb
    obtain ⟨advance, hmem⟩ := told_of_asked (hrun₂.snoc hbegan) hword
      (unasked_began (run_sound_staffed hrun₂).2 hbegan) hpieces
      (((hgiven.append _).append _).append _) hgone hafter hall hpolled
    exact huntold advance hmem

/-! ### A window that is left -/

def bereaved : Pipeline Simulated := turned (turned (turned (bereft filmed)))

def mourned : Pipeline Simulated := bereaved.janitorStep.getD bereaved

lemma run_bereaved : Run {} ([.added ⟨0, 1⟩ [[7]]] ++ [.quiet] ++ [.quiet] ++ [.quiet] ++ [.quiet])
    bereaved :=
  run_turned (run_filmed.snoc (step_bereft _)) (by decide +kernel) (by decide +kernel)
    (by decide +kernel)

lemma consumes_mourned : Consumes bereaved ⟨0, 1⟩ mourned := by
  refine ⟨0, "film", by decide +kernel, by decide +kernel, ?_⟩
  obtain ⟨q, hq⟩ := Option.isSome_iff_exists.mp
    (show bereaved.janitorStep.isSome = true by decide +kernel)
  rw [mourned, hq]
  rfl

def belated : Pipeline Simulated := (mourned.read ⟨0, 1⟩ [⟨0⟩]).2

/-- Two reads that are begun when all is over. The one that is dropped before it is asked leaves a
window; the one that is asked, and told, does not. -/
theorem window_left_iff_belated :
    ∃ (trace events events' : List Event) (p₀ p₁ q q' : Pipeline Simulated),
    Run {} trace p₀ ∧ Consumes p₀ ⟨0, 1⟩ p₁ ∧ Steps p₁ events q ∧ Shelved q ⟨0, 1⟩ ∧
      Left ⟨0, 1⟩ p₁ events q ∧ Steps p₁ events' q' ∧
        (∃ advance, .polled 0 advance (.item (.error .handleInvalid)) ∈ events') ∧
          ¬ Shelved q' ⟨0, 1⟩ := by
  have hbegun : Steps mourned ([] ++ [.began 0 ⟨0, 1⟩ [⟨0⟩]]) belated :=
    (Steps.nil mourned).snoc (.read mourned ⟨0, 1⟩ [⟨0⟩])
  have hdropped := hbegun.snoc (.drop belated 0)
  have hasked := hbegun.snoc (step_next belated 0 (by decide +kernel))
  have hanswer : (belated.pollReader 0).1 = .item (.error .handleInvalid) :=
    eq_of_saysInvalid (by decide +kernel)
  rw [hanswer] at hasked
  have hleft : Shelved (belated.dropReader 0) ⟨0, 1⟩ := by
    unfold Shelved
    decide +kernel
  obtain ⟨hdrop, -, -⟩ := window_left_iff run_bereaved consumes_mourned hdropped
  obtain ⟨-, -, hask⟩ := window_left_iff run_bereaved consumes_mourned hasked
  refine ⟨_, _, _, _, _, _, _, run_bereaved, consumes_mourned, hdropped, hleft,
    hdrop.mp hleft, hasked,
    ⟨_, List.mem_append_right _ (List.mem_singleton_self _)⟩, hask (by decide) ?_ ?_⟩
  · simp [handlesGiven, List.filterMap_cons, Event.given?]
  · -- the one read that is begun is the one that is asked
    intro before id pieces after heq
    rcases before with _ | ⟨e, _ | ⟨e', before⟩⟩
    · obtain ⟨hbegan, rfl⟩ := List.cons.inj heq
      obtain ⟨rfl, -, rfl⟩ := Event.began.inj hbegan
      exact ⟨⟨by simp, by simp⟩, _, _, List.mem_singleton_self _⟩
    · simp at heq
    · simp at heq

/-- It is not so that no window is left once a torrent is removed, the janitor has taken that in and
all readers of it are dropped: one that is begun after that and dropped before it is asked leaves a
window. -/
theorem window_left_unasked : ¬ ∀ (settings : Settings) (trace events : List Event)
    (p₀ p₁ q : Pipeline Simulated) (h : Handle), Run settings trace p₀ → Consumes p₀ h p₁ →
      Steps p₁ events q → (Simulated.isTracked h q.engine).1 = .ok false →
        (∀ id r, q.readers.get? id = some r → r.handle ≠ h) → ¬ Shelved q h := by
  intro hclaim
  have hsteps : Steps mourned _ (belated.dropReader 0) :=
    ((Steps.nil mourned).snoc (.read mourned ⟨0, 1⟩ [⟨0⟩])).snoc (.drop belated 0)
  have hnobody : ∀ id r, (belated.dropReader 0).readers.get? id = some r → r.handle ≠ ⟨0, 1⟩ := by
    intro id r hr
    have hmem := Table.mem_keys.mpr (Option.isSome_iff_exists.mpr ⟨r, hr⟩)
    rw [show (belated.dropReader 0).readers.keys = [] by decide +kernel] at hmem
    cases hmem
  refine hclaim {} _ _ bereaved mourned _ ⟨0, 1⟩ run_bereaved consumes_mourned hsteps
    (by decide +kernel) hnobody ?_
  unfold Shelved
  decide +kernel

end TorrentFlow.Services
