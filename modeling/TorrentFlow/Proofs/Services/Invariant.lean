import TorrentFlow.Proofs.Services.Staffing

/-!
What holds of the services from their start on, whatever is done: everything that is told is true,
and every reader has its subscription and its window.
-/

namespace TorrentFlow.Services

open Delivery (Note)
open Pipeline (readRequest)

/-- A torrent was added under this handle, with these pieces. -/
def Added (trace : List Event) (h : Handle) (payloads : List Payload) : Prop :=
  Event.added h payloads ∈ trace

/-- Reading this piece failed with this error. -/
def Failed (trace : List Event) (h : Handle) (q : Piece) (e : EngineError) : Prop :=
  Event.failed h q e ∈ trace

def Occurred (trace : List Event) (e : EngineError) : Prop :=
  ∃ h q, Event.failed h q e ∈ trace

lemma Added.append {trace : List Event} {h : Handle} {payloads : List Payload}
    (ha : Added trace h payloads) (more : List Event) : Added (trace ++ more) h payloads :=
  List.mem_append_left _ ha

lemma Failed.append {trace : List Event} {h : Handle} {q : Piece} {e : EngineError}
    (hf : Failed trace h q e) (more : List Event) : Failed (trace ++ more) h q e :=
  List.mem_append_left _ hf

lemma Occurred.append {trace : List Event} {e : EngineError} (ho : Occurred trace e)
    (more : List Event) : Occurred (trace ++ more) e := by
  obtain ⟨h, q, hmem⟩ := ho
  exact ⟨h, q, List.mem_append_left _ hmem⟩

lemma covered_ofCall (trace : List Event) (s : Simulated) (c : EngineCall) :
    Covered (Added (trace ++ [.ofCall s c])) (Failed (trace ++ [.ofCall s c])) s c := by
  cases c with
  | add name payloads state => exact List.mem_append_right _ (List.mem_singleton_self _)
  | fail h q e => exact List.mem_append_right _ (List.mem_singleton_self _)
  | _ => trivial

/-! ### The start -/

/-- Nothing is queued before there are services, since nobody has asked for any category. -/
lemma prepared_quiet {trace : List Event} {s : Simulated} (h : Prepared trace s) :
    s.queue = [] ∧ s.mask = .none := by
  induction h with
  | nil => exact ⟨rfl, rfl⟩
  | @snoc trace s _ c _ ih =>
    obtain ⟨hq, hm⟩ := ih
    refine ⟨?_, by rw [EngineCall.mask_apply, hm]⟩
    have hacc : c.accepted s = [] := by
      refine List.filter_eq_nil_iff.mpr fun a _ => ?_
      rw [Simulated.accepts, hm, Category.intersects_iff]
      simp
    rw [EngineCall.queue_apply, hq, hacc, List.append_nil]

lemma prepared_readerless {trace : List Event} {s : Simulated} (h : Prepared trace s) :
    ∀ event ∈ trace, event.reader? = none := by
  induction h with
  | nil => simp
  | snoc _ c _ ih =>
    intro event he
    rcases List.mem_append.mp he with he | he
    · exact ih event he
    · rw [List.mem_singleton.mp he]
      exact Event.reader?_ofCall _ c

lemma prepared_known {trace : List Event} {s : Simulated} (h : Prepared trace s) :
    s.Known (Added trace) := by
  induction h with
  | nil =>
    intro g t ht
    simp [Simulated.torrent?] at ht
  | @snoc trace s _ c _ ih =>
    exact (ih.mono fun _ _ ha => ha.append _).covered (covered_ofCall trace s c)

lemma assemble_spec (settings : Settings) (engine : Simulated) :
    (∃ mask, (Pipeline.assemble settings engine).engine = { engine with mask }) ∧
      Pipeline.assemble settings engine =
        { engine := (Pipeline.assemble settings engine).engine
          demand := (Pipeline.assemble settings engine).demand
          notices := (Pipeline.assemble settings engine).notices
          settings } := by
  rw [Pipeline.assemble, Pipeline.withDemand_eq]
  exact ⟨Demand.engine_push _ engine, rfl⟩

lemma not_inPlay_assemble {trace : List Event} {engine : Simulated} (h : Prepared trace engine)
    (settings : Settings) (a : Alert) : ¬ InPlay (Pipeline.assemble settings engine) a := by
  obtain ⟨⟨mask, hengine⟩, hp⟩ := assemble_spec settings engine
  have hqueue : (Pipeline.assemble settings engine).engine.queue = [] := by
    rw [hengine]
    exact (prepared_quiet h).1
  rintro (ha | ⟨id, s, hs, -⟩)
  · rw [Delivery.undelivered, hqueue, Delivery.inFlight, hp] at ha
    simp at ha
  · rw [hp] at hs
    simp [Table.get?, Table.find] at hs

lemma start_spec {settings : Settings} {engine : Simulated} {p : Pipeline Simulated}
    (h : Pipeline.start settings engine = .ok p) :
    Delivery.Run (Pipeline.assemble settings engine) [.quiet, .quiet] p ∧ p.readers = {} ∧
      p.windows = {} ∧ p.settings = settings ∧ p.engine.slots = engine.slots ∧
      ∀ sub, p.janitor = some sub → sub < p.hub.nextId := by
  unfold Pipeline.start at h
  split at h
  · cases h
  · have hrun : Delivery.Step (Pipeline.assemble settings engine) .quiet
        (Pipeline.assemble settings engine).run.2 := .run (by
      rw [Pipeline.assemble, Pipeline.withDemand_eq])
    split at h
    · cases h
    · rename_i p₀ hp₀
      rw [hp₀] at hrun
      cases h
      let r : Request := { kinds := [.torrentRemoved] }
      have hlt : (p₀.subscribe r).1 < (p₀.subscribe r).2.hub.nextId := by
        rw [Pipeline.subscribe_fst, Pipeline.nextId_subscribe]
        exact Nat.lt_succ_self _
      rcases hpair : p₀.subscribe r with ⟨id, p₁⟩
      rw [hpair] at hlt
      have hsub : Delivery.Step p₀ .quiet p₁ := by
        have hstep := Delivery.Step.subscribe p₀ r
        rwa [hpair] at hstep
      have hbeside := Delivery.step_beside hrun
      have hbeside' := Delivery.step_beside hsub
      have heq : p₀.startJanitor = { p₁ with janitor := some id } := by
        rw [Pipeline.startJanitor, hpair]
      have hslots : ∀ {a b : Pipeline Simulated}, Delivery.Step a .quiet b →
          b.engine.slots = a.engine.slots := fun hstep => by
        rcases Delivery.step_slots hstep with ⟨c, hc, -⟩ | hs
        · cases hc
        · exact hs
      -- what is assembled has neither readers nor windows, and the first two steps add none
      obtain ⟨⟨mask, hengine⟩, hp⟩ := assemble_spec settings engine
      rw [heq]
      refine ⟨?_, ?_, ?_, ?_, ?_, ?_⟩
      · exact ((Delivery.Run.one hrun).snoc hsub).aside _ _ _ _ _ _ _
      · exact hbeside'.readers.trans (hbeside.readers.trans (by rw [hp]))
      · exact hbeside'.windows.trans (hbeside.windows.trans (by rw [hp]))
      · exact hbeside'.settings.trans (hbeside.settings.trans (by rw [hp]))
      · exact (hslots hsub).trans ((hslots hrun).trans (by rw [hengine]))
      · intro sub hs
        obtain rfl := Option.some.inj hs
        exact hlt

lemma staffed_start {settings : Settings} {engine : Simulated} {p : Pipeline Simulated}
    (h : Pipeline.start settings engine = .ok p) : Staffed p := by
  obtain ⟨-, hreaders, hwindows, -, -, hjanitor⟩ := start_spec h
  have hnone : ∀ id r, p.readers.get? id ≠ some r := fun id r hr => by
    simp [hreaders, Table.get?, Table.find] at hr
  refine ⟨hreaders ▸ Table.sorted_empty, fun id r hr => absurd hr (hnone id r),
    fun id r hr => absurd hr (hnone id r), fun id r hr => absurd hr (hnone id r),
    fun id j r r' hr => absurd hr (hnone id r),
    fun sub hs => ⟨hjanitor sub hs, fun id r hr => absurd hr (hnone id r)⟩,
    fun id r hr => absurd hr (hnone id r), fun g k hk => ?_, fun k hk => ?_⟩
  · simp [hwindows, Table.get?, Table.find] at hk
  · simp [hwindows, Table.get?, Table.find] at hk

lemma sound_start {settings : Settings} {trace : List Event} {engine : Simulated}
    {p : Pipeline Simulated} (he : Prepared trace engine)
    (h : Pipeline.start settings engine = .ok p) : Sound (Added trace) (Failed trace) p := by
  obtain ⟨hrun, -, -, -, -, -⟩ := start_spec h
  have hassemble : Sound (Added trace) (Failed trace) (Pipeline.assemble settings engine) := by
    have hquiet := not_inPlay_assemble he settings
    refine ⟨Delivery.inv_assemble settings engine, fun g t ht => ?_,
      fun a ha => absurd ha (hquiet a),
      fun id s a hs ha => absurd (Or.inr ⟨id, s, hs, ha⟩) (hquiet a)⟩
    obtain ⟨mask, hengine⟩ := (assemble_spec settings engine).1
    rw [hengine] at ht
    exact prepared_known he g t ht
  refine sound_run hassemble hrun fun note hn => ?_
  simp only [List.mem_cons, List.not_mem_nil, or_false, or_self] at hn
  rw [hn]
  trivial

/-! ### The steps of the services, as delivery sees them -/

lemma query_spec (h : Handle) (s : Simulated) :
    (Waiter.query h s).2 = (EngineCall.status h true).apply s := by
  have heq : (Engine.status h s : Except EngineError TorrentStatus × Simulated) =
      Simulated.status h true s := rfl
  unfold Waiter.query
  rw [heq, EngineCall.apply]
  rcases Simulated.status h true s with ⟨_ | _, s'⟩ <;> rfl

lemma waiter_start_spec (h : Handle) (pieces : List Piece) (interval now : Nat) (s : Simulated) :
    (Waiter.start h pieces interval now s).2 = s ∨
      (Waiter.start h pieces interval now s).2 = (EngineCall.status h true).apply s := by
  rw [← query_spec]
  unfold Waiter.start
  rcases Waiter.negative? pieces with _ | q
  · right
    rcases Waiter.query h s with ⟨e | available, s'⟩
    · rfl
    · dsimp only
      split <;> rfl
  · exact Or.inl rfl

inductive Swept {σ : Type} [Engine σ] (p : Pipeline σ) (sub : Nat) : Pipeline σ → Prop
  | looked : Swept p sub (p.pollSubscription sub).2
  | forgot {h : Handle} {name : String}
      (hp : (p.pollSubscription sub).1 = some (.ok (.torrentRemoved h name))) :
    Swept p sub ((p.pollSubscription sub).2.forgetWindow h).2
  | quit (notices : List Notice) :
    Swept p sub ((p.pollSubscription sub).2.tell notices).stopJanitor

lemma swept_janitorStep {σ : Type} [Engine σ] {p q : Pipeline σ} (h : p.janitorStep = some q) :
    ∃ sub, p.janitor = some sub ∧ Swept p sub q := by
  unfold Pipeline.janitorStep at h
  rcases hj : p.janitor with _ | sub <;> simp only [hj] at h
  · cases h
  · refine ⟨sub, rfl, ?_⟩
    split_ifs at h
    rcases hp : p.pollSubscription sub with ⟨found, p'⟩
    have hp₁ : (p.pollSubscription sub).1 = found := by rw [hp]
    have hp₂ : (p.pollSubscription sub).2 = p' := by rw [hp]
    have hquit : p'.stopJanitor = (p'.tell []).stopJanitor := by
      simp [Pipeline.tell]
    rcases found with _ | e | a
    · rw [hp] at h
      cases h
      exact hp₂ ▸ .looked
    · rw [hp] at h
      cases e <;> cases h
      all_goals first
        | exact hp₂ ▸ .quit _
        | exact hquit ▸ hp₂ ▸ .quit _
    · rw [hp] at h
      cases a <;> cases h
      all_goals first
        | exact hp₂ ▸ .looked
        | exact hp₂ ▸ .forgot hp₁

/-- What nobody does to a reader's delivery, and nothing to the torrents. -/
def Idle (p : Pipeline Simulated) : Note → Prop
  | .called _ call => call.isTending = true ∧ call.isPublic = true
  | .received sub _ | .left sub => ∀ id r, p.readers.get? id = some r → r.subscription ≠ sub
  | .stopped => False
  | .quiet => True

lemma Idle.discreet {p : Pipeline Simulated} {note : Note} (h : Idle p note) : Discreet note := by
  cases note <;> first | exact h.1 | trivial

/-- What is asked without setting deadlines changes no torrent. -/
lemma torrent?_of_idle {p q r : Pipeline Simulated} {note : Note} (h : Idle p note)
    (hstep : Delivery.Step q note r) (g : Handle) : r.engine.torrent? g = q.engine.torrent? g := by
  rcases Delivery.step_slots hstep with ⟨c, rfl, rfl⟩ | hslots
  · obtain ⟨htend, hpublic⟩ := h
    show (c.apply q.engine).torrent? g = q.engine.torrent? g
    have hnone : c.handle? = none := by
      cases c <;> first
        | rfl
        | exact absurd hpublic Bool.false_ne_true
        | exact absurd htend Bool.false_ne_true
    rw [c.torrent?_apply (c.isAdd_of_isTending htend), hnone, if_neg fun e => by cases e]
  · exact Simulated.torrent?_congr hslots g

/-- Nothing is done with a reader, and no window is touched, but one may be forgotten whose torrent
was removed. -/
structure Idling (notes : List Note) (p q : Pipeline Simulated) : Prop where
  continues : Continues notes p q
  idle : ∀ note ∈ notes, Idle p note
  readers : q.readers = p.readers
  windows : q.windows = p.windows ∨ ∃ h name, InPlay p (.torrentRemoved h name) ∧
    q.windows = (p.windows.forget h).2

namespace Idling

lemma of_step {p q : Pipeline Simulated} {note : Note} (hstep : Delivery.Step p note q)
    (h : Idle p note) : Idling [note] p q where
  continues := .of_step hstep fun id r hr e => by
    rw [e] at h
    exact h id r hr rfl
  idle n hn := List.mem_singleton.mp hn ▸ h
  readers := (Delivery.step_beside hstep).readers
  windows := Or.inl (Delivery.step_beside hstep).windows

lemma aside (p : Pipeline Simulated) (waiters : Table Nat Waiter) {nextScope : Nat}
    (hn : p.nextScope ≤ nextScope) {janitor : Option Nat}
    (hj : janitor = none ∨ janitor = p.janitor) (now : Nat) (notices : List Notice) :
    Idling [] p { p with waiters, nextScope, janitor, now, notices } where
  continues := .aside p waiters hn hj now notices
  idle _ hn := by cases hn
  readers := rfl
  windows := Or.inl rfl

lemma refl (p : Pipeline Simulated) : Idling [] p p :=
  aside p p.waiters (Nat.le_refl _) (Or.inr rfl) p.now p.notices

lemma trans {notes notes' : List Note} {p q r : Pipeline Simulated} (h : Idling notes p q)
    (h' : Idling notes' q r) (hw : q.windows = p.windows) (hw' : r.windows = q.windows) :
    Idling (notes ++ notes') p r where
  continues := h.continues.trans h'.continues
  idle note hn := by
    rcases List.mem_append.mp hn with hn | hn
    · exact h.idle note hn
    · have hi := h'.idle note hn
      cases note <;> first | exact fun id r hr => hi id r (h.readers ▸ hr) | exact hi
  readers := h'.readers.trans h.readers
  windows := Or.inl (hw'.trans hw)

lemma torrent? {notes : List Note} {p q : Pipeline Simulated} (h : Idling notes p q) (g : Handle) :
    q.engine.torrent? g = p.engine.torrent? g := by
  obtain ⟨⟨hrun, -, -, -, -, -, -, -, -, -⟩, hidle, -, -⟩ := h
  induction hrun with
  | nil => rfl
  | snoc _ hstep ih =>
    rw [torrent?_of_idle (hidle _ (by simp)) hstep, ih fun note hn => hidle note (by simp [hn])]
  | aside _ _ _ _ _ _ _ _ ih => exact ih hidle

lemma stopJanitor {p : Pipeline Simulated} (hj : ∀ sub, p.janitor = some sub →
    ∀ id r, p.readers.get? id = some r → r.subscription ≠ sub) :
    ∃ notes, Idling notes p p.stopJanitor ∧ p.stopJanitor.windows = p.windows := by
  unfold Pipeline.stopJanitor
  rcases hsub : p.janitor with _ | sub
  · exact ⟨[], refl p, rfl⟩
  · have haside : Idling [] p { p with janitor := none } :=
      aside p p.waiters (Nat.le_refl _) (Or.inl rfl) p.now p.notices
    have hstep : Delivery.Step { p with janitor := none } (.left sub)
        ({ p with janitor := none }.unsubscribe sub) := .unsubscribe _ sub
    have hwindows := (Delivery.step_beside hstep).windows
    exact ⟨_, haside.trans (of_step hstep (hj sub hsub)) rfl hwindows, hwindows⟩

lemma status (p : Pipeline Simulated) (g : Handle) (waiters : Table Nat Waiter) {nextScope : Nat}
    (hn : p.nextScope ≤ nextScope) : Idling ([.called p.engine (.status g true)] ++ []) p
      { p with engine := (EngineCall.status g true).apply p.engine, waiters, nextScope } := by
  let asked : Pipeline Simulated := { p with engine := (EngineCall.status g true).apply p.engine }
  have hcall : Idling [.called p.engine (.status g true)] p asked :=
    of_step (.call p (.status g true)) ⟨rfl, rfl⟩
  exact hcall.trans (aside asked waiters hn (Or.inr rfl) p.now p.notices) rfl rfl

end Idling

/-- What a step of the services does. -/
inductive Movement (p : Pipeline Simulated) : Event → Pipeline Simulated → Prop
  | delivery {q : Pipeline Simulated} {note : Note} (hstep : Delivery.Step p note q)
      (ha : Allowed p note) : Movement p (.ofNote note) q
  | idling {q : Pipeline Simulated} {event : Event} {notes : List Note} (h : Idling notes p q) :
    Movement p event q
  | reading (handle : Handle) (pieces : List Piece) :
    Movement p (.began p.nextScope handle pieces) (p.read handle pieces).2
  | polled {q : Pipeline Simulated} {id : Nat} {r : Reader}
      {answer : Polled (Except PieceError PieceData)} (hr : p.readers.get? id = some r)
      (h : Polls id p r answer q) : Movement p (.polled id (p.advancing? id) answer) q
  | dropped (id : Nat) : Movement p (.dropped id) (p.dropReader id)

/-- **Every step goes one of these ways.** -/
theorem movement_step {p q : Pipeline Simulated} {event : Event} (h : Staffed p)
    (hstep : Step p event q) : Movement p event q := by
  -- steps that touch only waiters, the clock and the notices
  have haside :
      ∀ (waiters : Table Nat Waiter) {nextScope : Nat} (now : Nat) (notices : List Notice),
      p.nextScope ≤ nextScope → Idling [] p { p with waiters, nextScope, now, notices } :=
    fun waiters _ now notices hn => .aside p waiters hn (Or.inr rfl) now notices
  have hquit : ∀ sub, p.janitor = some sub → ∀ id r, p.readers.get? id = some r →
      r.subscription ≠ sub := fun sub hj => (h.janitor sub hj).2
  cases hstep with
  | deliver hstep ha => exact .delivery hstep ha
  | read handle pieces => exact .reading handle pieces
  | next hr => exact .polled hr (polls_pollReader hr)
  | cancel id =>
    unfold Pipeline.cancelReader
    rcases p.readers.get? id with _ | r
    · exact .idling (.refl p)
    · exact .idling (.of_step (.cancel p r.subscription) trivial)
  | drop id => exact .dropped id
  | janitor hq =>
    obtain ⟨sub, hj, hswept⟩ := swept_janitorStep hq
    have hpoll : Idling [.received sub (p.pollSubscription sub).1] p (p.pollSubscription sub).2 :=
      .of_step (.receive p sub) (hquit sub hj)
    cases hswept with
    | looked => exact .idling hpoll
    | forgot hp =>
      exact .idling ⟨hpoll.continues.trans (.forgetWindow _ _), by simpa using hpoll.idle, rfl,
        Or.inr ⟨_, _, inPlay_of_poll hp, rfl⟩⟩
    | quit notices =>
      have htell : Idling [] (p.pollSubscription sub).2 ((p.pollSubscription sub).2.tell notices) :=
        .aside _ p.waiters (Nat.le_refl _) (Or.inr rfl) p.now _
      obtain ⟨notes, hstop, hw⟩ :
          ∃ notes, Idling notes ((p.pollSubscription sub).2.tell notices) _ ∧ _ :=
        Idling.stopJanitor hquit
      exact .idling ((hpoll.trans htell rfl rfl).trans hstop rfl hw)
  | dismiss =>
    obtain ⟨notes, hstop, -⟩ := Idling.stopJanitor hquit
    exact .idling hstop
  | wait handle pieces interval =>
    unfold Pipeline.wait
    have hs := waiter_start_spec handle pieces interval.nanos p.now p.engine
    -- it is refused or starts, and the engine was asked for the status or not
    rcases hw : Waiter.start handle pieces interval.nanos p.now p.engine with ⟨e | w, engine⟩ <;>
      rw [hw] at hs <;> dsimp only at hs ⊢ <;> rcases hs with rfl | rfl
    · exact .idling (.refl p)
    · exact .idling (.status p handle p.waiters (Nat.le_refl _))
    · exact .idling (haside (p.waiters.set p.nextScope w) p.now p.notices (Nat.le_succ _))
    · exact .idling (.status p handle (p.waiters.set p.nextScope w) (Nat.le_succ _))
  | pollWaiter id =>
    unfold Pipeline.pollWaiter
    rcases p.waiters.get? id with _ | w
    · exact .idling (.refl p)
    · exact .idling (haside (p.waiters.set id w.poll.2) p.now p.notices (Nat.le_refl _))
  | dropWaiter id => exact .idling (haside (p.waiters.erase id) p.now p.notices (Nat.le_refl _))
  | askPoll id =>
    unfold Pipeline.askPoll
    rcases hw : p.waiters.get? id with _ | w
    · exact .idling (.refl p)
    · dsimp only
      unfold Waiter.ask
      rcases w.poller with _ | poller
      · exact .idling (haside (p.waiters.set id w) p.now p.notices (Nat.le_refl _))
      · have hq := query_spec w.handle p.engine
        rcases hquery : Waiter.query w.handle p.engine with ⟨answer, engine⟩
        rw [hquery] at hq
        dsimp only at hq ⊢
        rw [hq]
        exact .idling (.status p w.handle _ (Nat.le_refl _))
  | publishPoll id =>
    unfold Pipeline.publishPoll
    rcases p.waiters.get? id with _ | w
    · exact .idling (.refl p)
    · exact .idling (haside (p.waiters.set id (w.publish p.now)) p.now p.notices (Nat.le_refl _))
  | aside now notices => exact .idling (haside p.waiters now notices (Nat.le_refl _))

lemma dropReader_none {p : Pipeline Simulated} {id : Nat} (hr : p.readers.get? id = none) :
    p.dropReader id = p := by
  simp only [Pipeline.dropReader, hr]

lemma continues_dropReader {p : Pipeline Simulated} (hinv : Delivery.Inv p)
    (h : Staffed p) {id : Nat} {r : Reader} (hr : p.readers.get? id = some r) :
    ∃ notes, Continues notes p (p.dropReader id) ∧
      ∀ note ∈ notes, Own r.subscription note ∨ note = .left r.subscription := by
  simp only [Pipeline.dropReader, hr]
  have hattended : Attended id r.subscription p (p.endReader id) := .endReader hr
  obtain ⟨r', hr', hsub⟩ := hattended.reader hr rfl
  obtain ⟨notes, hc, hown⟩ := hattended.continues ⟨r, hr⟩
  have hq := h.continues hinv hc
  let struck : Pipeline Simulated :=
    { p.endReader id with readers := (p.endReader id).readers.erase id }
  have hstrike : Continues [] (p.endReader id) struck := .strike _ id
  -- nobody else has the subscription that goes
  have hfree : ∀ j r', struck.readers.get? j = some r' → Note.left r.subscription ≠
      .left r'.subscription := fun j r₂ hr₂ e => by
    rw [Table.get?_erase] at hr₂
    split_ifs at hr₂ with hj
    have heq : r'.subscription = r₂.subscription := hsub.trans (Note.left.inj e)
    exact hj (hq.apart id j r' r₂ hr' hr₂ heq).symm
  have hleave : Continues [.left r.subscription] struck (struck.unsubscribe r.subscription) :=
    .of_step (.unsubscribe _ _) hfree
  refine ⟨_, (hc.trans hstrike).trans hleave, fun note hn => ?_⟩
  simp only [List.append_nil, List.mem_append, List.mem_singleton] at hn
  exact hn.imp_left (hown note)

/-- What a step of the services is to delivery. -/
inductive Course (p : Pipeline Simulated) : Event → Pipeline Simulated → Prop
  | delivery {q : Pipeline Simulated} {note : Note} (hstep : Delivery.Step p note q)
      (ha : Allowed p note) (hc : Continues [note] p q) : Course p (.ofNote note) q
  | discreet {q : Pipeline Simulated} {event : Event} {notes : List Note}
      (hc : Continues notes p q) (hd : ∀ note ∈ notes, Discreet note) : Course p event q
  | reading (handle : Handle) (pieces : List Piece) :
    Course p (.began p.nextScope handle pieces) (p.read handle pieces).2

theorem course_step {p q : Pipeline Simulated} {event : Event} (hinv : Delivery.Inv p)
    (h : Staffed p) (hstep : Step p event q) : Course p event q := by
  cases movement_step h hstep with
  | delivery hstep ha =>
    refine .delivery hstep ha (.of_step hstep fun id r hr e => ?_)
    rw [e] at ha
    exact ha.2 id r hr rfl
  | idling hi => exact .discreet hi.continues fun note hn => (hi.idle note hn).discreet
  | reading handle pieces => exact .reading handle pieces
  | polled hr hpolls =>
    obtain ⟨notes, hc, hown⟩ := (Attended.polls hr hpolls).continues ⟨_, hr⟩
    exact .discreet hc fun note hn => (hown note hn).discreet
  | dropped id =>
    rcases hr : p.readers.get? id with _ | r
    · rw [dropReader_none hr]
      exact .discreet (Idling.refl p).continues (by simp)
    · obtain ⟨notes, hc, hparting⟩ := continues_dropReader hinv h hr
      refine .discreet hc fun note hn => ?_
      rcases hparting note hn with hown | rfl
      · exact hown.discreet
      · trivial

/-! ### A new reader -/

def newReader (p : Pipeline Simulated) (h : Handle) (pieces : List Piece) : Reader :=
  { handle := h, window := (p.windows.share h p.settings.pieceDeadline).1
    subscription := p.hub.nextId, pieces, ahead := max p.settings.readWindow 1 }

lemma read_snd (p : Pipeline Simulated) (h : Handle) (pieces : List Piece) :
    (p.read h pieces).2 = { (p.subscribe (readRequest h)).2 with
      windows := (p.windows.share h p.settings.pieceDeadline).2
      nextScope := p.nextScope + 1
      readers := p.readers.set p.nextScope (newReader p h pieces) } := by
  simp only [Pipeline.read, Pipeline.shareWindow, Pipeline.putReader, Pipeline.subscribe_fst,
    Pipeline.subscribe_snd, Pipeline.withDemand_eq]
  rfl

lemma fst_read (p : Pipeline Simulated) (h : Handle) (pieces : List Piece) :
    (p.read h pieces).1 = p.nextScope := by
  simp only [Pipeline.read, Pipeline.shareWindow, Pipeline.putReader, Pipeline.subscribe_snd,
    Pipeline.withDemand_eq]

lemma engine_read (p : Pipeline Simulated) (h : Handle) (pieces : List Piece) :
    (p.read h pieces).2.engine = (p.subscribe (readRequest h)).2.engine := by
  rw [read_snd]

lemma hub_read (p : Pipeline Simulated) (h : Handle) (pieces : List Piece) :
    (p.read h pieces).2.hub = (p.subscribe (readRequest h)).2.hub := by
  rw [read_snd]

lemma nextId_read (p : Pipeline Simulated) (h : Handle) (pieces : List Piece) :
    (p.read h pieces).2.hub.nextId = p.hub.nextId + 1 := by
  rw [hub_read, Pipeline.nextId_subscribe]

lemma nextScope_read (p : Pipeline Simulated) (h : Handle) (pieces : List Piece) :
    (p.read h pieces).2.nextScope = p.nextScope + 1 := by
  rw [read_snd]

lemma run_read (p : Pipeline Simulated) (h : Handle) (pieces : List Piece) :
    Delivery.Run p [.quiet] (p.read h pieces).2 := by
  rw [read_snd]
  exact (Delivery.Run.one (.subscribe p (readRequest h))).aside _ _ _ _ _ _ _

lemma windows_read (p : Pipeline Simulated) (h : Handle) (pieces : List Piece) :
    (p.read h pieces).2.windows = (p.windows.share h p.settings.pieceDeadline).2 := by
  rw [read_snd]

lemma get?_read (p : Pipeline Simulated) (h : Handle) (pieces : List Piece) (id : Nat) :
    (p.read h pieces).2.readers.get? id =
      if id = p.nextScope then some (newReader p h pieces) else p.readers.get? id := by
  rw [read_snd]
  exact Table.get?_set _ _ _ _

lemma get?_read_cases {p : Pipeline Simulated} {h : Handle} {pieces : List Piece} {id : Nat}
    {r : Reader} (hr : (p.read h pieces).2.readers.get? id = some r) :
    (id = p.nextScope ∧ r = newReader p h pieces) ∨ p.readers.get? id = some r := by
  rw [get?_read] at hr
  split_ifs at hr with hid
  · exact Or.inl ⟨hid, (Option.some.inj hr).symm⟩
  · exact Or.inr hr

lemma torrent?_read (p : Pipeline Simulated) (h : Handle) (pieces : List Piece) (g : Handle) :
    (p.read h pieces).2.engine.torrent? g = p.engine.torrent? g := by
  have hslots : (p.subscribe (readRequest h)).2.engine.slots = p.engine.slots :=
    (Delivery.step_slots (.subscribe p (readRequest h))).resolve_left fun ⟨_, hc, _⟩ => by cases hc
  exact Simulated.torrent?_congr (by rw [engine_read, hslots]) g

/-- **The window that is shared is the torrent's**, and no other is touched. -/
lemma share_spec (ws : Windows) (h : Handle) (deadline : Duration)
    (hcur : ∀ g k, ws.current.get? g = some k → (ws.windows.get? k).map (·.handle) = some g)
    (hnext : ∀ k, ws.windows.get? k ≠ none → k < ws.next) :
    (∀ g, (ws.share h deadline).2.current.get? g =
      if g = h then some (ws.share h deadline).1 else ws.current.get? g) ∧
    (∀ k w, ws.windows.get? k = some w → (ws.share h deadline).2.windows.get? k = some w) ∧
    ((ws.share h deadline).2.windows.get? (ws.share h deadline).1).map (·.handle) = some h ∧
    (∀ k, (ws.share h deadline).2.windows.get? k ≠ none → k < (ws.share h deadline).2.next) ∧
    ∀ w, (ws.share h deadline).2.windows.get? (ws.share h deadline).1 = some w →
      ws.current.get? h = none → w.counts = {} := by
  unfold Windows.share
  rcases hc : ws.current.get? h with _ | k
  · -- the torrent has no window yet
    refine ⟨fun g => Table.get?_set _ _ _ _, fun k w hw => ?_, ?_, fun k hk => ?_, fun w hw _ => ?_⟩
    · have hlt := hnext k (by rw [hw]; exact Option.some_ne_none w)
      simp only [Table.get?_set]
      rw [if_neg (Nat.ne_of_lt hlt)]
      exact hw
    · simp
    · show k < ws.next + 1
      simp only [Table.get?_set] at hk
      split_ifs at hk with hk'
      · omega
      · have := hnext k hk
        omega
    · simp only [Table.get?_set, if_true, Option.some.injEq] at hw
      rw [← hw]
  · -- it has one, which is shared
    refine ⟨fun g => ?_, fun _ _ hw => hw, hcur h k hc, hnext, fun w _ hnone => by cases hnone⟩
    dsimp only
    split_ifs with hg
    · rw [hg, hc]
    · rfl

lemma staffed_read {p : Pipeline Simulated} (hinv : Delivery.Inv p) (h : Staffed p) (g : Handle)
    (pieces : List Piece) : Staffed (p.read g pieces).2 := by
  obtain ⟨hcur, hkept, hown, hnext, -⟩ :=
    share_spec p.windows g p.settings.pieceDeadline h.current h.next
  have hrun := run_read p g pieces
  have hb := Delivery.beside_subscribe p (readRequest g)
  have hnextId := nextId_read p g pieces
  have hscope := nextScope_read p g pieces
  have hsettings : (p.read g pieces).2.settings = p.settings := by
    rw [read_snd]
    exact hb.settings
  have hjanitor : (p.read g pieces).2.janitor = p.janitor := by
    rw [read_snd]
    exact hb.janitor
  -- the number of the new subscription is nobody's yet
  have hlt : ∀ id r, p.readers.get? id = some r → r.subscription < p.hub.nextId := fun id r hr => by
    obtain ⟨s, hs, -⟩ := h.subscribed id r hr
    exact hinv.hub.ids _ s hs
  have hmap : ∀ {k : Nat} {f : Handle}, (p.windows.windows.get? k).map (·.handle) = some f →
      ((p.read g pieces).2.windows.windows.get? k).map (·.handle) = some f := fun {k f} hk => by
    obtain ⟨w, hw, hf⟩ := Option.map_eq_some_iff.mp hk
    rw [windows_read, hkept k w hw, Option.map_some, hf]
  refine ⟨?_, fun id r hr => ?_, fun id r hr => ?_, fun id r hr => ?_,
    fun id j r r' hr hr' heq => ?_,
    fun sub hs => ?_, fun id r hr => ?_, fun f k hk => ?_, fun k hk => ?_⟩
  · rw [read_snd]
    exact h.sorted.set _ _
  · rcases get?_read_cases hr with ⟨rfl, -⟩ | hr
    · omega
    · have := h.bound id r hr
      omega
  · rw [hsettings]
    rcases get?_read_cases hr with ⟨-, rfl⟩ | hr
    · rfl
    · exact h.ahead id r hr
  · rcases get?_read_cases hr with ⟨-, rfl⟩ | hr
    · refine ⟨p.hub.newcomer (readRequest g), ?_, rfl, rfl⟩
      rw [hub_read, Pipeline.hub_subscribe, Hub.add_eq, Table.get?_set]
      exact if_pos rfl
    · exact subscribed_run hinv hrun (h.subscribed id r hr) (by simp)
  · rcases get?_read_cases hr with ⟨hi, rfl⟩ | hr <;>
      rcases get?_read_cases hr' with ⟨hj, rfl⟩ | hr'
    · -- of two readers that listen alike one would be new, and its subscription an old one
      rw [hi, hj]
    · have := hlt j r' hr'
      simp only [newReader] at heq
      omega
    · have := hlt id r hr
      simp only [newReader] at heq
      omega
    · exact h.apart id j r r' hr hr' heq
  · rw [hjanitor] at hs
    obtain ⟨hlt', hne⟩ := h.janitor sub hs
    refine ⟨by omega, fun id r hr => ?_⟩
    rcases get?_read_cases hr with ⟨-, rfl⟩ | hr
    · exact Ne.symm (Nat.ne_of_lt hlt')
    · exact hne id r hr
  · rcases get?_read_cases hr with ⟨-, rfl⟩ | hr
    · rw [windows_read]
      exact hown
    · exact hmap (h.window id r hr)
  · rw [windows_read, hcur] at hk
    split_ifs at hk with hf
    · cases hk
      rw [hf, windows_read]
      exact hown
    · exact hmap (h.current f k hk)
  · rw [windows_read] at hk ⊢
    exact hnext k hk

/-! ### Every run -/

theorem sound_staffed_step {trace : List Event} {p q : Pipeline Simulated} {event : Event}
    (hs : Sound (Added trace) (Failed trace) p) (h : Staffed p) (hstep : Step p event q) :
    Sound (Added (trace ++ [event])) (Failed (trace ++ [event])) q ∧ Staffed q := by
  have hmore : ∀ {q : Pipeline Simulated}, Sound (Added trace) (Failed trace) q →
      Sound (Added (trace ++ [event])) (Failed (trace ++ [event])) q := fun hq =>
    ⟨hq.inv, hq.known.mono fun _ _ ha => ha.append _, fun a ha => (hq.honest a ha).mono
      (fun _ _ ha => ha.append _) (fun _ _ _ hf => hf.append _), hq.fits⟩
  cases course_step hs.inv h hstep with
  | delivery hnote ha hc =>
    refine ⟨sound_step hs (fun _ _ ha => ha.append _) (fun _ _ _ hf => hf.append _) hnote ?_,
      h.continues hs.inv hc⟩
    rintro c rfl
    exact covered_ofCall trace p.engine c
  | discreet hc hd => exact ⟨hmore (sound_run hs hc.run hd), h.continues hs.inv hc⟩
  | reading g pieces =>
    refine ⟨hmore (sound_run hs (run_read p g pieces) fun note hn => ?_),
      staffed_read hs.inv h g pieces⟩
    rw [List.mem_singleton.mp hn]
    trivial

/-- **Whatever is done, what is told is true and readers have what they need.** -/
theorem run_sound_staffed {settings : Settings} {trace : List Event} {p : Pipeline Simulated}
    (h : Run settings trace p) : Sound (Added trace) (Failed trace) p ∧ Staffed p := by
  induction h with
  | start he hp => exact ⟨sound_start he hp, staffed_start hp⟩
  | snoc _ hstep ih => exact sound_staffed_step ih.1 ih.2 hstep

end TorrentFlow.Services
