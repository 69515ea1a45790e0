import TorrentFlow.Proofs.Moves
import TorrentFlow.Proofs.Services.Hearing
import TorrentFlow.Proofs.Waiting.Steps

/-!
Errors on their way from the engine to whoever wants pieces, over any engine. An engine error can be
kept in a mailbox, with a reader or with a waiter before anybody is told, and it is classified once
on each of these ways. Here is what one conversion, one move of a window and one call of a reader do
with it, and that nothing else that goes on makes a mailbox fail.
-/

namespace TorrentFlow

namespace PieceError

/-- An error as it may be told: the news that a handle is not valid, or that the engine failed, in
one form only. -/
def Classified : PieceError → Prop
  | .engine e => e.isInvalidHandle = false
  | .delivery .handleInvalid => False
  | .delivery (.engine _) => False
  | _ => True

lemma ofEngine_of_valid {e : EngineError} (h : e.isInvalidHandle = false) :
    ofEngine e = .engine e := by
  rw [ofEngine, h, if_neg Bool.false_ne_true]

lemma classified_ofEngine (e : EngineError) : (ofEngine e).Classified := by
  unfold ofEngine
  split_ifs with h
  · trivial
  · exact (Bool.not_eq_true _).mp h

lemma classified_ofDelivery (e : DeliveryError) : (ofDelivery e).Classified := by
  cases e with
  | engine e => exact classified_ofEngine e
  | _ => trivial

/-- **By way of delivery an engine error becomes what it becomes at once.** -/
theorem ofDelivery_ofEngine (e : EngineError) : ofDelivery (.ofEngine e) = ofEngine e := by
  unfold DeliveryError.ofEngine
  split_ifs with h
  · rw [ofDelivery, ofEngine, if_pos h]
  · rfl

end PieceError

/-! ### A move -/

def DeadlineCall.firstError (answers : List (Except EngineError Unit)) : Option EngineError :=
  answers.findSome? fun
    | .error e => some e
    | .ok _ => none

lemma DeadlineCall.firstFailure_eq (answers : List (Except EngineError Unit)) :
    firstFailure answers = (firstError answers).map .ofEngine := by
  induction answers with
  | nil => rfl
  | cons answer rest ih =>
    rw [firstFailure_cons, ih]
    rcases answer with e | _ <;> rfl

namespace Window

open DeadlineCall

variable {σ : Type} [Engine σ]

/-- The calls that a move may make: it arms what enters, and then resets some of what leaves, in
index order. -/
def Asks (w : Window) (old new : OrderedSet Piece) (calls : List DeadlineCall) : Prop :=
  ∃ resets, resets.Sublist ((old.diff new).elements.map (.reset w.handle)) ∧
    calls = (new.diff old).elements.map w.arming ++ resets

namespace Change

lemma asks_foldl_yieldUp (l : List Piece) (c : Change σ) :
    ∃ resets : List DeadlineCall, resets.Sublist (l.map (.reset c.window.handle)) ∧
      (l.foldl yieldUp c).failure = c.failure.or (firstFailure (askAll resets c.engine).1) := by
  induction l generalizing c with
  | nil => exact ⟨[], .slnil, (Option.or_none).symm⟩
  | cons p rest ih =>
    obtain ⟨resets, hsub, hfailure⟩ := ih (c.yieldUp p)
    have hhandle : (c.yieldUp p).window.handle = c.window.handle := by
      rw [window_yieldUp, handle_lower]
    rw [hhandle] at hsub
    rw [List.foldl_cons, hfailure]
    rcases hn : c.window.counts.get? p with _ | n
    · exact ⟨resets, hsub.cons _, by simp only [yieldUp, hn]⟩
    by_cases hone : n ≤ 1
    · refine ⟨.reset c.window.handle p :: resets, hsub.cons_cons _, ?_⟩
      rw [askAll_cons, firstFailure_cons]
      simp only [yieldUp, hn, hone, if_true, ask, noteFailure]
      rcases hask : Engine.resetDeadline c.window.handle p c.engine with ⟨_ | _, engine⟩
      · simp [refusal]
      · simp [refusal]
    · exact ⟨resets, hsub.cons _, by simp only [yieldUp, hn, hone, if_false]⟩

end Change

/-- **A move tells the first error that it meets**, classified. -/
theorem failure_delta (w : Window) (old new : OrderedSet Piece) (engine : σ) :
    ∃ calls, w.Asks old new calls ∧
    (w.delta old new engine).failure = (firstError (askAll calls engine).1).map .ofEngine := by
  unfold delta
  rw [Change.foldl_claim]
  obtain ⟨resets, hsub, hfailure⟩ := Change.asks_foldl_yieldUp (old.diff new).elements
    ({ window := (new.diff old).elements.foldl raise w
       engine := (askAll ((new.diff old).elements.map w.arming) engine).2
       failure := (none : Option PieceError).or
        (firstFailure (askAll ((new.diff old).elements.map w.arming) engine).1) } : Change σ)
  have hhandle : ((new.diff old).elements.foldl raise w).handle = w.handle :=
    List.foldlRecOn (motive := fun v : Window => v.handle = w.handle) _ raise rfl fun v hv p _ => hv
  rw [hhandle] at hsub
  refine ⟨_, ⟨resets, hsub, rfl⟩, ?_⟩
  rw [hfailure, Option.none_or, ← firstFailure_append, ← firstFailure_eq, askAll_append]

end Window

/-! ### What a hub knows of failures -/

lemma Mailbox.poll_of_failure {m : Mailbox} {e : DeliveryError} (h : m.failure = some e)
    (hawake : m.isAwake = true) (busy : Nat) : (m.poll busy).1 = some (.error e) := by
  have hlook : ∀ {m : Mailbox}, m.failure = some e → m.look busy = (some (.error e), m, busy) := by
    rintro ⟨queue, holding, failure, closed, wake, waiting⟩ rfl
    rfl
  simp only [poll, hawake, Bool.not_true, Bool.false_eq_true, if_false, attempt,
    hlook (m.failure_useWake.trans h)]

namespace Hub

/-- What the engine has answered for a subscription and nobody has looked at yet. -/
def answered? (h : Hub) (sub : Nat) : Option (Except EngineError Bool) :=
  (h.subscriptions.get? sub).bind fun s =>
    match s.liveness with
    | .answered answer => some answer
    | _ => none

/-- Why the mailbox of a subscription has failed. -/
def failure? (h : Hub) (sub : Nat) : Option DeliveryError := (h.mailbox? sub).bind (·.failure)

/-- From `h` to `h'` nothing was answered, and no mailbox has failed. -/
structure NoNews (h h' : Hub) : Prop where
  answered : ∀ sub a, h'.answered? sub = some a → h.answered? sub = some a
  failure : ∀ sub e, h'.failure? sub = some e → h.failure? sub = some e

lemma NoNews.refl (h : Hub) : NoNews h h := ⟨fun _ _ ha => ha, fun _ _ he => he⟩

lemma NoNews.trans {h h' h'' : Hub} (a : NoNews h h') (b : NoNews h' h'') : NoNews h h'' :=
  ⟨fun sub x hx => a.answered sub x (b.answered sub x hx),
    fun sub e he => a.failure sub e (b.failure sub e he)⟩

lemma answered?_onMailbox (h : Hub) (id : Nat) (f : Mailbox → Nat → Mailbox × Nat) (sub : Nat) :
    (h.onMailbox id f).answered? sub = h.answered? sub := by
  rw [answered?, get?_onMailbox, answered?]
  split_ifs with hsub
  · rw [hsub]
    rcases h.subscriptions.get? id with _ | s <;> rfl
  · rfl

lemma failure?_onMailbox (h : Hub) (id : Nat) (f : Mailbox → Nat → Mailbox × Nat) (sub : Nat) :
    (h.onMailbox id f).failure? sub =
      if sub = id then (h.mailbox? id).bind fun m =>
      (f m h.busy).1.failure else h.failure? sub := by
  rw [failure?, mailbox?, get?_onMailbox]
  split_ifs
  · rw [mailbox?]
    rcases h.subscriptions.get? id with _ | s <;> rfl
  · rfl

lemma failure?_liveness {h : Hub} {sub : Nat} {s : Subscription}
    (hs : h.subscriptions.get? sub = some s) (liveness : Liveness) (j : Nat) :
    failure? { h with subscriptions := h.subscriptions.set sub { s with liveness } } j =
    h.failure? j := by
  rw [failure?, mailbox?, Table.get?_set, failure?, mailbox?]
  split_ifs with hj
  · rw [hj, hs]
    rfl
  · rfl

lemma noNews_onMailbox (h : Hub) (id : Nat) {f : Mailbox → Nat → Mailbox × Nat}
    (hf : ∀ m busy, (f m busy).1.failure = m.failure) : NoNews h (h.onMailbox id f) := by
  refine ⟨fun sub a ha => h.answered?_onMailbox id f sub ▸ ha, fun sub e he => ?_⟩
  rw [failure?_onMailbox] at he
  simp only [hf] at he
  split_ifs at he with hsub
  · exact hsub ▸ he
  · exact he

lemma noNews_onEach {α : Type} {f : α → Mailbox → Nat → Mailbox × Nat}
    (hf : ∀ a m busy, (f a m busy).1.failure = m.failure) (l : List (Nat × α)) (h : Hub) :
    NoNews h (onEach f l h) := by
  induction l generalizing h with
  | nil => exact .refl h
  | cons entry rest ih => exact (noNews_onMailbox h entry.1 (hf entry.2)).trans (ih _)

lemma noNews_dispatch (h : Hub) (batch : List Alert) : NoNews h (h.dispatch batch) := by
  rw [dispatch_eq]
  exact noNews_onEach (fun slice m busy => Mailbox.failure_deliver m slice busy) _ h

lemma noNews_close (h : Hub) : NoNews h h.close := by
  have hshut : NoNews h { h with closed := true } := ⟨fun _ _ ha => ha, fun _ _ he => he⟩
  rw [close_eq]
  exact hshut.trans (noNews_onEach (fun _ m busy => by rw [Mailbox.fst_close]) _ _)

lemma noNews_stop (h : Hub) : NoNews h h.stop := by
  have hasked : NoNews h { h with stopped := true } := ⟨fun _ _ ha => ha, fun _ _ he => he⟩
  exact hasked.trans (noNews_close _)

lemma noNews_poll (h : Hub) (sub : Nat) : NoNews h (h.poll sub).2 := by
  rw [poll_snd]
  exact noNews_onMailbox h sub fun m busy => (Mailbox.looked_poll m busy).failure

lemma noNews_cancel (h : Hub) (sub : Nat) : NoNews h (h.cancel sub) :=
  noNews_onMailbox h sub fun _ _ => rfl

lemma noNews_add (h : Hub) (r : Request) : NoNews h (h.add r).2 := by
  refine ⟨fun sub a ha => ?_, fun sub e he => ?_⟩
  · rw [answered?, add_eq, Table.get?_set] at ha
    split_ifs at ha
    · simp only [Option.bind_some, newcomer] at ha
      split at ha
      · rename_i hasked
        split at hasked
        · cases hasked
        · cases hasked
      · cases ha
    · exact ha
  · rw [failure?, mailbox?, add_eq, Table.get?_set] at he
    split_ifs at he
    · simp only [Option.map_some, Option.bind_some, newcomer] at he
      split_ifs at he
      cases he
    · exact he

lemma noNews_remove (h : Hub) (sub : Nat) : NoNews h (h.remove sub) := by
  refine ⟨fun j a ha => ?_, fun j e he => ?_⟩
  · rw [answered?, get?_remove] at ha
    split_ifs at ha
    · cases ha
    · exact ha
  · rw [failure?, mailbox?, get?_remove] at he
    split_ifs at he
    · cases he
    · exact he

lemma poll_failed (h : Hub) {sub : Nat} (hawake : h.isAwake sub = true) {e : DeliveryError}
    (hfailed : h.failure? sub = some e) : (h.poll sub).1 = some (.error e) := by
  rw [poll_fst]
  unfold isAwake at hawake
  rcases hs : h.subscriptions.get? sub with _ | s
  · simp [hs] at hawake
  · rw [hs] at hawake
    rw [failure?, mailbox?, hs] at hfailed
    exact Mailbox.poll_of_failure hfailed hawake h.busy

end Hub

namespace Services

variable {σ : Type}

/-! ### Who is left alone -/

/-- From `p` to `q` no mailbox has heard of a failure, and these readers and every waiter are left
alone. -/
structure Undisturbed (spared : Nat → Prop) (p q : Pipeline σ) : Prop where
  hub : p.hub.NoNews q.hub
  readers : ∀ j, spared j → q.readers.get? j = p.readers.get? j
  waiters : q.waiters = p.waiters

namespace Undisturbed

variable {spared : Nat → Prop} {id : Nat}

lemma refl (p : Pipeline σ) : Undisturbed spared p p := ⟨.refl _, fun _ _ => rfl, rfl⟩

lemma trans {p q r : Pipeline σ} (h : Undisturbed spared p q) (h' : Undisturbed spared q r) :
    Undisturbed spared p r :=
  ⟨h.hub.trans h'.hub, fun j hj => (h'.readers j hj).trans (h.readers j hj),
    h'.waiters.trans h.waiters⟩

lemma putReader (p : Pipeline σ) (r : Reader) : Undisturbed (· ≠ id) p (p.putReader id r) where
  hub := .refl _
  readers j hj := by rw [get?_putReader, if_neg hj]
  waiters := rfl

lemma pollSubscription (p : Pipeline σ) (sub : Nat) :
    Undisturbed spared p (p.pollSubscription sub).2 :=
  ⟨p.hub.noNews_poll sub, fun _ _ => rfl, rfl⟩

variable [Engine σ]

lemma subscribe (p : Pipeline σ) (r : Request) : Undisturbed spared p (p.subscribe r).2 := by
  rw [Pipeline.subscribe_snd, Pipeline.withDemand_eq]
  exact ⟨p.hub.noNews_add r, fun _ _ => rfl, rfl⟩

lemma unsubscribe (p : Pipeline σ) (sub : Nat) : Undisturbed spared p (p.unsubscribe sub) := by
  rcases hs : p.hub.subscriptions.get? sub with _ | s
  · rw [Pipeline.unsubscribe_none hs]
    exact .refl p
  · rw [Pipeline.unsubscribe_some hs, Pipeline.withDemand_eq]
    exact ⟨p.hub.noNews_remove sub, fun _ _ => rfl, rfl⟩

lemma moveClaims (p : Pipeline σ) (window : Nat) (old new : OrderedSet Piece) :
    Undisturbed spared p (p.moveClaims window old new).2 := by
  rcases hw : p.windows.windows.get? window with _ | w
  · rw [moveClaims_none hw]
    exact .refl p
  · rw [moveClaims_some hw]
    exact ⟨.refl _, fun _ _ => rfl, rfl⟩

lemma endReader (p : Pipeline σ) : Undisturbed (· ≠ id) p (p.endReader id) := by
  unfold Pipeline.endReader
  rcases p.readers.get? id with _ | r
  · exact .refl p
  · dsimp only
    have hput : Undisturbed (· ≠ id) p (p.putReader id r.ended) := putReader p r.ended
    split_ifs
    · refine hput.trans ?_
      unfold Pipeline.discardClaims
      split <;> exact ⟨.refl _, fun _ _ => rfl, rfl⟩
    · exact hput
    · exact hput.trans (moveClaims _ _ _ _)

lemma failReader (p : Pipeline σ) (e : PieceError) :
    Undisturbed (· ≠ id) p (p.failReader id e).2 := by
  rcases hr : p.readers.get? id with _ | r
  · simp only [Pipeline.failReader, hr]
    exact endReader p
  · rw [failReader_snd hr]
    exact (putReader p _).trans (endReader _)

lemma slideReader (p : Pipeline σ) (r : Reader) (pieces : OrderedSet Piece) :
    Undisturbed (· ≠ id) p (p.slideReader id r pieces).2 := by
  unfold Pipeline.slideReader
  split_ifs
  · exact .refl p
  · exact (putReader p _).trans (moveClaims _ _ _ _)

lemma reading {p q : Pipeline σ} {answer : Polled (Except PieceError PieceData)}
    (h : Reading id p answer q) :
    Undisturbed (· ≠ id) p q := by
  induction h with
  | served => exact putReader _ _
  | soured => exact (putReader _ _).trans (failReader _ _)
  | waited => exact pollSubscription _ _
  | failed => exact (pollSubscription _ _).trans (failReader _ _)
  | ousted => exact (pollSubscription _ _).trans (failReader _ _)
  | took _ _ _ _ _ ih => exact ((pollSubscription _ _).trans (putReader _ _)).trans ih

lemma pollReader (p : Pipeline σ) (id : Nat) : Undisturbed (· ≠ id) p (p.pollReader id).2 := by
  rcases hr : p.readers.get? id with _ | r
  · simp only [Pipeline.pollReader, hr]
    exact .refl p
  have hpolls := polls_pollReader hr
  generalize (p.pollReader id).2 = q at hpolls ⊢
  generalize (p.pollReader id).1 = answer at hpolls
  cases hpolls with
  | past | overflow => exact .refl p
  | ended => exact endReader p
  | refused => exact failReader p _
  | slipped => exact (slideReader p r _).trans (failReader _ _)
  | went _ _ _ _ _ h => exact (slideReader p r _).trans (reading h)

lemma stopJanitor (p : Pipeline σ) : Undisturbed spared p p.stopJanitor := by
  unfold Pipeline.stopJanitor
  rcases p.janitor with _ | sub
  · exact .refl p
  · have hgone : Undisturbed spared p { p with janitor := none } := ⟨.refl _, fun _ _ => rfl, rfl⟩
    exact hgone.trans (unsubscribe _ sub)

lemma janitorStep {p q : Pipeline σ} (h : p.janitorStep = some q) : Undisturbed spared p q := by
  obtain ⟨sub, -, hswept⟩ := swept_janitorStep h
  cases hswept with
  | looked => exact pollSubscription p sub
  | forgot => exact (pollSubscription p sub).trans ⟨.refl _, fun _ _ => rfl, rfl⟩
  | quit notices =>
    have htold :
        Undisturbed spared (p.pollSubscription sub).2 ((p.pollSubscription sub).2.tell notices) :=
      ⟨.refl _, fun _ _ => rfl, rfl⟩
    exact ((pollSubscription p sub).trans htold).trans (stopJanitor _)

lemma pumpStep {p q : Pipeline σ} {k : Nat} (h : p.pumpStep k = some q) :
    Undisturbed spared p q := by
  unfold Pipeline.pumpStep at h
  rcases hk : p.pumps[k]? with _ | ⟨source, phase⟩ <;> simp only [hk] at h
  · cases h
  cases phase with
  | idling =>
    dsimp only at h
    split_ifs at h <;> cases h
    · exact ⟨p.hub.noNews_close, fun _ _ => rfl, rfl⟩
    · exact ⟨.refl _, fun _ _ => rfl, rfl⟩
  | draining =>
    dsimp only at h
    split_ifs at h
    · cases h
      exact ⟨p.hub.noNews_close, fun _ _ => rfl, rfl⟩
    rcases hpoll : source.poll p.engine with ⟨_ | _ | batch, source', engine⟩ <;>
      simp only [hpoll] at h
    · split_ifs at h
      cases h
      exact ⟨.refl _, fun _ _ => rfl, rfl⟩
    · cases h
      exact ⟨p.hub.noNews_close, fun _ _ => rfl, rfl⟩
    · cases h
      exact ⟨.refl _, fun _ _ => rfl, rfl⟩
  | holding batch =>
    cases h
    exact ⟨p.hub.noNews_dispatch batch, fun _ _ => rfl, rfl⟩
  | leaving =>
    dsimp only at h
    split_ifs at h
    cases h
    exact ⟨.refl _, fun _ _ => rfl, rfl⟩
  | ended => cases h

lemma read (p : Pipeline σ) (handle : Handle) (pieces : List Piece) :
    Undisturbed (· ≠ p.nextScope) p (p.read handle pieces).2 ∧
      ∃ r, (p.read handle pieces).2.readers.get? p.nextScope = some r ∧ r.ready = {} := by
  have hnext : (((p.shareWindow handle).2).subscribe (Pipeline.readRequest handle)).2.nextScope =
      p.nextScope := by
    rw [Pipeline.subscribe_snd, Pipeline.withDemand_eq]
    rfl
  have hshared : Undisturbed (· ≠ p.nextScope) p (p.shareWindow handle).2 :=
    ⟨.refl _, fun _ _ => rfl, rfl⟩
  have hsubscribed := hshared.trans (subscribe _ (Pipeline.readRequest handle))
  unfold Pipeline.read
  dsimp only
  rw [hnext]
  refine ⟨hsubscribed.trans ⟨.refl _, fun j hj => ?_, rfl⟩, _, get?_putReader_self _ _ _, rfl⟩
  rw [get?_putReader, if_neg hj]

lemma dropReader (p : Pipeline σ) (id : Nat) : Undisturbed (· ≠ id) p (p.dropReader id) := by
  unfold Pipeline.dropReader
  rcases p.readers.get? id with _ | r
  · exact .refl p
  · refine (endReader p).trans (.trans ?_ (unsubscribe _ _))
    refine ⟨.refl _, fun j hj => ?_, rfl⟩
    dsimp only
    rw [Table.get?_erase, if_neg hj]

end Undisturbed

lemma get?_dropReader [Engine σ] (p : Pipeline σ) (id : Nat) :
    (p.dropReader id).readers.get? id = none := by
  unfold Pipeline.dropReader
  rcases hr : p.readers.get? id with _ | r
  · exact hr
  · have hgone : Undisturbed (fun _ => True)
        { p.endReader id with readers := (p.endReader id).readers.erase id } _ :=
      .unsubscribe _ r.subscription
    refine (hgone.readers id trivial).trans ?_
    dsimp only
    rw [Table.get?_erase, if_pos rfl]

/-! ### How a call of a reader fails -/

open DeadlineCall

variable [Engine σ] {id : Nat} {p : Pipeline σ} {r : Reader}

lemma failure_slideReader {pieces : OrderedSet Piece} {e : PieceError}
    (h : (p.slideReader id r pieces).1 = some e) :
    ∃ w calls err, p.windows.windows.get? r.window = some w ∧
      w.Asks r.current pieces calls ∧ firstError (askAll calls p.engine).1 = some err ∧
      e = .ofEngine err := by
  unfold Pipeline.slideReader at h
  split_ifs at h with hsame
  rcases hw : p.windows.windows.get? r.window with _ | w
  · rw [moveClaims_none (p := p.putReader id (r.slide pieces)) hw] at h
    cases h
  · rw [moveClaims_some (p := p.putReader id (r.slide pieces)) hw] at h
    obtain ⟨calls, hcalls, hfailure⟩ := w.failure_delta r.current pieces p.engine
    obtain ⟨err, herr, rfl⟩ := Option.map_eq_some_iff.mp (hfailure.symm.trans h)
    exact ⟨w, calls, err, rfl, hcalls, herr, rfl⟩

/-- Every way that a call of a reader can fail. -/
inductive Fails (id : Nat) (p : Pipeline σ) (r : Reader) : PieceError → Prop
  | negative {x : Piece} (hx : x ∈ r.pieces) (hn : x.position? = none) :
      Fails id p r (.outOfRange x)
  | slid {w : Window} {pieces : OrderedSet Piece} {calls : List DeadlineCall} {e : EngineError}
      (hw : p.windows.windows.get? r.window = some w) (hu : r.upcoming? = some pieces)
      (hcalls : w.Asks r.current pieces calls)
      (he : firstError (askAll calls p.engine).1 = some e) :
    Fails id p r (.ofEngine e)
  | kept {x : Piece} {e : EngineError} (hx : r.pieces[r.cursor]? = some x)
      (he : r.ready.get? x = some (.error e)) : Fails id p r (.ofEngine e)
  | told {x : Piece} {a : Alert} {e : EngineError} (hx : r.pieces[r.cursor]? = some x)
      (ha : a ∈ consumed id p) (hs : a.says? x = some (.error e)) : Fails id p r (.ofEngine e)
  | removed {handle : Handle} {name : String} (ha : .torrentRemoved handle name ∈ consumed id p) :
    Fails id p r .handleInvalid
  | ended {e : DeliveryError} (he : p.hub.Ends r.subscription e) : Fails id p r (.ofDelivery e)

lemma Fails.classified {e : PieceError} (h : Fails id p r e) : e.Classified := by
  cases h with
  | negative | removed => trivial
  | slid | kept | told => exact PieceError.classified_ofEngine _
  | ended => exact PieceError.classified_ofDelivery _

/-- **A call of a reader fails in one of these ways.** -/
theorem fails_pollReader (hr : p.readers.get? id = some r) {e : PieceError}
    (h : (p.pollReader id).1 = .item (.error e)) : Fails id p r e := by
  have hpolls := polls_pollReader hr
  have hcall := @fares_call _ _ id p r hr
  generalize (p.pollReader id).2 = q at hpolls hcall
  rw [h] at hpolls hcall
  generalize hanswer : Polled.item (Except.error e : Except PieceError PieceData) = answer at hpolls
  cases hpolls with
  | past | ended | overflow => cases hanswer
  | refused _ _ hu hn =>
    cases hanswer
    refine .negative ?_ (by simpa using List.find?_some hn)
    have hmem := OrderedSet.mem_def.mpr (List.mem_of_find?_eq_some hn)
    rw [Reader.upcoming?_eq hu, OrderedSet.mem_ofList] at hmem
    exact List.mem_of_mem_drop (List.mem_of_mem_take hmem)
  | slipped _ _ hu _ hm =>
    cases hanswer
    obtain ⟨w, calls, err, hw, hcalls, herr, rfl⟩ := failure_slideReader hm
    exact .slid hw hu hcalls herr
  | @went hf hc pieces hu hn hm _ _ _ =>
    obtain ⟨r', -, hfares⟩ := hcall ⟨hf, hc, hu, hn, hm⟩
    have hkin := r.kin_wanting pieces
    generalize hheard : consumed id p = heard at hfares
    generalize hanswer' : Polled.item (Except.error e : Except PieceError PieceData) =
      answer' at hfares
    cases hfares with
    | served | waited => cases hanswer'
    | soured hh hs =>
      cases hanswer'
      obtain ⟨-, x, err, hx, herr, rfl⟩ := Reader.serve_error hs
      have hback := Reader.hear_back hh herr
      obtain ⟨ready, rfl, -⟩ := Reader.hear_ok hh
      have hx : r.pieces[r.cursor]? = some x := by
        rw [← hkin.pieces, ← r.cursor_wanting pieces]
        exact hx
      -- the failure was said by an earlier alert, or by one of this call
      rcases hback with hbefore | ⟨a, ha, hsays⟩
      · exact .kept hx (Reader.wanting_back hbefore)
      · exact .told hx (hheard ▸ ha) hsays
    | failed _ _ he =>
      cases hanswer'
      exact .ended he
    | ousted _ _ ht =>
      cases hanswer'
      obtain ⟨rfl, handle, name, rfl⟩ := Reader.take_error ht
      have hmem : Alert.torrentRemoved handle name ∈ consumed id p := by
        rw [hheard]
        simp
      exact .removed hmem

/-- What a reader has after a call it had before, or has consumed. -/
theorem ready_back (hr : p.readers.get? id = some r) {r' : Reader}
    (hr' : (p.pollReader id).2.readers.get? id = some r') {x : Piece}
    {w : Except EngineError Payload} (hw : r'.ready.get? x = some w) :
    r.ready.get? x = some w ∨ ∃ a ∈ consumed id p, a.says? x = some w := by
  obtain ⟨rfl, -⟩ | ⟨-, hempty⟩ | ⟨pieces, hgo⟩ := call_cases hr hr'
  · exact .inl hw
  · rw [hempty] at hw
    cases hw
  obtain ⟨r₂, hr₂, hfares⟩ := fares_call hr hgo
  obtain rfl := Option.some.inj (hr₂.symm.trans hr')
  generalize consumed id p = heard at hfares ⊢
  generalize (p.pollReader id).1 = answer at hfares
  cases hfares with
  | served hh hs =>
    obtain ⟨rfl, -, -⟩ := Reader.serve_ok hs
    exact (Reader.hear_back hh hw).imp_left Reader.wanting_back
  | waited hh => exact (Reader.hear_back hh hw).imp_left Reader.wanting_back
  | soured _ _ _ hempty | failed _ _ _ _ hempty | ousted _ _ _ _ hempty =>
    rw [hempty] at hw
    cases hw

/-! ### What a call cannot pass over -/

/-- A window that cannot be slid fails the call. -/
theorem surfaces_slid (hr : p.readers.get? id = some r) (hlive : r.finished = false)
    (hwithin : r.cursor < r.pieces.length) {pieces : OrderedSet Piece}
    (hu : r.upcoming? = some pieces) (hn : Reader.negative? pieces = none) {e : PieceError}
    (hslid : (p.slideReader id r pieces).1 = some e) :
    (p.pollReader id).1 = .item (.error e) := by
  rcases hm : p.slideReader id r pieces with ⟨failure, p'⟩
  obtain rfl : failure = some e := (congrArg Prod.fst hm).symm.trans hslid
  simp only [Pipeline.pollReader, hr, hlive, Bool.false_eq_true, if_false, Nat.not_le.mpr hwithin,
    hu, hn, hm]
  rfl

/-- An error that was said last of the piece at the cursor fails the call. -/
theorem surfaces_told (hr : p.readers.get? id = some r) {pieces : OrderedSet Piece}
    (hgo : GoesOn id p r pieces) {x : Piece} (hx : r.pieces[r.cursor]? = some x)
    (hwanted : x ∈ pieces) {e : EngineError}
    (hsaid : lastSaid x (r.ready.get? x) (consumed id p) = some (.error e)) :
    (p.pollReader id).1 = .item (.error (.ofEngine e)) := by
  obtain ⟨r', -, hfares⟩ := fares_call hr hgo
  have hkin := r.kin_wanting pieces
  -- whatever is served is what was said last, and something is
  have hserve : ∀ {heard : List Alert} {r₁ : Reader}, (r.wanting pieces).hear heard = .ok r₁ →
      lastSaid x (r.ready.get? x) heard = some (.error e) →
      r₁.serve? = some (.error (.ofEngine e), { r₁ with cursor := r₁.cursor + 1 }) :=
      fun hh hlast => by
    obtain ⟨ready, rfl, hready⟩ := Reader.hear_ok hh
    refine Reader.serve_of_known (x := x) (w := .error e) ?_ ?_
    · rw [← hx, ← hkin.pieces, ← r.cursor_wanting pieces]
    · rw [hready x (by simpa using hwanted), r.get?_wanting hwanted, hlast]
  generalize consumed id p = heard at hfares hsaid
  generalize (p.pollReader id).1 = answer at hfares ⊢
  cases hfares with
  | soured hh hs =>
    rw [hserve hh hsaid] at hs
    cases hs
    rfl
  | served hh hs | waited hh hs | failed hh hs =>
    rw [hserve hh hsaid] at hs
    cases hs
  | ousted hh hs ht =>
    obtain ⟨-, handle, name, rfl⟩ := Reader.take_error ht
    rw [lastSaid_append] at hsaid
    rw [hserve hh hsaid] at hs
    cases hs

/-- A mailbox that has failed fails the call, if nothing is known of the piece at the cursor. -/
theorem surfaces_ended (hr : p.readers.get? id = some r) {pieces : OrderedSet Piece}
    (hgo : GoesOn id p r pieces) {x : Piece} (hx : r.pieces[r.cursor]? = some x)
    (hnothing : r.ready.get? x = none) (hawake : p.hub.isAwake r.subscription = true)
    {e : DeliveryError} (hfailed : p.hub.failure? r.subscription = some e) :
    (p.pollReader id).1 = .item (.error (.ofDelivery e)) := by
  have hkin := r.kin_wanting pieces
  have hserve : (r.wanting pieces).serve? = none := by
    have hnone : (r.wanting pieces).ready.get? x = none := by
      by_contra hne
      obtain ⟨w, hw⟩ := Option.ne_none_iff_exists'.mp hne
      rw [Reader.wanting_back hw] at hnothing
      cases hnothing
    simp only [Reader.serve?, hkin.pieces, r.cursor_wanting, hx, hnone]
  have hslid := get?_slid hr pieces
  have hhub := hub_slideReader p id r pieces
  rw [hgo.pollReader hr]
  generalize (p.slideReader id r pieces).2 = q at hslid hhub ⊢
  have hpoll : (q.pollSubscription r.subscription).1 = some (.error e) := by
    rw [Pipeline.pollSubscription_fst, hhub]
    exact p.hub.poll_failed hawake hfailed
  simp only [Pipeline.readOn, Pipeline.readOnce, hslid, hserve, hkin.subscription]
  rcases hq : q.pollSubscription r.subscription with ⟨found, q'⟩
  obtain rfl : found = some (.error e) := (congrArg Prod.fst hq).symm.trans hpoll
  rfl

end Services

end TorrentFlow
