import Mathlib.Tactic.Lemma
import Mathlib.Tactic.SplitIfs
import TorrentFlow.Delivery.Source
import TorrentFlow.Engine.Simulated

/-!
The calls on the simulated engine, one by one: what each tells in alerts, how its alerts come into
the queue, and that no call but the taking of a batch takes anything out of it.
-/

namespace TorrentFlow

namespace Simulated

def piece? (s : Simulated) (h : Handle) (p : Piece) : Option (SimulatedTorrent × Nat) :=
  (s.torrent? h).bind fun t => (t.position? p).map fun i => (t, i)

lemma piece?_eq_some {s : Simulated} {h : Handle} {p : Piece} {t : SimulatedTorrent} {i : Nat} :
    s.piece? h p = some (t, i) ↔ s.torrent? h = some t ∧ t.position? p = some i := by
  unfold piece?
  constructor
  · intro hp
    obtain ⟨t', ht, hi⟩ := Option.bind_eq_some_iff.mp hp
    obtain ⟨i', hi', heq⟩ := Option.map_eq_some_iff.mp hi
    obtain ⟨rfl, rfl⟩ := Prod.mk.inj heq
    exact ⟨ht, hi'⟩
  · rintro ⟨ht, hi⟩
    rw [ht, Option.bind_some, hi, Option.map_some]

lemma withTorrent_some {α : Type} {act : SimulatedTorrent → Call Simulated α} {s : Simulated}
    {h : Handle} {t : SimulatedTorrent} (ht : s.torrent? h = some t) :
    withTorrent h act s = act t s := by
  simp only [withTorrent, ht]

lemma withTorrent_none {α : Type} {act : SimulatedTorrent → Call Simulated α} {s : Simulated}
    {h : Handle} (ht : s.torrent? h = none) :
    withTorrent h act s = (.error .invalidHandle, s) := by
  simp only [withTorrent, ht]

lemma withPiece_some {α : Type} {act : SimulatedTorrent → Nat → Call Simulated α} {s : Simulated}
    {h : Handle} {p : Piece} {t : SimulatedTorrent} {i : Nat} (ht : s.piece? h p = some (t, i)) :
    withPiece h p act s = act t i s := by
  obtain ⟨ht, hi⟩ := piece?_eq_some.mp ht
  simp only [withPiece, withTorrent, ht, hi]

lemma withPiece_none {α : Type} {act : SimulatedTorrent → Nat → Call Simulated α} {s : Simulated}
    {h : Handle} {p : Piece} (ht : s.piece? h p = none) : (withPiece h p act s).2 = s := by
  unfold withPiece withTorrent
  rcases htor : s.torrent? h with _ | t
  · rfl
  · rcases hpos : t.position? p with _ | i
    · simp only [hpos]
    · simp [piece?, htor, hpos] at ht

lemma fst_status (h : Handle) (withPieces : Bool) (s : Simulated) : (status h withPieces s).1 =
    match s.torrent? h with
    | some t => .ok ⟨t.state, if withPieces && t.state.piecesKnown then t.available else []⟩
    | none => .error .invalidHandle := by
  have htorrent : ({ s with statusQueries := s.statusQueries + 1 } : Simulated).torrent? h =
      s.torrent? h := rfl
  simp only [status, withTorrent, htorrent]
  rcases s.torrent? h with _ | t <;> rfl

lemma snd_status (h : Handle) (withPieces : Bool) (s : Simulated) :
    (status h withPieces s).2 = { s with statusQueries := s.statusQueries + 1 } := by
  unfold status withTorrent
  split <;> rfl

/-! ### Emitting -/

@[simp] lemma queue_ring (s : Simulated) : s.ring.queue = s.queue := by
  unfold ring
  rcases s.watcher with _ | n <;> rfl

@[simp] lemma mask_ring (s : Simulated) : s.ring.mask = s.mask := by
  unfold ring
  rcases s.watcher with _ | n <;> rfl

@[simp] lemma slots_ring (s : Simulated) : s.ring.slots = s.slots := by
  unfold ring
  rcases s.watcher with _ | n <;> rfl

/-- **What the mask lets through is queued behind what was there.** -/
@[simp] lemma queue_emit (alerts : List Alert) (s : Simulated) :
    (emit alerts s).queue = s.queue ++ alerts.filter s.accepts := by
  simp only [emit]
  split_ifs <;> simp

@[simp] lemma mask_emit (alerts : List Alert) (s : Simulated) : (emit alerts s).mask = s.mask := by
  simp only [emit]
  split_ifs <;> simp

@[simp] lemma slots_emit (alerts : List Alert) (s : Simulated) :
    (emit alerts s).slots = s.slots := by
  simp only [emit]
  split_ifs <;> simp

lemma accepts_congr {s s' : Simulated} (h : s'.mask = s.mask) : s'.accepts = s.accepts := by
  funext a
  simp only [accepts, h]

end Simulated

/-! ### Calls -/

/-- A call on the simulated engine that neither takes its queue nor sets its mask. -/
inductive EngineCall where
  | add (name : String) (payloads : List Payload) (state : TorrentState)
  | finishChecking (handle : Handle)
  | remove (handle : Handle)
  | feed (handle : Handle) (piece : Piece)
  | fail (handle : Handle) (piece : Piece) (error : EngineError)
  | log (text : String)
  | setDeadline (handle : Handle) (piece : Piece) (deadline : Duration) (alert : Bool)
  | resetDeadline (handle : Handle) (piece : Piece)
  | status (handle : Handle) (withPieces : Bool)
  | isTracked (handle : Handle)

namespace EngineCall

open Simulated

def apply (s : Simulated) : EngineCall → Simulated
  | add name payloads state => (insertTorrent name payloads state s).2
  | finishChecking h => (Simulated.finishChecking h s).2
  | remove h => (removeTorrent h s).2
  | feed h p => (Simulated.feed h p s).2
  | fail h p e => (failPiece h p e s).2
  | log text => postLog text s
  | setDeadline h p deadline alert => (Simulated.setDeadline h p deadline alert s).2
  | resetDeadline h p => (Simulated.resetDeadline h p s).2
  | status h withPieces => (Simulated.status h withPieces s).2
  | isTracked h => (Simulated.isTracked h s).2

def generated (s : Simulated) : EngineCall → List Alert
  | add name payloads state =>
    let h := (insertTorrent name payloads state s).1
    [.addTorrent (some h) name none, .torrentAdded h name]
  | finishChecking h =>
    match s.torrent? h with
    | some t => [.stateChanged h t.name t.state .downloading, .torrentChecked h t.name]
    | none => []
  | remove h =>
    match s.torrent? h with
    | some t => [.torrentRemoved h t.name]
    | none => []
  | feed h p =>
    match s.piece? h p with
    | some (t, i) => feedAlerts h t p i
    | none => []
  | fail h p e =>
    match s.piece? h p with
    | some (t, _) => [.readPiece h t.name p [] (some e)]
    | none => []
  | log text => [.log text]
  | setDeadline h p _ alert =>
    match s.piece? h p with
    | some (t, i) =>
      if alert && t.isAvailable i then [.readPiece h t.name p (t.payload i) none] else []
    | none => []
  | resetDeadline _ _ => []
  | status _ _ => []
  | isTracked _ => []

/-- The alerts of a call that the engine accepts into its queue. -/
def accepted (s : Simulated) (c : EngineCall) : List Alert := (c.generated s).filter s.accepts

lemma queue_mask_apply (s : Simulated) (c : EngineCall) :
    (c.apply s).queue = s.queue ++ c.accepted s ∧ (c.apply s).mask = s.mask := by
  -- whatever else a call changes, it ends by putting its alerts on the queue
  have hemit : ∀ (alerts : List Alert) (s' : Simulated), s'.queue = s.queue → s'.mask = s.mask →
      (emit alerts s').queue = s.queue ++ alerts.filter s.accepts ∧
        (emit alerts s').mask = s.mask := fun alerts s' hq hm => by
    rw [queue_emit, mask_emit, hq, accepts_congr hm]
    exact ⟨rfl, hm⟩
  cases c with
  | add name payloads state => exact hemit _ _ rfl rfl
  | finishChecking h =>
    rcases ht : s.torrent? h with _ | t
    · simp [apply, Simulated.finishChecking, withTorrent_none ht, accepted, generated, ht]
    · simp only [apply, Simulated.finishChecking, withTorrent_some ht, accepted, generated, ht]
      exact hemit _ _ rfl rfl
  | remove h =>
    rcases ht : s.torrent? h with _ | t
    · simp [apply, removeTorrent, withTorrent_none ht, accepted, generated, ht]
    · simp only [apply, removeTorrent, withTorrent_some ht, accepted, generated, ht]
      exact hemit _ _ rfl rfl
  | feed h p =>
    rcases ht : s.piece? h p with _ | ⟨t, i⟩
    · simp [apply, Simulated.feed, withPiece_none ht, accepted, generated, ht]
    · simp only [apply, Simulated.feed, withPiece_some ht, accepted, generated, ht]
      exact hemit _ _ rfl rfl
  | fail h p e =>
    rcases ht : s.piece? h p with _ | ⟨t, i⟩
    · simp [apply, failPiece, withPiece_none ht, accepted, generated, ht]
    · simp only [apply, failPiece, withPiece_some ht, accepted, generated, ht]
      exact hemit _ _ rfl rfl
  | log text => exact hemit _ _ rfl rfl
  | setDeadline h p deadline alert =>
    rcases ht : s.piece? h p with _ | ⟨t, i⟩
    · simp [apply, Simulated.setDeadline, withPiece_none ht, accepted, generated, ht]
    · simp only [apply, Simulated.setDeadline, withPiece_some ht, accepted, generated, ht]
      -- bytes are put on the queue only if they are asked for and there
      by_cases ha : alert = true <;> by_cases hi : t.isAvailable i = true
      · simp only [ha, hi, Bool.not_true, Bool.false_eq_true, if_false, if_true, Bool.and_self]
        exact hemit _ _ rfl rfl
      all_goals simp [ha, hi, putTorrent]
  | resetDeadline h p =>
    rcases ht : s.piece? h p with _ | ⟨t, i⟩
    · simp [apply, Simulated.resetDeadline, withPiece_none ht, accepted, generated]
    · simp [apply, Simulated.resetDeadline, withPiece_some ht, accepted, generated, putTorrent]
  | status h withPieces => simp [apply, snd_status, accepted, generated]
  | isTracked h => simp [apply, Simulated.isTracked, accepted, generated]

/-- **A call appends to the queue what it generates and the mask lets through.** -/
theorem queue_apply (s : Simulated) (c : EngineCall) :
    (c.apply s).queue = s.queue ++ c.accepted s := (queue_mask_apply s c).1

@[simp] theorem mask_apply (s : Simulated) (c : EngineCall) : (c.apply s).mask = s.mask :=
  (queue_mask_apply s c).2

end EngineCall

/-! ### What a source does to the engine -/

/-- Nothing changed but what the engine knows of callbacks. -/
structure Simulated.Undisturbed (s s' : Simulated) : Prop where
  slots : s'.slots = s.slots
  queue : s'.queue = s.queue
  mask : s'.mask = s.mask

namespace Source

open Simulated

lemma undisturbed_watch (s : Simulated) : Undisturbed s (watch s).2 := by
  unfold watch
  by_cases hn : s.notifySupported = true
  · by_cases hq : s.queue.isEmpty = true <;> simp only [hn, hq, if_true] <;> constructor <;> simp
  · simp only [hn]
    exact ⟨rfl, rfl, rfl⟩

lemma undisturbed_unwatch (s : Simulated) : Undisturbed s (unwatch s).2 := by
  unfold unwatch
  split_ifs <;> exact ⟨rfl, rfl, rfl⟩

lemma snd_hasAlerts (s : Simulated) : (hasAlerts s).2 = s := by
  unfold hasAlerts
  split_ifs <;> rfl

lemma undisturbed_register (s : Simulated) : Undisturbed s (register s).2 := by
  have hw := undisturbed_watch s
  have heq : (Engine.watch s : Except EngineError Nat × Simulated) = watch s := rfl
  unfold register
  rw [heq]
  rcases hwatch : watch s with ⟨_ | n, s'⟩ <;> rw [hwatch] at hw <;> exact hw

lemma snd_startThread (s : Simulated) : (startThread s).2 = s := by
  have hs := snd_hasAlerts s
  have heq : (Engine.hasAlerts s : Except EngineError Bool × Simulated) = hasAlerts s := rfl
  unfold startThread
  rw [heq]
  rcases hhas : hasAlerts s with ⟨_ | b, s'⟩ <;> rw [hhas] at hs <;> exact hs

/-- To open a source takes nothing out of the engine. -/
lemma undisturbed_open (mode : SourceMode) (s : Simulated) :
    Undisturbed s (Source.open mode s).2 := by
  have hr := undisturbed_register s
  cases mode with
  | thread =>
    show Undisturbed s (startThread s).2
    rw [snd_startThread]
    exact ⟨rfl, rfl, rfl⟩
  | notify =>
    unfold Source.open
    rcases hreg : register s with ⟨_ | _ | source, s'⟩ <;> rw [hreg] at hr <;> exact hr
  | auto =>
    unfold Source.open
    rcases hreg : register s with ⟨_ | _ | source, s'⟩ <;> rw [hreg] at hr
    · exact hr
    · show Undisturbed s (startThread s').2
      rw [snd_startThread]
      exact hr
    · exact hr

lemma undisturbed_stop (source : Source) (s : Simulated) : Undisturbed s (source.stop s).2 := by
  unfold stop
  by_cases hc : source.closed = true
  · simp only [hc, if_true]
    exact ⟨rfl, rfl, rfl⟩
  · simp only [hc]
    rcases source.readiness with _ | w
    · exact undisturbed_unwatch s
    · exact ⟨rfl, rfl, rfl⟩

/-- The batch that an answer hands over. -/
def batchOf : Option (Except DeliveryError (List Alert)) → List Alert
  | some (.ok batch) => batch
  | _ => []

/-- **What a source takes out of the queue is what it hands over.** -/
theorem poll_spec (source : Source) (s : Simulated) :
    batchOf (source.poll s).1 ++ (source.poll s).2.2.queue = s.queue ∧
      (source.poll s).2.2.mask = s.mask ∧ (source.poll s).2.2.slots = s.slots := by
  unfold poll
  by_cases hc : source.closed = true
  · simp [hc, batchOf]
  · simp only [hc]
    rcases source.signalled? s with _ | source'
    · by_cases hd : source.isDead = true <;> simp [hd, batchOf]
    · have heq : (Engine.takeAlerts s : Except EngineError (List Alert) × Simulated) =
          (.ok s.queue, { s with queue := [] }) := rfl
      simp only [heq]
      rcases hq : s.queue with _ | ⟨a, rest⟩ <;> simp [batchOf]

lemma worker_step {w w' : Worker} {s s' : Simulated} {ns : List Notice}
    (h : w.step s = some (w', s', ns)) : s' = s := by
  have hs := snd_hasAlerts s
  have heq : (Engine.hasAlerts s : Except EngineError Bool × Simulated) = hasAlerts s := rfl
  unfold Worker.step at h
  rw [heq] at h
  rcases hphase : w.phase with _ | _ | _ | _ | _ <;> simp only [hphase] at h
  · rcases hha : hasAlerts s with ⟨_ | _ | _, s₀⟩ <;> rw [hha] at h hs <;> cases h <;> exact hs
  · split_ifs at h <;> cases h <;> rfl
  · split_ifs at h <;> cases h <;> rfl
  · split_ifs at h <;> cases h <;> rfl
  · cases h

lemma workerTurn_engine {source source' : Source} {s s' : Simulated} {ns : List Notice}
    (h : source.workerTurn s = some (source', s', ns)) : s' = s := by
  unfold workerTurn at h
  rcases hr : source.readiness with _ | w
  · simp [hr] at h
  · simp only [hr, Option.map_eq_some_iff] at h
    obtain ⟨⟨w', s₁, ms⟩, hturn, heq⟩ := h
    obtain ⟨-, rfl, -⟩ : _ ∧ s₁ = s' ∧ _ := by simpa using heq
    unfold Worker.turn at hturn
    rcases hstep : w.step s with _ | ⟨w₁, s₂, ns₁⟩
    · simp [hstep] at hturn
    · have h₁ := worker_step hstep
      simp only [hstep] at hturn
      by_cases hp : w₁.phase = .foundNothing
      · simp only [hp, if_true] at hturn
        rcases hstep₂ : w₁.step s₂ with _ | ⟨w₂, s₃, ns₂⟩
        · simp only [hstep₂, Option.some.injEq, Prod.mk.injEq] at hturn
          rw [← hturn.2.1, h₁]
        · have h₂ := worker_step hstep₂
          simp only [hstep₂] at hturn
          split_ifs at hturn
          simp only [Option.some.injEq, Prod.mk.injEq] at hturn
          rw [← hturn.2.1, h₂, h₁]
      · simp only [hp, if_false, Option.some.injEq, Prod.mk.injEq] at hturn
        rw [← hturn.2.1, h₁]

end Source

end TorrentFlow
