import TorrentFlow.Proofs.Histories
import TorrentFlow.Proofs.Windows

/-!
Claimants that share a window. Each has its own set of pieces, of any shape, and moves it when it
likes, while pieces come in and fail. After every turn the window counts for each piece the
claimants that have it in their sets, the engine has a deadline on exactly the pieces of the torrent
that are counted, and those of them that are still to come are asked for.
-/

namespace TorrentFlow

open Simulated

/-- A window with the engine behind it, and what each claimant wants. -/
structure Sharing where
  window : Window
  engine : Simulated
  claims : Table Nat (OrderedSet Piece) := {}

namespace Sharing

def wants (x : Sharing) (claimant : Nat) : OrderedSet Piece := (x.claims.get? claimant).getD {}

def claimants (x : Sharing) (p : Piece) : Nat := x.claims.count fun pieces => pieces.contains p

/-- What can happen: a claimant moves from its pieces to others, or the engine gets on with a
torrent. -/
inductive Turn where
  | move (claimant : Nat) (pieces : List Piece)
  | feed (handle : Handle) (piece : Piece)
  | fail (handle : Handle) (piece : Piece) (error : EngineError)
  | finishChecking (handle : Handle)

/-- The sharing after a turn. What a move answers is for the claimant alone. -/
def step (x : Sharing) : Turn → Sharing
  | .move claimant pieces =>
    let change := x.window.delta (x.wants claimant) (.ofList pieces) x.engine
    { window := change.window
      engine := change.engine
      claims := x.claims.set claimant (.ofList pieces) }
  | .feed h p => { x with engine := (Simulated.feed h p x.engine).2 }
  | .fail h p e => { x with engine := (failPiece h p e x.engine).2 }
  | .finishChecking h => { x with engine := (Simulated.finishChecking h x.engine).2 }

def run (x : Sharing) (turns : List Turn) : Sharing := turns.foldl step x

end Sharing

namespace EngineCall

def isProgress : EngineCall → Bool
  | feed .. | fail .. | finishChecking .. => true
  | _ => false

lemma isAdd_of_isProgress {c : EngineCall} (hc : c.isProgress = true) : c.isAdd = false := by
  cases c <;> first | rfl | cases hc

lemma onTorrent_of_isProgress {c : EngineCall} (hc : c.isProgress = true) (t : SimulatedTorrent) :
    ∃ t', c.onTorrent t = some t' ∧ t'.payloads = t.payloads ∧ t'.deadlines = t.deadlines := by
  cases c with
  | feed _ p =>
    simp only [onTorrent]
    split <;> exact ⟨_, rfl, rfl, rfl⟩
  | fail => exact ⟨t, rfl, rfl, rfl⟩
  | finishChecking => exact ⟨_, rfl, rfl, rfl⟩
  | _ => cases hc

end EngineCall

/-! ### What is asked for -/

namespace SimulatedTorrent

/-- Every piece that is counted, and not there yet, is asked for. -/
def Asks (t : SimulatedTorrent) (count : Piece → Nat) : Prop :=
  ∀ p i, t.position? p = some i → t.isAvailable i = false → 0 < count p → p ∈ t.readRequests

lemma Asks.progress {t t' : SimulatedTorrent} {count : Piece → Nat} (h : t.Asks count)
    (hlen : t.available.length = t.payloads.length) {c : EngineCall} (hc : c.isProgress = true)
    (hon : c.onTorrent t = some t') : t'.Asks count := by
  cases c with
  | feed _ p =>
    simp only [EngineCall.onTorrent] at hon
    rcases hp : t.position? p with _ | i <;> simp only [hp, Option.some.injEq] at hon <;> subst hon
    · exact h
    · intro q j hq hav hcount
      by_cases hij : j = i
      · -- the piece that came in is there now
        have hlt : i < t.available.length := by
          rw [hlen]
          exact (position?_eq_some.mp hp).2
        simp [isAvailable, fed, hij, hlt] at hav
      · have hne : q ≠ p := by
          rintro rfl
          exact hij (Option.some.inj (hq.symm.trans hp))
        refine OrderedSet.mem_erase.mpr ⟨h q j hq ?_ hcount, hne⟩
        simpa only [isAvailable, fed, List.getElem?_set_ne (Ne.symm hij)] using hav
  | fail | finishChecking =>
    obtain rfl := Option.some.inj hon
    exact h
  | _ => cases hc

end SimulatedTorrent

namespace Window

/-- The window's torrent asks for what is counted. -/
def Armed (s : Simulated) (w : Window) : Prop :=
  ∀ t, s.torrent? w.handle = some t → t.Asks w.count

namespace Change

lemma armed_claim {c : Change Simulated} (h : Armed c.engine c.window) (p : Piece) :
    Armed (c.claim p).engine (c.claim p).window := by
  intro t' ht' q i hq hav hcount
  rw [window_claim, engine_claim, handle_raise] at ht'
  rw [window_claim, count_raise] at hcount
  obtain ⟨t, ht, ⟨hp, rfl⟩ | ⟨j, hp, rfl⟩⟩ := EngineCall.torrent_setDeadline ht'
  · have hne : q ≠ p := by
      rintro rfl
      rw [hp] at hq
      cases hq
    rw [if_neg hne] at hcount
    exact h _ ht q i hq hav hcount
  · by_cases hqp : q = p
    · subst hqp
      obtain rfl : j = i := Option.some.inj (hp.symm.trans hq)
      have hav : t.isAvailable j = false := hav
      simp [hav]
    · rw [if_neg hqp] at hcount
      have hmem := h t ht q i hq hav hcount
      dsimp only
      split_ifs
      · exact OrderedSet.mem_insert.mpr (.inr hmem)
      · exact hmem

lemma armed_yieldUp {c : Change Simulated} (h : Armed c.engine c.window) (p : Piece) :
    Armed (c.yieldUp p).engine (c.yieldUp p).window := by
  intro t' ht' q i hq hav hcount
  rw [window_yieldUp, handle_lower] at ht'
  rw [window_yieldUp, count_lower] at hcount
  have hpos : 0 < c.window.count q := by omega
  rcases engine_yieldUp c p with ⟨-, heng⟩ | ⟨hle, heng⟩ <;> rw [heng] at ht'
  · exact h t' ht' q i hq hav hpos
  · -- the wish for the piece is taken back, and nobody has it any more
    have hqp : q ≠ p := by
      rintro rfl
      rw [if_pos rfl] at hcount
      omega
    obtain ⟨t, ht, ⟨-, rfl⟩ | ⟨j, -, rfl⟩⟩ := EngineCall.torrent_resetDeadline ht'
    · exact h _ ht q i hq hav hpos
    · exact OrderedSet.mem_erase.mpr ⟨h t ht q i hq hav hpos, hqp⟩

end Change

/-- **What is counted stays asked for**, whatever fails. -/
theorem armed_delta {w : Window} {s : Simulated} (h : Armed s w) (old new : OrderedSet Piece) :
    Armed (w.delta old new s).engine (w.delta old new s).window :=
  delta_induction (P := fun c => Armed c.engine c.window) w old new s h
    (fun _ p _ _ hc => Change.armed_claim hc p) (fun _ p _ _ hc => Change.armed_yieldUp hc p)

lemma progress_kept {w : Window} {s : Simulated} (hsync : Synced s w) (harm : Armed s w)
    (hwhole : s.Whole) {c : EngineCall} (hc : c.isProgress = true) :
    Synced (c.apply s) w ∧ Armed (c.apply s) w := by
  have hback : ∀ t', (c.apply s).torrent? w.handle = some t' → s.torrent? w.handle = some t' ∨
      ∃ t, s.torrent? w.handle = some t ∧ c.onTorrent t = some t' := fun t' ht' => by
    rw [EngineCall.torrent?_apply (EngineCall.isAdd_of_isProgress hc)] at ht'
    split_ifs at ht'
    · exact .inr (Option.bind_eq_some_iff.mp ht')
    · exact .inl ht'
  constructor
  · intro t' ht' q
    rcases hback t' ht' with ht | ⟨t, ht, hon⟩
    · exact hsync t' ht q
    · obtain ⟨t'', hon', hpay, hdead⟩ := EngineCall.onTorrent_of_isProgress hc t
      obtain rfl := Option.some.inj (hon.symm.trans hon')
      rw [hdead, hasPiece_iff, hpay, ← hasPiece_iff]
      exact hsync t ht q
  · intro t' ht'
    rcases hback t' ht' with ht | ⟨t, ht, hon⟩
    · exact harm t' ht
    · exact (harm t ht).progress (hwhole _ t ht).2 hc hon

end Window

namespace Sharing

/-! ### Turns -/

/-- The window counts the claimants, and the engine of a torrent with these pieces does as is
counted. -/
structure Fair (payloads : List Payload) (x : Sharing) : Prop where
  sorted : x.claims.Sorted
  sets : ∀ claimant, (x.wants claimant).Sorted
  counted : ∀ p, x.window.count p = x.claimants p
  synced : Window.Synced x.engine x.window
  armed : Window.Armed x.engine x.window
  whole : x.engine.Whole
  tracked : ∃ t, x.engine.torrent? x.window.handle = some t ∧ t.payloads = payloads

variable {payloads : List Payload} {x : Sharing}

/-- **A move changes how many want a piece as it changes the count.** -/
lemma claimants_move (hs : x.claims.Sorted) (claimant : Nat) (pieces : OrderedSet Piece) (p : Piece)
    (hpos : p ∈ x.wants claimant → 0 < x.claimants p) :
    ((x.claims.set claimant pieces).count fun pieces => pieces.contains p) =
      x.claimants p + (if p ∈ pieces ∧ p ∉ x.wants claimant then 1 else 0) -
        if p ∈ x.wants claimant ∧ p ∉ pieces then 1 else 0 := by
  have hset := Table.count_set hs (fun pieces => pieces.contains p) claimant pieces
  have hweight : Table.weight (fun pieces : OrderedSet Piece => pieces.contains p)
      (x.claims.get? claimant) = if p ∈ x.wants claimant then 1 else 0 := by
    unfold wants
    rcases x.claims.get? claimant with _ | old
    · rfl
    · simp only [Table.weight_some, OrderedSet.contains_iff, Option.getD_some]
  rw [hweight] at hset
  unfold claimants at hpos ⊢
  by_cases hold : p ∈ x.wants claimant <;> by_cases hnew : p ∈ pieces <;>
    simp only [hold, hnew, OrderedSet.contains_iff, if_true, if_false, not_true,
      not_false_iff, and_self,
      and_true, and_false, true_implies, false_implies] at hset hpos ⊢ <;> omega

lemma claimants_pos {claimant : Nat} {p : Piece} (h : p ∈ x.wants claimant) :
    0 < x.claimants p := by
  unfold wants at h
  rcases hget : x.claims.get? claimant with _ | pieces
  · rw [hget] at h
    cases h
  · rw [hget] at h
    exact Table.count_pos hget (OrderedSet.contains_iff.mpr h)

lemma handle_step (x : Sharing) (turn : Turn) : (x.step turn).window.handle = x.window.handle := by
  cases turn with
  | move => exact Window.handle_delta _ _ _ _
  | _ => rfl

lemma Fair.move (h : Fair payloads x) (claimant : Nat) (pieces : List Piece) :
    Fair payloads (x.step (.move claimant pieces)) := by
  have hnew : (OrderedSet.ofList pieces).Sorted := OrderedSet.sorted_ofList pieces
  refine ⟨h.sorted.set _ _, fun k => ?_, fun p => ?_, Window.synced_delta _ _ _ _ h.synced,
    Window.armed_delta h.armed _ _, ?_, ?_⟩
  · show (((x.claims.set claimant (.ofList pieces)).get? k).getD {}).Sorted
    rw [Table.get?_set]
    split_ifs
    · exact hnew
    · exact h.sets k
  · calc (x.window.delta (x.wants claimant) (.ofList pieces) x.engine).window.count p
        = x.claimants p + (if p ∈ OrderedSet.ofList pieces ∧ p ∉ x.wants claimant then 1 else 0) -
            if p ∈ x.wants claimant ∧ p ∉ OrderedSet.ofList pieces then 1 else 0 := by
          rw [Window.count_delta _ _ _ _ (h.sets claimant) hnew, h.counted]
      _ = (x.claims.set claimant (.ofList pieces)).count fun pieces => pieces.contains p :=
          (claimants_move h.sorted claimant _ p claimants_pos).symm
  · obtain ⟨calls, heq, -⟩ := Window.calls_delta x.window (x.wants claimant)
      (.ofList pieces) x.engine
    show (x.window.delta (x.wants claimant) (.ofList pieces) x.engine).engine.Whole
    rw [heq]
    exact List.foldlRecOn (motive := Whole) calls _ h.whole fun s hs c _ => hs.apply c
  · obtain ⟨t, ht, hpay⟩ := h.tracked
    obtain ⟨t', ht', hpay', -⟩ := (Window.tended_delta x.window (x.wants claimant) (.ofList pieces)
      x.engine).kept _ t ht
    refine ⟨t', ?_, hpay'.trans hpay⟩
    rw [handle_step]
    exact ht'

lemma Fair.progress (h : Fair payloads x) {c : EngineCall} (hc : c.isProgress = true) :
    Fair payloads { x with engine := c.apply x.engine } := by
  obtain ⟨hsync, harm⟩ := Window.progress_kept h.synced h.armed h.whole hc
  refine ⟨h.sorted, h.sets, h.counted, hsync, harm, h.whole.apply c, ?_⟩
  obtain ⟨t, ht, hpay⟩ := h.tracked
  dsimp only
  rw [EngineCall.torrent?_apply (EngineCall.isAdd_of_isProgress hc), ht]
  split_ifs
  · obtain ⟨t', hon, hpay', -⟩ := EngineCall.onTorrent_of_isProgress hc t
    exact ⟨t', hon, hpay'.trans hpay⟩
  · exact ⟨t, rfl, hpay⟩

/-- **Every turn is fair.** -/
theorem Fair.step (h : Fair payloads x) (turn : Turn) : Fair payloads (x.step turn) := by
  cases turn with
  | move claimant pieces => exact h.move claimant pieces
  | feed g p => exact h.progress (c := .feed g p) rfl
  | fail g p e => exact h.progress (c := .fail g p e) rfl
  | finishChecking g => exact h.progress (c := .finishChecking g) rfl

theorem Fair.run (h : Fair payloads x) (turns : List Turn) : Fair payloads (x.run turns) :=
  List.foldlRecOn (motive := Fair payloads) turns Sharing.step h fun _ hx turn _ => hx.step turn

lemma handle_run (x : Sharing) (turns : List Turn) :
    (x.run turns).window.handle = x.window.handle :=
  List.foldlRecOn (motive := fun y : Sharing => y.window.handle = x.window.handle) turns
    Sharing.step rfl fun y hy turn _ => (handle_step y turn).trans hy

lemma fair_unclaimed {s : Simulated} (hs : s.Whole) {h : Handle} {t : SimulatedTorrent}
    (ht : s.torrent? h = some t) (hfree : t.deadlines = {}) (deadline : Duration) :
    Fair t.payloads { window := { handle := h, deadline }, engine := s } where
  sorted := Table.sorted_empty
  sets _ := OrderedSet.sorted_empty
  counted _ := rfl
  synced t' ht' q := by
    obtain rfl := Option.some.inj (ht.symm.trans ht')
    have hcount : ¬ 0 < ({ handle := h, deadline } : Window).count q := Nat.lt_irrefl 0
    simp [hfree, hcount, Table.contains, Table.get?, Table.find]
  armed _ _ _ _ _ _ hcount := absurd hcount (Nat.lt_irrefl 0)
  whole := hs
  tracked := ⟨t, ht, rfl⟩

/-- **A piece has a deadline exactly while somebody wants it**, for any claimants. However often any
of them moves to whatever pieces, and whatever comes in or fails meanwhile:

* the torrent is tracked, and the count of each piece is the number of claimants that want it;
* the engine has a deadline on a piece exactly if the torrent has it and that number is positive;
* a piece that is wanted and not there yet is asked for. -/
theorem deadline_iff_wanted (notifySupported waitSupported : Bool) (deeds : List Deed)
    {s : Simulated} (hs : (made notifySupported waitSupported).after deeds = s) {h : Handle}
    {t : SimulatedTorrent} (ht : s.torrent? h = some t) (hfree : t.deadlines = {})
    (deadline : Duration) (turns : List Turn) {x : Sharing}
    (hx : run { window := { handle := h, deadline }, engine := s } turns = x) :
    (∀ p, x.window.count p = x.claimants p) ∧
      (∀ p, x.engine.hasDeadline h p = true ↔
        (0 ≤ p.index ∧ p.index < t.payloads.length) ∧ 0 < x.claimants p) ∧
      ∃ t', x.engine.torrent? h = some t' ∧ t'.payloads = t.payloads ∧
        ∀ i < t.payloads.length, 0 < x.claimants ⟨i⟩ → t'.isAvailable i = false →
          ⟨i⟩ ∈ t'.readRequests := by
  have hfair : Fair t.payloads x := by
    rw [← hx]
    exact (fair_unclaimed (hs ▸ whole_after _ _ deeds) ht hfree deadline).run turns
  have hhandle : x.window.handle = h := by
    rw [← hx]
    exact handle_run _ turns
  obtain ⟨t', ht', hpay⟩ := hfair.tracked
  have hsync := hfair.synced t' ht'
  have harm := hfair.armed t' ht'
  rw [hhandle] at ht'
  refine ⟨hfair.counted, fun p => ?_, t', ht', hpay, fun i hi hclaimed hav => ?_⟩
  · rw [← hfair.counted, ← hpay, ← hasPiece_iff, ← hsync p]
    simp only [hasDeadline, ht']
  · rw [← hfair.counted] at hclaimed
    exact harm ⟨i⟩ i (position?_eq_some.mpr ⟨rfl, hpay ▸ hi⟩) hav hclaimed

/-- Two claimants of a torrent with three pieces, whose sets have gaps and go beyond it on both
sides. Piece 1 comes in while both want it, and keeps its deadline when the first of them moves on;
piece 2, which failed, is still asked for. -/
theorem deadline_iff_wanted_apart : ∃ (deeds : List Deed) (s : Simulated) (t : SimulatedTorrent)
    (turns : List Turn) (x : Sharing), (made true true).after deeds = s ∧
      s.torrent? ⟨0, 1⟩ = some t ∧ t.deadlines = {} ∧
      run { window := { handle := ⟨0, 1⟩, deadline := ⟨5⟩ }, engine := s } turns = x ∧
      [-1, 0, 1, 2, 9].map (fun i => x.window.count ⟨i⟩) = [0, 1, 1, 1, 1] ∧
      [-1, 0, 1, 2, 9].map (fun i => x.engine.hasDeadline ⟨0, 1⟩ ⟨i⟩) =
        [false, true, true, true, false] ∧
      ∃ t', x.engine.torrent? ⟨0, 1⟩ = some t' ∧ t'.payloads = t.payloads ∧
        (⟨2⟩ : Piece) ∈ t'.readRequests := by
  let deeds : List Deed := [.applyMask .storage, .call (.add "a" [[1], [2], [3]] .checkingFiles)]
  let turns : List Turn :=
    [.move 0 [⟨-1⟩, ⟨1⟩, ⟨9⟩], .move 1 [⟨2⟩, ⟨1⟩], .finishChecking ⟨0, 1⟩, .feed ⟨0, 1⟩ ⟨1⟩,
      .fail ⟨0, 1⟩ ⟨2⟩ .invalidHandle, .move 0 [⟨9⟩, ⟨0⟩]]
  let t : SimulatedTorrent := .fresh "a" [[1], [2], [3]] .checkingFiles
  have ht : ((made true true).after deeds).torrent? ⟨0, 1⟩ = some t := by decide
  let x : Sharing :=
    run
      { window := { handle := ⟨0, 1⟩, deadline := ⟨5⟩ }
        engine := (made true true).after deeds } turns
  obtain ⟨hcount, hdeadline, t', ht', hpay, hasked⟩ :=
    deadline_iff_wanted true true deeds rfl ht rfl ⟨5⟩ turns (show _ = x from rfl)
  refine ⟨deeds, _, t, turns, x, rfl, ht, rfl, rfl, ?_, ?_, t', ht', hpay, ?_⟩
  · simp only [List.map_cons, List.map_nil, hcount]
    decide +kernel
  · have hdecide : ∀ p : Piece, _ = decide _ := fun p => Bool.eq_iff_iff.mpr
      ((hdeadline p).trans decide_eq_true_iff.symm)
    simp only [List.map_cons, List.map_nil, hdecide]
    decide +kernel
  · have hav : (x.engine.torrent? ⟨0, 1⟩).map (·.isAvailable 2) = some false := by decide +kernel
    rw [ht'] at hav
    exact hasked 2 (by decide) (by decide +kernel) (Option.some.inj hav)

end Sharing

end TorrentFlow
