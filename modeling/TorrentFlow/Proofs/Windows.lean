import TorrentFlow.Proofs.Collections
import TorrentFlow.Proofs.Torrents
import TorrentFlow.Reading.Window

/-!
A window and the deadlines of its torrent move together. `delta` counts one reader into the pieces
that it begins to want and out of those that it does not want any more; the engine has a deadline on
a piece of the torrent exactly while the count is not zero, whatever fails on the way.
-/

namespace TorrentFlow

instance : IsStrictTotalOrder Piece (· < ·) where
  trichotomous a b := by
    intro hab hba
    have hab : ¬ a.index < b.index := hab
    have hba : ¬ b.index < a.index := hba
    obtain ⟨i⟩ := a
    obtain ⟨j⟩ := b
    simp only [Piece.mk.injEq] at *
    omega
  irrefl a h := Int.lt_irrefl a.index h
  trans a b c hab hbc := Int.lt_trans hab hbc

namespace EngineCall

def applyAll (s : Simulated) (calls : List EngineCall) : Simulated :=
  calls.foldl (fun s c => c.apply s) s

/-- What the engine accepts in the course of several calls. -/
def acceptedAll : Simulated → List EngineCall → List Alert
  | _, [] => []
  | s, c :: rest => c.accepted s ++ acceptedAll (c.apply s) rest

lemma applyAll_append (s : Simulated) (cs ds : List EngineCall) :
    applyAll s (cs ++ ds) = applyAll (applyAll s cs) ds := List.foldl_append

lemma queue_applyAll (s : Simulated) (calls : List EngineCall) :
    (applyAll s calls).queue = s.queue ++ acceptedAll s calls := by
  induction calls generalizing s with
  | nil => exact (List.append_nil _).symm
  | cons c rest ih =>
    rw [acceptedAll, ← List.append_assoc, ← queue_apply]
    exact ih (c.apply s)

lemma torrent?_applyAll {g h : Handle} (hg : g ≠ h) {calls : List EngineCall}
    (hc : ∀ c ∈ calls, c.isTending = true ∧ c.handle? = some h) (s : Simulated) :
    (applyAll s calls).torrent? g = s.torrent? g := by
  induction calls generalizing s with
  | nil => rfl
  | cons c rest ih =>
    obtain ⟨htend, hh⟩ := hc c (by simp)
    have hrest := ih (fun c hmem => hc c (by simp [hmem])) (c.apply s)
    rw [c.torrent?_apply (c.isAdd_of_isTending htend), hh, if_neg] at hrest
    · exact hrest
    · exact fun e => hg (Option.some.inj e).symm

lemma tended_applyAll {calls : List EngineCall} (hc : ∀ c ∈ calls, c.isTending = true)
    (s : Simulated) : s.Tended (applyAll s calls) := by
  induction calls generalizing s with
  | nil => exact .of_slots rfl
  | cons c rest ih =>
    exact (Simulated.tended_apply (hc c (by simp)) s).trans
      (ih (fun c hmem => hc c (by simp [hmem])) (c.apply s))

lemma torrent_of_apply {s : Simulated} {c : EngineCall} {h : Handle} {t' : SimulatedTorrent}
    (hc : c.isAdd = false) (hh : c.handle? = some h) (ht' : (c.apply s).torrent? h = some t') :
    ∃ t, s.torrent? h = some t ∧ c.onTorrent t = some t' := by
  rw [torrent?_apply hc, if_pos hh] at ht'
  exact Option.bind_eq_some_iff.mp ht'

/-- What a torrent is after a deadline was set on it: as it was, if it has no such piece. -/
lemma torrent_setDeadline {s : Simulated} {h : Handle} {p : Piece} {deadline : Duration}
    {alert : Bool} {t' : SimulatedTorrent}
    (ht' : ((setDeadline h p deadline alert).apply s).torrent? h = some t') :
    ∃ t, s.torrent? h = some t ∧ (t.position? p = none ∧ t' = t ∨
      ∃ i, t.position? p = some i ∧ t' =
        { t with
          deadlines := t.deadlines.set p deadline
          readRequests :=
            if alert && !t.isAvailable i then t.readRequests.insert p else t.readRequests }) := by
  obtain ⟨t, ht, hon⟩ := torrent_of_apply rfl rfl ht'
  refine ⟨t, ht, ?_⟩
  rcases hp : t.position? p with _ | i <;> simp only [onTorrent, hp, Option.some.injEq] at hon
  · exact .inl ⟨rfl, hon.symm⟩
  · exact .inr ⟨i, rfl, hon.symm⟩

lemma torrent_resetDeadline {s : Simulated} {h : Handle} {p : Piece} {t' : SimulatedTorrent}
    (ht' : ((resetDeadline h p).apply s).torrent? h = some t') :
    ∃ t, s.torrent? h = some t ∧ (t.position? p = none ∧ t' = t ∨
      ∃ i, t.position? p = some i ∧ t' =
        { t with deadlines := t.deadlines.erase p, readRequests := t.readRequests.erase p }) := by
  obtain ⟨t, ht, hon⟩ := torrent_of_apply rfl rfl ht'
  refine ⟨t, ht, ?_⟩
  rcases hp : t.position? p with _ | i <;> simp only [onTorrent, hp, Option.some.injEq] at hon
  · exact .inl ⟨rfl, hon.symm⟩
  · exact .inr ⟨i, rfl, hon.symm⟩

end EngineCall

open Simulated

/-! ### What the engine holds for a piece -/

def SimulatedTorrent.HasPiece (t : SimulatedTorrent) (q : Piece) : Prop :=
  (t.position? q).isSome = true

lemma hasPiece_iff {t : SimulatedTorrent} {q : Piece} :
    t.HasPiece q ↔ 0 ≤ q.index ∧ q.index < t.payloads.length := by
  unfold SimulatedTorrent.HasPiece SimulatedTorrent.position? Piece.position?
  by_cases h : 0 ≤ q.index
  · simp [h, Option.filter]
  · simp [h]

lemma hasPiece_of_payloads {t t' : SimulatedTorrent} (h : t'.payloads = t.payloads) {q : Piece}
    (hq : t.HasPiece q) : t'.HasPiece q := by
  unfold SimulatedTorrent.HasPiece SimulatedTorrent.position? at hq ⊢
  rw [h]
  exact hq

/-- What stands in the way of asking for a piece. -/
def Simulated.lack (s : Simulated) (h : Handle) (p : Piece) : Option PieceError :=
  match s.torrent? h with
  | none => some .handleInvalid
  | some t => if (t.position? p).isSome then none else some (.engine (.invalidPiece p))

/-- Tending a torrent takes no piece from it. -/
lemma Simulated.Tended.lack {s s' : Simulated} (h : s.Tended s') (g : Handle) (x : Piece) :
    s'.lack g x = s.lack g x := by
  rcases ht : s.torrent? g with _ | t
  · rw [Simulated.lack, Simulated.lack, h.gone g ht, ht]
  · obtain ⟨t', ht', hpay, -⟩ := h.kept g t ht
    have hpos : t'.position? x = t.position? x := by
      rw [SimulatedTorrent.position?, SimulatedTorrent.position?, hpay]
    simp only [Simulated.lack, ht', ht, hpos]

/-- Somebody waits for the bytes of a piece, and the piece is not there yet. -/
def Simulated.Asked (s : Simulated) (h : Handle) (q : Piece) : Prop :=
  ∃ t i, s.torrent? h = some t ∧ t.position? q = some i ∧ t.isAvailable i = false ∧
    q ∈ t.readRequests

namespace Window

/-- The deadlines of the window's torrent are on the pieces that somebody wants. -/
def Synced (s : Simulated) (w : Window) : Prop :=
  ∀ t, s.torrent? w.handle = some t → ∀ q,
    t.deadlines.contains q = true ↔ t.HasPiece q ∧ 0 < w.count q

/-! ### Counting -/

@[simp] lemma handle_raise (w : Window) (p : Piece) : (w.raise p).handle = w.handle := rfl

@[simp] lemma handle_lower (w : Window) (p : Piece) : (w.lower p).handle = w.handle := by
  unfold lower
  rcases w.counts.get? p with _ | n <;> rfl

lemma handle_discard (w : Window) (pieces : OrderedSet Piece) :
    (w.discard pieces).handle = w.handle := by
  suffices h : ∀ (l : List Piece) (w : Window), (l.foldl lower w).handle = w.handle from
    h pieces.elements w
  intro l
  induction l with
  | nil => exact fun w => rfl
  | cons p rest ih => exact fun w => (ih _).trans (handle_lower w p)

lemma count_raise (w : Window) (p q : Piece) :
    (w.raise p).count q = w.count q + if q = p then 1 else 0 := by
  unfold raise count
  rw [Table.get?_set]
  split_ifs with hq
  · simp [hq]
  · rfl

lemma count_lower (w : Window) (p q : Piece) :
    (w.lower p).count q = w.count q - if q = p then 1 else 0 := by
  unfold lower
  rcases hp : w.counts.get? p with _ | n
  · by_cases hq : q = p
    · subst hq
      simp [count, hp]
    · simp [hq]
  · by_cases hq : q = p
    · subst hq
      by_cases hn : n ≤ 1
      · simp only [hn, if_true, count, Table.get?_erase, hp, Option.getD_none, Option.getD_some]
        omega
      · simp [hn, count, Table.get?_set, hp]
    · by_cases hn : n ≤ 1 <;> simp [hn, count, hq]

namespace Change

/-! ### One piece more, one piece fewer -/

section AnyEngine

variable {σ : Type}

lemma window_noteFailure (c : Change σ) (answer : Except EngineError Unit) :
    (c.noteFailure answer).window = c.window := by
  cases answer <;> rfl

lemma engine_noteFailure (c : Change σ) (answer : Except EngineError Unit) :
    (c.noteFailure answer).engine = c.engine := by
  cases answer <;> rfl

variable [Engine σ]

lemma window_claim (c : Change σ) (p : Piece) : (c.claim p).window = c.window.raise p :=
  window_noteFailure _ _

lemma window_yieldUp (c : Change σ) (p : Piece) :
    (c.yieldUp p).window = c.window.lower p := by
  unfold yieldUp
  rcases hp : c.window.counts.get? p with _ | n
  · simp [lower, hp]
  · by_cases hn : n ≤ 1
    · simp only [hn, if_true]
      exact window_noteFailure _ _
    · simp only [hn, if_false]

end AnyEngine

lemma engine_claim (c : Change Simulated) (p : Piece) : (c.claim p).engine =
    (EngineCall.setDeadline c.window.handle p c.window.deadline true).apply c.engine :=
  engine_noteFailure _ _

lemma engine_yieldUp (c : Change Simulated) (p : Piece) :
    (c.window.count p ≠ 1 ∧ (c.yieldUp p).engine = c.engine) ∨
      (c.window.count p ≤ 1 ∧
        (c.yieldUp p).engine = (EngineCall.resetDeadline c.window.handle p).apply c.engine) := by
  unfold yieldUp
  rcases hp : c.window.counts.get? p with _ | n
  · simp [count, hp]
  · by_cases hn : n ≤ 1
    · simp only [hn, if_true]
      exact Or.inr ⟨by simp [count, hp, hn], engine_noteFailure _ _⟩
    · have hne : c.window.count p ≠ 1 := by
        simp only [count, hp, Option.getD_some]
        omega
      simp [hn, hne]

/-! ### Deadlines follow counts -/

lemma synced_claim {c : Change Simulated} (h : Synced c.engine c.window) (p : Piece) :
    Synced (c.claim p).engine (c.claim p).window := by
  intro t' ht' q
  rw [window_claim, engine_claim, handle_raise] at ht'
  rw [window_claim, count_raise]
  obtain ⟨t, ht, ⟨hp, rfl⟩ | ⟨i, hp, rfl⟩⟩ := EngineCall.torrent_setDeadline ht'
  · rw [h _ ht q]
    by_cases hq : q = p
    · subst hq
      simp [SimulatedTorrent.HasPiece, hp]
    · simp [hq]
  · have hsync := h t ht q
    simp only [Table.contains, Table.get?_set] at hsync ⊢
    by_cases hq : q = p
    · subst hq
      have hhas : t.HasPiece q := by simp [SimulatedTorrent.HasPiece, hp]
      simp only [if_true, Option.isSome_some, true_iff]
      exact ⟨hhas, by omega⟩
    · simp only [hq, if_false, Nat.add_zero]
      exact hsync

lemma synced_yieldUp {c : Change Simulated} (h : Synced c.engine c.window) (p : Piece) :
    Synced (c.yieldUp p).engine (c.yieldUp p).window := by
  intro t' ht' q
  rw [window_yieldUp, handle_lower] at ht'
  rw [window_yieldUp, count_lower]
  rcases engine_yieldUp c p with ⟨hne, heng⟩ | ⟨hle, heng⟩ <;> rw [heng] at ht'
  · -- somebody still wants the piece, or nobody did
    rw [h t' ht' q]
    by_cases hq : q = p
    · subst hq
      have hpos : 0 < c.window.count q ↔ 0 < c.window.count q - 1 := by omega
      rw [if_pos rfl, hpos]
    · simp [hq]
  · obtain ⟨t, ht, ⟨hp, rfl⟩ | ⟨i, hp, rfl⟩⟩ := EngineCall.torrent_resetDeadline ht'
    · rw [h _ ht q]
      by_cases hq : q = p
      · subst hq
        simp [SimulatedTorrent.HasPiece, hp]
      · simp [hq]
    · have hsync := h t ht q
      simp only [Table.contains, Table.get?_erase] at hsync ⊢
      by_cases hq : q = p
      · subst hq
        have hnone : ¬ 0 < c.window.count q - 1 := by omega
        simp [hnone]
      · simp only [hq, if_false, Nat.sub_zero]
        exact hsync

/-! ### Failures -/

/-- An answer told as a failure. -/
def refusal : Except EngineError Unit → Option PieceError
  | .ok _ => none
  | .error e => some (.ofEngine e)

lemma failure_noteFailure {σ : Type} (c : Change σ) (answer : Except EngineError Unit) :
    (c.noteFailure answer).failure = c.failure.or (refusal answer) := by
  rcases answer with e | _
  · rfl
  · exact (Option.or_none).symm

lemma refusal_setDeadline (h : Handle) (p : Piece) (deadline : Duration) (alert : Bool)
    (s : Simulated) : refusal (Simulated.setDeadline h p deadline alert s).1 = s.lack h p := by
  unfold Simulated.setDeadline withPiece withTorrent lack
  rcases ht : s.torrent? h with _ | t
  · rfl
  · rcases hi : t.position? p with _ | i
    · simp only [hi]
      rfl
    · by_cases ha : alert = true <;> by_cases hav : t.isAvailable i = true <;>
        simp [hi, ha, hav, refusal]

lemma refusal_resetDeadline (h : Handle) (p : Piece) (s : Simulated) :
    refusal (Simulated.resetDeadline h p s).1 = s.lack h p := by
  unfold Simulated.resetDeadline withPiece withTorrent lack
  rcases ht : s.torrent? h with _ | t
  · rfl
  · rcases hi : t.position? p with _ | i
    · simp only [hi]
      rfl
    · simp [hi, refusal]

lemma failure_claim (c : Change Simulated) (p : Piece) :
    (c.claim p).failure = c.failure.or (c.engine.lack c.window.handle p) := by
  rw [← refusal_setDeadline c.window.handle p c.window.deadline true]
  exact failure_noteFailure _ _

lemma failure_yieldUp (c : Change Simulated) (p : Piece) : (c.yieldUp p).failure = c.failure ∨
    (c.yieldUp p).failure = c.failure.or (c.engine.lack c.window.handle p) := by
  unfold yieldUp
  rcases c.window.counts.get? p with _ | n
  · simp
  · by_cases hn : n ≤ 1
    · right
      simp only [hn, if_true]
      rw [← refusal_resetDeadline c.window.handle p]
      exact failure_noteFailure _ _
    · simp [hn]

lemma lack_handleInvalid {s : Simulated} {h : Handle} {p : Piece}
    (hl : s.lack h p = some .handleInvalid) : s.torrent? h = none := by
  unfold lack at hl
  rcases ht : s.torrent? h with _ | t
  · rfl
  · simp only [ht] at hl
    split_ifs at hl
    cases hl

lemma lack_of_gone {s : Simulated} {h : Handle} (hnone : s.torrent? h = none) (p : Piece) :
    s.lack h p = some .handleInvalid := by
  rw [Simulated.lack, hnone]

lemma lack_none {s : Simulated} {h : Handle} {p : Piece} (hl : s.lack h p = none) :
    ∃ t, s.torrent? h = some t ∧ t.HasPiece p := by
  unfold lack at hl
  rcases ht : s.torrent? h with _ | t
  · simp [ht] at hl
  · simp only [ht] at hl
    split_ifs at hl with hi
    exact ⟨t, rfl, hi⟩

/-! ### What is asked for -/

lemma asked_setDeadline {s : Simulated} {g : Handle} {q : Piece} (ha : s.Asked g q) (h : Handle)
    (p : Piece) (deadline : Duration) (alert : Bool) :
    ((EngineCall.setDeadline h p deadline alert).apply s).Asked g q := by
  obtain ⟨t, i, ht, hi, hav, hmem⟩ := ha
  unfold Asked
  rw [EngineCall.torrent?_apply rfl, ht]
  by_cases hg : h = g
  · subst hg
    simp only [EngineCall.handle?, if_true, Option.bind_some, EngineCall.onTorrent]
    rcases hp : t.position? p with _ | j
    · exact ⟨t, i, rfl, hi, hav, hmem⟩
    · refine ⟨_, i, rfl, hi, hav, ?_⟩
      dsimp only
      split_ifs
      · exact OrderedSet.mem_insert.mpr (Or.inr hmem)
      · exact hmem
  · have hne : ¬ (EngineCall.setDeadline h p deadline alert).handle? = some g :=
      fun e => hg (Option.some.inj e)
    rw [if_neg hne]
    exact ⟨t, i, rfl, hi, hav, hmem⟩

lemma asked_resetDeadline {s : Simulated} {g : Handle} {q : Piece} (ha : s.Asked g q) (h : Handle)
    {p : Piece} (hp : q ≠ p) : ((EngineCall.resetDeadline h p).apply s).Asked g q := by
  obtain ⟨t, i, ht, hi, hav, hmem⟩ := ha
  unfold Asked
  rw [EngineCall.torrent?_apply rfl, ht]
  by_cases hg : h = g
  · subst hg
    simp only [EngineCall.handle?, if_true, Option.bind_some, EngineCall.onTorrent]
    rcases hpos : t.position? p with _ | j
    · exact ⟨t, i, rfl, hi, hav, hmem⟩
    · exact ⟨_, i, rfl, hi, hav, OrderedSet.mem_erase.mpr ⟨hmem, hp⟩⟩
  · have hne : ¬ (EngineCall.resetDeadline h p).handle? = some g := fun e => hg (Option.some.inj e)
    rw [if_neg hne]
    exact ⟨t, i, rfl, hi, hav, hmem⟩

/-- **A claim on a piece that there is gets it sooner or later**: its bytes come at once, or are
asked for. -/
lemma asked_of_claim {s : Simulated} {h : Handle} {p : Piece} {t : SimulatedTorrent}
    (ht : s.torrent? h = some t) (hp : t.HasPiece p) (deadline : Duration)
    (hm : s.mask.intersects .storage = true) :
    ((EngineCall.setDeadline h p deadline true).apply s).Asked h p ∨
      ∃ name data, .readPiece h name p data none ∈
        (EngineCall.setDeadline h p deadline true).accepted s := by
  obtain ⟨i, hi⟩ := Option.isSome_iff_exists.mp hp
  by_cases hav : t.isAvailable i = true
  · right
    refine ⟨t.name, t.payload i, List.mem_filter.mpr ⟨?_, hm⟩⟩
    simp [EngineCall.generated, piece?_eq_some.mpr ⟨ht, hi⟩, hav]
  · left
    unfold Asked
    rw [EngineCall.torrent?_apply rfl, ht]
    simp only [EngineCall.handle?, if_true, Option.bind_some, EngineCall.onTorrent, hi]
    have hav : t.isAvailable i = false := by simpa using hav
    exact ⟨_, i, rfl, hi, hav, by simp [hav]⟩

end Change

/-! ### A whole move -/

section Delta

open Change EngineCall

variable (w : Window) (old new : OrderedSet Piece) (s : Simulated)

/-- What holds before a move and is kept by each claim of a piece that enters, and by each giving up
of one that leaves, holds after it. -/
lemma delta_induction {P : Change Simulated → Prop} (h0 : P { window := w, engine := s })
    (hclaim : ∀ c p, p ∈ new → p ∉ old → P c → P (c.claim p))
    (hyield : ∀ c p, p ∈ old → p ∉ new → P c → P (c.yieldUp p)) : P (w.delta old new s) := by
  refine List.foldlRecOn (motive := P) _ yieldUp
    (List.foldlRecOn (motive := P) _ claim h0 fun c hc p hp => ?_) fun c hc p hp => ?_
  · obtain ⟨hnew, hold⟩ := OrderedSet.mem_diff.mp hp
    exact hclaim c p hnew hold hc
  · obtain ⟨hold, hnew⟩ := OrderedSet.mem_diff.mp hp
    exact hyield c p hold hnew hc

/-- **Deadlines follow the counts**, whatever fails. -/
theorem synced_delta (h : Synced s w) :
    Synced (w.delta old new s).engine (w.delta old new s).window :=
  delta_induction (P := fun c => Synced c.engine c.window) w old new s h
    (fun _ p _ _ hc => synced_claim hc p) (fun _ p _ _ hc => synced_yieldUp hc p)

/-- A move comes down to calls about its own torrent. -/
theorem calls_delta : ∃ calls, (w.delta old new s).engine = applyAll s calls ∧
    ∀ c ∈ calls, c.isTending = true ∧ c.handle? = some w.handle := by
  have hstep : ∀ {c : Change Simulated} {e : Simulated} (call : EngineCall),
      c.window.handle = w.handle → e = call.apply c.engine → call.isTending = true →
      call.handle? = some w.handle →
      (∃ calls, c.engine = applyAll s calls ∧
        ∀ c ∈ calls, c.isTending = true ∧ c.handle? = some w.handle) →
      ∃ calls, e = applyAll s calls ∧
        ∀ c ∈ calls, c.isTending = true ∧ c.handle? = some w.handle := by
    rintro c e call - he htend hh ⟨calls, hc, hall⟩
    refine ⟨calls ++ [call], ?_, fun d hd => ?_⟩
    · rw [he, hc, applyAll_append]
      rfl
    · rcases List.mem_append.mp hd with hd | hd
      · exact hall d hd
      · rw [List.mem_singleton.mp hd]
        exact ⟨htend, hh⟩
  refine (delta_induction (P := fun c => c.window.handle = w.handle ∧
    ∃ calls, c.engine = applyAll s calls ∧
      ∀ c ∈ calls, c.isTending = true ∧ c.handle? = some w.handle)
    w old new s ⟨rfl, [], rfl, by simp⟩ ?_ ?_).2
  · rintro c p - - ⟨hh, hcalls⟩
    exact ⟨by rw [window_claim, handle_raise, hh],
      hstep _ hh (engine_claim c p) rfl (congrArg some hh) hcalls⟩
  · rintro c p - - ⟨hh, hcalls⟩
    refine ⟨by rw [window_yieldUp, handle_lower, hh], ?_⟩
    rcases engine_yieldUp c p with ⟨-, heng⟩ | ⟨-, heng⟩
    · rw [heng]
      exact hcalls
    · exact hstep _ hh heng rfl (congrArg some hh) hcalls

lemma tended_delta : s.Tended (w.delta old new s).engine := by
  obtain ⟨calls, heq, hall⟩ := calls_delta w old new s
  rw [heq]
  exact tended_applyAll (fun c hc => (hall c hc).1) s

lemma mem_queue_delta {a : Alert} (ha : a ∈ s.queue) : a ∈ (w.delta old new s).engine.queue := by
  obtain ⟨calls, heq, -⟩ := calls_delta w old new s
  rw [heq, queue_applyAll]
  exact List.mem_append_left _ ha

/-! ### What a move counts -/

lemma count_foldl_raise {l : List Piece} (hl : l.Nodup) (w : Window) (q : Piece) :
    (l.foldl raise w).count q = w.count q + if q ∈ l then 1 else 0 := by
  induction l generalizing w with
  | nil => rfl
  | cons p rest ih =>
    obtain ⟨hp, hrest⟩ := List.nodup_cons.mp hl
    rw [List.foldl_cons, ih hrest, count_raise]
    by_cases hq : q = p
    · subst hq
      simp [hp]
    · simp [hq]

lemma count_foldl_lower {l : List Piece} (hl : l.Nodup) (w : Window) (q : Piece) :
    (l.foldl lower w).count q = w.count q - if q ∈ l then 1 else 0 := by
  induction l generalizing w with
  | nil => rfl
  | cons p rest ih =>
    obtain ⟨hp, hrest⟩ := List.nodup_cons.mp hl
    rw [List.foldl_cons, ih hrest, count_lower]
    by_cases hq : q = p
    · subst hq
      simp [hp]
    · simp [hq]

lemma window_delta {σ : Type} [Engine σ] (s : σ) : (w.delta old new s).window =
    (old.diff new).elements.foldl lower ((new.diff old).elements.foldl raise w) := by
  have hclaims : ∀ (l : List Piece) (c : Change σ),
      (l.foldl claim c).window = l.foldl raise c.window := by
    intro l
    induction l with
    | nil => exact fun _ => rfl
    | cons p rest ih => exact fun c => (ih _).trans (by rw [window_claim]; rfl)
  have hyields : ∀ (l : List Piece) (c : Change σ),
      (l.foldl yieldUp c).window = l.foldl lower c.window := by
    intro l
    induction l with
    | nil => exact fun _ => rfl
    | cons p rest ih => exact fun c => (ih _).trans (by rw [window_yieldUp]; rfl)
  exact (hyields _ _).trans (by rw [hclaims])

@[simp] lemma handle_delta {σ : Type} [Engine σ] (s : σ) :
    (w.delta old new s).window.handle = w.handle := by
  rw [window_delta]
  refine List.foldlRecOn (motive := fun v : Window => v.handle = w.handle) _ lower ?_
    fun v hv p _ => (handle_lower v p).trans hv
  exact List.foldlRecOn (motive := fun v : Window => v.handle = w.handle) _ raise rfl
    fun v hv p _ => hv

/-- **A move counts one reader in where it begins to want a piece, and out where it ceases to.** -/
theorem count_delta {σ : Type} [Engine σ] (s : σ) (ho : old.Sorted) (hn : new.Sorted) (q : Piece) :
    (w.delta old new s).window.count q =
      w.count q + (if q ∈ new ∧ q ∉ old then 1 else 0) - if q ∈ old ∧ q ∉ new then 1 else 0 := by
  rw [window_delta, count_foldl_lower (ho.diff new).nodup, count_foldl_raise (hn.diff old).nodup]
  simp only [← OrderedSet.mem_def, OrderedSet.mem_diff]

/-! ### When a move fails -/

/-- What holds of no failure, and is kept by each call that is made, holds of the failure of a
move. -/
lemma failure_induction {P : Option PieceError → Prop} (h0 : P none)
    (hcall : ∀ (f : Option PieceError) (s' : Simulated) (p : Piece), s.Tended s' → P f →
      P (f.or (s'.lack w.handle p))) : P (w.delta old new s).failure := by
  refine (delta_induction (P := fun c => c.window.handle = w.handle ∧ s.Tended c.engine ∧
    P c.failure) w old new s ⟨rfl, .of_slots rfl, h0⟩ ?_ ?_).2.2
  · rintro c p - - ⟨hh, htend, hc⟩
    refine ⟨by rw [window_claim, handle_raise, hh], ?_, ?_⟩
    · rw [engine_claim]
      exact htend.trans (Simulated.tended_apply rfl _)
    · rw [failure_claim, hh]
      exact hcall _ _ p htend hc
  · rintro c p - - ⟨hh, htend, hc⟩
    refine ⟨by rw [window_yieldUp, handle_lower, hh], ?_, ?_⟩
    · rcases engine_yieldUp c p with ⟨-, heng⟩ | ⟨-, heng⟩ <;> rw [heng]
      · exact htend
      · exact htend.trans (Simulated.tended_apply rfl _)
    · rcases failure_yieldUp c p with hf | hf <;> rw [hf]
      · exact hc
      · rw [hh]
        exact hcall _ _ p htend hc

lemma gone_of_delta (hf : (w.delta old new s).failure = some .handleInvalid) :
    s.torrent? w.handle = none := by
  refine failure_induction (P := fun f => f = some .handleInvalid → s.torrent? w.handle = none)
    w old new s (fun hf => by cases hf) (fun f s' p htend hc hf => ?_) hf
  rcases f with _ | e
  · rw [Option.none_or] at hf
    exact (htend.none_iff _).mp (lack_handleInvalid hf)
  · rw [Option.some_or] at hf
    exact hc hf

lemma failure_none_of_yields (l : List Piece) (c : Change Simulated)
    (h : (l.foldl yieldUp c).failure = none) : c.failure = none := by
  induction l generalizing c with
  | nil => exact h
  | cons p rest ih =>
    have hp := ih _ h
    rcases failure_yieldUp c p with heq | heq <;> rw [heq] at hp
    · exact hp
    · exact (Option.or_eq_none_iff.mp hp).1

lemma has_of_claims (l : List Piece) (c : Change Simulated)
    (h : (l.foldl claim c).failure = none) : c.failure = none ∧
      ∀ q ∈ l, ∃ t, c.engine.torrent? c.window.handle = some t ∧ t.HasPiece q := by
  induction l generalizing c with
  | nil => exact ⟨h, by simp⟩
  | cons p rest ih =>
    obtain ⟨hp, hrest⟩ := ih _ h
    rw [failure_claim, Option.or_eq_none_iff] at hp
    obtain ⟨t, ht, hhas⟩ := lack_none hp.2
    refine ⟨hp.1, fun q hq => ?_⟩
    rcases List.mem_cons.mp hq with rfl | hq
    · exact ⟨t, ht, hhas⟩
    · obtain ⟨t', ht', hhas'⟩ := hrest q hq
      rw [window_claim, handle_raise, engine_claim] at ht'
      let call : EngineCall := .setDeadline c.window.handle p c.window.deadline true
      have htend : c.engine.Tended (call.apply c.engine) := Simulated.tended_apply rfl c.engine
      obtain ⟨t₀, ht₀, hpay⟩ := htend.back ht'
      exact ⟨t₀, ht₀, hasPiece_of_payloads hpay.symm hhas'⟩

/-- **A move that succeeds claims only pieces that there are.** -/
theorem has_of_delta (hf : (w.delta old new s).failure = none) {q : Piece} (hn : q ∈ new)
    (ho : q ∉ old) : ∃ t, s.torrent? w.handle = some t ∧ t.HasPiece q :=
  (has_of_claims _ _ (failure_none_of_yields _ _ hf)).2 q (OrderedSet.mem_diff.mpr ⟨hn, ho⟩)

/-- Of a torrent that is gone a move finds nothing but that. -/
lemma failure_delta_gone (hnone : s.torrent? w.handle = none) {e : PieceError}
    (hf : (w.delta old new s).failure = some e) : e = .handleInvalid := by
  refine failure_induction (P := fun f => ∀ e, f = some e → e = .handleInvalid) w old new s
    nofun ?_ e hf
  rintro (_ | e') s' x htend hc e he
  · rw [Option.none_or, lack_of_gone ((htend.none_iff _).mpr hnone)] at he
    exact (Option.some.inj he).symm
  · rw [Option.some_or] at he
    exact hc e he

/-- **A move that claims anything of a torrent that is gone finds it gone.** -/
theorem failure_delta_of_gone (hnone : s.torrent? w.handle = none) {q : Piece} (hn : q ∈ new)
    (ho : q ∉ old) : (w.delta old new s).failure = some .handleInvalid := by
  rcases hf : (w.delta old new s).failure with _ | e
  · obtain ⟨t, ht, -⟩ := w.has_of_delta old new s hf hn ho
    rw [hnone] at ht
    cases ht
  · rw [w.failure_delta_gone old new s hnone hf]

/-- Claims, one after another, fail with what the first of them lacks. -/
lemma failure_claims {h : Handle} (l : List Piece) (c : Change Simulated) (hh : c.window.handle = h)
    (htend : s.Tended c.engine) :
    (l.foldl claim c).failure = c.failure.or (l.findSome? (s.lack h)) := by
  induction l generalizing c with
  | nil => exact (Option.or_none).symm
  | cons x rest ih =>
    have hnext : s.Tended (c.claim x).engine := by
      rw [engine_claim]
      exact htend.trans (Simulated.tended_apply rfl _)
    rw [List.foldl_cons, ih (c.claim x) (by rw [window_claim, handle_raise, hh]) hnext,
      failure_claim, hh, htend.lack, List.findSome?_cons, Option.or_assoc]
    rcases s.lack h x with _ | e <;> rfl

lemma failure_yields {h : Handle} (l : List Piece) (c : Change Simulated) (hh : c.window.handle = h)
    (htend : s.Tended c.engine) (hl : ∀ x ∈ l, s.lack h x = none) :
    (l.foldl yieldUp c).failure = c.failure := by
  induction l generalizing c with
  | nil => rfl
  | cons x rest ih =>
    have hnext : s.Tended (c.yieldUp x).engine := by
      rcases engine_yieldUp c x with ⟨-, heng⟩ | ⟨-, heng⟩ <;> rw [heng]
      · exact htend
      · exact htend.trans (Simulated.tended_apply rfl _)
    have hsame : (c.yieldUp x).failure = c.failure := by
      rcases failure_yieldUp c x with heq | heq <;> rw [heq]
      rw [hh, htend.lack, hl x List.mem_cons_self, Option.or_none]
    rw [List.foldl_cons, ih (c.yieldUp x) (by rw [window_yieldUp, handle_lower, hh]) hnext
      fun y hy => hl y (List.mem_cons_of_mem x hy), hsame]

/-- **A move from pieces that there are fails with the first that there is not.** -/
theorem failure_delta_first (hold : ∀ x ∈ old, s.lack w.handle x = none) :
    (w.delta old new s).failure = new.elements.findSome? (s.lack w.handle) := by
  let start : Change Simulated := { window := w, engine := s }
  have hentered : ∀ l : List Piece, (l.foldl claim start).window.handle = w.handle ∧
      s.Tended (l.foldl claim start).engine := fun l => by
    refine List.foldlRecOn (motive := fun c : Change Simulated => c.window.handle = w.handle ∧
      s.Tended c.engine) l claim ⟨rfl, .of_slots rfl⟩ fun c hc x _ => ⟨?_, ?_⟩
    · rw [window_claim, handle_raise, hc.1]
    · rw [engine_claim]
      exact hc.2.trans (Simulated.tended_apply rfl _)
  -- what was wanted before lacks nothing, so that the new pieces may be searched as they are
  have hnew : (new.diff old).elements.findSome? (s.lack w.handle) =
      new.elements.findSome? (s.lack w.handle) := by
    unfold OrderedSet.diff
    induction new.elements with
    | nil => rfl
    | cons x rest ih =>
      rw [List.filter_cons, List.findSome?_cons]
      split_ifs with hx
      · rw [List.findSome?_cons, ih]
      · have hlack : s.lack w.handle x = none := hold x (by simpa using hx)
        rw [hlack, ih]
  obtain ⟨hh, htend⟩ := hentered (new.diff old).elements
  rw [delta, failure_yields s _ _ hh htend fun x hx => hold x (OrderedSet.mem_diff.mp hx).1,
    failure_claims s _ start rfl (.of_slots rfl), hnew]
  exact Option.none_or

/-! ### What a move asks for -/

/-- What somebody else waits for is asked for after a move as before. -/
theorem asked_delta (ho : old.Sorted) {g : Handle} {q : Piece} (ha : s.Asked g q)
    (hq : q ∈ old → q ∈ new ∨ 2 ≤ w.count q) : (w.delta old new s).engine.Asked g q := by
  have hyields : ∀ (l : List Piece) (c : Change Simulated), l.Nodup →
      (q ∈ l → 2 ≤ c.window.count q) → c.engine.Asked g q →
      (l.foldl yieldUp c).engine.Asked g q := by
    intro l
    induction l with
    | nil => exact fun _ _ _ h => h
    | cons p rest ih =>
      intro c hl hcount hc
      obtain ⟨hp, hrest⟩ := List.nodup_cons.mp hl
      refine ih _ hrest (fun hq => ?_) ?_
      · have hne : q ≠ p := fun e => hp (e ▸ hq)
        rw [window_yieldUp, count_lower, if_neg hne]
        exact hcount (List.mem_cons_of_mem _ hq)
      · rcases engine_yieldUp c p with ⟨-, heng⟩ | ⟨hle, heng⟩ <;> rw [heng]
        · exact hc
        · refine asked_resetDeadline hc _ fun e => ?_
          subst e
          have := hcount List.mem_cons_self
          omega
  refine hyields _ _ (ho.diff new).nodup (fun hmem => ?_) ?_
  · obtain ⟨hold, hnew⟩ := OrderedSet.mem_diff.mp hmem
    have htwo := (hq hold).resolve_left hnew
    refine List.foldlRecOn (motive := fun c : Change Simulated => 2 ≤ c.window.count q) _ claim htwo
      fun c hc p _ => ?_
    rw [window_claim, count_raise]
    omega
  · refine List.foldlRecOn (motive := fun c : Change Simulated => c.engine.Asked g q) _ claim ha
      fun c hc p _ => ?_
    rw [engine_claim]
    exact asked_setDeadline hc _ _ _ _

/-- The bytes of a piece are asked for, or are in the queue. -/
def Coming (s : Simulated) (h : Handle) (q : Piece) : Prop :=
  s.Asked h q ∨ ∃ name data, .readPiece h name q data none ∈ s.queue

/-- **A piece that a move claims is on its way afterwards.** -/
theorem coming_delta (hm : s.mask.intersects .storage = true) {q : Piece} (hn : q ∈ new)
    (ho : q ∉ old) {t : SimulatedTorrent} (ht : s.torrent? w.handle = some t) (hq : t.HasPiece q) :
    Coming (w.delta old new s).engine w.handle q := by
  have hqueue : ∀ {e : Simulated} (c : EngineCall),
      (∃ name data, .readPiece w.handle name q data none ∈ e.queue) →
      ∃ name data, .readPiece w.handle name q data none ∈ (c.apply e).queue := by
    rintro e c ⟨name, data, hmem⟩
    refine ⟨name, data, ?_⟩
    rw [EngineCall.queue_apply]
    exact List.mem_append_left _ hmem
  have hclaim : ∀ (c : Change Simulated) (p : Piece), Coming c.engine w.handle q →
      Coming (c.claim p).engine w.handle q := by
    intro c p hc
    rw [engine_claim]
    exact hc.imp (fun ha => asked_setDeadline ha _ _ _ _) (hqueue _)
  have hclaims : ∀ (l : List Piece) (c : Change Simulated), q ∈ l → c.window.handle = w.handle →
      c.engine.mask = s.mask → s.Tended c.engine →
      Coming (l.foldl claim c).engine w.handle q := by
    intro l
    induction l with
    | nil => exact fun c h => by cases h
    | cons p rest ih =>
      intro c hmem hh hmask htend
      by_cases hqp : q = p
      · -- the claim on the piece itself brings it on its way, and the others leave it there
        subst hqp
        refine List.foldlRecOn (motive := fun c : Change Simulated =>
          Coming c.engine w.handle q) rest claim ?_ fun c hc p _ => hclaim c p hc
        obtain ⟨t', ht', hpay, -⟩ := htend.kept _ t ht
        rw [engine_claim, hh]
        refine (asked_of_claim ht' (hasPiece_of_payloads hpay hq) _ (hmask ▸ hm)).imp id ?_
        rintro ⟨name, data, hacc⟩
        refine ⟨name, data, ?_⟩
        rw [EngineCall.queue_apply]
        exact List.mem_append_right _ hacc
      · refine ih _ ((List.mem_cons.mp hmem).resolve_left hqp) ?_ ?_ ?_
        · rw [window_claim, handle_raise, hh]
        · rw [engine_claim, EngineCall.mask_apply, hmask]
        · rw [engine_claim]
          exact htend.trans (Simulated.tended_apply rfl _)
  refine List.foldlRecOn (motive := fun c : Change Simulated => Coming c.engine w.handle q)
    _ yieldUp
    (hclaims _ _ (OrderedSet.mem_diff.mpr ⟨hn, ho⟩) rfl rfl (.of_slots rfl)) fun c hc p hp => ?_
  have hne : q ≠ p := fun e => (OrderedSet.mem_diff.mp hp).2 (e ▸ hn)
  rcases engine_yieldUp c p with ⟨-, heng⟩ | ⟨-, heng⟩ <;> rw [heng]
  · exact hc
  · exact hc.imp (fun ha => asked_resetDeadline ha _ hne) (hqueue _)

end Delta

end Window

end TorrentFlow
