import Mathlib.Tactic.ByContra
import TorrentFlow.Proofs.Histories

/-!
The handles of the simulated engine over its whole history. Slots are filled again, the lowest free
one first, and each time under the next generation: a slot's generation counts how often it was
filled. So the handles that adds answer are all different as long as no slot runs out of
generations, and a handle that has lost its torrent never names one again. A call that fails leaves
no trace.
-/

namespace TorrentFlow

namespace Simulated

namespace Deed

def given? (s : Simulated) : Deed → Option Handle
  | call (.add name payloads state) => some (insertTorrent name payloads state s).1
  | _ => none

def filled? (s : Simulated) : Deed → Option Nat
  | call (.add ..) => some s.nextSlot
  | _ => none

lemma add_or (s : Simulated) (d : Deed) :
    (∃ name payloads state, d = call (.add name payloads state)) ∨
      d.given? s = none ∧ d.filled? s = none := by
  cases d with
  | call c =>
    cases c with
    | add name payloads state => exact .inl ⟨name, payloads, state, rfl⟩
    | _ => exact .inr ⟨rfl, rfl⟩
  | _ => exact .inr ⟨rfl, rfl⟩

end Deed

def given : Simulated → List Deed → List Handle := collect Deed.given?

/-- The slots that were filled, in order. -/
def filled : Simulated → List Deed → List Nat := collect Deed.filled?

lemma given_snoc (s : Simulated) (deeds : List Deed) (d : Deed) :
    s.given (deeds ++ [d]) = s.given deeds ++ (d.given? (s.after deeds)).toList :=
  collect_snoc _ _ _ _

lemma filled_snoc (s : Simulated) (deeds : List Deed) (d : Deed) :
    s.filled (deeds ++ [d]) = s.filled deeds ++ (d.filled? (s.after deeds)).toList :=
  collect_snoc _ _ _ _

/-! ### Generations -/

/-- Each slot's generation counts how often the slot was filled, and no handle that was given out is
ahead of its slot. -/
structure Counted (given : List Handle) (filled : List Nat) (s : Simulated) : Prop where
  generation : ∀ (i : Nat) (slot : Slot), s.slots[i]? = some slot →
    slot.generation.toNat = filled.count i
  unfilled : ∀ i, s.slots.length ≤ i → filled.count i = 0
  nodup : given.Nodup
  reached : ∀ h ∈ given, h.generation.toNat ≤ filled.count h.slot.toNat
  issued : Issued (· ∈ given) s

variable {s : Simulated} {given : List Handle} {filled : List Nat}

lemma Counted.congr {s' : Simulated} (h : Counted given filled s)
    (hg : s'.slots.map Slot.generation = s.slots.map Slot.generation) :
    Counted given filled s' := by
  refine ⟨fun i slot' hs' => ?_, ?_, h.nodup, h.reached, h.issued.congr hg⟩
  · have hi : (s.slots[i]?).map Slot.generation = some slot'.generation := by
      simpa only [List.getElem?_map, hs', Option.map_some, eq_comm] using congrArg (·[i]?) hg
    obtain ⟨slot, hs, hgen⟩ := Option.map_eq_some_iff.mp hi
    exact hgen ▸ h.generation i slot hs
  · have hlen : s'.slots.length = s.slots.length := by simpa using congrArg List.length hg
    exact hlen ▸ h.unfilled

lemma counted_of_empty (hs : s.slots = []) : Counted [] [] s := by
  refine ⟨?_, ?_, List.nodup_nil, nofun, ?_, ?_, ?_⟩ <;> simp [hs]

/-- The generation of the next torrent does not wrap round. -/
lemma Counted.next (h : Counted given filled s) (hfew : filled.count s.nextSlot + 1 < UInt32.size) :
    s.nextHandle.generation.toNat = filled.count s.nextSlot + 1 := by
  show ((s.slots[s.nextSlot]?.map Slot.generation).getD 0 + 1).toNat = _
  have hcount : ((s.slots[s.nextSlot]?.map Slot.generation).getD 0).toNat =
      filled.count s.nextSlot := by
    rcases hs : s.slots[s.nextSlot]? with _ | slot
    · exact (h.unfilled _ (List.getElem?_eq_none_iff.mp hs)).symm
    · exact h.generation _ slot hs
  rw [UInt32.toNat_add, UInt32.toNat_one, hcount]
  exact Nat.mod_eq_of_lt hfew

/-- **The handle of the next torrent was never given out.** -/
lemma Counted.fresh (h : Counted given filled s) (hslot : s.nextSlot < UInt32.size)
    (hfew : filled.count s.nextSlot + 1 < UInt32.size) : s.nextHandle ∉ given := by
  intro hmem
  have hle := h.reached _ hmem
  rw [h.next hfew, toNat_nextHandle hslot] at hle
  omega

theorem Counted.insertTorrent (h : Counted given filled s) (hslot : s.nextSlot < UInt32.size)
    (hfew : filled.count s.nextSlot + 1 < UInt32.size) (name : String) (payloads : List Payload)
    (state : TorrentState) : Counted (given ++ [s.nextHandle]) (filled ++ [s.nextSlot])
      (Simulated.insertTorrent name payloads state s).2 := by
  have hnew := h.fresh hslot hfew
  refine ⟨fun i slot hs => ?_, fun i hi => ?_, ?_, fun g hg => ?_, ?_⟩
  · -- the generation of a slot counts how often it was filled
    rw [slots_insertTorrent] at hs
    rw [List.count_append, List.count_singleton]
    split_ifs at hs with hi
    · obtain rfl := Option.some.inj hs
      rw [hi, h.next hfew]
      simp
    · rw [h.generation i slot hs]
      simp [Ne.symm hi]
  · -- a slot that is not there was not filled
    have hnone := slots_insertTorrent name payloads state s i
    rw [List.getElem?_eq_none_iff.mpr hi] at hnone
    split_ifs at hnone with hne
    rw [List.count_append, h.unfilled i (List.getElem?_eq_none_iff.mp hnone.symm)]
    simp [Ne.symm hne]
  · refine List.nodup_append.mpr ⟨h.nodup, by simp, fun g hg g' hg' e => hnew ?_⟩
    rwa [← List.mem_singleton.mp hg', ← e]
  · rw [List.count_append]
    rcases List.mem_append.mp hg with hg | hg
    · exact Nat.le_trans (h.reached g hg) (Nat.le_add_right _ _)
    · rw [List.mem_singleton.mp hg, h.next hfew, toNat_nextHandle hslot]
      simp
  · exact (h.issued.insertTorrent hnew name payloads state).mono fun g => by simp

lemma generations_deed {d : Deed} (hd : d.filled? s = none) :
    (d.apply s).slots.map Slot.generation = s.slots.map Slot.generation := by
  by_cases hcall : ∃ c, d = .call c
  · obtain ⟨c, rfl⟩ := hcall
    refine EngineCall.generations_apply ?_ s
    cases c <;> first | rfl | cases hd
  · rw [slots_deed fun c e => hcall ⟨c, e⟩]

lemma length_le_apply (s : Simulated) (d : Deed) : s.slots.length ≤ (d.apply s).slots.length := by
  rcases d.add_or s with ⟨name, payloads, state, rfl⟩ | ⟨-, hfill⟩
  · by_contra hlt
    have hnone := slots_insertTorrent name payloads state s
      (Simulated.insertTorrent name payloads state s).2.slots.length
    rw [List.getElem?_eq_none_iff.mpr (Nat.le_refl _)] at hnone
    split_ifs at hnone
    exact hlt (List.getElem?_eq_none_iff.mp hnone.symm)
  · have hlen := congrArg List.length (generations_deed hfill)
    rw [List.length_map, List.length_map] at hlen
    exact Nat.le_of_eq hlen.symm

lemma nextSlot_lt_apply (name : String) (payloads : List Payload) (state : TorrentState)
    (s : Simulated) :
    s.nextSlot < (Simulated.insertTorrent name payloads state s).2.slots.length := by
  have hslot := slots_insertTorrent name payloads state s s.nextSlot
  rw [if_pos rfl] at hslot
  exact (List.getElem?_eq_some_iff.mp hslot).1

/-! ### Histories in which no slot runs out -/

/-- There are no more slots than have a number, and none was filled more often than it has
generations. -/
structure Lasting (s : Simulated) (deeds : List Deed) : Prop where
  slots : (s.after deeds).slots.length ≤ UInt32.size
  filled : ∀ i, (s.filled deeds).count i < UInt32.size

lemma Lasting.before {deeds : List Deed} {d : Deed} (h : Lasting s (deeds ++ [d])) :
    Lasting s deeds where
  slots := Nat.le_trans (by rw [after_snoc]; exact length_le_apply _ d) h.slots
  filled i := by
    have hlt := h.filled i
    rw [filled_snoc, List.count_append] at hlt
    omega

/-- **Slots count how often they were filled**, along every history. -/
theorem counted_after {deeds : List Deed} (hs : Counted [] [] s) (h : Lasting s deeds) :
    Counted (s.given deeds) (s.filled deeds) (s.after deeds) := by
  induction deeds using List.reverseRecOn with
  | nil => exact hs
  | append_singleton deeds d ih =>
    have hcounted := ih h.before
    rw [given_snoc, filled_snoc, after_snoc]
    rcases d.add_or (s.after deeds) with ⟨name, payloads, state, rfl⟩ | ⟨hgive, hfill⟩
    · refine hcounted.insertTorrent ?_ ?_ name payloads state
      · have hlen := h.slots
        rw [after_snoc] at hlen
        exact Nat.lt_of_lt_of_le (nextSlot_lt_apply name payloads state _) hlen
      · have hlt := h.filled (s.after deeds).nextSlot
        rw [filled_snoc, List.count_append] at hlt
        simpa [Deed.filled?] using hlt
    · simp only [hgive, hfill, Option.toList_none, List.append_nil]
      exact hcounted.congr (generations_deed hfill)

/-! ### Torrents that are tracked -/

/-- An add answered the handle, and it was not removed since. -/
def Kept (s : Simulated) (deeds : List Deed) (h : Handle) : Prop :=
  ∃ earlier name payloads state later,
    deeds = earlier ++ .call (.add name payloads state) :: later ∧
    (Simulated.insertTorrent name payloads state (s.after earlier)).1 = h ∧
      .call (.remove h) ∉ later

lemma kept_nil {h : Handle} : ¬ Kept s [] h := by
  rintro ⟨earlier, name, payloads, state, later, heq, -⟩
  simp at heq

lemma kept_snoc {deeds : List Deed} {d : Deed} {h : Handle} : Kept s (deeds ++ [d]) h ↔
    d.given? (s.after deeds) = some h ∨ Kept s deeds h ∧ d ≠ .call (.remove h) := by
  constructor
  · rintro ⟨earlier, name, payloads, state, later, heq, hgiven, hlater⟩
    rcases List.eq_nil_or_concat later with rfl | ⟨later, last, rfl⟩
    · obtain ⟨rfl, hd⟩ := List.append_inj' heq rfl
      obtain rfl := List.singleton_inj.mp hd
      exact .inl (congrArg some hgiven)
    · rw [List.concat_eq_append] at heq hlater
      rw [← List.cons_append, ← List.append_assoc] at heq
      obtain ⟨rfl, hd⟩ := List.append_inj' heq rfl
      obtain rfl := List.singleton_inj.mp hd
      rw [List.mem_append, List.mem_singleton, not_or] at hlater
      exact .inr ⟨⟨earlier, name, payloads, state, later, rfl, hgiven, hlater.1⟩, Ne.symm hlater.2⟩
  · rintro (hgiven | ⟨⟨earlier, name, payloads, state, later, rfl, hgiven, hlater⟩, hne⟩)
    · rcases d.add_or (s.after deeds) with ⟨name, payloads, state, rfl⟩ | ⟨hnone, -⟩
      · exact ⟨deeds, name, payloads, state, [], rfl, Option.some.inj hgiven, List.not_mem_nil⟩
      · rw [hnone] at hgiven
        cases hgiven
    · refine ⟨earlier, name, payloads, state, later ++ [d], by simp, hgiven, ?_⟩
      rw [List.mem_append, List.mem_singleton, not_or]
      exact ⟨hlater, Ne.symm hne⟩

/-- A call ends a torrent only by removing it. -/
lemma isSome_onTorrent {c : EngineCall} {h : Handle} (hc : c.handle? = some h)
    (t : SimulatedTorrent) : (c.onTorrent t).isSome = true ↔ c ≠ .remove h := by
  cases c with
  | remove g =>
    obtain rfl := Option.some.inj hc
    simp [EngineCall.onTorrent]
  | feed | setDeadline | resetDeadline =>
    simp only [EngineCall.onTorrent]
    split <;> simp
  | _ => simp [EngineCall.onTorrent]

/-- **What one deed makes of who is tracked**: an add begins with its handle, a removal ends with
its own, and nothing else changes anything. -/
theorem isSome_torrent?_deed (h : Counted given filled s) {d : Deed}
    (hnew : ∀ g, d.given? s = some g → g ∉ given) (g : Handle) :
    ((d.apply s).torrent? g).isSome = true ↔
      d.given? s = some g ∨ (s.torrent? g).isSome = true ∧ d ≠ .call (.remove g) := by
  have hstay : (∀ c, d ≠ .call c) → d.given? s = none → d ≠ .call (.remove g) →
      (((d.apply s).torrent? g).isSome = true ↔
        d.given? s = some g ∨ (s.torrent? g).isSome = true ∧ d ≠ .call (.remove g)) := by
    intro hcall hgive hne
    rw [torrent?_congr (slots_deed hcall s), hgive]
    simp [hne]
  cases d with
  | call c =>
    rcases hc : c.isAdd with _ | _
    · have hgive : Deed.given? s (.call c) = none := by cases c <;> first | rfl | cases hc
      rw [Deed.apply, EngineCall.torrent?_apply hc, hgive]
      rcases ht : s.torrent? g with _ | t
      · split_ifs <;> simp
      · split_ifs with hg
        · simp [isSome_onTorrent hg t]
        · have hne : c ≠ .remove g := by
            rintro rfl
            exact hg rfl
          simp [hne]
    · cases c with
      | add name payloads state =>
        show ((Simulated.insertTorrent name payloads state s).2.torrent? g).isSome = true ↔ _
        rw [torrent?_insertTorrent h.issued (hnew _ rfl)]
        have hgive : Deed.given? s (.call (.add name payloads state)) = some s.nextHandle := rfl
        rw [hgive]
        split_ifs with hg
        · simp [hg]
        · simp [Ne.symm hg]
      | _ => cases hc
  | _ => exact hstay (by simp) rfl (by simp)

/-- **A handle is tracked exactly if an add answered it and it was not removed since.** -/
theorem tracked_after {deeds : List Deed} (hs : s.slots = []) (h : Lasting s deeds) (g : Handle) :
    ((s.after deeds).torrent? g).isSome = true ↔ Kept s deeds g := by
  have hstart := counted_of_empty hs
  induction deeds using List.reverseRecOn with
  | nil => simp [torrent?, hs, kept_nil]
  | append_singleton deeds d ih =>
    have hnew : ∀ g, d.given? (s.after deeds) = some g → g ∉ s.given deeds := by
      intro g hg hmem
      have hnodup := (counted_after hstart h).nodup
      rw [given_snoc, hg] at hnodup
      exact (List.nodup_append.mp hnodup).2.2 g hmem g (by simp) rfl
    have htracked : ((s.after deeds).torrent? g).isSome = true ↔ Kept s deeds g := ih h.before
    rw [after_snoc, isSome_torrent?_deed (counted_after hstart h.before) hnew, kept_snoc, htracked]

end Simulated

/-! ### Calls that fail -/

def errorOf {ε α : Type} : Except ε α → Option ε
  | .ok _ => none
  | .error e => some e

namespace Simulated

/-- What is wrong with a handle, or with a piece of the torrent that it names. -/
def objection? (s : Simulated) (h : Handle) : Option Piece → Option EngineError
  | none => if (s.torrent? h).isSome then none else some .invalidHandle
  | some p =>
    match s.torrent? h with
    | some t =>
      if 0 ≤ p.index ∧ p.index < t.payloads.length then none else some (.invalidPiece p)
    | none => some .invalidHandle

lemma position?_eq_none {t : SimulatedTorrent} {p : Piece} :
    t.position? p = none ↔ ¬ (0 ≤ p.index ∧ p.index < t.payloads.length) := by
  unfold SimulatedTorrent.position? Piece.position?
  split_ifs with h <;> simp [h]

lemma errorOf_withTorrent {α : Type} {act : SimulatedTorrent → Call Simulated α} {s : Simulated}
    (hact : ∀ t, errorOf (act t s).1 = none) (h : Handle) :
    errorOf (withTorrent h act s).1 = s.objection? h none := by
  unfold withTorrent objection?
  rcases s.torrent? h with _ | t
  · rfl
  · exact hact t

lemma errorOf_withPiece {α : Type} {act : SimulatedTorrent → Nat → Call Simulated α} {s : Simulated}
    (hact : ∀ t i, errorOf (act t i s).1 = none) (h : Handle) (p : Piece) :
    errorOf (withPiece h p act s).1 = s.objection? h (some p) := by
  unfold withPiece withTorrent objection?
  rcases s.torrent? h with _ | t
  · rfl
  · rcases hp : t.position? p with _ | i
    · simp only [hp, if_neg (position?_eq_none.mp hp)]
      rfl
    · have hin : 0 ≤ p.index ∧ p.index < t.payloads.length := by
        by_contra hout
        rw [position?_eq_none.mpr hout] at hp
        cases hp
      simp only [hp, if_pos hin]
      exact hact t i

/-- Nothing changed but the number of status queries. -/
structure Unmoved (s s' : Simulated) : Prop where
  eq : s' = { s with statusQueries := s'.statusQueries }
  statusQueries : s.statusQueries ≤ s'.statusQueries

lemma Unmoved.refl (s : Simulated) : Unmoved s s := ⟨rfl, Nat.le_refl _⟩

end Simulated

namespace EngineCall

open Simulated

def error? (s : Simulated) : EngineCall → Option EngineError
  | add _ _ _ => none
  | finishChecking h => errorOf (Simulated.finishChecking h s).1
  | remove h => errorOf (removeTorrent h s).1
  | feed h p => errorOf (Simulated.feed h p s).1
  | fail h p e => errorOf (failPiece h p e s).1
  | log _ => none
  | setDeadline h p deadline alert => errorOf (Simulated.setDeadline h p deadline alert s).1
  | resetDeadline h p => errorOf (Simulated.resetDeadline h p s).1
  | status h withPieces => errorOf (Simulated.status h withPieces s).1
  | isTracked h => errorOf (Simulated.isTracked h s).1

/-- The handle that a call is made on, and the piece if it is about one. To ask whether a handle is
tracked is not to rely on it. -/
def target? : EngineCall → Option (Handle × Option Piece)
  | finishChecking h | remove h | status h _ => some (h, none)
  | feed h p | fail h p _ | setDeadline h p _ _ | resetDeadline h p => some (h, some p)
  | add _ _ _ | log _ | isTracked _ => none

/-- **A call fails for its handle or its piece, and for nothing else.** -/
theorem error?_eq (s : Simulated) (c : EngineCall) :
    c.error? s = c.target?.bind fun target => s.objection? target.1 target.2 := by
  cases c with
  | add | log | isTracked => rfl
  | finishChecking h | remove h => exact errorOf_withTorrent (fun _ => rfl) h
  | status h withPieces => exact errorOf_withTorrent (fun _ => rfl) h
  | feed h p | fail h p | resetDeadline h p => exact errorOf_withPiece (fun _ _ => rfl) h p
  | setDeadline h p deadline alert =>
    refine errorOf_withPiece (fun t i => ?_) h p
    split_ifs <;> rfl

/-- **A call that fails changes nothing**, but that a status query is counted. -/
theorem unmoved_of_error {s : Simulated} {c : EngineCall} {e : EngineError}
    (h : c.error? s = some e) : Unmoved s (c.apply s) := by
  have hhandle : ∀ {g : Handle} {e : EngineError}, s.objection? g none = some e →
      s.torrent? g = none := by
    intro g e hg
    unfold objection? at hg
    split_ifs at hg with hsome
    simpa using hsome
  have hpiece : ∀ {g : Handle} {p : Piece} {e : EngineError}, s.objection? g (some p) = some e →
      s.piece? g p = none := by
    intro g p e hg
    unfold objection? at hg
    rcases ht : s.torrent? g with _ | t
    · simp [piece?, ht]
    · rw [ht] at hg
      dsimp only at hg
      split_ifs at hg with hin
      simp [piece?, ht, position?_eq_none.mpr hin]
  rw [error?_eq] at h
  cases c with
  | add | log | isTracked => cases h
  | finishChecking g =>
    rw [apply, Simulated.finishChecking, withTorrent_none (hhandle h)]
    exact .refl s
  | remove g =>
    rw [apply, removeTorrent, withTorrent_none (hhandle h)]
    exact .refl s
  | status g withPieces =>
    rw [apply, snd_status]
    exact ⟨rfl, Nat.le_succ _⟩
  | feed g p =>
    rw [apply, Simulated.feed, withPiece_none (hpiece h)]
    exact .refl s
  | fail g p =>
    rw [apply, failPiece, withPiece_none (hpiece h)]
    exact .refl s
  | setDeadline g p =>
    rw [apply, Simulated.setDeadline, withPiece_none (hpiece h)]
    exact .refl s
  | resetDeadline g p =>
    rw [apply, Simulated.resetDeadline, withPiece_none (hpiece h)]
    exact .refl s

end EngineCall

namespace Simulated

def Deed.error? (s : Simulated) : Deed → Option EngineError
  | call c => c.error? s
  | applyMask _ => none
  | watch => errorOf (Simulated.watch s).1
  | unwatch => errorOf (Simulated.unwatch s).1
  | hasAlerts => errorOf (Simulated.hasAlerts s).1
  | takeAlerts => errorOf (Simulated.takeAlerts s).1

lemma Deed.unmoved {s : Simulated} {d : Deed} {e : EngineError} (h : d.error? s = some e) :
    Unmoved s (d.apply s) := by
  cases d with
  | call c => exact EngineCall.unmoved_of_error h
  | applyMask | takeAlerts => cases h
  | watch =>
    simp only [error?, apply, Simulated.watch] at h ⊢
    split_ifs at h ⊢ <;> first | exact .refl s | cases h
  | unwatch =>
    simp only [error?, apply, Simulated.unwatch] at h ⊢
    split_ifs at h ⊢ <;> first | exact .refl s | cases h
  | hasAlerts =>
    rw [apply, Source.snd_hasAlerts]
    exact .refl s

/-- **Handles are identities**, in every history of an engine in which no slot runs out of
generations:

* the handles that adds answer are all different;
* a handle is tracked exactly if an add answered it and it was not removed since;
* every call on a handle that is not tracked fails with that, and shows no deadline;
* every call about a piece fails with that if the torrent has no such piece;
* whatever fails, leaves the engine as it was, but that a status query is counted. -/
theorem handles_identify (notifySupported waitSupported : Bool) {deeds : List Deed}
    (h : Lasting (made notifySupported waitSupported) deeds) {s : Simulated}
    (hs : (made notifySupported waitSupported).after deeds = s) :
    ((made notifySupported waitSupported).given deeds).Nodup ∧
      (∀ g, (isTracked g s).1 = .ok true ↔ Kept (made notifySupported waitSupported) deeds g) ∧
      (∀ g, (isTracked g s).1 = .ok false →
        (∀ (c : EngineCall) (p : Option Piece), c.target? = some (g, p) →
          c.error? s = some .invalidHandle) ∧
        s.deadlines g = .error .invalidHandle ∧ ∀ p, s.hasDeadline g p = false) ∧
      (∀ (g : Handle) (t : SimulatedTorrent) (c : EngineCall) (p : Piece), s.torrent? g = some t →
        c.target? = some (g, some p) → p.index < 0 ∨ t.payloads.length ≤ p.index →
          c.error? s = some (.invalidPiece p)) ∧
      ∀ (d : Deed) (e : EngineError), d.error? s = some e → Unmoved s (d.apply s) := by
  subst hs
  have hstart : Counted [] [] (made notifySupported waitSupported) := by
    refine ⟨?_, ?_, List.nodup_nil, nofun, ?_, ?_, ?_⟩ <;> simp [made]
  have hnone : ∀ g, (isTracked g ((made notifySupported waitSupported).after deeds)).1 = .ok false →
      ((made notifySupported waitSupported).after deeds).torrent? g = none := fun g hg => by
    simpa [isTracked] using hg
  refine ⟨(counted_after hstart h).nodup, fun g => ?_,
    fun g hg => ⟨fun c p hc => ?_, ?_, fun p => ?_⟩,
    fun g t c p ht hc hp => ?_, fun d e hd => d.unmoved hd⟩
  · -- tracked, exactly if it is kept
    rw [← tracked_after rfl h]
    simp [isTracked]
  · rw [EngineCall.error?_eq, hc, Option.bind_some]
    cases p <;> simp only [objection?, hnone g hg, Option.isSome_none, Bool.false_eq_true, if_false]
  · simp only [deadlines, hnone g hg]
  · simp only [hasDeadline, hnone g hg]
  · -- a piece that the torrent has not
    rw [EngineCall.error?_eq, hc, Option.bind_some]
    simp only [objection?, ht]
    exact if_neg (by omega)

/-- A slot that is used again: the handle of its first torrent is no longer tracked, and that of its
second one is. -/
theorem handles_identify_reused : ∃ (deeds : List Deed) (s : Simulated),
    Lasting (made true true) deeds ∧ (made true true).after deeds = s ∧
      (made true true).given deeds = [⟨0, 1⟩, ⟨1, 1⟩, ⟨0, 2⟩] ∧
      ((made true true).given deeds).Nodup ∧ Kept (made true true) deeds ⟨0, 2⟩ ∧
      ¬ Kept (made true true) deeds ⟨0, 1⟩ ∧
      (EngineCall.remove ⟨0, 1⟩).error? s = some .invalidHandle ∧
      (EngineCall.feed ⟨0, 2⟩ ⟨1⟩).error? s = some (.invalidPiece ⟨1⟩) ∧
      Unmoved s ((EngineCall.feed ⟨0, 2⟩ ⟨1⟩).apply s) := by
  let deeds : List Deed :=
    [.applyMask .status, .call (.add "a" [[1]] .downloading), .call (.add "b" [] .downloading),
      .call (.remove ⟨0, 1⟩), .takeAlerts, .call (.add "c" [[3]] .checkingFiles)]
  have hfilled : (made true true).filled deeds = [0, 1, 0] := by decide
  have h : Lasting (made true true) deeds :=
    ⟨by decide, fun i => by
      rw [hfilled]
      exact Nat.lt_of_le_of_lt List.count_le_length (by decide)⟩
  obtain ⟨hnodup, htracked, huntracked, hpieces, hfailed⟩ := handles_identify true true h rfl
  have hgone : ¬ Kept (made true true) deeds ⟨0, 1⟩ := fun hk => by
    cases (htracked ⟨0, 1⟩).mpr hk
  have hpiece := hpieces ⟨0, 2⟩ _ (.feed ⟨0, 2⟩ ⟨1⟩) ⟨1⟩ rfl rfl (.inr (by decide))
  exact ⟨deeds, _, h, rfl, by decide, hnodup, (htracked _).mp rfl, hgone,
    (huntracked ⟨0, 1⟩ rfl).1 _ none rfl, hpiece, hfailed (.call (.feed ⟨0, 2⟩ ⟨1⟩)) _ hpiece⟩

end Simulated

end TorrentFlow
