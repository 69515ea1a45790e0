import Mathlib.Tactic.ByContra
import TorrentFlow.Proofs.Calls

/-!
The torrents of the simulated engine by handle. A call changes the torrent that its handle names and
no other; an add puts a new one under a handle that was never given out. So a handle that has lost
its torrent never names one again.
-/

namespace TorrentFlow

/-! ### Pieces by position -/

lemma isNone_position? (p : Piece) : p.position?.isNone = decide (p.index < 0) := by
  unfold Piece.position?
  split_ifs with hp <;> simp <;> omega

lemma position?_eq_some {t : SimulatedTorrent} {p : Piece} {i : Nat} :
    t.position? p = some i ↔ p.index = i ∧ i < t.payloads.length := by
  unfold SimulatedTorrent.position? Piece.position?
  rw [Option.filter_eq_some_iff, decide_eq_true_iff]
  split_ifs with h
  · rw [Option.some.injEq]
    omega
  · have hne : p.index ≠ i := by omega
    simp [hne]

lemma position?_inj {t : SimulatedTorrent} {p q : Piece} {i : Nat} (hp : t.position? p = some i)
    (hq : t.position? q = some i) : p = q := by
  have hindex : p.index = q.index := by
    rw [(position?_eq_some.mp hp).1, (position?_eq_some.mp hq).1]
  cases p
  cases q
  exact congrArg Piece.mk hindex

namespace Simulated

lemma torrent?_congr {s s' : Simulated} (h : s'.slots = s.slots) (g : Handle) :
    s'.torrent? g = s.torrent? g := by
  simp only [torrent?, h]

@[simp] lemma torrent?_emit (alerts : List Alert) (s : Simulated) (g : Handle) :
    (emit alerts s).torrent? g = s.torrent? g :=
  torrent?_congr (slots_emit alerts s) g

lemma torrent?_eq_some {s : Simulated} {h : Handle} {t : SimulatedTorrent} :
    s.torrent? h = some t ↔
      ∃ slot, s.slots[h.slot.toNat]? = some slot ∧ slot.generation = h.generation ∧
        slot.torrent = some t := by
  unfold torrent?
  rcases s.slots[h.slot.toNat]? with _ | slot
  · simp
  · by_cases hg : slot.generation = h.generation <;> simp [hg]

/-- **Only the handle that is written to names something else afterwards.** -/
lemma torrent?_putTorrent {s : Simulated} {h : Handle} {t₀ : SimulatedTorrent}
    (ht : s.torrent? h = some t₀) (t : Option SimulatedTorrent) (g : Handle) :
    (s.putTorrent h t).torrent? g = if g = h then t else s.torrent? g := by
  obtain ⟨slot, hslot, hgen, -⟩ := torrent?_eq_some.mp ht
  unfold putTorrent torrent?
  simp only [List.getElem?_modify]
  by_cases hs : h.slot.toNat = g.slot.toNat
  · have hslots : h.slot = g.slot := UInt32.toNat_inj.mp hs
    rw [hs] at hslot
    by_cases hg : g.generation = h.generation
    · have heq : g = h := by
        obtain ⟨i, a⟩ := g
        obtain ⟨j, b⟩ := h
        simp_all
      simp [heq, hs ▸ hslot, hgen]
    · have hne : ¬ g = h := fun e => hg (e ▸ rfl)
      have hne' : ¬ h.generation = g.generation := fun e => hg e.symm
      simp [hs, hslot, hgen, hne, hne']
  · have hne : ¬ g = h := fun e => hs (e ▸ rfl)
    simp [hs, hne]

/-! ### Handles that were given out -/

/-- Every slot's present handle was given out, and its first one before. -/
structure Issued (issued : Handle → Prop) (s : Simulated) : Prop where
  bound : ∀ i < s.slots.length, i < UInt32.size
  first : ∀ i < s.slots.length, issued ⟨UInt32.ofNat i, 1⟩
  present : ∀ i slot, s.slots[i]? = some slot → issued ⟨UInt32.ofNat i, slot.generation⟩

lemma issued_of_torrent {issued : Handle → Prop} {s : Simulated} (hi : Issued issued s) {h : Handle}
    {t : SimulatedTorrent} (ht : s.torrent? h = some t) : issued h := by
  obtain ⟨slot, hslot, hgen, -⟩ := torrent?_eq_some.mp ht
  have := hi.present _ slot hslot
  rwa [UInt32.ofNat_toNat, hgen] at this

lemma Issued.mono {issued issued' : Handle → Prop} {s : Simulated} (h : Issued issued s)
    (hle : ∀ g, issued g → issued' g) : Issued issued' s :=
  ⟨h.bound, fun i hi => hle _ (h.first i hi), fun i slot hs => hle _ (h.present i slot hs)⟩

lemma Issued.congr {issued : Handle → Prop} {s s' : Simulated} (h : Issued issued s)
    (hg : s'.slots.map (·.generation) = s.slots.map (·.generation)) : Issued issued s' := by
  have hlen : s'.slots.length = s.slots.length := by simpa using congrArg List.length hg
  refine ⟨hlen ▸ h.bound, hlen ▸ h.first, fun i slot hs => ?_⟩
  have hi := congrArg (·[i]?) hg
  simp only [List.getElem?_map, hs, Option.map_some] at hi
  obtain ⟨slot', hs', hgen⟩ := Option.map_eq_some_iff.mp hi.symm
  rw [← hgen]
  exact h.present i slot' hs'

def nextSlot (s : Simulated) : Nat := s.slots.findIdx fun slot => slot.torrent.isNone

lemma nextSlot_cases (s : Simulated) :
    (∃ slot, s.slots[s.nextSlot]? = some slot ∧ slot.torrent = none) ∨
      s.nextSlot = s.slots.length := by
  rcases Nat.lt_or_ge s.nextSlot s.slots.length with h | h
  · have hnone : s.slots[s.nextSlot].torrent.isNone = true := List.findIdx_getElem (w := h)
    exact Or.inl ⟨s.slots[s.nextSlot], List.getElem?_eq_getElem h, by simpa using hnone⟩
  · exact Or.inr (Nat.le_antisymm List.findIdx_le_length h)

def nextHandle (s : Simulated) : Handle :=
  ⟨UInt32.ofNat s.nextSlot, (s.slots[s.nextSlot]?.map (·.generation)).getD 0 + 1⟩

/-- The slots after an add. -/
lemma slots_insertTorrent (name : String) (payloads : List Payload) (state : TorrentState)
    (s : Simulated) (j : Nat) : (insertTorrent name payloads state s).2.slots[j]? =
      if j = s.nextSlot then some ⟨s.nextHandle.generation, some (.fresh name payloads state)⟩
      else s.slots[j]? := by
  have hslots : (insertTorrent name payloads state s).2.slots =
      if s.nextSlot < s.slots.length then
        s.slots.set s.nextSlot ⟨s.nextHandle.generation, some (.fresh name payloads state)⟩
      else s.slots ++ [⟨s.nextHandle.generation, some (.fresh name payloads state)⟩] :=
    slots_emit _ _
  rw [hslots]
  rcases nextSlot_cases s with ⟨slot, hslot, -⟩ | hend
  · have hlt : s.nextSlot < s.slots.length := (List.getElem?_eq_some_iff.mp hslot).1
    rw [if_pos hlt, List.getElem?_set]
    by_cases hj : s.nextSlot = j
    · subst hj
      simp [hlt]
    · rw [if_neg hj, if_neg fun e => hj e.symm]
  · rw [if_neg (by omega), List.getElem?_append]
    by_cases hj : j = s.nextSlot
    · rw [if_neg (by omega), if_pos hj, hj, hend]
      simp
    · rw [if_neg hj]
      split_ifs with hlt
      · rfl
      · rw [List.getElem?_eq_none_iff.mpr (by simp; omega),
          List.getElem?_eq_none_iff.mpr (by omega)]

/-- A handle that was not given out before belongs to a slot that has a number. -/
lemma nextSlot_lt {issued : Handle → Prop} {s : Simulated} (hi : Issued issued s)
    (hnew : ¬ issued s.nextHandle) : s.nextSlot < UInt32.size := by
  by_contra hge
  have hsize : 0 < UInt32.size := by decide
  rcases nextSlot_cases s with ⟨slot, hslot, -⟩ | hend
  · exact hge (hi.bound _ (List.getElem?_eq_some_iff.mp hslot).1)
  · -- the slot after the last one that has a number would be called like the first one
    have hlast := hi.bound (s.slots.length - 1) (by omega)
    have hlen : s.nextSlot = UInt32.size := by omega
    have hfirst := hi.first 0 (by omega)
    apply hnew
    unfold nextHandle
    rw [List.getElem?_eq_none_iff.mpr (by omega), hlen]
    exact hfirst

lemma toNat_nextHandle {s : Simulated} (h : s.nextSlot < UInt32.size) :
    s.nextHandle.slot.toNat = s.nextSlot :=
  UInt32.toNat_ofNat_of_lt' h

/-- **An add names the new torrent and leaves all others as they are**, if its slot has a number. -/
theorem torrent?_insertTorrent_of_lt {s : Simulated} (hlt : s.nextSlot < UInt32.size)
    (name : String) (payloads : List Payload) (state : TorrentState) (g : Handle) :
    (insertTorrent name payloads state s).2.torrent? g =
      if g = s.nextHandle then some (.fresh name payloads state) else s.torrent? g := by
  have hslot := toNat_nextHandle hlt
  unfold torrent?
  rw [slots_insertTorrent]
  by_cases hs : g.slot.toNat = s.nextSlot
  · -- a handle of the slot that is filled: the new one, or an outdated one
    have hgs : g.slot = s.nextHandle.slot := UInt32.toNat_inj.mp (hs.trans hslot.symm)
    rw [if_pos hs]
    by_cases hg : s.nextHandle.generation = g.generation
    · have heq : g = s.nextHandle := by
        rw [Handle.mk.injEq] at *
        exact ⟨hgs, hg.symm⟩
      simp [heq]
    · have hne : ¬ g = s.nextHandle := fun e => hg (e ▸ rfl)
      simp only [hg, hne, if_false, hs]
      rcases nextSlot_cases s with ⟨slot, hslot, hnone⟩ | hend
      · simp [hslot, hnone]
      · rw [List.getElem?_eq_none_iff.mpr (by omega)]
  · have hne : ¬ g = s.nextHandle := fun e => hs (e ▸ hslot)
    simp only [hs, hne, if_false]

lemma torrent?_insertTorrent {issued : Handle → Prop} {s : Simulated} (hi : Issued issued s)
    (hnew : ¬ issued s.nextHandle) (name : String) (payloads : List Payload) (state : TorrentState)
    (g : Handle) : (insertTorrent name payloads state s).2.torrent? g =
      if g = s.nextHandle then some (.fresh name payloads state) else s.torrent? g :=
  torrent?_insertTorrent_of_lt (nextSlot_lt hi hnew) name payloads state g

lemma torrent?_nextHandle {s : Simulated} (hlt : s.nextSlot < UInt32.size) :
    s.torrent? s.nextHandle = none := by
  unfold torrent?
  rw [toNat_nextHandle hlt]
  rcases nextSlot_cases s with ⟨slot, hslot, hnone⟩ | hend
  · simp [hslot, hnone]
  · rw [List.getElem?_eq_none_iff.mpr (Nat.le_of_eq hend.symm)]

/-- Whatever was given out before, an add changes what one handle names. -/
lemma torrent?_insertTorrent_cases {s : Simulated} {name : String} {payloads : List Payload}
    {state : TorrentState} {g : Handle} {t : SimulatedTorrent}
    (h : (insertTorrent name payloads state s).2.torrent? g = some t) :
    (g = s.nextHandle ∧ t = .fresh name payloads state) ∨ s.torrent? g = some t := by
  obtain ⟨slot, hslot, hgen, ht⟩ := torrent?_eq_some.mp h
  rw [slots_insertTorrent] at hslot
  split_ifs at hslot with hs
  · left
    cases hslot
    cases ht
    refine ⟨?_, rfl⟩
    obtain ⟨i, a⟩ := g
    dsimp only at hs hgen
    rw [← hgen, ← UInt32.ofNat_toNat (x := i), hs]
    rfl
  · exact Or.inr (torrent?_eq_some.mpr ⟨slot, hslot, hgen, ht⟩)

lemma slot_insertTorrent {s : Simulated} {name : String} {payloads : List Payload}
    {state : TorrentState} {i : Nat}
    (h : i < (Simulated.insertTorrent name payloads state s).2.slots.length) :
    i = s.nextSlot ∨ i < s.slots.length := by
  by_contra hc
  simp only [not_or] at hc
  have := slots_insertTorrent name payloads state s i
  rw [if_neg hc.1, List.getElem?_eq_getElem h, List.getElem?_eq_none_iff.mpr (by omega)] at this
  cases this

lemma Issued.insertTorrent {issued : Handle → Prop} {s : Simulated} (hi : Issued issued s)
    (hnew : ¬ issued s.nextHandle) (name : String) (payloads : List Payload)
    (state : TorrentState) :
    Issued (fun g => issued g ∨ g = s.nextHandle)
      (Simulated.insertTorrent name payloads state s).2 := by
  have hlt := nextSlot_lt hi hnew
  refine ⟨fun i h => ?_, fun i h => ?_, fun i slot hs => ?_⟩
  · rcases slot_insertTorrent h with rfl | h
    · exact hlt
    · exact hi.bound i h
  · rcases slot_insertTorrent h with rfl | h
    · rcases nextSlot_cases s with ⟨slot, hslot, -⟩ | hend
      · exact Or.inl (hi.first _ (List.getElem?_eq_some_iff.mp hslot).1)
      · -- a new slot begins with its first generation
        right
        unfold nextHandle
        rw [List.getElem?_eq_none_iff.mpr (by omega)]
        rfl
    · exact Or.inl (hi.first i h)
  · rw [slots_insertTorrent] at hs
    split_ifs at hs with hi'
    · subst hi'
      cases hs
      exact Or.inr rfl
    · exact Or.inl (hi.present i slot hs)

/-! ### Handles by number -/

/-- The handles that were given out are all different, and each slot's generation counts how often a
handle of the slot was given out. -/
structure Numbered (given : List Handle) (s : Simulated) : Prop where
  nodup : given.Nodup
  length : s.slots.length ≤ given.length
  counted : ∀ (i : Nat) (slot : Slot), s.slots[i]? = some slot →
    slot.generation.toNat ≤ given.length
  reached : ∀ h ∈ given, ∃ slot : Slot, s.slots[h.slot.toNat]? = some slot ∧
    h.generation.toNat ≤ slot.generation.toNat

lemma Numbered.congr {given : List Handle} {s s' : Simulated} (h : Numbered given s)
    (hg : s'.slots.map (·.generation) = s.slots.map (·.generation)) : Numbered given s' := by
  have hat : ∀ i : Nat, (s'.slots[i]?).map (·.generation) = (s.slots[i]?).map (·.generation) :=
    fun i => by simpa only [List.getElem?_map] using congrArg (·[i]?) hg
  refine ⟨h.nodup, ?_, fun i slot' hs' => ?_, fun g hmem => ?_⟩
  · have hlen : s'.slots.length = s.slots.length := by simpa using congrArg List.length hg
    exact hlen ▸ h.length
  · have hi := hat i
    rw [hs', Option.map_some] at hi
    obtain ⟨slot, hs, hgen⟩ := Option.map_eq_some_iff.mp hi.symm
    exact hgen ▸ h.counted i slot hs
  · obtain ⟨slot, hs, hle⟩ := h.reached g hmem
    have hi := hat g.slot.toNat
    rw [hs, Option.map_some] at hi
    obtain ⟨slot', hs', hgen⟩ := Option.map_eq_some_iff.mp hi
    exact ⟨slot', hs', hgen ▸ hle⟩

/-- As long as generations do not run out an add gives out a handle that nobody had before. -/
theorem Numbered.insertTorrent {given : List Handle} {s : Simulated} (h : Numbered given s)
    (hfew : given.length + 1 < UInt32.size) (name : String) (payloads : List Payload)
    (state : TorrentState) :
    Numbered (given ++ [s.nextHandle]) (Simulated.insertTorrent name payloads state s).2 := by
  have hlength := h.length
  have hnext : s.nextSlot ≤ s.slots.length := List.findIdx_le_length
  have hslot : s.nextHandle.slot.toNat = s.nextSlot := toNat_nextHandle (by omega)
  -- the generation of the new handle is one more than the slot's, which has not run out
  have hgen : ∀ slot : Slot, s.slots[s.nextSlot]? = some slot →
      s.nextHandle.generation.toNat = slot.generation.toNat + 1 := fun slot hs => by
    have hle := h.counted _ slot hs
    show ((s.slots[s.nextSlot]?.map (·.generation)).getD 0 + 1).toNat = _
    rw [hs, Option.map_some, Option.getD_some, UInt32.toNat_add, UInt32.toNat_one]
    exact Nat.mod_eq_of_lt (show slot.generation.toNat + 1 < UInt32.size by omega)
  have hnew : s.nextHandle.generation.toNat ≤ given.length + 1 := by
    rcases hs : s.slots[s.nextSlot]? with _ | slot
    · have hone : s.nextHandle.generation = 0 + 1 := by
        show (s.slots[s.nextSlot]?.map (·.generation)).getD 0 + 1 = 0 + 1
        rw [hs]
        rfl
      rw [hone]
      exact Nat.succ_le_succ (Nat.zero_le _)
    · have hle := h.counted _ slot hs
      have := hgen slot hs
      omega
  refine ⟨?_, ?_, fun i slot hs => ?_, fun g hmem => ?_⟩
  · -- the slot has come to the generation of each handle given out before, so the next one is new
    rw [List.nodup_append]
    refine ⟨h.nodup, by simp, fun g hg g' hg' e => ?_⟩
    obtain ⟨slot, hs, hle⟩ := h.reached g hg
    rw [e, List.mem_singleton.mp hg', hslot] at hs
    rw [e, List.mem_singleton.mp hg', hgen slot hs] at hle
    omega
  · rw [List.length_append, List.length_singleton]
    by_contra hlt
    rcases slot_insertTorrent (i := given.length + 1)
      (Nat.lt_of_not_le hlt) with heq | hlt <;> omega
  · rw [List.length_append, List.length_singleton]
    rw [slots_insertTorrent] at hs
    split_ifs at hs
    · obtain rfl := Option.some.inj hs
      exact hnew
    · have := h.counted i slot hs
      omega
  · -- each handle's slot has come to its generation, the new one's just now
    rw [slots_insertTorrent]
    rcases List.mem_append.mp hmem with hg | hg
    · obtain ⟨slot, hs, hle⟩ := h.reached g hg
      split_ifs with hi
      · rw [hi] at hs
        have := hgen slot hs
        exact ⟨_, rfl, by dsimp only; omega⟩
      · exact ⟨slot, hs, hle⟩
    · rw [List.mem_singleton.mp hg, hslot, if_pos rfl]
      exact ⟨_, rfl, Nat.le_refl _⟩

end Simulated

namespace EngineCall

open Simulated

def isAdd : EngineCall → Bool
  | add .. => true
  | _ => false

def handle? : EngineCall → Option Handle
  | finishChecking h => some h
  | remove h => some h
  | feed h _ => some h
  | setDeadline h _ _ _ => some h
  | resetDeadline h _ => some h
  | _ => none

def onTorrent (t : SimulatedTorrent) : EngineCall → Option SimulatedTorrent
  | finishChecking _ => some { t with state := .downloading }
  | remove _ => none
  | feed _ p =>
    match t.position? p with
    | some i => some (fed t p i)
    | none => some t
  | setDeadline _ p deadline alert =>
    match t.position? p with
    | some i =>
      some { t with
        deadlines := t.deadlines.set p deadline
        readRequests :=
          if alert && !t.isAvailable i then t.readRequests.insert p else t.readRequests }
    | none => some t
  | resetDeadline _ p =>
    match t.position? p with
    | some _ =>
      some { t with deadlines := t.deadlines.erase p, readRequests := t.readRequests.erase p }
    | none => some t
  | _ => some t

/-- **A call that adds nothing changes the torrent that it is about, and no other.** -/
theorem torrent?_apply {c : EngineCall} (hc : c.isAdd = false) (s : Simulated) (g : Handle) :
    (c.apply s).torrent? g =
      if c.handle? = some g then (s.torrent? g).bind fun t => c.onTorrent t
      else s.torrent? g := by
  have hmiss : ∀ {h : Handle}, s.torrent? h = none → s.torrent? g =
      if some h = some g then (s.torrent? g).bind fun t => c.onTorrent t else s.torrent? g := by
    intro h ht
    split_ifs with hg
    · rw [← Option.some.inj hg, ht]
      rfl
    · rfl
  have hstay : ∀ {h : Handle} {t : SimulatedTorrent}, s.torrent? h = some t →
      c.onTorrent t = some t → s.torrent? g =
        if some h = some g then (s.torrent? g).bind fun t => c.onTorrent t else s.torrent? g := by
    intro h t ht hon
    split_ifs with hg
    · rw [← Option.some.inj hg, ht, Option.bind_some, hon]
    · rfl
  -- a call that finds its torrent puts back what it makes of it
  have hput : ∀ {h : Handle} {t : SimulatedTorrent}, s.torrent? h = some t →
      (s.putTorrent h (c.onTorrent t)).torrent? g =
        if some h = some g then (s.torrent? g).bind fun t => c.onTorrent t else s.torrent? g := by
    intro h t ht
    rw [torrent?_putTorrent ht]
    by_cases hg : g = h
    · rw [if_pos hg, if_pos (congrArg some hg.symm), hg, ht, Option.bind_some]
    · rw [if_neg hg, if_neg fun e => hg (Option.some.inj e).symm]
  -- a call about a piece does nothing if the torrent has no such piece
  have hpiece : ∀ {h : Handle} {p : Piece}, s.piece? h p = none →
      (∀ t, t.position? p = none → c.onTorrent t = some t) → s.torrent? g =
        if some h = some g then (s.torrent? g).bind fun t => c.onTorrent t else s.torrent? g := by
    intro h p hp hon
    rcases ht : s.torrent? h with _ | t
    · exact hmiss ht
    · refine hstay ht (hon t ?_)
      rcases hi : t.position? p with _ | i
      · rfl
      · rw [piece?_eq_some.mpr ⟨ht, hi⟩] at hp
        cases hp
  cases c with
  | add => cases hc
  | finishChecking h =>
    rcases ht : s.torrent? h with _ | t
    · rw [apply, Simulated.finishChecking, withTorrent_none ht]
      exact hmiss ht
    · rw [apply, Simulated.finishChecking, withTorrent_some ht, torrent?_emit]
      exact hput ht
  | remove h =>
    rcases ht : s.torrent? h with _ | t
    · rw [apply, removeTorrent, withTorrent_none ht]
      exact hmiss ht
    · rw [apply, removeTorrent, withTorrent_some ht, torrent?_emit]
      exact hput ht
  | feed h p =>
    rcases hp : s.piece? h p with _ | ⟨t, i⟩
    · rw [apply, Simulated.feed, withPiece_none hp]
      exact hpiece hp fun t ht => by simp only [onTorrent, ht]
    · obtain ⟨ht, hi⟩ := piece?_eq_some.mp hp
      rw [apply, Simulated.feed, withPiece_some hp, torrent?_emit]
      have h := hput ht
      simp only [onTorrent, hi] at h ⊢
      exact h
  | fail h p e =>
    rcases hp : s.piece? h p with _ | ⟨t, i⟩
    · rw [apply, failPiece, withPiece_none hp]
      rfl
    · rw [apply, failPiece, withPiece_some hp, torrent?_emit]
      rfl
  | log text => exact torrent?_emit _ s g
  | setDeadline h p deadline alert =>
    rcases hp : s.piece? h p with _ | ⟨t, i⟩
    · rw [apply, Simulated.setDeadline, withPiece_none hp]
      exact hpiece hp fun t ht => by simp only [onTorrent, ht]
    · obtain ⟨ht, hi⟩ := piece?_eq_some.mp hp
      rw [apply, Simulated.setDeadline, withPiece_some hp]
      have h := hput ht
      simp only [onTorrent, hi] at h ⊢
      refine Eq.trans ?_ h
      -- an alert for a piece that is there comes at once, which no torrent shows
      by_cases ha : alert = true <;> by_cases hav : t.isAvailable i = true <;> simp [ha, hav]
  | resetDeadline h p =>
    rcases hp : s.piece? h p with _ | ⟨t, i⟩
    · rw [apply, Simulated.resetDeadline, withPiece_none hp]
      exact hpiece hp fun t ht => by simp only [onTorrent, ht]
    · obtain ⟨ht, hi⟩ := piece?_eq_some.mp hp
      rw [apply, Simulated.resetDeadline, withPiece_some hp]
      have h := hput ht
      simp only [onTorrent, hi] at h ⊢
      exact h
  | status h withPieces =>
    rw [apply, snd_status]
    rfl
  | isTracked h => rfl

lemma generations_putTorrent (s : Simulated) (h : Handle) (t : Option SimulatedTorrent) :
    (s.putTorrent h t).slots.map (·.generation) = s.slots.map (·.generation) := by
  refine List.ext_getElem? fun i => ?_
  simp only [putTorrent, List.getElem?_map, List.getElem?_modify]
  rcases s.slots[i]? with _ | slot
  · rfl
  · by_cases hi : h.slot.toNat = i <;> simp [hi]

/-- No call but an add changes the generation of a slot. -/
lemma generations_apply {c : EngineCall} (hc : c.isAdd = false) (s : Simulated) :
    (c.apply s).slots.map (·.generation) = s.slots.map (·.generation) := by
  cases c with
  | add => cases hc
  | finishChecking h =>
    rcases ht : s.torrent? h with _ | t
    · rw [apply, Simulated.finishChecking, withTorrent_none ht]
    · rw [apply, Simulated.finishChecking, withTorrent_some ht, slots_emit]
      exact generations_putTorrent s h _
  | remove h =>
    rcases ht : s.torrent? h with _ | t
    · rw [apply, removeTorrent, withTorrent_none ht]
    · rw [apply, removeTorrent, withTorrent_some ht, slots_emit]
      exact generations_putTorrent s h _
  | feed h p =>
    rcases hp : s.piece? h p with _ | ⟨t, i⟩
    · rw [apply, Simulated.feed, withPiece_none hp]
    · rw [apply, Simulated.feed, withPiece_some hp, slots_emit]
      exact generations_putTorrent s h _
  | fail h p e =>
    rcases hp : s.piece? h p with _ | ⟨t, i⟩
    · rw [apply, failPiece, withPiece_none hp]
    · rw [apply, failPiece, withPiece_some hp, slots_emit]
  | log text => exact congrArg _ (slots_emit _ s)
  | setDeadline h p deadline alert =>
    rcases hp : s.piece? h p with _ | ⟨t, i⟩
    · rw [apply, Simulated.setDeadline, withPiece_none hp]
    · rw [apply, Simulated.setDeadline, withPiece_some hp]
      by_cases ha : alert = true <;> by_cases hav : t.isAvailable i = true <;>
        simp [ha, hav, generations_putTorrent]
  | resetDeadline h p =>
    rcases hp : s.piece? h p with _ | ⟨t, i⟩
    · rw [apply, Simulated.resetDeadline, withPiece_none hp]
    · rw [apply, Simulated.resetDeadline, withPiece_some hp]
      exact generations_putTorrent s h _
  | status h withPieces => rw [apply, snd_status]
  | isTracked h => rfl

lemma payloads_onTorrent {c : EngineCall} {t t' : SimulatedTorrent} (h : c.onTorrent t = some t') :
    t'.payloads = t.payloads ∧ t'.available.length = t.available.length := by
  cases c with
  | remove => cases h
  | feed _ p =>
    simp only [onTorrent] at h
    split at h <;> cases h
    · simp [fed]
    · exact ⟨rfl, rfl⟩
  | setDeadline _ p =>
    simp only [onTorrent] at h
    split at h <;> cases h <;> exact ⟨rfl, rfl⟩
  | resetDeadline _ p =>
    simp only [onTorrent] at h
    split at h <;> cases h <;> exact ⟨rfl, rfl⟩
  | _ =>
    cases h
    exact ⟨rfl, rfl⟩

/-- The call asks for pieces, or asks a question: it is not about what becomes of a torrent. -/
def isTending : EngineCall → Bool
  | setDeadline .. => true
  | resetDeadline .. => true
  | status .. => true
  | isTracked .. => true
  | _ => false

lemma isAdd_of_isTending {c : EngineCall} (hc : c.isTending = true) : c.isAdd = false := by
  cases c <;> first | rfl | cases hc

lemma onTorrent_of_isTending {c : EngineCall} (hc : c.isTending = true) (t : SimulatedTorrent) :
    ∃ t', c.onTorrent t = some t' ∧ t'.payloads = t.payloads ∧ t'.available = t.available := by
  cases c with
  | setDeadline _ p => simp only [onTorrent]; split <;> exact ⟨_, rfl, rfl, rfl⟩
  | resetDeadline _ p => simp only [onTorrent]; split <;> exact ⟨_, rfl, rfl, rfl⟩
  | status => exact ⟨t, rfl, rfl, rfl⟩
  | isTracked => exact ⟨t, rfl, rfl, rfl⟩
  | _ => cases hc

end EngineCall

namespace Simulated

/-- The same torrents are there, with the same pieces downloaded. What is wanted of them may
differ. -/
structure Tended (s s' : Simulated) : Prop where
  generations : s'.slots.map (·.generation) = s.slots.map (·.generation)
  gone : ∀ g, s.torrent? g = none → s'.torrent? g = none
  kept : ∀ g t, s.torrent? g = some t →
    ∃ t', s'.torrent? g = some t' ∧ t'.payloads = t.payloads ∧ t'.available = t.available

lemma Tended.of_slots {s s' : Simulated} (h : s'.slots = s.slots) : Tended s s' where
  generations := by rw [h]
  gone g hg := (torrent?_congr h g).trans hg
  kept g t ht := ⟨t, (torrent?_congr h g).trans ht, rfl, rfl⟩

lemma Tended.trans {s s' s'' : Simulated} (h : Tended s s') (h' : Tended s' s'') :
    Tended s s'' where
  generations := h'.generations.trans h.generations
  gone g hg := h'.gone g (h.gone g hg)
  kept g t ht := by
    obtain ⟨t', ht', hp', ha'⟩ := h.kept g t ht
    obtain ⟨t'', ht'', hp'', ha''⟩ := h'.kept g t' ht'
    exact ⟨t'', ht'', hp''.trans hp', ha''.trans ha'⟩

lemma Tended.back {s s' : Simulated} (h : Tended s s') {g : Handle} {t' : SimulatedTorrent}
    (ht' : s'.torrent? g = some t') : ∃ t, s.torrent? g = some t ∧ t'.payloads = t.payloads := by
  rcases ht : s.torrent? g with _ | t
  · rw [h.gone g ht] at ht'
    cases ht'
  · obtain ⟨t'', ht'', hpay, -⟩ := h.kept g t ht
    rw [ht', Option.some.injEq] at ht''
    exact ⟨t, rfl, ht'' ▸ hpay⟩

lemma Tended.none_iff {s s' : Simulated} (h : Tended s s') (g : Handle) :
    s'.torrent? g = none ↔ s.torrent? g = none := by
  refine ⟨fun hnone => ?_, h.gone g⟩
  rcases ht : s.torrent? g with _ | t
  · rfl
  · obtain ⟨t', ht', -⟩ := h.kept g t ht
    rw [hnone] at ht'
    cases ht'

lemma tended_apply {c : EngineCall} (hc : c.isTending = true) (s : Simulated) :
    Tended s (c.apply s) where
  generations := c.generations_apply (c.isAdd_of_isTending hc) s
  gone g hg := by
    rw [c.torrent?_apply (c.isAdd_of_isTending hc), hg]
    split_ifs <;> rfl
  kept g t ht := by
    rw [c.torrent?_apply (c.isAdd_of_isTending hc), ht]
    split_ifs
    · exact c.onTorrent_of_isTending hc t
    · exact ⟨t, rfl, rfl, rfl⟩

/-- Every torrent has the pieces that it was added with. -/
def Known (added : Handle → List Payload → Prop) (s : Simulated) : Prop :=
  ∀ h t, s.torrent? h = some t → added h t.payloads ∧ t.available.length = t.payloads.length

lemma Known.apply {added : Handle → List Payload → Prop} {s : Simulated} (h : Known added s)
    {c : EngineCall} (hc : c.isAdd = false) : Known added (c.apply s) := by
  intro g t' hg
  rw [c.torrent?_apply hc] at hg
  split_ifs at hg
  · obtain ⟨t, ht, hon⟩ := Option.bind_eq_some_iff.mp hg
    obtain ⟨hp, ha⟩ := EngineCall.payloads_onTorrent hon
    obtain ⟨hadd, hlen⟩ := h g t ht
    rw [hp, ha]
    exact ⟨hadd, hlen⟩
  · exact h g t' hg

lemma Known.mono {added added' : Handle → List Payload → Prop} {s : Simulated} (h : Known added s)
    (hle : ∀ g payloads, added g payloads → added' g payloads) : Known added' s :=
  fun g t ht => ⟨hle g _ (h g t ht).1, (h g t ht).2⟩

lemma Known.insertTorrent {added : Handle → List Payload → Prop} {s : Simulated} (h : Known added s)
    {name : String} {payloads : List Payload} {state : TorrentState}
    (hnew : added s.nextHandle payloads) :
    Known added (Simulated.insertTorrent name payloads state s).2 := by
  intro g t hg
  rcases torrent?_insertTorrent_cases hg with ⟨rfl, rfl⟩ | hg
  · exact ⟨hnew, by simp [SimulatedTorrent.fresh]⟩
  · exact h g t hg

end Simulated

end TorrentFlow
