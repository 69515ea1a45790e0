import TorrentFlow.Proofs.Holders

/-!
A demand under any operations, balanced or not. What becomes of the holders of one category is read
off the operations with that category alone in mind (`Tally`), whatever else their masks hold; and
whoever gives back what nobody holds is told so, category by category.
-/

namespace TorrentFlow

namespace Holders

/-! ### Giving back what nobody holds -/

lemma Tidy.foldl_releaseBit {h : Holders} (ht : h.Tidy) (bits : List Category) :
    (bits.foldl (fun h b => (h.releaseBit b).1) h).Tidy := by
  induction bits generalizing h with
  | nil => exact ht
  | cons b rest ih => exact ih (ht.releaseBit b)

lemma snd_releaseBit {h : Holders} (ht : h.Tidy) (b : Category) :
    (h.releaseBit b).2 = if h.count b = 0 then [.categoryNotHeld b] else [] := by
  unfold releaseBit count
  rcases hb : h.counts.get? b with _ | n
  · simp
  · have hpos := ht.pos b n hb
    have hne : n ≠ 0 := by omega
    by_cases hn : n ≤ 1 <;> simp [hn, hne]

def unheld (h : Holders) (mask : Category) : List Nat :=
  mask.bitNumbers.filter fun i => h.count (.bit i) = 0

/-- **A release is worth a notice for each category that nobody holds, lowest first.** -/
theorem snd_release {h : Holders} (ht : h.Tidy) (mask : Category) :
    (h.release mask).2 = (h.unheld mask).map fun i => .categoryNotHeld (.bit i) := by
  suffices hs : ∀ (l : List Nat) (h : Holders) (ns : List Notice), l.Nodup → (∀ i ∈ l, i < 32) →
      h.Tidy → ((l.map Category.bit).foldl (fun done b =>
        ((done.1.releaseBit b).1, done.2 ++ (done.1.releaseBit b).2)) (h, ns)).2 =
        ns ++ (l.filter fun i => h.count (.bit i) = 0).map fun i => .categoryNotHeld (.bit i) by
    rw [release, Category.members_eq]
    exact hs mask.bitNumbers h [] mask.bitNumbers_nodup
      (fun _ hi => Category.lt_of_has (Category.mem_bitNumbers.mp hi)) ht
  intro l
  induction l with
  | nil => simp
  | cons j rest ih =>
    intro h ns hn hl ht
    obtain ⟨hj, hrest⟩ := List.nodup_cons.mp hn
    -- to release bit `j` leaves the counts of the later ones alone
    have hlater : ∀ i ∈ rest, (h.releaseBit (.bit j)).1.count (.bit i) = h.count (.bit i) := by
      intro i hi
      have hne : Category.bit i ≠ Category.bit j := fun e =>
        hj (Category.bit_inj (hl i (by simp [hi])) (hl j (by simp)) e ▸ hi)
      rw [count_releaseBit, if_neg hne, Nat.sub_zero]
    have hfilter : (rest.filter fun i => (h.releaseBit (.bit j)).1.count (.bit i) = 0) =
        rest.filter fun i => h.count (.bit i) = 0 :=
      List.filter_congr fun i hi => by rw [hlater i hi]
    rw [List.map_cons, List.foldl_cons, ih _ _ hrest (fun i hi => hl i (by simp [hi]))
      (ht.releaseBit _), hfilter, snd_releaseBit ht]
    by_cases h0 : h.count (.bit j) = 0 <;> simp [h0]

end Holders

namespace Demand

open Holders (share)

inductive Op where
  | acquire (mask : Category)
  | release (mask : Category)
  | stage (configured : Category)

/-- What one category goes through: how many hold it, and how many of them are the configuration. -/
structure Tally where
  held : Nat
  configured : Nat

def Tally.step (i : Nat) (t : Tally) : Op → Tally
  | .acquire mask => { t with held := t.held + share mask i }
  | .release mask => { t with held := t.held - share mask i }
  | .stage configured => ⟨t.held + share configured i - t.configured, share configured i⟩

/-- What category `i` has gone through after some operations. -/
def Tally.after (i : Nat) (configured : Category) (ops : List Op) : Tally :=
  ops.foldl (Tally.step i) ⟨share configured i, share configured i⟩

@[simp] lemma Tally.after_nil (i : Nat) (configured : Category) :
    Tally.after i configured [] = ⟨share configured i, share configured i⟩ := rfl

@[simp] lemma Tally.after_snoc (i : Nat) (configured : Category) (ops : List Op) (op : Op) :
    Tally.after i configured (ops ++ [op]) = (Tally.after i configured ops).step i op := by
  simp [Tally.after]

def unheld (d : Demand) : Op → List Nat
  | .acquire _ => []
  | .release mask => d.holders.unheld mask
  | .stage configured => (d.holders.acquire configured).unheld d.configured

section Any

variable {σ : Type} [Engine σ]

def perform (d : Demand) (engine : σ) : Op → Demand × σ × List Notice
  | .acquire mask => d.acquire mask engine
  | .release mask => d.release mask engine
  | .stage configured => d.stage configured engine

/-- Any operations from the start. In between the engine goes its own way, as far as `aside` lets
it. -/
inductive Run (aside : σ → σ → Prop) (configured : Category) (engine : σ) :
    List Op → Demand → σ → Prop
  | start : Run aside configured engine [] (start configured engine).1 (start configured engine).2.1
  | perform {ops : List Op} {d : Demand} {e : σ} (h : Run aside configured engine ops d e)
      (op : Op) :
    Run aside configured engine (ops ++ [op]) (d.perform e op).1 (d.perform e op).2.1
  | aside {ops : List Op} {d : Demand} {e e' : σ} (h : Run aside configured engine ops d e)
      (he : aside e e') : Run aside configured engine ops d e'

/-! ### One operation -/

lemma perform_applied (d : Demand) (engine : σ) (op : Op) :
    (d.perform engine op).1.applied = (d.perform engine op).1.holders.mask := by
  cases op with
  | acquire mask => simp [perform, acquire]
  | release mask => simp [perform, release_eq]
  | stage configured => simp [perform, stage_eq]

lemma Tidy.perform {d : Demand} (ht : d.holders.Tidy) (engine : σ) (op : Op) :
    (d.perform engine op).1.holders.Tidy := by
  cases op with
  | acquire mask => simpa [Demand.perform, Demand.acquire] using ht.acquire mask
  | release mask => simpa [Demand.perform, release_eq] using ht.release mask
  | stage configured => simpa [Demand.perform, stage_eq] using (ht.acquire configured).release _

/-- **An operation does to each category what its tally says.** -/
theorem tally_perform {d : Demand} (ht : d.holders.Tidy) (engine : σ) (op : Op) {i : Nat}
    (hi : i < 32) :
    Tally.mk ((d.perform engine op).1.holders.count (.bit i))
        (share (d.perform engine op).1.configured i) =
      (Tally.mk (d.holders.count (.bit i)) (share d.configured i)).step i op := by
  cases op with
  | acquire mask => simp [perform, acquire, Tally.step, Holders.count_acquire ht mask hi]
  | release mask => simp [perform, release_eq, Tally.step, Holders.count_release ht mask hi]
  | stage configured =>
    simp [perform, stage_eq, Tally.step, Holders.count_release (ht.acquire configured) _ hi,
      Holders.count_acquire ht configured hi]

lemma push_notices (d : Demand) (engine : σ) :
    (d.push engine).2.2 = changeNotices d.applied d.holders.mask := by
  by_cases heq : d.holders.mask = d.applied
  · simp [push, heq, changeNotices, Category.symmDiff, Category.members_eq, Category.bitNumbers]
  · simp [push, heq]

/-- **What the operator is told: first what was given back in vain, then what changes at the
engine.** -/
theorem perform_notices {d : Demand} (ht : d.holders.Tidy) (engine : σ) (op : Op) :
    (d.perform engine op).2.2 = ((d.unheld op).map fun i => .categoryNotHeld (.bit i)) ++
      changeNotices d.applied (d.perform engine op).1.applied := by
  cases op with
  | acquire mask => simp [perform, acquire, unheld, push_notices]
  | release mask => simp [perform, release_eq, unheld, push_notices, Holders.snd_release ht]
  | stage configured =>
    simp [perform, stage_eq, unheld, push_notices, Holders.snd_release (ht.acquire configured)]

/-! ### Any number of operations -/

structure Counted (σ : Type) [Engine σ] (configured : Category) (ops : List Op) (d : Demand) :
    Prop where
  /-- Each category is counted by itself. -/
  count : ∀ i < 32, d.holders.count (.bit i) = (Tally.after i configured ops).held
  /-- No zero is stored, not even with a part of a set given back, so nothing is taken from zero. -/
  positive : ∀ (mask : Category) (bits : List Category) (b : Category) (n : Nat),
    (bits.foldl (fun h b => (h.releaseBit b).1) (d.holders.acquire mask)).counts.get? b = some n →
      0 < n
  applied : ∀ i, d.applied.has i = true ↔ i < 32 ∧ 0 < d.holders.count (.bit i)
  /-- The next operation is worth a notice for each category that it gives back in vain. -/
  notices : ∀ (engine : σ) (op : Op),
    (d.perform engine op).2.2 = ((d.unheld op).map fun i => .categoryNotHeld (.bit i)) ++
      changeNotices d.applied (d.perform engine op).1.applied

structure Settled (configured : Category) (ops : List Op) (d : Demand) : Prop where
  tidy : d.holders.Tidy
  applied : d.applied = d.holders.mask
  tally : ∀ i < 32, Tally.mk (d.holders.count (.bit i)) (share d.configured i) =
    Tally.after i configured ops

lemma settled_start (configured : Category) (engine : σ) :
    Settled configured [] (start configured engine).1 where
  tidy := (balanced_start configured engine).tidy
  applied := by simp [start]
  tally i hi := by
    have hcount := (balanced_start configured engine).count i hi
    rw [hcount]
    simp [start]

lemma Settled.perform {configured : Category} {ops : List Op} {d : Demand}
    (h : Settled configured ops d) (engine : σ) (op : Op) :
    Settled configured (ops ++ [op]) (d.perform engine op).1 where
  tidy := Tidy.perform h.tidy engine op
  applied := d.perform_applied engine op
  tally i hi := by rw [tally_perform h.tidy engine op hi, h.tally i hi, Tally.after_snoc]

theorem settled_run {aside : σ → σ → Prop} {configured : Category} {engine e : σ} {ops : List Op}
    {d : Demand} (hrun : Run aside configured engine ops d e) : Settled configured ops d := by
  induction hrun with
  | start => exact settled_start configured engine
  | perform _ op ih => exact ih.perform _ op
  | aside _ _ ih => exact ih

lemma Settled.has_applied {configured : Category} {ops : List Op} {d : Demand}
    (h : Settled configured ops d) (i : Nat) :
    d.applied.has i = true ↔ i < 32 ∧ 0 < d.holders.count (.bit i) := by
  rw [h.applied]
  constructor
  · intro hhas
    have hi := Category.lt_of_has hhas
    exact ⟨hi, (Holders.has_mask h.tidy hi).mp hhas⟩
  · rintro ⟨hi, hpos⟩
    exact (Holders.has_mask h.tidy hi).mpr hpos

theorem Settled.counted {configured : Category} {ops : List Op} {d : Demand}
    (h : Settled configured ops d) : Counted σ configured ops d where
  count i hi := congrArg Tally.held (h.tally i hi)
  positive mask bits b n hb := ((h.tidy.acquire mask).foldl_releaseBit bits).pos b n hb
  applied := h.has_applied
  notices := perform_notices h.tidy

end Any

end Demand

end TorrentFlow
