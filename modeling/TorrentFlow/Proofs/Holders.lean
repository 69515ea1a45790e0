import TorrentFlow.Demand
import TorrentFlow.Engine.Simulated
import TorrentFlow.Proofs.Categories
import TorrentFlow.Proofs.Collections

/-!
The demand for categories, bit by bit: each holder is counted under every bit of its mask and
under no other, the mask is made of the bits somebody holds, and the engine has that mask from
the first time that anything is demanded of it.
-/

namespace TorrentFlow

namespace Holders

def share (mask : Category) (i : Nat) : Nat := if mask.has i then 1 else 0

@[simp] lemma share_none (i : Nat) : share .none i = 0 := by simp [share]

/-- Only single bits are counted, and no count is zero. -/
structure Tidy (h : Holders) : Prop where
  bits : ∀ b ∈ h.counts.keys, ∃ i < 32, b = Category.bit i
  pos : ∀ b n, h.counts.get? b = some n → 0 < n

lemma tidy_empty : Tidy {} := ⟨by simp [Table.keys], by simp [Table.get?, Table.find]⟩

lemma mem_keys_iff {h : Holders} (ht : h.Tidy) (b : Category) :
    b ∈ h.counts.keys ↔ 0 < h.count b := by
  rw [Table.mem_keys, count]
  rcases hb : h.counts.get? b with _ | n
  · simp
  · simpa using ht.pos b n hb

/-- **The mask has the bits that somebody holds.** -/
lemma has_mask {h : Holders} (ht : h.Tidy) {i : Nat} (hi : i < 32) :
    h.mask.has i = true ↔ 0 < h.count (.bit i) := by
  rw [mask, Category.has_union, ← mem_keys_iff ht]
  constructor
  · rintro ⟨b, hb, hbi⟩
    obtain ⟨j, hj, rfl⟩ := ht.bits b hb
    rw [Category.has_bit hj] at hbi
    rw [← of_decide_eq_true hbi]
    exact hb
  · exact fun hb => ⟨_, hb, by simp [Category.has_bit hi]⟩

/-! ### One more holder -/

lemma count_acquireBit (h : Holders) (b c : Category) :
    (h.acquireBit b).count c = h.count c + if c = b then 1 else 0 := by
  unfold acquireBit count
  rw [Table.get?_set]
  split_ifs with hc
  · simp [hc]
  · rfl

lemma Tidy.acquireBit {h : Holders} (ht : h.Tidy) {i : Nat} (hi : i < 32) :
    (h.acquireBit (.bit i)).Tidy := by
  constructor
  · intro b hb
    rw [Table.mem_keys] at hb
    simp only [Holders.acquireBit, Table.get?_set] at hb
    split_ifs at hb with heq
    · exact ⟨i, hi, heq⟩
    · exact ht.bits b (Table.mem_keys.mpr hb)
  · intro b n hb
    simp only [Holders.acquireBit, Table.get?_set] at hb
    split_ifs at hb with heq
    · cases hb
      omega
    · exact ht.pos b n hb

lemma foldl_acquireBit (l : List Nat) (hn : l.Nodup) (hl : ∀ i ∈ l, i < 32) (h : Holders)
    (ht : h.Tidy) :
    ((l.map Category.bit).foldl Holders.acquireBit h).Tidy ∧
      ∀ i < 32, ((l.map Category.bit).foldl Holders.acquireBit h).count (.bit i) =
        h.count (.bit i) + if i ∈ l then 1 else 0 := by
  induction l generalizing h with
  | nil => exact ⟨ht, fun i _ => by simp⟩
  | cons j rest ih =>
    obtain ⟨hj, hrest⟩ := List.nodup_cons.mp hn
    have hj32 := hl j (by simp)
    obtain ⟨htidy, hcount⟩ := ih hrest (fun i hi => hl i (by simp [hi])) _ (ht.acquireBit hj32)
    refine ⟨htidy, fun i hi => ?_⟩
    rw [List.map_cons, List.foldl_cons, hcount i hi, count_acquireBit]
    by_cases hij : i = j
    · subst hij
      simp [hj]
    · have hne : Category.bit i ≠ Category.bit j := fun e => hij (Category.bit_inj hi hj32 e)
      simp [hij, hne]

lemma Tidy.acquire {h : Holders} (ht : h.Tidy) (mask : Category) : (h.acquire mask).Tidy := by
  rw [Holders.acquire, Category.members_eq]
  exact (foldl_acquireBit mask.bitNumbers mask.bitNumbers_nodup
    (fun _ hi => Category.lt_of_has (Category.mem_bitNumbers.mp hi)) h ht).1

lemma count_acquire {h : Holders} (ht : h.Tidy) (mask : Category) {i : Nat} (hi : i < 32) :
    (h.acquire mask).count (.bit i) = h.count (.bit i) + share mask i := by
  rw [acquire, Category.members_eq]
  have := (foldl_acquireBit mask.bitNumbers mask.bitNumbers_nodup
    (fun _ hi => Category.lt_of_has (Category.mem_bitNumbers.mp hi)) h ht).2 i hi
  simp only [Category.mem_bitNumbers] at this
  exact this

/-! ### One holder fewer -/

lemma count_releaseBit (h : Holders) (b c : Category) :
    (h.releaseBit b).1.count c = h.count c - if c = b then 1 else 0 := by
  unfold releaseBit
  rcases hb : h.counts.get? b with _ | n
  · by_cases hc : c = b
    · subst hc
      simp [count, hb]
    · simp [hc]
  · by_cases hc : c = b
    · subst hc
      by_cases hn : n ≤ 1
      · simp only [hn, if_true, count, Table.get?_erase, hb, Option.getD_none, Option.getD_some]
        omega
      · simp [hn, count, Table.get?_set, hb]
    · by_cases hn : n ≤ 1 <;> simp [hn, count, hc]

lemma Tidy.releaseBit {h : Holders} (ht : h.Tidy) (b : Category) : (h.releaseBit b).1.Tidy := by
  unfold Holders.releaseBit
  rcases hb : h.counts.get? b with _ | n
  · exact ht
  · have hmem : b ∈ h.counts.keys := Table.mem_keys.mpr (by simp [hb])
    by_cases hn : n ≤ 1
    · simp only [hn, if_true]
      constructor
      · intro c hc
        rw [Table.mem_keys, Table.get?_erase] at hc
        split_ifs at hc
        · simp at hc
        · exact ht.bits c (Table.mem_keys.mpr hc)
      · intro c m hc
        rw [Table.get?_erase] at hc
        split_ifs at hc
        exact ht.pos c m hc
    · simp only [hn, if_false]
      constructor
      · intro c hc
        rw [Table.mem_keys, Table.get?_set] at hc
        split_ifs at hc with heq
        · exact heq ▸ ht.bits b hmem
        · exact ht.bits c (Table.mem_keys.mpr hc)
      · intro c m hc
        rw [Table.get?_set] at hc
        split_ifs at hc with heq
        · cases hc
          omega
        · exact ht.pos c m hc

lemma fst_release (h : Holders) (mask : Category) :
    (h.release mask).1 = mask.members.foldl (fun h b => (h.releaseBit b).1) h := by
  suffices hs : ∀ (l : List Category) (h : Holders) (ns : List Notice),
      (l.foldl (fun done b =>
        ((done.1.releaseBit b).1, done.2 ++ (done.1.releaseBit b).2)) (h, ns)).1 =
        l.foldl (fun h b => (h.releaseBit b).1) h from hs mask.members h []
  intro l
  induction l with
  | nil => exact fun h ns => rfl
  | cons b rest ih => exact fun h ns => ih _ _

lemma foldl_releaseBit (l : List Nat) (hn : l.Nodup) (hl : ∀ i ∈ l, i < 32) (h : Holders)
    (ht : h.Tidy) :
    ((l.map Category.bit).foldl (fun h b => (h.releaseBit b).1) h).Tidy ∧
      ∀ i < 32, ((l.map Category.bit).foldl (fun h b => (h.releaseBit b).1) h).count (.bit i) =
        h.count (.bit i) - if i ∈ l then 1 else 0 := by
  induction l generalizing h with
  | nil => exact ⟨ht, fun i _ => by simp⟩
  | cons j rest ih =>
    obtain ⟨hj, hrest⟩ := List.nodup_cons.mp hn
    have hj32 := hl j (by simp)
    obtain ⟨htidy, hcount⟩ := ih hrest (fun i hi => hl i (by simp [hi])) _ (ht.releaseBit _)
    refine ⟨htidy, fun i hi => ?_⟩
    rw [List.map_cons, List.foldl_cons, hcount i hi, count_releaseBit]
    by_cases hij : i = j
    · subst hij
      simp [hj]
    · have hne : Category.bit i ≠ Category.bit j := fun e => hij (Category.bit_inj hi hj32 e)
      simp [hij, hne]

lemma Tidy.release {h : Holders} (ht : h.Tidy) (mask : Category) : (h.release mask).1.Tidy := by
  rw [fst_release, Category.members_eq]
  exact (foldl_releaseBit mask.bitNumbers mask.bitNumbers_nodup
    (fun _ hi => Category.lt_of_has (Category.mem_bitNumbers.mp hi)) h ht).1

lemma count_release {h : Holders} (ht : h.Tidy) (mask : Category) {i : Nat} (hi : i < 32) :
    (h.release mask).1.count (.bit i) = h.count (.bit i) - share mask i := by
  rw [fst_release, Category.members_eq]
  have := (foldl_releaseBit mask.bitNumbers mask.bitNumbers_nodup
    (fun _ hi => Category.lt_of_has (Category.mem_bitNumbers.mp hi)) h ht).2 i hi
  simp only [Category.mem_bitNumbers] at this
  exact this

end Holders

namespace Demand

section Any

variable {σ : Type} [Engine σ]

/-! ### What the changes of a demand come down to -/

@[simp] lemma holders_push (d : Demand) (engine : σ) : (d.push engine).1.holders = d.holders := by
  by_cases heq : d.holders.mask = d.applied <;> simp [push, heq]

@[simp] lemma configured_push (d : Demand) (engine : σ) :
    (d.push engine).1.configured = d.configured := by
  by_cases heq : d.holders.mask = d.applied <;> simp [push, heq]

@[simp] lemma applied_push (d : Demand) (engine : σ) :
    (d.push engine).1.applied = d.holders.mask := by
  by_cases heq : d.holders.mask = d.applied <;> simp [push, heq]

lemma release_eq (d : Demand) (mask : Category) (engine : σ) :
    d.release mask engine =
      (((push { d with holders := (d.holders.release mask).1 } engine).1,
        (push { d with holders := (d.holders.release mask).1 } engine).2.1,
        (d.holders.release mask).2 ++
          (push { d with holders := (d.holders.release mask).1 } engine).2.2)) := by
  unfold release
  rcases d.holders.release mask with ⟨holders, warnings⟩
  dsimp only

lemma stage_eq (d : Demand) (configured : Category) (engine : σ) :
    d.stage configured engine =
      let r := (d.holders.acquire configured).release d.configured
      ((push { d with holders := r.1, configured } engine).1,
        (push { d with holders := r.1, configured } engine).2.1,
        r.2 ++ (push { d with holders := r.1, configured } engine).2.2) := by
  unfold stage
  rcases (d.holders.acquire configured).release d.configured with ⟨holders, warnings⟩
  dsimp only

/-! ### Who holds what -/

/-- The counts are those of the configuration and of some other holders. -/
structure Balanced (d : Demand) (others : Nat → Nat) : Prop where
  tidy : d.holders.Tidy
  count : ∀ i < 32, d.holders.count (.bit i) = Holders.share d.configured i + others i

lemma Balanced.congr {d : Demand} {others others' : Nat → Nat} (h : d.Balanced others)
    (heq : ∀ i, others' i = others i) : d.Balanced others' :=
  ⟨h.tidy, fun i hi => by rw [heq, h.count i hi]⟩

lemma balanced_start (configured : Category) (engine : σ) :
    (start configured engine).1.Balanced fun _ => 0 := by
  constructor
  · simp only [start, holders_push]
    exact Holders.tidy_empty.acquire _
  · intro i hi
    simp only [start, holders_push, configured_push]
    rw [Holders.count_acquire Holders.tidy_empty _ hi]
    simp [Holders.count, Table.get?, Table.find]

lemma Balanced.acquire {d : Demand} {others : Nat → Nat} (h : d.Balanced others)
    (mask : Category) (engine : σ) :
    (d.acquire mask engine).1.Balanced fun i => others i + Holders.share mask i := by
  constructor
  · simp only [Demand.acquire, holders_push]
    exact h.tidy.acquire _
  · intro i hi
    simp only [Demand.acquire, holders_push, configured_push]
    rw [Holders.count_acquire h.tidy _ hi, h.count i hi]
    omega

lemma Balanced.release {d : Demand} {others : Nat → Nat} (h : d.Balanced others)
    (mask : Category) (engine : σ) (hle : ∀ i < 32, Holders.share mask i ≤ others i) :
    (d.release mask engine).1.Balanced fun i => others i - Holders.share mask i := by
  constructor
  · simp only [Demand.release, holders_push]
    exact h.tidy.release _
  · intro i hi
    simp only [Demand.release, holders_push, configured_push]
    rw [Holders.count_release h.tidy _ hi, h.count i hi]
    have := hle i hi
    omega

lemma Balanced.stage {d : Demand} {others : Nat → Nat} (h : d.Balanced others)
    (configured : Category) (engine : σ) :
    (d.stage configured engine).1.Balanced others := by
  constructor
  · simp only [Demand.stage, holders_push]
    exact (h.tidy.acquire _).release _
  · intro i hi
    simp only [Demand.stage, holders_push, configured_push]
    rw [Holders.count_release (h.tidy.acquire _) _ hi, Holders.count_acquire h.tidy _ hi,
      h.count i hi]
    omega

end Any

/-! ### The engine is told -/

/-- What the engine was told last is what is demanded, and the engine has it unless it was never
told anything. -/
structure Told (d : Demand) (engine : Simulated) : Prop where
  applied : d.applied = d.holders.mask
  mask : d.applied ≠ .none → engine.mask = d.applied

lemma told_push {d : Demand} {engine : Simulated}
    (h : d.applied ≠ .none → engine.mask = d.applied) :
    Told (d.push engine).1 (d.push engine).2.1 := by
  by_cases heq : d.holders.mask = d.applied
  · simp only [push, heq, if_true]
    exact ⟨heq.symm, h⟩
  · simp only [push, heq, if_false]
    exact ⟨rfl, fun _ => rfl⟩

lemma engine_push (d : Demand) (engine : Simulated) :
    ∃ mask, (d.push engine).2.1 = { engine with mask } := by
  by_cases heq : d.holders.mask = d.applied
  · exact ⟨engine.mask, by simp [push, heq]⟩
  · exact ⟨d.holders.mask, by simp [push, heq]; rfl⟩

lemma Told.congr {d : Demand} {engine engine' : Simulated} (h : d.Told engine)
    (hm : engine'.mask = engine.mask) : d.Told engine' :=
  ⟨h.applied, fun hne => hm.trans (h.mask hne)⟩

lemma engine_acquire (d : Demand) (mask : Category) (engine : Simulated) :
    ∃ mask', (d.acquire mask engine).2.1 = { engine with mask := mask' } :=
  engine_push _ engine

lemma engine_release (d : Demand) (mask : Category) (engine : Simulated) :
    ∃ mask', (d.release mask engine).2.1 = { engine with mask := mask' } := by
  rw [release_eq]
  dsimp only
  exact engine_push _ engine

lemma engine_stage (d : Demand) (configured : Category) (engine : Simulated) :
    ∃ mask', (d.stage configured engine).2.1 = { engine with mask := mask' } := by
  rw [stage_eq]
  dsimp only
  exact engine_push _ engine

lemma Told.acquire {d : Demand} {engine : Simulated} (h : d.Told engine) (mask : Category) :
    Told (d.acquire mask engine).1 (d.acquire mask engine).2.1 := told_push h.mask

lemma Told.release {d : Demand} {engine : Simulated} (h : d.Told engine) (mask : Category) :
    Told (d.release mask engine).1 (d.release mask engine).2.1 := by
  rw [release_eq]
  dsimp only
  exact told_push h.mask

lemma Told.stage {d : Demand} {engine : Simulated} (h : d.Told engine) (mask : Category) :
    Told (d.stage mask engine).1 (d.stage mask engine).2.1 := by
  rw [stage_eq]
  dsimp only
  exact told_push h.mask

/-- What any of the other holders needs is in the engine's mask. -/
lemma Balanced.has_mask {d : Demand} {engine : Simulated} {others : Nat → Nat}
    (hb : d.Balanced others) (ht : d.Told engine) {i : Nat} (hi : i < 32) (h : 0 < others i) :
    engine.mask.has i = true := by
  have hm : d.applied.has i = true := by
    rw [ht.applied, Holders.has_mask hb.tidy hi, hb.count i hi]
    omega
  have hne : d.applied ≠ .none := by
    intro h0
    rw [h0, Category.has_none] at hm
    simp at hm
  rw [ht.mask hne]
  exact hm

end Demand

end TorrentFlow
