import Mathlib.Algebra.Group.Nat.Defs
import Mathlib.Data.List.Sort
import Mathlib.Tactic.ByContra
import TorrentFlow.Delivery.Filter

/-!
A set of categories seen bit by bit. What a subscriber needs is in its mask, bit for bit, and an
alert that its kinds ask for has its category there.
-/

namespace TorrentFlow

namespace Category

def has (c : Category) (i : Nat) : Bool := c.bits.toNat.testBit i

@[simp] lemma has_none (i : Nat) : Category.none.has i = false := by
  simp [has, Category.none]

@[simp] lemma has_or (c d : Category) (i : Nat) : (c ||| d).has i = (c.has i || d.has i) := by
  show (c.bits ||| d.bits).toNat.testBit i = _
  rw [UInt32.toNat_or, Nat.testBit_or]
  rfl

lemma lt_of_has {c : Category} {i : Nat} (h : c.has i = true) : i < 32 := by
  by_contra hi
  have hpow : 2 ^ 32 ≤ 2 ^ i := Nat.pow_le_pow_right (by omega) (by omega)
  have hlt : c.bits.toNat < 2 ^ i := Nat.lt_of_lt_of_le c.bits.toNat_lt hpow
  simp [has, Nat.testBit_lt_two_pow hlt] at h

lemma toNat_bit {i : Nat} (hi : i < 32) : (bit i).bits.toNat = 2 ^ i := by
  have hpow : 2 ^ i < 2 ^ 32 := Nat.pow_lt_pow_right (by omega) hi
  have hpos : (UInt32.ofNat i).toNat = i :=
    UInt32.toNat_ofNat_of_lt' (Nat.lt_trans hi (by decide))
  show (1 <<< UInt32.ofNat i : UInt32).toNat = 2 ^ i
  rw [UInt32.toNat_shiftLeft, hpos, Nat.mod_eq_of_lt hi, UInt32.toNat_one, Nat.shiftLeft_eq,
    Nat.one_mul, Nat.mod_eq_of_lt hpow]

lemma has_bit {i : Nat} (hi : i < 32) (j : Nat) : (bit i).has j = decide (i = j) := by
  rw [has, toNat_bit hi, Nat.testBit_two_pow]

lemma bit_inj {i j : Nat} (hi : i < 32) (hj : j < 32) (h : bit i = bit j) : i = j := by
  have := has_bit hj i
  rw [← h, has_bit hi] at this
  simpa [eq_comm] using this

lemma eq_of_has {c d : Category} (h : ∀ i < 32, (c.has i = true ↔ d.has i = true)) : c = d := by
  have hbits : c.bits.toNat = d.bits.toNat := Nat.eq_of_testBit_eq fun i => by
    by_cases hi : i < 32
    · exact Bool.eq_iff_iff.mpr (h i hi)
    · have hc : c.has i = false := Bool.eq_false_iff.mpr fun hc => hi (lt_of_has hc)
      have hd : d.has i = false := Bool.eq_false_iff.mpr fun hd => hi (lt_of_has hd)
      exact hc.trans hd.symm
  cases c
  cases d
  simp only [mk.injEq]
  exact UInt32.toNat_inj.mp hbits

lemma intersects_iff {c d : Category} :
    c.intersects d = true ↔ ∃ i, c.has i = true ∧ d.has i = true := by
  have hand : ∀ i, (c.bits &&& d.bits).toNat.testBit i = (c.has i && d.has i) := fun i => by
    rw [UInt32.toNat_and, Nat.testBit_and]
    rfl
  simp only [intersects, bne_iff_ne, ne_eq]
  constructor
  · intro h
    have hne : (c.bits &&& d.bits).toNat ≠ 0 := fun h0 => h (UInt32.toNat_inj.mp h0)
    obtain ⟨i, hi⟩ := Nat.exists_testBit_of_ne_zero hne
    rw [hand] at hi
    exact ⟨i, by simpa using hi⟩
  · rintro ⟨i, hi⟩ h0
    have := hand i
    rw [h0] at this
    simp [hi.1, hi.2] at this

/-! ### Members and unions -/

def bitNumbers (c : Category) : List Nat :=
  (List.range 32).filter fun i => c.bits.toNat.testBit i

lemma mem_bitNumbers {c : Category} {i : Nat} : i ∈ c.bitNumbers ↔ c.has i = true := by
  simp only [bitNumbers, List.mem_filter, List.mem_range]
  exact ⟨fun h => h.2, fun h => ⟨lt_of_has h, h⟩⟩

lemma bitNumbers_ascending (c : Category) : c.bitNumbers.Pairwise (· < ·) :=
  List.Pairwise.sublist List.filter_sublist List.pairwise_lt_range

lemma bitNumbers_nodup (c : Category) : c.bitNumbers.Nodup :=
  c.bitNumbers_ascending.imp Nat.ne_of_lt

lemma isEmpty_iff {c : Category} : c.isEmpty = true ↔ ∀ i, c.has i = false := by
  rw [isEmpty, beq_iff_eq]
  constructor
  · intro h i
    simp [has, h]
  · intro h
    exact UInt32.toNat_inj.mp (Nat.eq_of_testBit_eq fun i => (h i).trans (Nat.zero_testBit i).symm)

/-- A word and its negative agree up to the lowest bit that is set and differ in every bit above
it. -/
lemma getLsbD_neg_bits (c : Category) (i : Nat) : (-c.bits.toBitVec).getLsbD i =
    (c.has i ^^ (decide (i < 32) && decide (∃ j < i, c.has j = true))) :=
  BitVec.getLsbD_neg

lemma has_lowest {c : Category} {i : Nat} :
    c.lowest.has i = true ↔ c.has i = true ∧ ∀ j < i, c.has j = false := by
  have h : c.lowest.has i = (c.has i && (-c.bits.toBitVec).getLsbD i) := Nat.testBit_and ..
  rw [h, getLsbD_neg_bits]
  rcases hc : c.has i with _ | _
  · simp
  · simp [lt_of_has hc]

/-- What a word shares with its predecessor, the complement of its negative, is what lies above its
lowest bit. -/
lemma has_dropLowest {c : Category} {i : Nat} :
    c.dropLowest.has i = true ↔ c.has i = true ∧ ∃ j < i, c.has j = true := by
  have h : c.dropLowest.has i = (c.has i && (c.bits.toBitVec - 1#32).getLsbD i) :=
    Nat.testBit_and ..
  rw [h, ← BitVec.not_neg, BitVec.getLsbD_not, getLsbD_neg_bits]
  rcases hc : c.has i with _ | _
  · simp
  · simp [lt_of_has hc]

lemma exists_has_lowest {c : Category} (h : ¬ c.isEmpty = true) : ∃ i, c.lowest.has i = true := by
  have hex : ∃ i, c.has i = true := by simpa [isEmpty_iff] using h
  exact ⟨Nat.find hex, has_lowest.mpr
    ⟨Nat.find_spec hex, fun j hj => Bool.eq_false_iff.mpr (Nat.find_min hex hj)⟩⟩

lemma le_of_has_lowest {c : Category} {i j : Nat} (hi : c.lowest.has i = true)
    (hj : c.has j = true) :
    i ≤ j := by
  by_contra hlt
  simp [(has_lowest.mp hi).2 j (by omega)] at hj

/-- There is only one lowest bit. -/
lemma lowest_eq {c : Category} {i : Nat} (hi : c.lowest.has i = true) : c.lowest = bit i := by
  refine eq_of_has fun j _ => ?_
  rw [has_bit (lt_of_has hi), decide_eq_true_iff]
  constructor
  · intro hj
    exact Nat.le_antisymm (le_of_has_lowest hi (has_lowest.mp hj).1)
      (le_of_has_lowest hj (has_lowest.mp hi).1)
  · rintro rfl
    exact hi

/-- One round of the splitting: the lowest bit comes off, and the bits that are left are all above
it. -/
lemma bitNumbers_eq_cons {c : Category} {i : Nat} (hi : c.lowest.has i = true) :
    c.bitNumbers = i :: c.dropLowest.bitNumbers := by
  -- both lists ascend, so that they are the same as soon as their members are
  refine c.bitNumbers_ascending.eq_of_mem_iff ?_ fun j => ?_
  · refine List.pairwise_cons.mpr ⟨fun j hj => ?_, bitNumbers_ascending _⟩
    obtain ⟨-, k, hkj, hk⟩ := has_dropLowest.mp (mem_bitNumbers.mp hj)
    exact Nat.lt_of_le_of_lt (le_of_has_lowest hi hk) hkj
  · rw [List.mem_cons, mem_bitNumbers, mem_bitNumbers, has_dropLowest]
    constructor
    · intro hj
      rcases Nat.eq_or_lt_of_le (le_of_has_lowest hi hj) with rfl | hlt
      · exact .inl rfl
      · exact .inr ⟨hj, i, hlt, (has_lowest.mp hi).1⟩
    · rintro (rfl | ⟨hj, -⟩)
      · exact (has_lowest.mp hi).1
      · exact hj

/-- **To split off the lowest member again and again lists the bits that are set, lowest first.** -/
theorem members_eq (c : Category) : c.members = c.bitNumbers.map bit := by
  fun_induction members c with
  | case1 c hempty =>
    have hnone : c.bitNumbers = [] := List.eq_nil_iff_forall_not_mem.mpr fun i hi => by
      simpa [isEmpty_iff.mp hempty i] using mem_bitNumbers.mp hi
    rw [hnone, List.map_nil]
  | case2 c hne ih =>
    obtain ⟨i, hi⟩ := exists_has_lowest hne
    rw [ih, lowest_eq hi, bitNumbers_eq_cons hi, List.map_cons]

lemma has_union {cs : List Category} {i : Nat} :
    (union cs).has i = true ↔ ∃ c ∈ cs, c.has i = true := by
  suffices h : ∀ d : Category, (cs.foldl (· ||| ·) d).has i = true ↔
      d.has i = true ∨ ∃ c ∈ cs, c.has i = true by
    simpa [union] using h Category.none
  induction cs with
  | nil => simp
  | cons c rest ih =>
    intro d
    simp [ih, or_assoc]

lemma has_symmDiff (c d : Category) (i : Nat) : (c.symmDiff d).has i = (c.has i != d.has i) := by
  show (c.bits ^^^ d.bits).toNat.testBit i = _
  rw [UInt32.toNat_xor, Nat.testBit_xor]
  rfl

lemma contains_iff {c d : Category} : c.contains d = true ↔
    ∀ i, d.has i = true → c.has i = true := by
  have hand : ∀ i, (c.bits &&& d.bits).toNat.testBit i = (c.has i && d.has i) := fun i => by
    rw [UInt32.toNat_and, Nat.testBit_and]
    rfl
  rw [contains, beq_iff_eq]
  constructor
  · intro h i hd
    have hi := hand i
    rw [h] at hi
    exact (Bool.and_eq_true_iff.mp (hi.symm.trans hd)).1
  · intro h
    refine UInt32.toNat_inj.mp (Nat.eq_of_testBit_eq fun i => (hand i).trans ?_)
    rcases hd : d.has i with _ | _
    · exact (Bool.and_false _).trans hd.symm
    · rw [h i hd]
      exact hd.symm

lemma contains_bit (c : Category) {i : Nat} (hi : i < 32) : c.contains (bit i) = c.has i := by
  rw [Bool.eq_iff_iff, contains_iff]
  refine ⟨fun h => h i (by simp [has_bit hi]), fun h j hj => ?_⟩
  rw [has_bit hi, decide_eq_true_eq] at hj
  exact hj ▸ h

end Category

/-! ### What a request needs -/

lemma AlertKind.exists_has (k : AlertKind) : ∃ i, k.category.has i = true := by
  cases k <;> first
    | exact ⟨0, by decide⟩
    | exact ⟨3, by decide⟩
    | exact ⟨6, by decide⟩
    | exact ⟨13, by decide⟩
    | exact ⟨22, by decide⟩

namespace Request

lemma has_requiredMask {r : Request} {i : Nat} :
    r.requiredMask.has i = true ↔
      r.mask.has i = true ∨ ∃ k ∈ r.kinds, k.category.has i = true := by
  suffices h : ∀ (kinds : List AlertKind) (c : Category),
      (kinds.foldl (fun mask kind => mask ||| kind.category) c).has i = true ↔
        c.has i = true ∨ ∃ k ∈ kinds, k.category.has i = true from h r.kinds r.mask
  intro kinds
  induction kinds with
  | nil => simp
  | cons k rest ih =>
    intro c
    simp [ih, or_assoc]

/-- A request for some kinds accepts alerts of these kinds only. -/
lemma kind_mem_of_accepts {r : Request} {a : Alert} (hk : r.kinds ≠ [])
    (h : r.filter.accepts a = true) : a.kind ∈ r.kinds := by
  simp only [Filter.accepts, filter, Filter.ofKinds, Bool.and_eq_true, Bool.or_eq_true] at h
  rcases h.1 with hempty | hmem
  · exfalso
    obtain ⟨k, rest, hcons⟩ := List.exists_cons_of_ne_nil hk
    have := OrderedSet.mem_ofList.mpr (show k ∈ r.kinds by simp [hcons])
    simp only [OrderedSet.isEmpty, List.isEmpty_iff] at hempty
    rw [OrderedSet.mem_def, hempty] at this
    simp at this
  · simpa [OrderedSet.contains] using hmem

/-- **A mask that has all a request needs lets through every alert the request is for.** -/
lemma intersects_of_accepts {r : Request} {mask : Category} {a : Alert} (hk : r.kinds ≠ [])
    (hmask : ∀ i, r.requiredMask.has i = true → mask.has i = true)
    (h : r.filter.accepts a = true) : mask.intersects a.category = true := by
  obtain ⟨i, hi⟩ := a.kind.exists_has
  exact Category.intersects_iff.mpr
    ⟨i, hmask i (has_requiredMask.mpr (Or.inr ⟨_, kind_mem_of_accepts hk h, hi⟩)), hi⟩

end Request

end TorrentFlow
