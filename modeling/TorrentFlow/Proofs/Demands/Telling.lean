import Mathlib.Data.List.Induction
import TorrentFlow.Proofs.Demands.Operations

/-!
Whether the engine emits what is demanded. The mask is compared with the one the engine was last
given, not with the one it has, and before anything was given that is taken to be empty. So an
engine that comes with categories enabled keeps them until something is demanded for the first time,
and from then on it has the mask that is demanded.
-/

namespace TorrentFlow

lemma Category.exists_has {c : Category} (h : c ≠ .none) : ∃ i < 32, c.has i = true := by
  by_contra hno
  push Not at hno
  refine h (Category.eq_of_has fun i hi => ?_)
  simp [hno i hi]

namespace Demand

open Holders (share)

/-- The engine has gone its own way, and nobody has set its mask. -/
def MaskKept (e e' : Simulated) : Prop := e'.mask = e.mask

def Op.asked : Op → Category
  | .acquire mask => mask
  | .release _ => .none
  | .stage configured => configured

/-- Something was asked for, in the beginning or since. -/
def Ever (configured : Category) (ops : List Op) : Prop :=
  configured ≠ .none ∨ ∃ op ∈ ops, op.asked ≠ .none

lemma ever_snoc {configured : Category} {ops : List Op} {op : Op} :
    Ever configured (ops ++ [op]) ↔ Ever configured ops ∨ op.asked ≠ .none := by
  simp [Ever, or_and_right, exists_or, or_assoc]

/-- As long as nothing was asked for, an operation leaves what it asks for, and nothing else. -/
lemma tally_step_empty (i : Nat) (op : Op) :
    Tally.step i ⟨0, 0⟩ op = ⟨share op.asked i, match op with
      | .stage configured => share configured i
      | _ => 0⟩ := by
  cases op <;> simp [Tally.step, Op.asked]

lemma tally_of_not_ever {configured : Category} {ops : List Op} (h : ¬ Ever configured ops)
    (i : Nat) :
    Tally.after i configured ops = ⟨0, 0⟩ := by
  induction ops using List.reverseRecOn with
  | nil =>
    have hc : configured = .none := by simpa [Ever] using h
    simp [hc]
  | append_singleton ops op ih =>
    rw [ever_snoc, not_or, not_not] at h
    rw [Tally.after_snoc, ih h.1, tally_step_empty, h.2]
    cases op with
    | stage configured =>
      have hc : configured = .none := h.2
      simp [hc]
    | _ => simp

/-! ### What the engine has -/

lemma mask_push (d : Demand) (engine : Simulated) : (d.push engine).2.1.mask =
    if (d.push engine).1.applied = d.applied then engine.mask else (d.push engine).1.applied := by
  by_cases heq : d.holders.mask = d.applied
  · simp [push, heq]
  · simp [push, heq, Engine.applyMask, Simulated.applyMask]

lemma mask_perform (d : Demand) (engine : Simulated) (op : Op) :
    (d.perform engine op).2.1.mask = if (d.perform engine op).1.applied = d.applied then engine.mask
      else (d.perform engine op).1.applied := by
  cases op with
  | acquire mask => exact mask_push _ engine
  | release mask =>
    rw [perform, release_eq]
    exact mask_push _ engine
  | stage configured =>
    rw [perform, stage_eq]
    exact mask_push _ engine

/-- The mask of the engine that came with the mask `first`. -/
structure Answered (first configured : Category) (ops : List Op) (d : Demand) (e : Simulated) :
    Prop where
  given : first = .none ∨ Ever configured ops → e.mask = d.applied
  kept : ¬ Ever configured ops → e.mask = first

variable {configured : Category} {ops : List Op} {d : Demand}

lemma Settled.applied_of_not_ever (h : Settled configured ops d) (hno : ¬ Ever configured ops) :
    d.applied = .none := by
  refine Category.eq_of_has fun i hi => ?_
  have hcount : d.holders.count (.bit i) = 0 :=
    congrArg Tally.held ((h.tally i hi).trans (tally_of_not_ever hno i))
  simp [h.has_applied, hcount]

lemma Settled.applied_ne_none (h : Settled configured ops d) {i : Nat} (hi : i < 32)
    (hpos : 0 < d.holders.count (.bit i)) : d.applied ≠ .none := by
  intro hnone
  have happ := (h.has_applied i).mpr ⟨hi, hpos⟩
  rw [hnone, Category.has_none] at happ
  cases happ

/-- What is configured from the start is told to the engine. -/
lemma Settled.applied_of_configured (h : Settled configured [] d) (hc : configured ≠ .none) :
    d.applied ≠ .none := by
  obtain ⟨i, hi, hhas⟩ := Category.exists_has hc
  have hcount : d.holders.count (.bit i) = 1 := by
    have ht := congrArg Tally.held (h.tally i hi)
    rw [Tally.after_nil] at ht
    simpa [share, hhas] using ht
  exact h.applied_ne_none hi (by omega)

lemma Settled.applied_of_first {op : Op} (h : Settled configured (ops ++ [op]) d)
    (hno : ¬ Ever configured ops) (hop : op.asked ≠ .none) : d.applied ≠ .none := by
  obtain ⟨i, hi, hhas⟩ := Category.exists_has hop
  have hcount : d.holders.count (.bit i) = 1 := by
    have ht := congrArg Tally.held (h.tally i hi)
    rw [Tally.after_snoc, tally_of_not_ever hno, tally_step_empty] at ht
    simpa [share, hhas] using ht
  exact h.applied_ne_none hi (by omega)

lemma answered_start (configured : Category) (engine : Simulated) :
    Answered engine.mask configured [] (start configured engine).1
    (start configured engine).2.1 := by
  have hs := settled_start configured engine
  have hmask : (start configured engine).2.1.mask =
      if (start configured engine).1.applied = .none then engine.mask
      else (start configured engine).1.applied := mask_push _ engine
  refine ⟨fun h => ?_, fun hno => ?_⟩
  · rw [hmask]
    split_ifs with h0
    · rcases h with hfirst | hever
      · rw [hfirst, h0]
      · exact absurd h0 (hs.applied_of_configured (by simpa [Ever] using hever))
    · rfl
  · rw [hmask, if_pos (hs.applied_of_not_ever hno)]

lemma Answered.perform {first : Category} {e : Simulated} (h : Answered first configured ops d e)
    (hs : Settled configured ops d) (op : Op) : Answered first configured (ops ++ [op])
      (d.perform e op).1 (d.perform e op).2.1 := by
  have hs' := hs.perform e op
  refine ⟨fun hwhy => ?_, fun hno => ?_⟩
  · rw [mask_perform]
    split_ifs with heq
    · rw [heq]
      refine h.given ?_
      rcases hwhy with hfirst | hever
      · exact .inl hfirst
      rcases ever_snoc.mp hever with hever | hop
      · exact .inr hever
      · by_contra hnot
        rw [not_or] at hnot
        exact hs'.applied_of_first hnot.2 hop (heq.trans (hs.applied_of_not_ever hnot.2))
    · rfl
  · have hbefore : ¬ Ever configured ops := fun hever => hno (ever_snoc.mpr (.inl hever))
    rw [mask_perform, hs'.applied_of_not_ever hno, hs.applied_of_not_ever hbefore, if_pos rfl]
    exact h.kept hbefore

theorem answered_run {engine e : Simulated} (hrun : Run MaskKept configured engine ops d e) :
    Answered engine.mask configured ops d e := by
  induction hrun with
  | start => exact answered_start configured engine
  | perform hrun op ih => exact ih.perform (settled_run hrun) op
  | aside _ hkept ih => exact ⟨fun h => hkept.trans (ih.given h), fun h => hkept.trans (ih.kept h)⟩

/-- **The engine has the mask that is demanded, once anything has been demanded of it.** An engine
that came with a mask of its own keeps that one till then, whoever demands nothing. -/
theorem engine_mask_demanded {engine e : Simulated}
    (hrun : Run MaskKept configured engine ops d e) :
    (∀ i, d.applied.has i = true ↔ i < 32 ∧ 0 < d.holders.count (.bit i)) ∧
    (engine.mask = .none ∨ Ever configured ops → e.mask = d.applied) ∧
    (¬ Ever configured ops → e.mask = engine.mask ∧ d.applied = .none) := by
  have hs := settled_run hrun
  have h := answered_run hrun
  exact ⟨hs.has_applied, h.given, fun hno => ⟨h.kept hno, hs.applied_of_not_ever hno⟩⟩

/-- An engine that comes with storage enabled: what it has is replaced as soon as somebody asks for
status. -/
theorem engine_mask_demanded_late : ∃ (d : Demand) (e : Simulated),
    Run MaskKept .none { mask := .storage } [.acquire .status] d e ∧
    e.mask = d.applied ∧ d.applied = .status := by
  have hrun : Run MaskKept .none { mask := .storage } ([] ++ [.acquire .status]) _ _ :=
    Run.start.perform _
  have hever : Ever .none [.acquire .status] := .inr ⟨.acquire .status, by simp, by decide⟩
  exact ⟨_, _, hrun, (engine_mask_demanded hrun).2.1 (.inr hever), by decide +kernel⟩

/-- An engine that comes with a category enabled goes on emitting it, though nobody demands
anything. -/
theorem engine_mask_undemanded :
    ¬ ∀ (configured : Category) (engine e : Simulated) (ops : List Op) (d : Demand),
      Run MaskKept configured engine ops d e → e.mask = d.applied := by
  intro h
  have hstart := h .none { mask := .bit 2 } _ [] _ Run.start
  revert hstart
  decide +kernel

end Demand

end TorrentFlow
