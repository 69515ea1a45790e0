import TorrentFlow.Proofs.Demands.Operations
import TorrentFlow.Proofs.Wording

/-!
What a demand does at the engine, and what it says about it. An operation gives the engine one mask
if what is held has changed, and makes no call at all if it has not; and the operator reads which
categories were switched. The lines name the categories in their written form, and no two categories
are written alike, so that whoever reads all of the lines can tell the mask from them.
-/

namespace TorrentFlow

namespace Category

def without (c d : Category) : Category := c.symmDiff ⟨c.bits &&& d.bits⟩

lemma has_without (c d : Category) (i : Nat) : (c.without d).has i = (c.has i && !d.has i) := by
  have hand : Category.has ⟨c.bits &&& d.bits⟩ i = (c.has i && d.has i) := by
    simp only [has]
    rw [UInt32.toNat_and, Nat.testBit_and]
  rw [without, has_symmDiff, hand]
  rcases c.has i <;> rcases d.has i <;> rfl

end Category

/-! ### Lines that tell of a category -/

structure Switch where
  bit : Nat
  on : Bool
deriving DecidableEq

namespace Switch

def line (s : Switch) : String :=
  "DEBUG " ++ (if s.on then "enabling alerts: " else "disabling alerts: ") ++
    (Category.bit s.bit).text

/-- What can be switched. -/
def all : List Switch := (List.range 32).flatMap fun i => [⟨i, true⟩, ⟨i, false⟩]

def ofLine? (line : String) : Option Switch := all.find? fun s => s.line == line

def apply (c : Category) (s : Switch) : Category :=
  if s.on then c ||| .bit s.bit else c.without (.bit s.bit)

lemma mem_all {s : Switch} : s ∈ all ↔ s.bit < 32 := by
  obtain ⟨i, on⟩ := s
  rcases on <;> simp [all]

lemma eq_of_line {s t : Switch} (hs : s.bit < 32) (ht : t.bit < 32) (h : s.line = t.line) :
    s = t := by
  obtain ⟨i, on⟩ := s
  obtain ⟨j, on'⟩ := t
  have hchars := congrArg String.toList h
  have hon : on = on' := by
    rcases on <;> rcases on' <;> simp [line, String.toList_append] at hchars <;> rfl
  subst hon
  simp only [line, String.toList_append, List.append_cancel_left_eq, String.toList_inj] at hchars
  have hij := Category.bit_inj hs ht (Category.text_inj.mp hchars)
  exact congrArg (fun k => Switch.mk k on) hij

lemma ofLine?_line {s : Switch} (hs : s.bit < 32) : ofLine? s.line = some s := by
  have hmem := mem_all.mpr hs
  rcases hfind : ofLine? s.line with _ | t
  · have hnone := List.find?_eq_none.mp hfind s hmem
    exact absurd BEq.rfl hnone
  · have hline : t.line = s.line := by simpa using List.find?_some hfind
    exact congrArg some (eq_of_line (mem_all.mp (List.mem_of_find?_eq_some hfind)) hs hline)

/-- A warning does not pass for a line about a switch. -/
lemma ofLine?_of_warning (text : String) : ofLine? ("WARN " ++ text) = none := by
  refine List.find?_eq_none.mpr fun s _ => ?_
  have hne : ("WARN " ++ text).toList.head? ≠ s.line.toList.head? := by
    simp [line, String.toList_append]
  exact fun heq => hne (congrArg (fun l : String => l.toList.head?) (eq_of_beq heq)).symm

lemma has_apply (c : Category) {s : Switch} (hs : s.bit < 32) (i : Nat) :
    (apply c s).has i = if i = s.bit then s.on else c.has i := by
  obtain ⟨j, on⟩ := s
  rcases on
  · rw [apply, if_neg (by simp), Category.has_without, Category.has_bit hs]
    by_cases hij : i = j
    · simp [hij]
    · simp [hij, Ne.symm hij]
  · rw [apply, if_pos rfl, Category.has_or, Category.has_bit hs]
    by_cases hij : i = j
    · simp [hij]
    · simp [hij, Ne.symm hij]

lemma has_foldl_apply (f : Nat → Bool) (l : List Nat) (hl : ∀ i ∈ l, i < 32)
    (c : Category) (i : Nat) :
    ((l.map fun j => Switch.mk j (f j)).foldl apply c).has i = if i ∈ l then f i else c.has i := by
  induction l generalizing c with
  | nil => rfl
  | cons j rest ih =>
    rw [List.map_cons, List.foldl_cons, ih (fun k hk => hl k (by simp [hk])),
      has_apply _ (hl j (by simp))]
    by_cases hij : i = j
    · simp [hij]
    · simp [hij]

end Switch

/-- The set that somebody arrives at who begins with nothing and does what the lines tell. -/
def replay (lines : List String) : Category :=
  (lines.filterMap Switch.ofLine?).foldl Switch.apply .none

/-- An engine behind somebody who writes down every mask that it is given, and how many other calls
were made. -/
structure MaskLog (σ : Type) where
  engine : σ
  masks : List Category := []
  others : Nat := 0
deriving DecidableEq

namespace MaskLog

variable {σ : Type} [Engine σ]

def through {α : Type} (call : Call σ α) : Call (MaskLog σ) α := fun r =>
  ((call r.engine).1, { r with engine := (call r.engine).2, others := r.others + 1 })

instance : Engine (MaskLog σ) where
  watch := through Engine.watch
  unwatch := through Engine.unwatch
  rings n r := Engine.rings n r.engine
  hasAlerts := through Engine.hasAlerts
  takeAlerts := through Engine.takeAlerts
  applyMask mask r :=
    { r with engine := Engine.applyMask mask r.engine, masks := r.masks ++ [mask] }
  isTracked h := through (Engine.isTracked h)
  status h := through (Engine.status h)
  setDeadline h p deadline alert := through (Engine.setDeadline h p deadline alert)
  resetDeadline h p := through (Engine.resetDeadline h p)

/-- The engine was given these masks and asked for nothing else. -/
def given (r : MaskLog σ) (masks : List Category) : MaskLog σ :=
  { r with
    engine := masks.foldl (fun engine mask => Engine.applyMask mask engine) r.engine
    masks := r.masks ++ masks }

@[simp] lemma given_nil (r : MaskLog σ) : r.given [] = r := by simp [given]

end MaskLog

namespace Demand

def Holds (d : Demand) (i : Nat) : Prop := i < 32 ∧ 0 < d.holders.count (.bit i)

instance (d : Demand) (i : Nat) : Decidable (d.Holds i) := inferInstanceAs (Decidable (_ ∧ _))

/-- The categories that are held before and not after, or after and not before, lowest first. -/
def switched (d d' : Demand) : List Switch :=
  ((List.range 32).filter fun i => decide (d.Holds i) != decide (d'.Holds i)).map fun i =>
    ⟨i, decide (d'.Holds i)⟩

/-- The masks that an engine is given when the demand becomes another: one, if it has changed. -/
def pushed (d d' : Demand) : List Category := if d'.applied = d.applied then [] else [d'.applied]

def Agrees (d : Demand) : Prop := ∀ i, d.applied.has i = true ↔ d.Holds i

lemma Settled.agrees {configured : Category} {ops : List Op} {d : Demand}
    (h : Settled configured ops d) :
    d.Agrees := h.has_applied

lemma Agrees.eq_iff {d d' : Demand} (h : d.Agrees) (h' : d'.Agrees) :
    d'.applied = d.applied ↔ ∀ i, d.Holds i ↔ d'.Holds i := by
  refine ⟨fun heq i => by rw [← h, ← h', heq], fun hall => Category.eq_of_has fun i _ => ?_⟩
  rw [h, h', hall]

/-! ### What is said -/

lemma line_enabled (i : Nat) : (Notice.categoryEnabled (.bit i)).line = Switch.line ⟨i, true⟩ := by
  have hhead : "DEBUG" ++ " " ++ "enabling alerts: " = "DEBUG " ++ "enabling alerts: " := by decide
  show "DEBUG" ++ " " ++ ("enabling alerts: " ++ _) = "DEBUG " ++ "enabling alerts: " ++ _
  rw [← String.append_assoc, hhead]

lemma line_disabled (i : Nat) :
    (Notice.categoryDisabled (.bit i)).line = Switch.line ⟨i, false⟩ := by
  have hhead : "DEBUG" ++ " " ++ "disabling alerts: " = "DEBUG " ++ "disabling alerts: " := by
    decide
  show "DEBUG" ++ " " ++ ("disabling alerts: " ++ _) = "DEBUG " ++ "disabling alerts: " ++ _
  rw [← String.append_assoc, hhead]

lemma changeNotices_lines {d d' : Demand} (h : d.Agrees) (h' : d'.Agrees) :
    Notice.lines .debug (changeNotices d.applied d'.applied) = (d.switched d').map Switch.line := by
  have hhas : ∀ {d : Demand}, d.Agrees → ∀ i, d.applied.has i = decide (d.Holds i) := fun h i => by
    rw [Bool.eq_iff_iff, h, decide_eq_true_eq]
  have hbits : (d.applied.symmDiff d'.applied).bitNumbers =
      (List.range 32).filter fun i => decide (d.Holds i) != decide (d'.Holds i) := by
    refine List.filter_congr fun i _ => ?_
    exact (Category.has_symmDiff _ _ i).trans (by rw [hhas h, hhas h'])
  rw [changeNotices, switched, Category.members_eq, hbits, Notice.lines, List.map_map, List.map_map,
    List.filter_eq_self.mpr]
  · rw [List.map_map]
    refine List.map_congr_left fun i hi => ?_
    have hi : i < 32 := List.mem_range.mp (List.mem_filter.mp hi).1
    rw [Function.comp_apply, Function.comp_apply, Function.comp_apply,
      Category.contains_bit _ hi, hhas h']
    rcases decide (d'.Holds i) with _ | _
    · rw [if_neg Bool.false_ne_true, line_disabled]
    · rw [if_pos rfl, line_enabled]
  · intro n hn
    obtain ⟨i, -, rfl⟩ := List.mem_map.mp hn
    rw [Function.comp_apply]
    split_ifs <;> rfl

lemma warnings_lines (l : List Nat) :
    Notice.lines .debug (l.map fun i => .categoryNotHeld (.bit i)) =
    l.map fun i => "WARN " ++ (Notice.categoryNotHeld (.bit i)).message := by
  rw [Notice.lines, List.filter_eq_self.mpr, List.map_map]
  · rfl
  · intro n hn
    obtain ⟨i, -, rfl⟩ := List.mem_map.mp hn
    rfl

lemma lines_append (least : Level) (ns ns' : List Notice) :
    Notice.lines least (ns ++ ns') = Notice.lines least ns ++ Notice.lines least ns' := by
  simp [Notice.lines]

lemma lt_of_mem_switched {d d' : Demand} {s : Switch} (hs : s ∈ d.switched d') : s.bit < 32 := by
  obtain ⟨i, hi, rfl⟩ := List.mem_map.mp hs
  exact List.mem_range.mp (List.mem_filter.mp hi).1

lemma mem_switched {d d' : Demand} {i : Nat} {on : Bool} :
    ⟨i, on⟩ ∈ d.switched d' ↔ ¬ (d.Holds i ↔ d'.Holds i) ∧ (on = true ↔ d'.Holds i) := by
  have hbool : (decide (d.Holds i) != decide (d'.Holds i)) = true ↔ ¬ (d.Holds i ↔ d'.Holds i) := by
    rw [bne_iff_ne, ne_eq, decide_eq_decide]
  simp only [switched, List.mem_map, List.mem_filter, List.mem_range, Switch.mk.injEq]
  constructor
  · rintro ⟨i, ⟨-, hne⟩, rfl, rfl⟩
    exact ⟨hbool.mp hne, decide_eq_true_iff⟩
  · rintro ⟨hne, hon⟩
    have hi : i < 32 := by
      by_contra hi
      exact hne ⟨fun h => absurd h.1 hi, fun h => absurd h.1 hi⟩
    exact ⟨i, ⟨hi, hbool.mpr hne⟩, rfl, by rw [Bool.eq_iff_iff, decide_eq_true_iff, hon]⟩

lemma switched_ascending (d d' : Demand) : ((d.switched d').map Switch.bit).Pairwise (· < ·) := by
  have hbits : (d.switched d').map Switch.bit =
      (List.range 32).filter fun i => decide (d.Holds i) != decide (d'.Holds i) := by
    rw [switched, List.map_map]
    exact List.map_id _
  rw [hbits]
  exact List.pairwise_lt_range.sublist List.filter_sublist

/-- Who reads the lines of one operation finds what is switched, and nothing else. -/
lemma read_lines (d d' : Demand) (l : List Nat) :
    ((l.map fun i => "WARN " ++ (Notice.categoryNotHeld (.bit i)).message) ++
      (d.switched d').map Switch.line).filterMap Switch.ofLine? = d.switched d' := by
  rw [List.filterMap_append, List.filterMap_map, List.filterMap_map]
  have hwarn : l.filterMap (Switch.ofLine? ∘ fun i =>
      "WARN " ++ (Notice.categoryNotHeld (.bit i)).message) = [] :=
    List.filterMap_eq_nil_iff.mpr fun i _ => Switch.ofLine?_of_warning _
  have hswitched : (d.switched d').filterMap (Switch.ofLine? ∘ Switch.line) =
      (d.switched d').filterMap some :=
    List.filterMap_congr fun s hs => Switch.ofLine?_line (lt_of_mem_switched hs)
  rw [hwarn, hswitched, List.filterMap_some, List.nil_append]

/-- Who does what is switched comes from the one mask to the other. -/
lemma foldl_switched {d d' : Demand} (h : d.Agrees) (h' : d'.Agrees) :
    (d.switched d').foldl Switch.apply d.applied = d'.applied := by
  refine Category.eq_of_has fun i hi => ?_
  rw [switched, Switch.has_foldl_apply _ _ (fun j hj =>
    List.mem_range.mp (List.mem_filter.mp hj).1), h']
  split_ifs with hmem
  · exact decide_eq_true_iff
  · have hsame : decide (d.Holds i) = decide (d'.Holds i) := by
      by_contra hne
      exact hmem (List.mem_filter.mpr ⟨List.mem_range.mpr hi, by simpa using hne⟩)
    rw [h, ← decide_eq_true_iff (p := d.Holds i), hsame, decide_eq_true_iff]

section Any

variable {σ : Type} [Engine σ]

/-! ### What is done at the engine -/

lemma engine_push_eq (d : Demand) (holders : Holders) (configured : Category) (e : MaskLog σ) :
    (push { d with holders, configured } e).2.1 =
      e.given (d.pushed (push { d with holders, configured } e).1) := by
  by_cases heq : holders.mask = d.applied
  · simp [push, pushed, heq]
  · simp [push, pushed, heq, MaskLog.given, Engine.applyMask]

/-- **An operation gives the engine the new mask if it is another one, and makes no other call.** -/
lemma engine_perform (d : Demand) (e : MaskLog σ) (op : Op) :
    (d.perform e op).2.1 = e.given (d.pushed (d.perform e op).1) := by
  cases op with
  | acquire mask =>
    simp only [perform, acquire]
    exact engine_push_eq d _ d.configured e
  | release mask =>
    simp only [perform, release_eq]
    exact engine_push_eq d _ d.configured e
  | stage configured =>
    simp only [perform, stage_eq]
    exact engine_push_eq d _ configured e

/-- Any operations from the start, with all that the operator was told. In between the engine goes
its own way, as far as `aside` lets it. -/
inductive Course (aside : σ → σ → Prop) (configured : Category) (engine : σ) :
    List Op → List Notice → Demand → σ → Prop
  | start : Course aside configured engine [] (start configured engine).2.2
      (start configured engine).1 (start configured engine).2.1
  | perform {ops : List Op} {told : List Notice} {d : Demand} {e : σ}
    (h : Course aside configured engine ops told d e) (op : Op) :
    Course aside configured engine (ops ++ [op]) (told ++ (d.perform e op).2.2) (d.perform e op).1
      (d.perform e op).2.1
  | aside {ops : List Op} {told : List Notice} {d : Demand} {e e' : σ}
    (h : Course aside configured engine ops told d e) (he : aside e e') :
    Course aside configured engine ops told d e'

variable {aside : σ → σ → Prop} {configured : Category} {engine e : σ} {ops : List Op}
  {told : List Notice} {d : Demand}

lemma Course.run (h : Course aside configured engine ops told d e) :
    Run aside configured engine ops d e := by
  induction h with
  | start => exact .start
  | perform _ op ih => exact ih.perform op
  | aside _ he ih => exact ih.aside he

/-- What the operator reads of one operation: first what was given back in vain, then what is
switched. -/
lemma perform_lines (h : Settled configured ops d) (e : σ) (op : Op) :
    Notice.lines .debug (d.perform e op).2.2 =
      ((d.unheld op).map fun i => "WARN " ++ (Notice.categoryNotHeld (.bit i)).message) ++
        (d.switched (d.perform e op).1).map Switch.line := by
  rw [perform_notices h.tidy, lines_append, warnings_lines,
    changeNotices_lines h.agrees (h.perform e op).agrees]

lemma replay_append (told notices : List Notice) : replay (Notice.lines .debug (told ++ notices)) =
    ((Notice.lines .debug notices).filterMap Switch.ofLine?).foldl Switch.apply
      (replay (Notice.lines .debug told)) := by
  rw [replay, lines_append, List.filterMap_append, List.foldl_append, replay]

/-- **The lines of the whole run tell the mask.** -/
theorem replay_course (h : Course aside configured engine ops told d e) :
    replay (Notice.lines .debug told) = d.applied := by
  induction h with
  | start =>
    have hnobody : Agrees {} := fun i => by
      rw [Category.has_none]
      simp [Holds, Holders.count, Table.get?, Table.find]
    have hstart := (settled_start configured engine).agrees
    have hnotices : (start configured engine).2.2 =
        changeNotices ({} : Demand).applied (start configured engine).1.applied := by
      simp [Demand.start, push_notices]
    have hread := read_lines {} (start configured engine).1 []
    rw [List.map_nil, List.nil_append] at hread
    have hfold := foldl_switched hnobody hstart
    rw [hnotices, changeNotices_lines hnobody hstart, replay, hread]
    exact hfold
  | perform h op ih =>
    have hs := settled_run h.run
    rw [replay_append, ih, perform_lines hs, read_lines]
    exact foldl_switched hs.agrees (hs.perform _ op).agrees
  | aside _ _ ih => exact ih

end Any

/-- **The engine is told of a change once, and the operator reads what changed**, for every
operation from every state that can be reached, on every engine:

* if the same categories are held before and after, then nothing is asked of the engine; else it is
  given one mask, made of the categories that are held after, and nothing else is asked of it;
* a category that is held before and after is in every mask that is given meanwhile;
* beside the warnings about what was given back in vain, the operator reads one line for each
  category that is held before or after but not both, which tells whether it is now enabled, the
  lowest category first;
* who begins with no category and does what all the lines since the start tell arrives at the mask
  that the engine was last given, which is made of the categories that are held. -/
theorem mask_given_once {σ : Type} [Engine σ] {aside : MaskLog σ → MaskLog σ → Prop}
    {configured : Category} {engine e : MaskLog σ} {ops : List Op} {told : List Notice} {d : Demand}
    (hcourse : Course aside configured engine ops told d e) :
    (∀ (op : Op) (d' : Demand) (e' : MaskLog σ) (notices : List Notice),
      d.perform e op = (d', e', notices) →
      ((∀ i, d.Holds i ↔ d'.Holds i) → e' = e) ∧
      ((¬ ∀ i, d.Holds i ↔ d'.Holds i) →
        ∃ mask : Category, (∀ i, mask.has i = true ↔ d'.Holds i) ∧ e' = e.given [mask]) ∧
      (∀ masks, e'.masks = e.masks ++ masks →
        ∀ i, d.Holds i → d'.Holds i → ∀ mask ∈ masks, mask.has i = true) ∧
      ∃ switches : List Switch, (switches.map Switch.bit).Pairwise (· < ·) ∧
        (∀ i on, ⟨i, on⟩ ∈ switches ↔ ¬ (d.Holds i ↔ d'.Holds i) ∧ (on = true ↔ d'.Holds i)) ∧
        Notice.lines .debug notices =
          ((d.unheld op).map fun i => "WARN " ++ (Notice.categoryNotHeld (.bit i)).message) ++
            switches.map Switch.line) ∧
    (∀ i, d.applied.has i = true ↔ d.Holds i) ∧
    replay (Notice.lines .debug told) = d.applied := by
  have hs := settled_run hcourse.run
  refine ⟨fun op d' e' notices hop => ?_, hs.agrees, replay_course hcourse⟩
  have hd' : (d.perform e op).1 = d' := congrArg (·.1) hop
  have hengine : e' = e.given (d.pushed d') := by
    rw [← hd', ← engine_perform, hop]
  have hlines := perform_lines hs e op
  rw [hop] at hlines
  have hagree : d'.Agrees := hd' ▸ (hs.perform e op).agrees
  have hsame := hs.agrees.eq_iff hagree
  refine ⟨fun hall => ?_, fun hall => ⟨d'.applied, hagree, ?_⟩,
    fun masks hmasks i _ hi mask hmask => ?_,
    d.switched d', switched_ascending d d', fun i on => mem_switched, hlines⟩
  · rw [hengine, pushed, if_pos (hsame.mpr hall), MaskLog.given_nil]
  · rw [hengine, pushed, if_neg (mt hsame.mp hall)]
  · have hpushed : masks = d.pushed d' := by
      rw [hengine] at hmasks
      exact (List.append_cancel_left hmasks).symm
    rw [hpushed, pushed] at hmask
    split_ifs at hmask
    · cases hmask
    · rw [List.mem_singleton.mp hmask, hagree]
      exact hi

/-- The configuration changes from errors and status to errors and storage while somebody else holds
errors: one mask is given, with errors in it. -/
theorem mask_given_once_across_stage :
    ∃ (told : List Notice) (d d' : Demand) (e e' : MaskLog Simulated) (notices : List Notice)
    (mask : Category),
    Course (fun _ _ => False) (.union [.error, .status]) ⟨{}, [], 0⟩ [.acquire .error] told d e ∧
      d.perform e (.stage (.union [.error, .storage])) = (d', e', notices) ∧ e' = e.given [mask] ∧
      mask.has 0 = true ∧ replay (Notice.lines .debug told) = d.applied ∧
      d.applied = .union [.error, .status] := by
  have hcourse : Course (fun _ _ => False) (.union [.error, .status])
      (⟨{}, [], 0⟩ : MaskLog Simulated) ([] ++ [.acquire .error]) _ _ _ := Course.start.perform _
  obtain ⟨hop, -, hreplay⟩ := mask_given_once hcourse
  obtain ⟨-, hpush, hkept, -⟩ := hop (.stage (.union [.error, .storage])) _ _ _ rfl
  obtain ⟨mask, hmask, hgiven⟩ := hpush (fun h => absurd (h 3) (by decide +kernel))
  have hmask0 := hkept [mask] (by rw [hgiven]; rfl) 0 (by decide +kernel) (by decide +kernel) mask
    (List.mem_singleton_self mask)
  exact ⟨_, _, _, _, _, _, mask, hcourse, rfl, hgiven, hmask0, hreplay, by decide +kernel⟩

end Demand

end TorrentFlow
