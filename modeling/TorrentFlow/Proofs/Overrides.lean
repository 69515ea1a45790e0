import Mathlib.Data.List.Induction
import Mathlib.Data.Nat.Digits.Defs
import Mathlib.Logic.Function.Basic
import Mathlib.Tactic.IntervalCases
import TorrentFlow.Settings

/-!
Settings from the environment. Each of five settings has a variable of its own. A text that reads as
a value replaces the default, any other text and no text leave it as it is, and no variable reaches
another setting. What comes out is accepted or refused by four rules, of which the first that is
broken is the one that is told.
-/

namespace TorrentFlow

/-! ### Numerals -/

namespace Numeral

/-- A text is a decimal numeral with a value: perhaps a plus, then digits, of which there is one at
least. Any number of zeros may lead. -/
def Decimal (text : List Char) (n : Nat) : Prop :=
  ∃ digits : List Nat, digits ≠ [] ∧ (∀ d ∈ digits, d < 10) ∧
    (text = digits.map Nat.digitChar ∨ text = '+' :: digits.map Nat.digitChar) ∧
    n = Nat.ofDigits 10 digits.reverse

lemma digit?_eq_some {c : Char} {d : Nat} : digit? c = some d ↔ d < 10 ∧ c = Nat.digitChar d := by
  unfold digit?
  constructor
  · intro h
    split_ifs at h with hc
    have hbounds : 48 ≤ c.toNat ∧ c.toNat ≤ 57 := hc
    have hd : d = c.toNat - 48 := (Option.some.inj h).symm
    have hlt : d < 10 := by omega
    have hchar : c = Char.ofNat (48 + d) := by rw [← Char.ofNat_toNat c]; congr 1; omega
    refine ⟨hlt, hchar.trans ?_⟩
    interval_cases d <;> rfl
  · rintro ⟨hd, rfl⟩
    interval_cases d <;> rfl

lemma foldl_digits {cs : List Char} {n : Nat} :
    cs.foldl (fun n c => do return (← n) * 10 + (← digit? c)) (some 0) = some n ↔
      ∃ digits : List Nat, (∀ d ∈ digits, d < 10) ∧ cs = digits.map Nat.digitChar ∧
        n = Nat.ofDigits 10 digits.reverse := by
  induction cs using List.reverseRecOn generalizing n with
  | nil => simp [Nat.ofDigits_nil, eq_comm]
  | append_singleton cs c ih =>
    rw [List.foldl_append]
    constructor
    · intro h
      obtain ⟨m, hm, hlast⟩ := Option.bind_eq_some_iff.mp h
      obtain ⟨d, hd, hvalue⟩ := Option.bind_eq_some_iff.mp hlast
      obtain ⟨hlt, rfl⟩ := digit?_eq_some.mp hd
      obtain ⟨digits, hdigits, rfl, rfl⟩ := ih.mp hm
      refine ⟨digits ++ [d], by simpa [or_imp, forall_and] using ⟨hdigits, hlt⟩, by simp, ?_⟩
      rw [← Option.some.inj hvalue, List.reverse_append, List.reverse_singleton,
        List.singleton_append, Nat.ofDigits_cons]
      omega
    · rintro ⟨digits, hdigits, hcs, rfl⟩
      -- the last letter is the last digit, and the others were read before it
      obtain ⟨init, d, rfl⟩ : ∃ init d, digits = init ++ [d] := by
        rcases List.eq_nil_or_concat digits with rfl | ⟨init, d, rfl⟩
        · simp at hcs
        · exact ⟨init, d, by simp⟩
      rw [List.map_append, List.map_singleton] at hcs
      obtain ⟨rfl, hc⟩ := List.append_inj' hcs rfl
      have hd : digit? c = some d :=
        digit?_eq_some.mpr ⟨hdigits d (by simp), List.singleton_inj.mp hc⟩
      have hinit := ih.mpr ⟨init, fun x hx => hdigits x (by simp [hx]), rfl, rfl⟩
      rw [hinit, List.reverse_append, List.reverse_singleton, List.singleton_append,
        Nat.ofDigits_cons]
      simp [hd]
      omega

lemma digits?_eq_some {cs : List Char} {n : Nat} : digits? cs = some n ↔
    ∃ digits : List Nat, digits ≠ [] ∧ (∀ d ∈ digits, d < 10) ∧ cs = digits.map Nat.digitChar ∧
      n = Nat.ofDigits 10 digits.reverse := by
  rcases cs with _ | ⟨c, cs⟩
  · simp [digits?, eq_comm]
  · rw [show digits? (c :: cs) = (c :: cs).foldl (fun n c => do return (← n) * 10 + (← digit? c))
      (some 0) from rfl, foldl_digits]
    refine exists_congr fun digits => ⟨fun h => ⟨?_, h⟩, fun h => h.2⟩
    rintro rfl
    cases h.2.1

lemma dropPlus_digits {digits : List Nat} (h : ∀ d ∈ digits, d < 10) :
    dropPlus (digits.map Nat.digitChar) = digits.map Nat.digitChar := by
  rcases digits with _ | ⟨d, digits⟩
  · rfl
  · have hd : d < 10 := h d List.mem_cons_self
    have hne : Nat.digitChar d ≠ '+' := by interval_cases d <;> decide
    unfold dropPlus
    split
    · next heq => exact absurd (List.cons.inj heq).1 hne
    · rfl

/-- **A text is read as a number of 64 bits exactly if it is a numeral of such a number.** -/
theorem word?_eq_some {s : String} {n : Nat} : word? s = some n ↔
    Decimal s.toList n ∧ n < 2 ^ 64 := by
  unfold word? unsigned?
  rw [Option.filter_eq_some_iff, decide_eq_true_iff]
  refine and_congr_left fun _ => ?_
  rw [digits?_eq_some]
  refine exists_congr fun digits => and_congr_right fun hne => and_congr_right fun hdigits =>
    and_congr_left fun _ => ?_
  constructor
  · intro h
    by_cases hplus : ∃ cs, s.toList = '+' :: cs
    · obtain ⟨cs, hcs⟩ := hplus
      rw [hcs] at h ⊢
      exact .inr (congrArg _ h)
    · refine .inl (Eq.trans ?_ h)
      unfold dropPlus
      split
      · next cs hcs => exact absurd ⟨cs, hcs⟩ hplus
      · rfl
  · rintro (h | h) <;> rw [h]
    · exact dropPlus_digits hdigits
    · rfl

end Numeral

/-! ### Names in letters of either case -/

/-- A way to put text into lower case, character by character. What becomes of a character may
depend on what stands before and after it, as with the sigma that ends a Greek word. -/
structure LowerCasing where
  lower : (before after : List Char) → Char → List Char
  ascii : ∀ before after c, c.toNat < 128 → lower before after c = [c.toLower]
  /-- Two characters beyond ASCII have a lower case with ASCII letters in it: the Kelvin sign, whose
  lower case is k, and the capital I with a dot, which leaves the dot behind as a character of its
  own. -/
  beyond : ∀ before after c, 128 ≤ c.toNat → ∃ d ∈ lower before after c, d = 'k' ∨ 128 ≤ d.toNat

namespace LowerCasing

/-- The lower case of a text, of which some part stands before. -/
def text (casing : LowerCasing) (before : List Char) : List Char → List Char
  | [] => []
  | c :: after => casing.lower before after c ++ text casing (before ++ [c]) after

lemma toLower_of_beyond {c : Char} (h : 128 ≤ c.toNat) : c.toLower = c := by
  have hnot : ¬ (c.val ≥ 'A'.val ∧ c.val ≤ 'Z'.val) := by
    rintro ⟨-, hle⟩
    have hle : c.toNat ≤ 90 := hle
    omega
  exact dif_neg hnot

/-- Whether a text becomes an ASCII word without a k can be told letter by letter. -/
theorem text_eq_iff (casing : LowerCasing) {word : List Char}
    (hword : ∀ d ∈ word, d ≠ 'k' ∧ d.toNat < 128) (before cs : List Char) :
    casing.text before cs = word ↔ cs.map Char.toLower = word := by
  induction cs generalizing before word with
  | nil => rfl
  | cons c cs ih =>
    rw [text, List.map_cons]
    rcases Nat.lt_or_ge c.toNat 128 with hascii | hbeyond
    · rw [casing.ascii before cs c hascii, List.singleton_append]
      rcases word with _ | ⟨d, word⟩
      · simp
      · rw [List.cons_eq_cons, List.cons_eq_cons,
          ih (fun x hx => hword x (List.mem_cons_of_mem _ hx)) (before ++ [c])]
    · -- a character beyond ASCII leaves something that is not in the word
      refine iff_of_false (fun h => ?_) fun h => ?_
      · obtain ⟨d, hd, hbad⟩ := casing.beyond before cs c hbeyond
        have hmem := hword d (h ▸ List.mem_append_left _ hd)
        rcases hbad with rfl | hbad
        · exact hmem.1 rfl
        · omega
      · have hmem := hword c (h ▸ List.mem_cons.mpr (.inl (toLower_of_beyond hbeyond).symm))
        omega

def plain : LowerCasing where
  lower _ _ c :=
    if c.toNat < 128 then [c.toLower]
    else if c = '\u212A' then ['k']
    else if c = '\u0130' then ['i', '\u0307']
    else [c]
  ascii _ _ c h := if_pos h
  beyond _ _ c h := by
    rw [if_neg (by omega)]
    split_ifs with hkelvin hdotted
    · exact ⟨'k', by simp, .inl rfl⟩
    · exact ⟨'\u0307', by simp, .inr (by decide)⟩
    · exact ⟨c, by simp, .inr h⟩

end LowerCasing

namespace SourceMode

lemma letters_name (m : SourceMode) : ∀ d ∈ m.name.toList, d ≠ 'k' ∧ d.toNat < 128 := by
  cases m <;> simp [name]

lemma find?_name (m : SourceMode) : (all.find? fun m' => m'.name == m.name) = some m := by
  cases m <;> decide

/-- **A text is read as a mode exactly if its lower case is the mode's name.** -/
theorem ofName?_eq_some (casing : LowerCasing) {s : String} {m : SourceMode} :
    ofName? s = some m ↔ casing.text [] s.toList = m.name.toList := by
  rw [casing.text_eq_iff m.letters_name]
  constructor
  · intro h
    have hname := List.find?_some h
    rw [eq_of_beq hname, String.toList_ofList]
  · intro h
    rw [ofName?, h, String.ofList_toList]
    exact m.find?_name

end SourceMode

namespace Settings

/-! ### The five variables -/

/-- The settings that the environment may override. -/
inductive Tunable where
  | mode
  | threadWait
  | stallTimeout
  | readWindow
  | pollInterval
deriving DecidableEq

namespace Tunable

def name : Tunable → String
  | mode => modeVariable
  | threadWait => threadWaitVariable
  | stallTimeout => stallTimeoutVariable
  | readWindow => readWindowVariable
  | pollInterval => pollIntervalVariable

def Value : Tunable → Type
  | mode => SourceMode
  | threadWait | stallTimeout | pollInterval => Duration
  | readWindow => Nat

def get (s : Settings) : (x : Tunable) → x.Value
  | mode => s.mode
  | threadWait => s.threadWait
  | stallTimeout => s.stallTimeout
  | readWindow => s.readWindow
  | pollInterval => s.pollInterval

/-- A text is a numeral of 64 bits and stands for what the number is made into. -/
def Counts {α : Type} (text : String) (given : Nat → α) (v : α) : Prop :=
  ∃ n, Numeral.Decimal text.toList n ∧ n < 2 ^ 64 ∧ v = given n

/-- A text means a value of a setting: the name of a mode, or a number of milliseconds, seconds or
pieces. -/
def Means (casing : LowerCasing) (text : String) : (x : Tunable) → x.Value → Prop
  | mode, (m : SourceMode) => casing.text [] text.toList = m.name.toList
  | threadWait, d => Counts text Duration.ofMillis d
  | stallTimeout, d => Counts text Duration.ofSeconds d
  | readWindow, n => Counts text id n
  | pollInterval, d => Counts text Duration.ofMillis d

/-- The value that a text is read as. -/
def reading (text : String) : (x : Tunable) → Option x.Value
  | mode => SourceMode.ofName? text
  | threadWait | pollInterval => (Numeral.word? text).map Duration.ofMillis
  | stallTimeout => (Numeral.word? text).map Duration.ofSeconds
  | readWindow => Numeral.word? text

lemma name_injective : Function.Injective name := by
  intro x y h
  cases x <;> cases y <;> first | rfl | exact absurd h (by decide)

lemma map_word?_eq_some {α : Type} {text : String} {given : Nat → α} {v : α} :
    (Numeral.word? text).map given = some v ↔ Counts text given v := by
  rw [Option.map_eq_some_iff]
  exact exists_congr fun n => by rw [Numeral.word?_eq_some, and_assoc, eq_comm (a := v)]

lemma word?_eq_some_iff_counts {text : String} {n : Nat} :
    Numeral.word? text = some n ↔ Counts text id n := by
  rw [← map_word?_eq_some, Option.map_id, id]

theorem reading_eq_some (casing : LowerCasing) {text : String} {x : Tunable} {v : x.Value} :
    reading text x = some v ↔ Means casing text x v := by
  cases x with
  | mode => exact SourceMode.ofName?_eq_some casing
  | threadWait | stallTimeout | pollInterval => exact map_word?_eq_some
  | readWindow => exact word?_eq_some_iff_counts

lemma fst_modeIn (environment : String → Option String) :
    (modeIn environment).1 = (environment modeVariable).bind SourceMode.ofName? := by
  unfold modeIn
  rcases environment modeVariable with _ | text
  · rfl
  · rw [Option.bind_some]
    dsimp only
    rcases SourceMode.ofName? text with _ | m <;> rfl

lemma getD_numberIn {α : Type} (environment : String → Option String) (name : String)
    (given : Nat → α) (default : α) : ((numberIn environment name).map given).getD default =
      ((environment name).bind fun text => (Numeral.word? text).map given).getD default := by
  rw [numberIn, Option.map_bind]
  rfl

/-- **A setting is what its own variable reads as, and else the default.** -/
theorem get_ofEnvironment (environment : String → Option String) (x : Tunable) :
    x.get (ofEnvironment environment).1 =
      ((environment x.name).bind fun text => reading text x).getD (x.get {}) := by
  cases x with
  | mode => exact congrArg (·.getD SourceMode.auto) (fst_modeIn environment)
  | threadWait => exact getD_numberIn environment threadWaitVariable Duration.ofMillis _
  | stallTimeout => exact getD_numberIn environment stallTimeoutVariable Duration.ofSeconds _
  | readWindow => rfl
  | pollInterval => exact getD_numberIn environment pollIntervalVariable Duration.ofMillis _

end Tunable

/-! ### The rules -/

/-- What the pipeline relies on. -/
inductive Rule where
  | threadWait
  | stallTimeout
  | readWindow
  | pollInterval
deriving DecidableEq

namespace Rule

def all : List Rule := [threadWait, stallTimeout, readWindow, pollInterval]

def Holds (s : Settings) : Rule → Prop
  | threadWait => 0 < s.threadWait.nanos ∧ s.threadWait.nanos ≤ (Duration.ofMillis 1000).nanos
  | stallTimeout => 0 < s.stallTimeout.nanos
  | readWindow => 0 < s.readWindow
  | pollInterval => 0 < s.pollInterval.nanos

instance (s : Settings) : DecidablePred (Holds s)
  | threadWait => inferInstanceAs (Decidable (_ ∧ _))
  | stallTimeout | readWindow | pollInterval => inferInstanceAs (Decidable (_ < _))

def complaint (s : Settings) : Rule → String
  | threadWait => "alert thread wait must be in (0, 1s], got " ++ s.threadWait.text
  | stallTimeout => "stall timeout must be positive"
  | readWindow => "read window must hold at least one piece"
  | pollInterval => "poll interval must be positive"

end Rule

lemma eq_zero_iff (d : Duration) : d = .zero ↔ ¬ 0 < d.nanos := by
  rw [Nat.not_lt, Nat.le_zero]
  exact ⟨fun h => by rw [h]; rfl, fun h => congrArg Duration.mk h⟩

lemma complaint_threadWait (s : Settings) :
    "alert thread wait must be in (0, " ++ maxThreadWait.text ++ "], got " ++ s.threadWait.text =
      Rule.complaint s .threadWait := by
  rw [show maxThreadWait.text = "1s" by decide +kernel]
  rfl

/-- **Whatever the settings, they are told of the first rule that they break.** -/
theorem validate_eq (s : Settings) : s.validate =
    match Rule.all.find? fun r => decide ¬ r.Holds s with
    | none => .ok ()
    | some r => .error (.configuration (r.complaint s)) := by
  have hwait : (s.threadWait = .zero ∨ maxThreadWait.nanos < s.threadWait.nanos) ↔
      ¬ Rule.threadWait.Holds s := by
    rw [eq_zero_iff, Rule.Holds, not_and_or, Nat.not_le (a := s.threadWait.nanos)]
    rfl
  have hstall : s.stallTimeout = .zero ↔ ¬ Rule.stallTimeout.Holds s := eq_zero_iff _
  have hwindow : s.readWindow = 0 ↔ ¬ Rule.readWindow.Holds s := by
    rw [Rule.Holds, Nat.not_lt, Nat.le_zero]
  have hpoll : s.pollInterval = .zero ↔ ¬ Rule.pollInterval.Holds s := eq_zero_iff _
  rw [validate, complaint_threadWait, if_congr hwait rfl rfl, if_congr hstall rfl rfl,
    if_congr hwindow rfl rfl, if_congr hpoll rfl rfl]
  simp only [Rule.all, List.find?_cons, List.find?_nil]
  have hkept : ∀ {r : Rule}, r.Holds s → decide (¬ r.Holds s) = false :=
    fun h => decide_eq_false (not_not.mpr h)
  split_ifs with hw hs hr hp
  · rw [hkept hw, hkept hs, hkept hr, hkept hp]
  · rw [hkept hw, hkept hs, hkept hr, decide_eq_true hp]
    rfl
  · rw [hkept hw, hkept hs, decide_eq_true hr]
    rfl
  · rw [hkept hw, decide_eq_true hs]
    rfl
  · rw [decide_eq_true hw]

lemma validate_eq_ok {s : Settings} : s.validate = .ok () ↔ ∀ r : Rule, r.Holds s := by
  rw [validate_eq]
  constructor
  · intro h r
    rcases hfind : Rule.all.find? fun r => decide ¬ r.Holds s with _ | r' <;> rw [hfind] at h
    · have hr : r ∈ Rule.all := by cases r <;> decide
      simpa using List.find?_eq_none.mp hfind r hr
    · cases h
  · intro h
    rw [List.find?_eq_none.mpr fun r _ => by simpa using h r]

/-- Settings that break a rule are told of it if they keep all rules before. -/
lemma validate_first {s : Settings} {before after : List Rule} {r : Rule}
    (hall : Rule.all = before ++ r :: after) (hbefore : ∀ r' ∈ before, r'.Holds s)
    (hr : ¬ r.Holds s) :
    s.validate = .error (.configuration (r.complaint s)) := by
  have hfind : (Rule.all.find? fun r => decide ¬ r.Holds s) = some r :=
    List.find?_eq_some_iff_append.mpr
      ⟨by simpa using hr, before, after, hall, fun r' hr' => by simpa using hbefore r' hr'⟩
  rw [validate_eq, hfind]

/-! ### Overrides as a whole -/

lemma threadWait_ofEnvironment (environment : String → Option String) :
    ∃ ms, (ofEnvironment environment).1.threadWait = .ofMillis ms := by
  have hget : (ofEnvironment environment).1.threadWait =
      ((numberIn environment threadWaitVariable).map Duration.ofMillis).getD (.ofSeconds 1) := rfl
  rw [hget]
  rcases numberIn environment threadWaitVariable with _ | n
  · exact ⟨1000, rfl⟩
  · exact ⟨n, rfl⟩

lemma holds_threadWait (environment : String → Option String) :
    Rule.threadWait.Holds (ofEnvironment environment).1 ↔
      ∃ ms, 1 ≤ ms ∧ ms ≤ 1000 ∧ (ofEnvironment environment).1.threadWait = .ofMillis ms := by
  obtain ⟨k, hk⟩ := threadWait_ofEnvironment environment
  simp only [Rule.Holds, hk, Duration.ofMillis, Duration.mk.injEq]
  constructor
  · exact fun h => ⟨k, by omega, by omega, rfl⟩
  · rintro ⟨ms, hpos, hle, hms⟩
    omega

/-- **Overrides are exact and independent.** For every environment, and however text is put into
lower case:

* a setting is what the text of its own variable means, if that means anything, and else it is the
  default. A number is meant by an optional plus and one or more digits, if it has no more than 64
  bits;
* the settings without a variable are the default ones, and whatever is done to any other variable
  leaves a setting as it is;
* the settings are accepted exactly if the thread waits between one millisecond and a second and the
  stall timeout, the read window and the poll interval are positive, and otherwise the first rule
  that is broken is told, in this order. -/
theorem overrides_exact (casing : LowerCasing) (environment : String → Option String) :
    let s := (ofEnvironment environment).1
    (∀ x : Tunable,
        (∀ text v, environment x.name = some text → x.Means casing text v → x.get s = v) ∧
        ((∀ text v, environment x.name = some text → ¬ x.Means casing text v) →
          x.get s = x.get {})) ∧
      (s.mask = ({} : Settings).mask ∧ s.pieceDeadline = ({} : Settings).pieceDeadline ∧
        Function.Injective Tunable.name ∧
        ∀ (x : Tunable) (name : String) (text : Option String), name ≠ x.name →
          x.get (ofEnvironment (Function.update environment name text)).1 = x.get s) ∧
      (s.validate = .ok () ↔ (∃ ms, 1 ≤ ms ∧ ms ≤ 1000 ∧ s.threadWait = .ofMillis ms) ∧
        0 < s.stallTimeout.nanos ∧ 0 < s.readWindow ∧ 0 < s.pollInterval.nanos) ∧
      ∀ (before : List Rule) (r : Rule) (after : List Rule), Rule.all = before ++ r :: after →
        (∀ r' ∈ before, r'.Holds s) → ¬ r.Holds s →
          s.validate = .error (.configuration (r.complaint s)) := by
  intro s
  refine ⟨fun x => ⟨fun text v htext hv => ?_, fun hnone => ?_⟩, ?_, ?_,
    fun _ _ _ => validate_first⟩
  · -- its own variable has a text that means something
    rw [x.get_ofEnvironment, htext, Option.bind_some, (Tunable.reading_eq_some casing).mpr hv,
      Option.getD_some]
  · have hunread : (environment x.name).bind (fun text => x.reading text) = none := by
      rw [Option.bind_eq_none_iff]
      intro text htext
      rw [Option.eq_none_iff_forall_ne_some]
      exact fun v hv => hnone text v htext ((Tunable.reading_eq_some casing).mp hv)
    rw [x.get_ofEnvironment, hunread, Option.getD_none]
  · refine ⟨rfl, rfl, Tunable.name_injective, fun x name text hne => ?_⟩
    rw [x.get_ofEnvironment, x.get_ofEnvironment, Function.update_of_ne hne.symm]
  · rw [validate_eq_ok, ← holds_threadWait]
    exact ⟨fun h => ⟨h .threadWait, h .stallTimeout, h .readWindow, h .pollInterval⟩,
      fun ⟨hwait, hstall, hwindow, hpoll⟩ r => match r with
        | .threadWait => hwait
        | .stallTimeout => hstall
        | .readWindow => hwindow
        | .pollInterval => hpoll⟩

/-- A mode in capitals, a number with a plus and zeros before it, a number that is too large and a
read window of no pieces: the first two count, the third does not, and the last one is told. -/
theorem overrides_exact_mixed : ∃ (environment : String → Option String) (s : Settings),
    (ofEnvironment environment).1 = s ∧
      environment stallTimeoutVariable = some "18446744073709551616" ∧
      s.mode = .notify ∧ s.threadWait = .ofMillis 20 ∧ s.stallTimeout = .ofSeconds 10 ∧
      s.readWindow = 0 ∧
      s.validate = .error (.configuration "read window must hold at least one piece") := by
  let environment : String → Option String := fun name =>
    if name = modeVariable then some "NOTIFY"
    else if name = threadWaitVariable then some "+0020"
    else if name = stallTimeoutVariable then some "18446744073709551616"
    else if name = readWindowVariable then some "0"
    else none
  obtain ⟨hset, -, -, htold⟩ := overrides_exact .plain environment
  have hmeans : ∀ {x : Tunable} {text : String} {v : x.Value}, x.reading text = some v →
      x.Means .plain text v := fun h => (Tunable.reading_eq_some .plain).mp h
  have hmode : (ofEnvironment environment).1.mode = .notify :=
    (hset .mode).1 "NOTIFY" SourceMode.notify rfl (hmeans (x := .mode) rfl)
  have hwait : (ofEnvironment environment).1.threadWait = .ofMillis 20 :=
    (hset .threadWait).1 "+0020" (Duration.ofMillis 20) rfl (hmeans (x := .threadWait) rfl)
  have hstall : (ofEnvironment environment).1.stallTimeout = .ofSeconds 10 :=
    (hset .stallTimeout).2 fun text v htext hv => by
      obtain rfl : "18446744073709551616" = text := Option.some.inj htext
      have hread : (Numeral.word? "18446744073709551616").map Duration.ofSeconds = some v :=
        (Tunable.reading_eq_some (x := .stallTimeout) .plain).mpr hv
      rw [show Numeral.word? "18446744073709551616" = none by decide +kernel] at hread
      cases hread
  have hwindow : (ofEnvironment environment).1.readWindow = 0 :=
    (hset .readWindow).1 "0" (0 : Nat) rfl (hmeans (x := .readWindow) rfl)
  refine ⟨environment, _, rfl, rfl, hmode, hwait, hstall, hwindow, ?_⟩
  refine htold [.threadWait, .stallTimeout] .readWindow [.pollInterval] rfl (fun r hr => ?_) ?_
  · obtain rfl | rfl : r = .threadWait ∨ r = .stallTimeout := by simpa using hr
    · simp only [Rule.Holds, hwait]
      decide
    · simp only [Rule.Holds, hstall]
      decide
  · simp [Rule.Holds, hwindow]

end Settings

end TorrentFlow
