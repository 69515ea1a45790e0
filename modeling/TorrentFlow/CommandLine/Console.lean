import TorrentFlow.Notice
import TorrentFlow.Numeral

/-!
# What the console shows

A message for the console has a level and a target, the part of the program that it comes from.
Which messages are shown is said by directives such as `warn` or `net=debug`, separated by commas. A
directive with a target is for everything that the target is the beginning of; of several that fit,
the one with the longest target decides, and of two with the same target the later one. Directives
that make no sense are passed over, and if nothing is left the level asked for on the command line
stands.
-/

namespace TorrentFlow.Console

/-- How much is shown: nothing, or everything at least as pressing as a level. -/
abbrev Threshold := Option Level

def shows (t : Threshold) (l : Level) : Bool :=
  match t with
  | none => false
  | some least => decide (l.rank ≤ least.rank)

inductive Directive where
  | level (target : Option String) (threshold : Threshold)
  /-- For what happens within a named span, of which this program has none. -/
  | span
deriving DecidableEq

def threshold? (s : String) : Option Threshold :=
  match Numeral.word? s with
  | some 0 => some none
  | some n => (Level.all[n - 1]?).map some
  | none =>
    if s == "" then some (some .error)
    else if String.ofList (s.toList.map Char.toLower) == "off" then some none
    else (Level.ofName? s).map some

def canBegin (c : Char) : Bool :=
  c.isAlphanum || c == '-' || c == ':' || c == '_' || decide (127 < c.toNat)

def cut (stop : Char → Bool) (cs : List Char) : List Char × List Char :=
  (cs.takeWhile fun c => !stop c, cs.dropWhile fun c => !stop c)

def plainDirective? (cs : List Char) : Option Directive :=
  match cut (· == '=') cs with
  | (target, _ :: level) =>
    let level := String.ofList level
    let threshold := if level == "" then some (some .trace) else threshold? level
    threshold.map fun t => .level (some (String.ofList target)) t
  | (word, []) =>
    let word := String.ofList word
    match threshold? word with
    | some t => some (.level none t)
    | none => some (.level (some word) (some .trace))

/-- Reads a directive. Blanks around it belong to it, so that with them it can be for no target of
this program and can have no level. -/
def directive? (s : String) : Option Directive :=
  match s.trimAscii.toString.toList with
  | [] => none
  | c :: cs =>
    let word := c :: cs
    if word.contains '[' then
      if word.contains ']' && (c == '[' || canBegin c) then some .span else none
    else if !canBegin c then none
    else if word = s.toList then plainDirective? word
    else if word.contains '=' then none
    else some (.level (some s) (some .trace))

def directives (s : String) : List Directive :=
  ((s.splitOn ",").filter (· != "")).filterMap directive?

/-- The directives that hold: those asked for, or the level of the command line if there are
none. -/
def effective (asked : String) (level : Level) : List Directive :=
  match directives asked with
  | [] => [.level none (some level)]
  | ds => ds

/-- How well a directive fits a target: one more than the length of its own target, or one if it is
for every target, or zero if it does not fit. -/
def fit (target : String) : Directive → Nat
  | .level none _ => 1
  | .level (some t) _ => if target.startsWith t then t.length + 2 else 0
  | .span => 0

def isShown (ds : List Directive) (target : String) (l : Level) : Bool :=
  let better (best : Option Directive) (d : Directive) : Option Directive :=
    if fit target d = 0 then best
    else
      match best with
      | none => some d
      | some b => if fit target b ≤ fit target d then some d else some b
  match ds.foldl better none with
  | some (.level _ t) => shows t l
  | _ => false

def line (target : String) (l : Level) (message : String) : String :=
  String.ofList (List.replicate (5 - l.label.length) ' ') ++ l.label ++ " " ++ target ++
    ": " ++ message

end TorrentFlow.Console
