import TorrentFlow.Settings

/-!
# Arguments

The command line has one option for every command, `--log-level`, and two commands: `config`, which
has no options of its own, and `demo`, which has a few. An option is given its value by the next
argument or after an equals sign, and a short one also right behind its letter. Arguments are read
from left to right, and reading ends at the first one that is wrong or asks for help.
-/

namespace TorrentFlow.CommandLine

structure DemoOptions where
  pieces : Nat := 8
  read : List Int := [2, 0, 1]
  source : Option SourceMode := none
  delayMs : Nat := 50
  pollMs : Nat := 100
  removeAfter : Option Nat := none

inductive Command where
  | demo (options : DemoOptions)
  | config

inductive Invocation where
  | run (level : Level) (command : Command)
  | help
  | misuse

structure GivenOptions where
  level : Option Level := none
  pieces : Option Nat := none
  read : Option (List Int) := none
  source : Option SourceMode := none
  delayMs : Option Nat := none
  pollMs : Option Nat := none
  removeAfter : Option Nat := none

namespace GivenOptions

def complete (g : GivenOptions) : DemoOptions :=
  let base : DemoOptions := {}
  { pieces := g.pieces.getD base.pieces
    read := g.read.getD base.read
    source := g.source
    delayMs := g.delayMs.getD base.delayMs
    pollMs := g.pollMs.getD base.pollMs
    removeAfter := g.removeAfter }

end GivenOptions

def level? (s : String) : Option Level := Level.all.find? fun l => l.name == s

def indices? (s : String) : Option (List Int) := (s.splitOn ",").mapM Numeral.index?

/-- Gives a value to an option that must not have one yet. -/
def once {α : Type} (given : Option α) (value : Option α) : Option (Option α) :=
  match given, value with
  | none, some v => some (some v)
  | _, _ => none

def longName? : Char → Option String
  | 'p' => some "pieces"
  | 'r' => some "read"
  | _ => none

/-- Takes the value of an option of `demo`. Only the pieces to read may be given more than once, and
are then read one list after the other. -/
def GivenOptions.set? (g : GivenOptions) (name value : String) : Option GivenOptions :=
  match name with
  | "log-level" => (once g.level (level? value)).map fun v => { g with level := v }
  | "pieces" => (once g.pieces (Numeral.word? value)).map fun v => { g with pieces := v }
  | "read" => (indices? value).map fun v => { g with read := some (g.read.getD [] ++ v) }
  | "source" => (once g.source (SourceMode.ofName? value)).map fun v => { g with source := v }
  | "delay-ms" => (once g.delayMs (Numeral.word? value)).map fun v => { g with delayMs := v }
  | "poll-ms" => (once g.pollMs (Numeral.word? value)).map fun v => { g with pollMs := v }
  | "remove-after" =>
    (once g.removeAfter (Numeral.word? value)).map fun v => { g with removeAfter := v }
  | _ => none

def demoNames : List String :=
  ["log-level", "pieces", "read", "source", "delay-ms", "poll-ms", "remove-after"]

inductive Shape where
  | word (text : String)
  | help
  | option (name : String)
  | valued (name value : String)
  | endMark
  | unknown

def splitEquals (cs : List Char) : String × Option String :=
  let name := cs.takeWhile (· != '=')
  match cs.dropWhile (· != '=') with
  | [] => (String.ofList name, none)
  | _ :: value => (String.ofList name, some (String.ofList value))

/-- Looks at an argument where the options in `names`, and the short ones if `short`, are known. -/
def shape (names : List String) (short : Bool) (arg : String) : Shape :=
  match arg.toList with
  | ['-', '-'] => .endMark
  | '-' :: '-' :: cs =>
    match splitEquals cs with
    | ("help", none) => .help
    | (name, value) =>
      if names.contains name then
        match value with
        | none => .option name
        | some value => .valued name value
      else .unknown
  | '-' :: c :: cs =>
    if c == 'h' then .help
    else
      match if short then longName? c else none, cs with
      | none, _ => .unknown
      | some name, [] => .option name
      | some name, '=' :: value => .valued name (String.ofList value)
      | some name, value => .valued name (String.ofList value)
  | _ => .word arg

def isValue (arg : String) : Bool :=
  match arg.toList with
  | '-' :: _ :: _ => false
  | _ => true

inductive Parsed (α : Type) where
  | ok (value : α)
  | help
  | misuse

def options (names : List String) (short : Bool) (g : GivenOptions) :
    List String → Parsed GivenOptions
  | [] => .ok g
  | arg :: rest =>
    match shape names short arg with
    | .help => .help
    | .unknown => .misuse
    | .word _ => .misuse
    | .endMark => if rest.isEmpty then .ok g else .misuse
    | .valued name value =>
      match g.set? name value with
      | some g => options names short g rest
      | none => .misuse
    | .option name =>
      match rest with
      | [] => .misuse
      | value :: rest =>
        if !isValue value then .misuse
        else
          match g.set? name value with
          | some g => options names short g rest
          | none => .misuse

def helpAbout : List String → Invocation
  | [] => .help
  | ["demo"] => .help
  | ["config"] => .help
  | ["help"] => .help
  | _ => .misuse

/-- The level given before the command. A value in an argument of its own is looked at only when the
next option comes, or after the command's own arguments. -/
structure GivenLevel where
  level : Option Level := none
  unread : Option String := none

namespace GivenLevel

/-- The level, once the value that was not looked at yet is; none if that value is wrong. -/
def read? (g : GivenLevel) : Option (Option Level) :=
  match g.unread with
  | none => some g.level
  | some value => once g.level (level? value)

def invoke (g : GivenLevel) (command : GivenOptions → Command) : Parsed GivenOptions → Invocation
  | .help => .help
  | .misuse => .misuse
  | .ok own =>
    match g.read? with
    | none => .misuse
    | some level => .run ((own.level.or level).getD .info) (command own)

end GivenLevel

def readFrom (g : GivenLevel) : List String → Invocation
  | [] => .misuse
  | arg :: rest =>
    match shape ["log-level"] false arg with
    | .help => if g.read?.isSome then .help else .misuse
    | .unknown => .misuse
    | .endMark => .misuse
    | .valued _ value =>
      match g.read?.bind fun level => once level (level? value) with
      | some level => readFrom { level } rest
      | none => .misuse
    | .option _ =>
      match rest, g.read? with
      | value :: rest, some level =>
        if isValue value then readFrom { level, unread := some value } rest else .misuse
      | _, _ => .misuse
    | .word "demo" => g.invoke (fun own => .demo own.complete) (options demoNames true {} rest)
    | .word "config" => g.invoke (fun _ => .config) (options ["log-level"] false {} rest)
    | .word "help" => helpAbout rest
    | .word _ => .misuse

def invocation (args : List String) : Invocation := readFrom {} args

end TorrentFlow.CommandLine
