import TorrentFlow.CommandLine.Demo
import TorrentFlow.RunLog

/-!
# Running the program

What the program says and how it ends, as a function of its arguments, its environment, and the
order in which the pieces of a demonstration come in.
-/

namespace TorrentFlow.CommandLine

def loggingTarget : String := "undertow_core::tracing_setup"
def settingsTarget : String := "undertow_core::config"

def directivesVariable : String := "RUST_LOG"

def usage : List String :=
  ["Usage: undertow [--log-level <error|warn|info|debug|trace>] <demo|config>",
   "",
   "  demo     Read and wait on pieces of a simulated torrent while it downloads",
   "             -p, --pieces <N>       how many pieces the torrent has (8)",
   "             -r, --read <I,..>      which pieces to read, in order (2,0,1)",
   "             --source <MODE>        auto, notify or thread",
   "             --delay-ms <MS>        between two pieces that come in (50)",
   "             --poll-ms <MS>         between two looks of the waiter (100)",
   "             --remove-after <N>     remove the torrent after so many pieces",
   "  config   Print the settings after environment overrides"]

def variableNames : List String :=
  [Settings.modeVariable, Settings.threadWaitVariable, Settings.stallTimeoutVariable,
   Settings.readWindowVariable, Settings.pollIntervalVariable, directivesVariable]

structure Outcome where
  /-- The exit code; none if the run goes on for ever. -/
  exit : Option Nat
  spoken : List Spoken := []
  errors : List String := []
  logged : Bool := false

def settingsLines (s : Settings) : List String :=
  let rule := String.ofList (List.replicate 40 '-')
  let warning := match s.validate with
    | .ok () => []
    | .error e => ["", "Warning: " ++ e.userMessage]
  ["Alerts", rule,
    "  source mode:    " ++ s.mode.name,
    "  thread wait:    " ++ s.threadWait.text,
    "  stall timeout:  " ++ s.stallTimeout.text,
    "  static mask:    " ++ s.mask.text,
    "Scheduler", rule,
    "  read window:    " ++ toString s.readWindow,
    "  piece deadline: " ++ s.pieceDeadline.text,
    "  poll interval:  " ++ s.pollInterval.text] ++ warning

def Output.shown? (ds : List Console.Directive) : Output → Option String
  | .line text => some text
  | .message target level text =>
    if Console.isShown ds target level then some (Console.line target level text) else none

def settingsMessages (notices : List Notice) : List Spoken :=
  notices.map fun n => ⟨0, .message settingsTarget n.level n.message⟩

def greeting (level : Level) : Spoken :=
  ⟨0, .message loggingTarget .info ("Logging at " ++ level.label ++
    " to console, full trace in " ++ RunLog.defaultDirectory ++ "/" ++ RunLog.fileName)⟩

def run (args : List String) (environment : String → Option String) (order : List Nat) : Outcome :=
  match invocation args with
  | .misuse => { exit := some 2 }
  | .help => { exit := some 0 }
  | .run level command =>
    let (settings, notices) := Settings.ofEnvironment environment
    let opening := greeting level :: settingsMessages notices
    match command with
    | .config =>
      { exit := some 0, logged := true
        spoken := opening ++ (settingsLines settings).map fun l => ⟨0, .line l⟩ }
    | .demo o =>
      let (spoken, ending) := Demo.run settings o order
      let outcome : Outcome := { exit := none, spoken := opening ++ spoken, logged := true }
      match ending with
      | .success => { outcome with exit := some 0 }
      | .failed report => { outcome with exit := some 1, errors := report }
      | .never => outcome

def consoleDirectives (args : List String) (environment : String → Option String) :
    List Console.Directive :=
  match invocation args with
  | .run level _ => Console.effective ((environment directivesVariable).getD "") level
  | _ => []

def pieceCount (args : List String) : Nat :=
  match invocation args with
  | .run _ (.demo o) => o.pieces
  | _ => 0

/-- The lines that a run shows; a text with line ends in it takes several. -/
def Outcome.lines (o : Outcome) (ds : List Console.Directive) : List String :=
  (o.spoken.filterMap fun s => s.output.shown? ds).flatMap fun text => text.splitOn "\n"

end TorrentFlow.CommandLine
