import TorrentFlow.CommandLine.Run

/-!
The program. What it says, and when, is decided before it begins; here it is said at its time.
-/

namespace TorrentFlow.CommandLine

def processEnvironment : IO (String → Option String) := do
  let found ← variableNames.mapM fun name => do return (name, ← IO.getEnv name)
  return fun name => (found.lookup name).join

def randomOrder (n : Nat) : IO (List Nat) := do
  let choices ← (List.range n).mapM fun i => IO.rand 0 (n - i - 1)
  return Demo.drawn choices (List.range n)

/-- Says everything at its time. What is shown on the console is one thing; every message goes into
the log. -/
def speak (directives : List Console.Directive) (log : IO.FS.Handle) :
    (since : Nat) → List Spoken → IO Unit
  | _, [] => pure ()
  | since, s :: rest => do
    if since < s.time then
      IO.sleep (UInt32.ofNat ((s.time - since) / 1000000))
    match s.output.shown? directives with
    | some text => IO.println text
    | none => pure ()
    match s.output with
    | .line _ => pure ()
    | .message target level text => log.putStrLn (Console.line target level text)
    (← IO.getStdout).flush
    speak directives log (max since s.time) rest

partial def linger : IO UInt32 := do
  IO.sleep 1000
  linger

def startLog : IO IO.FS.Handle := do
  IO.FS.createDirAll RunLog.defaultDirectory
  IO.FS.Handle.mk (RunLog.path RunLog.defaultDirectory) .write

def carryOut (args : List String) (log : IO.FS.Handle) : IO UInt32 := do
  let environment ← processEnvironment
  let outcome := run args environment (← randomOrder (pieceCount args))
  speak (consoleDirectives args environment) log 0 outcome.spoken
  outcome.errors.forM IO.eprintln
  match outcome.exit with
  | some code => return UInt32.ofNat code
  | none => linger

end TorrentFlow.CommandLine

def main (args : List String) : IO UInt32 := do
  match TorrentFlow.CommandLine.invocation args with
  | .help =>
    TorrentFlow.CommandLine.usage.forM IO.println
    return 0
  | .misuse =>
    TorrentFlow.CommandLine.usage.forM IO.eprintln
    return 2
  | .run _ _ =>
    match ← TorrentFlow.CommandLine.startLog.toBaseIO with
    | .ok log => TorrentFlow.CommandLine.carryOut args log
    | .error e =>
      IO.eprintln ("Error: Failed to initialize tracing: " ++ toString e)
      return 1
