import TorrentFlow.CommandLine.Arguments
import TorrentFlow.CommandLine.Console
import TorrentFlow.Engine.Simulated
import TorrentFlow.Session.Control

/-!
# The demonstration

A simulated torrent is downloaded piece by piece while a reader and a waiter go through the same
list of pieces side by side. Everything happens on the session's clock, so that the demonstration is
a function of its options and of the order in which the pieces come in; whoever shows it may take as
long over it as the clock says.
-/

namespace TorrentFlow.CommandLine

inductive Output where
  | line (text : String)
  | message (target : String) (level : Level) (text : String)

structure Spoken where
  time : Nat
  output : Output

namespace Demo

def servicesTarget : String := "undertow_core::services"
def commandsTarget : String := "undertow::commands"

def readerName : String := "read"
def waiterName : String := "wait"

def payloadText (i : Nat) : String := "piece " ++ toString i ++ " payload"

def payload (i : Nat) : Payload := (payloadText i).toUTF8.data.toList

/-- A text with blanks before it, to at least three columns. -/
def inThree (s : String) : String :=
  String.ofList (List.replicate (3 - s.length) ' ') ++ s

def listText (ns : List Int) : String := "[" ++ ", ".intercalate (ns.map toString) ++ "]"

/-- Bytes as text; bytes that are no text show as one mark. -/
def bytesText (bytes : Payload) : String :=
  (String.fromUTF8? ⟨bytes.toArray⟩).getD "\ufffd"

def itemLine : Item → String
  | .piece (.ok d) => "  read  " ++ inThree d.piece.text ++ ": " ++ bytesText d.data
  | .piece (.error e) => "  read  failed: " ++ e.message
  | .available (.ok p) => "  wait  " ++ inThree p.text ++ ": available"
  | .available (.error e) => "  wait  failed: " ++ e.message
  | .alert (.ok a) => a.message
  | .alert (.error e) => e.message

structure Stage where
  session : Session Simulated
  spoken : List Spoken := []

namespace Stage

def say (s : Stage) (o : Output) : Stage :=
  { s with spoken := s.spoken ++ [⟨s.session.pipeline.now, o⟩] }

def collect (s : Stage) (name : String) : Bool × Stage :=
  let (taken, session) := s.session.take name
  let s := { s with session }
  match taken with
  | none => (true, s)
  | some (items, ended) => (ended, items.foldl (fun s i => s.say (.line (itemLine i))) s)

def collectBoth (s : Stage) : Bool × Stage :=
  let (readEnded, s) := s.collect readerName
  let (waitEnded, s) := s.collect waiterName
  (readEnded && waitEnded, s)

def elapse (s : Stage) (d : Duration) : Stage := { s with session := s.session.elapse d }

def engine {α : Type} (s : Stage) (f : Simulated → α × Simulated) : α × Stage :=
  let (a, session) := s.session.act fun p =>
    let (a, engine) := f p.engine
    (a, { p with engine })
  (a, { s with session })

end Stage

/-- Lets the pieces come in one by one, in the order given, and removes the torrent when its time
has come. Stops as soon as both streams have ended, and answers whether they have. -/
def download (o : DemoOptions) (h : Handle) (done : Nat) : List Nat → Stage → Bool × Stage
  | [], s => s.collectBoth
  | i :: rest, s =>
    match s.collectBoth with
    | (true, s) => (true, s)
    | (false, s) =>
      if o.removeAfter = some done then
        let s := s.say (.message commandsTarget .info
          ("Removing " ++ h.text ++ " after " ++ toString done ++ " pieces"))
        (s.engine (Simulated.removeTorrent h)).2.collectBoth
      else
        let s := s.elapse (.ofMillis o.delayMs)
        let (_, s) := s.engine (Simulated.feed h ⟨i⟩)
        download o h (done + 1) rest s

/-- The numbers of a list in the order in which `choices` draw them: each choice stands for one of
those that are left, and those that nothing was chosen for come last. -/
def drawn : (choices : List Nat) → List Nat → List Nat
  | [], left => left
  | c :: choices, left =>
    match left[c % left.length]? with
    | none => left
    | some i => i :: drawn choices (left.eraseIdx (c % left.length))

inductive Ending where
  | success
  | failed (report : List String)
  | never

def report (message : String) : List String := ["Error: " ++ message]

def reportWhile (doing cause : String) : List String :=
  ["Error: " ++ doing, "", "Caused by:", "    " ++ cause]

def run (settings : Settings) (o : DemoOptions) (order : List Nat) : List Spoken × Ending :=
  let settings := { settings with mode := o.source.getD settings.mode }
  match Session.start settings ({} : Simulated) with
  | .error e => ([], .failed (reportWhile "Failed to start services" e.message))
  | .ok session =>
    let mode := match session.pipeline.pumps with
      | pump :: _ => pump.source.mode
      | [] => settings.mode
    let s : Stage := { session }
    let s := s.say (.message servicesTarget .info
      ("Alert source opened in " ++ mode.name ++ " mode"))
    let (h, s) := s.engine (Simulated.addTorrent "demo" ((List.range o.pieces).map payload))
    let s :=
      s.say (.line ("Added " ++ h.text ++ " (" ++ toString o.pieces ++ " pieces), reading " ++
      listText o.read))
    let pieces := o.read.map fun i => (⟨i⟩ : Piece)
    let session := s.session.read readerName h pieces
    match session.wait waiterName h pieces (.ofMillis o.pollMs) with
    | (.error e, _) => (s.spoken, .failed (report e.message))
    | (.ok (), session) =>
      let session := ((session.follow readerName).2.follow waiterName).2
      let (_, s) := download o h 0 order { s with session }
      -- What the last piece brought may be seen only at the waiter's next look.
      let (ended, s) := (s.elapse (.ofMillis o.pollMs)).collectBoth
      if !ended then (s.spoken, .never)
      else
        let session := ((s.session.drop readerName).2.drop waiterName).2
        let s := { s with session }
        let s := s.say (.line ("Windows still tracked: " ++
          toString session.pipeline.windows.size))
        match session.shutdown with
        | (some (.error e), _) => (s.spoken, .failed (report e.message))
        | _ => (s.spoken, .success)

end Demo

end TorrentFlow.CommandLine
