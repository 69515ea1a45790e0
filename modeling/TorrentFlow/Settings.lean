import TorrentFlow.Delivery.Source
import TorrentFlow.Numeral

/-!
# Settings

Everything about delivery and reading that can be tuned. The environment may override five of the
settings, each by a variable of its own; a number that cannot be read leaves its setting as it was.
Before anything is started the settings are checked, and the first one out of range is reported.
-/

namespace TorrentFlow

structure Settings where
  mode : SourceMode := .auto
  threadWait : Duration := .ofSeconds 1
  stallTimeout : Duration := .ofSeconds 10
  mask : Category := .error
  /-- How many pieces from the cursor on a reader wants at a time. -/
  readWindow : Nat := 30
  pieceDeadline : Duration := .zero
  pollInterval : Duration := .ofSeconds 1
deriving DecidableEq

namespace Settings

def forTesting : Settings :=
  { threadWait := .ofMillis 20, stallTimeout := .ofMillis 500, readWindow := 4
    pollInterval := .ofMillis 10 }

def modeVariable : String := "UNDERTOW_ALERT_SOURCE"
def threadWaitVariable : String := "UNDERTOW_THREAD_WAIT_MS"
def stallTimeoutVariable : String := "UNDERTOW_STALL_TIMEOUT_SECS"
def readWindowVariable : String := "UNDERTOW_READ_WINDOW"
def pollIntervalVariable : String := "UNDERTOW_POLL_INTERVAL_MS"

def numberIn (environment : String → Option String) (name : String) : Option Nat :=
  (environment name).bind Numeral.word?

/-- The mode that the environment asks for, and what is wrong with it if it makes no sense. -/
def modeIn (environment : String → Option String) : Option SourceMode × List Notice :=
  match environment modeVariable with
  | none => (none, [])
  | some text =>
    match SourceMode.ofName? text with
    | some mode => (some mode, [])
    | none => (none, [.settingIgnored modeVariable (SourceMode.complaint text)])

def ofEnvironment (environment : String → Option String) : Settings × List Notice :=
  let base : Settings := {}
  let (mode, notices) := modeIn environment
  let number := numberIn environment
  ({ base with
      mode := mode.getD base.mode
      threadWait := ((number threadWaitVariable).map .ofMillis).getD base.threadWait
      stallTimeout := ((number stallTimeoutVariable).map .ofSeconds).getD base.stallTimeout
      readWindow := (number readWindowVariable).getD base.readWindow
      pollInterval := ((number pollIntervalVariable).map .ofMillis).getD base.pollInterval },
    notices)

def maxThreadWait : Duration := .ofSeconds 1

/-- Checks what the pipeline relies on, in a fixed order, and reports the first value out of
range. -/
def validate (s : Settings) : Except Failure Unit :=
  if s.threadWait = .zero ∨ maxThreadWait.nanos < s.threadWait.nanos then
    .error (.configuration ("alert thread wait must be in (0, " ++ maxThreadWait.text ++
      "], got " ++ s.threadWait.text))
  else if s.stallTimeout = .zero then .error (.configuration "stall timeout must be positive")
  else if s.readWindow = 0 then
    .error (.configuration "read window must hold at least one piece")
  else if s.pollInterval = .zero then .error (.configuration "poll interval must be positive")
  else .ok ()

end Settings

end TorrentFlow
