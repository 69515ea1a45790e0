import TorrentFlow.Alert

/-!
# Notices

What the pipeline has to say to its operator while it runs. A notice is kept as what happened; its
level and its sentence are functions of that.
-/

namespace TorrentFlow

inductive Level where
  | error
  | warn
  | info
  | debug
  | trace
deriving DecidableEq

namespace Level

def all : List Level := [error, warn, info, debug, trace]

def name : Level → String
  | error => "error"
  | warn => "warn"
  | info => "info"
  | debug => "debug"
  | trace => "trace"

def label : Level → String
  | error => "ERROR"
  | warn => "WARN"
  | info => "INFO"
  | debug => "DEBUG"
  | trace => "TRACE"

def rank (l : Level) : Nat := l.ctorIdx

def ofName? (s : String) : Option Level :=
  all.find? fun l => l.name == String.ofList (s.toList.map Char.toLower)

def complaint (s : String) : String := "invalid variant: " ++ s

end Level

inductive Notice where
  | categoryNotHeld (bit : Category)
  | categoryEnabled (bit : Category)
  | categoryDisabled (bit : Category)
  | pieceNotWanted (piece : Piece)
  | dispatched (alert : Alert)
  | stalled (busy : Nat) (after : Duration)
  | pumpFailed (error : DeliveryError)
  | watchFailed (error : EngineError)
  | janitorStopped (error : DeliveryError)
  | stagedWhileBusy (mask : Category) (error : DeliveryError)
  | settingIgnored (setting reason : String)
deriving DecidableEq

namespace Notice

def level : Notice → Level
  | categoryNotHeld _ => .warn
  | categoryEnabled _ => .debug
  | categoryDisabled _ => .debug
  | pieceNotWanted _ => .warn
  | dispatched a => if a.error?.isSome then .error else .debug
  | stalled _ _ => .warn
  | pumpFailed _ => .error
  | watchFailed _ => .error
  | janitorStopped _ => .warn
  | stagedWhileBusy _ _ => .warn
  | settingIgnored _ _ => .warn

def message : Notice → String
  | categoryNotHeld bit => "Alert category " ++ bit.text ++ " released without being acquired"
  | categoryEnabled bit => "enabling alerts: " ++ bit.text
  | categoryDisabled bit => "disabling alerts: " ++ bit.text
  | pieceNotWanted p => "Piece " ++ p.text ++ " released without being wanted"
  | dispatched a => a.line
  | stalled busy after =>
    "Timeout waiting for alert subscribers (" ++ toString busy ++ " busy after " ++ after.text ++
      "), retrying"
  | pumpFailed e => "Alert driver failed: " ++ e.message
  | watchFailed e => "Alert wait failed: " ++ e.message
  | janitorStopped e => "Window janitor stopped: " ++ e.message
  | stagedWhileBusy mask e =>
    "Staging alert mask " ++ mask.text ++ " without idle driver: " ++ e.message
  | settingIgnored setting reason => "Ignoring " ++ setting ++ ": " ++ reason

def line (n : Notice) : String := n.level.label ++ " " ++ n.message

/-- The lines of the notices at least as pressing as `least`, in order. -/
def lines (least : Level) (ns : List Notice) : List String :=
  (ns.filter fun n => n.level.rank ≤ least.rank).map line

end Notice

end TorrentFlow
