import TorrentFlow.Duration
import TorrentFlow.Torrent

/-!
# Errors

Four kinds, from the inside out. The engine fails with a domain and a code. Delivering alerts fails
with a `DeliveryError`, waiting for pieces with a `PieceError`, and the program as a whole with a
`Failure`. An engine error that says the handle is not valid is recognised wherever it enters
(`DeliveryError.ofEngine`, `PieceError.ofEngine`), so that callers see one error for a torrent that
is gone, whichever way the news came.
-/

namespace TorrentFlow

inductive ErrorDomain where
  | generic
  | system
  | libtorrent
  | http
  | upnp
  | socks
  | i2p
  | bdecode
deriving DecidableEq

namespace ErrorDomain

def name : ErrorDomain → String
  | generic => "generic"
  | system => "system"
  | libtorrent => "libtorrent"
  | http => "http"
  | upnp => "upnp"
  | socks => "socks"
  | i2p => "i2p"
  | bdecode => "bdecode"

def all : List ErrorDomain := [generic, system, libtorrent, http, upnp, socks, i2p, bdecode]

end ErrorDomain

/-- A failed engine operation. The same code means different things in different domains. -/
structure EngineError where
  domain : ErrorDomain
  code : Int
  message : String
deriving DecidableEq

namespace EngineError

/-- Code zero is success in every domain and makes no error. -/
def ofCode? (domain : ErrorDomain) (code : Int) (message : String) : Option EngineError :=
  if code = 0 then none else some ⟨domain, code, message⟩

def invalidHandle : EngineError := ⟨.libtorrent, 20, "invalid torrent handle used"⟩

def duplicateTorrent : EngineError := ⟨.libtorrent, 19, "torrent already exists in session"⟩

def notSupported : EngineError := ⟨.generic, 95, "operation not supported"⟩

def invalidPiece (p : Piece) : EngineError := ⟨.generic, 22, "invalid piece index " ++ p.text⟩

def isInvalidHandle (e : EngineError) : Bool :=
  e.domain == .libtorrent && (e.code == 20 || e.code == 115)

def isNotSupported (e : EngineError) : Bool := e.domain == .generic && e.code == 95

end EngineError

inductive DeliveryError where
  | handleInvalid
  | engine (error : EngineError)
  | shutdown
  | unsupported
  | sourceClosed
  | idleTimeout (waited : Duration)
deriving DecidableEq

namespace DeliveryError

def ofEngine (e : EngineError) : DeliveryError :=
  if e.isInvalidHandle then handleInvalid else engine e

def message : DeliveryError → String
  | handleInvalid => "Torrent handle is no longer valid"
  | engine e => "Engine error: " ++ e.message
  | shutdown => "Alert driver shut down"
  | unsupported => "Engine supports neither alert notification nor blocking waits"
  | sourceClosed => "Alert source closed"
  | idleTimeout waited => "Subscribers still busy after " ++ waited.text

end DeliveryError

inductive PieceError where
  | handleInvalid
  | engine (error : EngineError)
  | outOfRange (piece : Piece)
  /-- Nobody is left who could report the piece. -/
  | cancelled
  | delivery (error : DeliveryError)
deriving DecidableEq

namespace PieceError

def ofEngine (e : EngineError) : PieceError :=
  if e.isInvalidHandle then handleInvalid else engine e

/-- A delivery error met while waiting for piece data; one that came from the engine is told as if
the engine had been asked directly. -/
def ofDelivery : DeliveryError → PieceError
  | .handleInvalid => handleInvalid
  | .engine e => ofEngine e
  | .shutdown => delivery .shutdown
  | .unsupported => delivery .unsupported
  | .sourceClosed => delivery .sourceClosed
  | .idleTimeout waited => delivery (.idleTimeout waited)

def message : PieceError → String
  | handleInvalid => "Torrent handle is no longer valid"
  | engine e => "Engine error: " ++ e.message
  | outOfRange p => "Piece " ++ p.text ++ " is out of range"
  | cancelled => "Operation was cancelled"
  | delivery e => "Alert delivery failed: " ++ e.message

end PieceError

inductive Failure where
  | delivery (error : DeliveryError)
  | piece (error : PieceError)
  | engine (error : EngineError)
  | configuration (reason : String)
  | io (reason : String)
deriving DecidableEq

namespace Failure

def message : Failure → String
  | delivery e => "Alert error: " ++ e.message
  | piece e => "Scheduler error: " ++ e.message
  | engine e => "Engine error: " ++ e.message
  | configuration reason => "Configuration error: " ++ reason
  | io reason => "I/O error: " ++ reason

def userMessage : Failure → String
  | delivery .unsupported => "This engine build cannot report alerts; use polling instead"
  | delivery .shutdown => "Service is shutting down"
  | delivery _ => "Alert delivery failed"
  | piece .handleInvalid => "Torrent is no longer available"
  | piece (.outOfRange p) => "Piece " ++ p.text ++ " does not exist in this torrent"
  | piece _ => "Piece scheduling failed"
  | engine e => "Engine error: " ++ e.message
  | configuration reason => "Invalid configuration: " ++ reason
  | io _ => "File system error occurred"

/-- The fault lies with what was asked for. -/
def isUserError : Failure → Bool
  | configuration _ => true
  | piece (.outOfRange _) => true
  | _ => false

end Failure

end TorrentFlow
