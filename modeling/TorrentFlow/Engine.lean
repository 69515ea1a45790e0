import TorrentFlow.Alert

/-!
# Engines

The engine is a state that is reached through a few calls. A call may fail, and may change the state
whether it fails or not. Everything above the engine is written for any type that has these calls,
so that what holds of the pipeline can be said for every engine, one that fails at every turn
included.

Readiness is told in two ways. A registered callback rings: the engine remembers how often the
callback of each registration was called. Or the engine is asked whether alerts are queued; how long
such a question may block is the business of whoever asks.
-/

namespace TorrentFlow

abbrev Call (σ α : Type) := σ → Except EngineError α × σ

class Engine (σ : Type) where
  /-- Registers a readiness callback in place of the one before and answers the registration's
  number. -/
  watch : Call σ Nat
  unwatch : Call σ Unit
  /-- How often the callback of a registration was called so far. -/
  rings : Nat → σ → Nat
  hasAlerts : Call σ Bool
  takeAlerts : Call σ (List Alert)
  applyMask : Category → σ → σ
  isTracked : Handle → Call σ Bool
  status : Handle → Call σ TorrentStatus
  /-- Asks for a piece within a deadline; `alert` asks for its bytes as an alert once it is
  there. -/
  setDeadline : (handle : Handle) → (piece : Piece) → (deadline : Duration) → (alert : Bool) →
    Call σ Unit
  resetDeadline : Handle → Piece → Call σ Unit

end TorrentFlow
