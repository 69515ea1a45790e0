import TorrentFlow.Engine
import TorrentFlow.Notice

/-!
# The watching thread

An engine that cannot call back is watched by a thread. It asks the engine over and over whether
alerts are queued. When there are some it puts a token into the ready channel and parks until a
token comes back through the drained channel, since alerts that are queued would keep it going
round. Both channels hold one token. The source stops the thread by giving up its ends of both
channels.

`step` is one atomic step of the thread, `turn` a whole turn of its loop when nothing was found.
-/

namespace TorrentFlow

inductive WorkerPhase where
  | asking
  | foundNothing
  | foundAlerts
  | parked
  | exited
deriving DecidableEq

structure Worker where
  phase : WorkerPhase := .asking
  ready : Bool := false
  drained : Bool := false
  /-- The source has given up its ends of the channels. -/
  stopped : Bool := false
deriving DecidableEq

namespace Worker

variable {σ : Type} [Engine σ]

/-- One step of the thread; none while it is blocked on a channel and after it has exited. A token
that is in a channel is seen before the channel's being given up is. -/
def step (w : Worker) (engine : σ) : Option (Worker × σ × List Notice) :=
  match w.phase with
  | .asking =>
    match Engine.hasAlerts engine with
    | (.ok false, engine) => some ({ w with phase := .foundNothing }, engine, [])
    | (.ok true, engine) => some ({ w with phase := .foundAlerts }, engine, [])
    | (.error e, engine) => some ({ w with phase := .exited }, engine, [.watchFailed e])
  | .foundNothing =>
    if w.drained then some ({ w with phase := .asking, drained := false }, engine, [])
    else if w.stopped then some ({ w with phase := .exited }, engine, [])
    else some ({ w with phase := .asking }, engine, [])
  | .foundAlerts =>
    if w.stopped then some ({ w with phase := .exited }, engine, [])
    else if w.ready then none
    else some ({ w with phase := .parked, ready := true }, engine, [])
  | .parked =>
    if w.drained then some ({ w with phase := .asking, drained := false }, engine, [])
    else if w.stopped then some ({ w with phase := .exited }, engine, [])
    else none
  | .exited => none

/-- A step, or two where the first one finds nothing; none also when they leave the thread and the
engine as they were, so that any further turns would do the same. -/
def turn [DecidableEq σ] (w : Worker) (engine : σ) : Option (Worker × σ × List Notice) :=
  match w.step engine with
  | none => none
  | some (w', engine', notices) =>
    if w'.phase = .foundNothing then
      match w'.step engine' with
      | none => some (w', engine', notices)
      | some (w'', engine'', more) =>
        if w'' = w ∧ engine'' = engine then none else some (w'', engine'', notices ++ more)
    else some (w', engine', notices)

def join : (fuel : Nat) → Worker → σ → Worker × σ × List Notice
  | 0, w, engine => (w, engine, [])
  | fuel + 1, w, engine =>
    match w.step engine with
    | none => (w, engine, [])
    | some (w, engine, notices) =>
      let (w, engine, more) := join fuel w engine
      (w, engine, notices ++ more)

/-- A stopped thread needs no more steps than this to exit: it may go back to asking once, for a
token in the drained channel, and then finds that it is stopped. -/
def stepsToExit : Nat := 8

end Worker

end TorrentFlow
