import TorrentFlow.Engine.Simulated

/-!
# The engine on the test bench

The simulated engine behind a plan of faults. Before a call reaches the engine, the faults planned
for that call are looked at in turn: one that is still to be skipped counts down and lets the call
pass, one that is due makes it fail, one that is spent is passed over. The calls that steer the
engine are written down, those that fail included.
-/

namespace TorrentFlow

inductive FaultPoint where
  | watch
  | hasAlerts
  | takeAlerts
  | isTracked
  | status
  | setDeadline
  | resetDeadline
deriving DecidableEq

structure Fault where
  point : FaultPoint
  skip : Nat := 0
  /-- How many calls fail after that; none for all of them. -/
  times : Option Nat := none
  error : EngineError
deriving DecidableEq

namespace Fault

def isDue (f : Fault) : Bool := f.times != some 0

def spend (f : Fault) : Fault := { f with times := f.times.map (· - 1) }

/-- Looks at the faults planned for a call and answers the error to fail with. -/
def intercept (point : FaultPoint) : List Fault → Option EngineError × List Fault
  | [] => (none, [])
  | f :: rest =>
    if f.point ≠ point then
      let (error, rest) := intercept point rest
      (error, f :: rest)
    else if 0 < f.skip then
      let (error, rest) := intercept point rest
      (error, { f with skip := f.skip - 1 } :: rest)
    else if f.isDue then (some f.error, f.spend :: rest)
    else
      let (error, rest) := intercept point rest
      (error, f :: rest)

end Fault

inductive RecordedCall where
  | watch (on : Bool)
  | mask (mask : Category)
  | setDeadline (handle : Handle) (piece : Piece) (deadline : Duration) (alert : Bool)
  | resetDeadline (handle : Handle) (piece : Piece)
deriving DecidableEq

structure Bench where
  engine : Simulated := {}
  faults : List Fault := []
  calls : List RecordedCall := []
deriving DecidableEq

namespace Bench

def record (c : RecordedCall) (b : Bench) : Bench := { b with calls := b.calls ++ [c] }

def plan (f : Fault) (b : Bench) : Bench := { b with faults := b.faults ++ [f] }

def direct {α : Type} (act : Simulated → α × Simulated) (b : Bench) : α × Bench :=
  let (a, engine) := act b.engine
  (a, { b with engine })

def guarded {α : Type} (point : FaultPoint) (call : Call Simulated α) : Call Bench α := fun b =>
  match Fault.intercept point b.faults with
  | (some e, faults) => (.error e, { b with faults })
  | (none, faults) =>
    let (a, engine) := call b.engine
    (a, { b with engine, faults })

instance : Engine Bench where
  watch b := guarded .watch Simulated.watch (b.record (.watch true))
  unwatch b := guarded .watch Simulated.unwatch (b.record (.watch false))
  rings n b := b.engine.rung.count n
  hasAlerts := guarded .hasAlerts Simulated.hasAlerts
  takeAlerts := guarded .takeAlerts Simulated.takeAlerts
  applyMask mask b :=
    let b := b.record (.mask mask)
    { b with engine := b.engine.applyMask mask }
  isTracked h := guarded .isTracked (Simulated.isTracked h)
  status h := guarded .status (Simulated.status h true)
  setDeadline h p deadline alert b :=
    guarded .setDeadline (Simulated.setDeadline h p deadline alert)
      (b.record (.setDeadline h p deadline alert))
  resetDeadline h p b :=
    guarded .resetDeadline (Simulated.resetDeadline h p) (b.record (.resetDeadline h p))

end Bench

end TorrentFlow
