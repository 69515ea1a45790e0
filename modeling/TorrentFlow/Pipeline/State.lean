import TorrentFlow.Delivery.Hub
import TorrentFlow.Demand
import TorrentFlow.Reading.Waiter
import TorrentFlow.Reading.Window
import TorrentFlow.Settings

/-!
# The pipeline

The pipeline is everything that stands between the engine and those who want something from it: the
demand for categories, the hub with its subscriptions, the pumps that fill their mailboxes, the
windows, the readers, the waiters, and the janitor that forgets the windows of removed torrents. It
is one value, and each function on it that is named here is one atomic step: nothing else happens in
between.
-/

namespace TorrentFlow

inductive PumpPhase where
  /-- Waiting until no mailbox is busy, since some time. -/
  | idling (since : Nat)
  | draining
  /-- A batch was taken out of the engine and goes into the mailboxes next. -/
  | holding (batch : List Alert)
  | leaving (result : Except DeliveryError Unit)
  | ended (result : Except DeliveryError Unit)

structure Pump where
  source : Source
  phase : PumpPhase

structure Pipeline (σ : Type) where
  engine : σ
  demand : Demand := {}
  hub : Hub := {}
  windows : Windows := {}
  readers : Table Nat Reader := {}
  waiters : Table Nat Waiter := {}
  nextScope : Nat := 0
  pumps : List Pump := []
  janitor : Option Nat := none
  settings : Settings
  now : Nat := 0
  notices : List Notice := []

namespace Pipeline

variable {σ : Type}

def tell (p : Pipeline σ) (notices : List Notice) : Pipeline σ :=
  { p with notices := p.notices ++ notices }

/-! ### Subscriptions and the mask -/

variable [Engine σ]

def withDemand (p : Pipeline σ) (change : Demand × σ × List Notice) : Pipeline σ :=
  let (demand, engine, notices) := change
  { p with demand, engine }.tell notices

/-- Adds a subscription and answers its number. The categories it needs are enabled before it can
receive anything, and stay enabled until it is dropped. -/
def subscribe (r : Request) (p : Pipeline σ) : Nat × Pipeline σ :=
  let p := p.withDemand (p.demand.acquire r.requiredMask p.engine)
  let (id, hub) := p.hub.add r
  (id, { p with hub })

/-- Drops a subscription: it receives nothing any more, and then gives back its categories. -/
def unsubscribe (id : Nat) (p : Pipeline σ) : Pipeline σ :=
  match p.hub.subscriptions.get? id with
  | none => p
  | some s =>
    let p := { p with hub := p.hub.remove id }
    p.withDemand (p.demand.release s.mask p.engine)

def stage (mask : Category) (p : Pipeline σ) : Pipeline σ :=
  p.withDemand (p.demand.stage mask p.engine)

def pollSubscription (id : Nat) (p : Pipeline σ) :
    Option (Except DeliveryError Alert) × Pipeline σ :=
  let (found, hub) := p.hub.poll id
  (found, { p with hub })

def cancelSubscription (id : Nat) (p : Pipeline σ) : Pipeline σ :=
  { p with hub := p.hub.cancel id }

def askLiveness (id : Nat) (p : Pipeline σ) : Option (Pipeline σ) :=
  match p.hub.subscriptions.get? id with
  | none => none
  | some s =>
    match s.liveness with
    | .unasked handle =>
      let (answer, engine) := Engine.isTracked handle p.engine
      let s := { s with liveness := .answered answer }
      some { p with
        engine, hub := { p.hub with subscriptions := p.hub.subscriptions.set id s } }
    | _ => none

/-- The engine's answer is looked at: a torrent that is gone, or a failure, ends the
subscription. -/
def answerLiveness (id : Nat) (p : Pipeline σ) : Option (Pipeline σ) :=
  match p.hub.subscriptions.get? id with
  | none => none
  | some s =>
    match s.liveness with
    | .answered answer =>
      let s := { s with liveness := .settled }
      let hub := { p.hub with subscriptions := p.hub.subscriptions.set id s }
      some { p with
        hub := match answer with
          | .ok true => hub
          | .ok false => hub.fail id .handleInvalid
          | .error e => hub.fail id (.ofEngine e) }
    | _ => none

end Pipeline

end TorrentFlow
