import TorrentFlow.Pipeline.State

/-!
# Pumping

A pump goes round: it waits until no mailbox is busy, takes a batch out of the engine, and puts it
into the mailboxes. So there is never more than one batch in flight, and subscribers see alerts in
the order in which the engine emitted them. Shutting down is looked for at every step except between
taking a batch and delivering it. The first failure of the source ends the pump, and with it all
delivery.
-/

namespace TorrentFlow.Pipeline

variable {σ : Type}

def putPump (p : Pipeline σ) (k : Nat) (pump : Pump) : Pipeline σ :=
  { p with pumps := p.pumps.set k pump }

def pumpResult? (p : Pipeline σ) (k : Nat) : Option (Except DeliveryError Unit) :=
  match p.pumps[k]? with
  | some ⟨_, .ended result⟩ => some result
  | _ => none

variable [Engine σ]

/-- Ends the rounds of a pump: closes every mailbox and stops the source. -/
def leave (p : Pipeline σ) (k : Nat) (source : Source) (result : Except DeliveryError Unit) :
    Pipeline σ :=
  let (source, engine) := source.stop p.engine
  { p with engine, hub := p.hub.close }.putPump k ⟨source, .leaving result⟩

def pumpStep (k : Nat) (p : Pipeline σ) : Option (Pipeline σ) :=
  match p.pumps[k]? with
  | none => none
  | some ⟨source, phase⟩ =>
    match phase with
    | .idling _ =>
      if p.hub.stopped then some (p.leave k source (.ok ()))
      else if p.hub.busy = 0 then some (p.putPump k ⟨source, .draining⟩)
      else none
    | .draining =>
      if p.hub.stopped then some (p.leave k source (.ok ()))
      else
        match source.poll p.engine with
        | (none, source', engine) =>
          if source' = source then none
          else some ({ p with engine }.putPump k ⟨source', .draining⟩)
        | (some (.ok batch), source', engine) =>
          some ({ p with engine }.putPump k ⟨source', .holding batch⟩)
        | (some (.error e), source', engine) =>
          some (({ p with engine }.tell [.pumpFailed e]).leave k source' (.error e))
    | .holding batch =>
      some (({ p with hub := p.hub.dispatch batch }.tell (batch.map .dispatched)).putPump k
        ⟨source, .idling p.now⟩)
    | .leaving result =>
      if source.isStopped then some (p.putPump k ⟨source, .ended result⟩) else none
    | .ended _ => none

/-- A turn of the thread that watches the engine for a pump; none if there is no such thread, or if
it cannot go on or would change nothing. -/
def workerStep [DecidableEq σ] (k : Nat) (p : Pipeline σ) : Option (Pipeline σ) :=
  match p.pumps[k]? with
  | none => none
  | some pump =>
    (pump.source.workerTurn p.engine).map fun (source, engine, notices) =>
      ({ p with engine }.tell notices).putPump k { pump with source }

def run (p : Pipeline σ) : Except DeliveryError Unit × Pipeline σ :=
  match Source.open p.settings.mode p.engine with
  | (.error e, engine) => (.error e, { p with engine })
  | (.ok source, engine) =>
    (.ok (), { p with engine, pumps := p.pumps ++ [⟨source, .idling p.now⟩] })

def stallDue? (p : Pipeline σ) (k : Nat) : Option Nat :=
  match p.pumps[k]? with
  | some ⟨_, .idling since⟩ => some (since + p.settings.stallTimeout.nanos)
  | _ => none

/-- The stall timeout of a pump has passed: it says so and goes on waiting. -/
def stall (p : Pipeline σ) (k : Nat) : Pipeline σ :=
  match p.pumps[k]? with
  | some ⟨source, .idling _⟩ =>
    (p.tell [.stalled p.hub.busy p.settings.stallTimeout]).putPump k ⟨source, .idling p.now⟩
  | _ => p

end TorrentFlow.Pipeline
