import TorrentFlow.Session.Basic

/-!
# Controlling a session

Starting and stopping the services, waiting until nobody is busy, replacing the mask: what concerns
the pipeline as a whole and no single consumer.
-/

namespace TorrentFlow.Session

variable {σ : Type} [Engine σ] [DecidableEq σ]

def start (settings : Settings) (engine : σ) : Except Failure (Session σ) :=
  match Pipeline.start settings engine with
  | .error e => .error e
  | .ok pipeline => .ok (settle { pipeline, serving := true })

def assemble (settings : Settings) (engine : σ) : Session σ :=
  settle { pipeline := .assemble settings engine }

def isIdle (s : Session σ) : Bool := s.pipeline.hub.busy == 0

/-- Waits until no mailbox is busy. Nothing that time alone brings empties a mailbox, so that either
it is so at once or the whole of `timeout` passes. -/
def awaitIdle (timeout : Duration) (s : Session σ) : Except DeliveryError Unit × Session σ :=
  if s.isIdle then (.ok (), s) else (.error (.idleTimeout timeout), s.elapse timeout)

/-- Replaces the categories enabled whoever subscribes; the services first wait until nobody is
busy, but no longer than `timeout`, and do it either way. -/
def stage (mask : Category) (timeout : Duration) (s : Session σ) : Session σ :=
  let s :=
    if s.serving then
      match s.awaitIdle timeout with
      | (.ok _, s) => s
      | (.error e, s) => { s with pipeline := s.pipeline.tell [.stagedWhileBusy mask e] }
    else s
  { s with pipeline := s.pipeline.stage mask }.settle

def stopDelivery (s : Session σ) : Session σ :=
  { s with pipeline := s.pipeline.stopDelivery }.settle

def dropServices (s : Session σ) : Session σ :=
  if s.serving then
    { s with serving := false, pipeline := s.pipeline.stopJanitor.stopDelivery }.settle
  else s

/-- Shuts the services down and answers what the pump came to; none if there are no services. -/
def shutdown (s : Session σ) : Option (Except Failure Unit) × Session σ :=
  if s.serving then
    let s := s.dropServices
    (some (match s.pipeline.pumpResult? 0 with
      | some (.error e) => .error (.delivery e)
      | _ => .ok ()), s)
  else (none, s)

def run (s : Session σ) : Except DeliveryError Unit × Session σ :=
  match s.pipeline.run with
  | (.error e, pipeline) => (.error e, { s with pipeline }.settle)
  | (.ok (), pipeline) =>
    (.ok (), { s with pipeline, running := some (pipeline.pumps.length - 1) }.settle)

def isRunning (s : Session σ) : Bool :=
  match s.running with
  | some k => (s.pipeline.pumpResult? k).isNone
  | none => false

inductive Joined where
  | pending
  | notRunning
  | result (result : Except DeliveryError Unit)

/-- Asks what the pump that was set to work last came to; its result is answered once. -/
def join (s : Session σ) : Joined × Session σ :=
  match s.running with
  | none => (.notRunning, s)
  | some k =>
    match s.pipeline.pumpResult? k with
    | none => (.pending, s)
    | some r => (.result r, { s with running := none })

end TorrentFlow.Session
