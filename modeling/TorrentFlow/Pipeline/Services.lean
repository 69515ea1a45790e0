import TorrentFlow.Pipeline.Pumping
import TorrentFlow.Pipeline.Reading
import TorrentFlow.Pipeline.Waiting

/-!
# Starting, running and stopping the pipeline

The services are the pipeline with a pump and a janitor at work. Everything that goes on without
anybody asking is a background task: the watching threads, the pumps, the liveness checks, the
janitor. `advance?` takes one step of the first task that can go on. Timers are apart from that:
they fire when time moves.
-/

namespace TorrentFlow.Pipeline

variable {σ : Type} [Engine σ]

def assemble (settings : Settings) (engine : σ) : Pipeline σ :=
  let p : Pipeline σ := { engine, settings }
  p.withDemand (Demand.start settings.mask engine)

def startJanitor (p : Pipeline σ) : Pipeline σ :=
  let (id, p) := p.subscribe { kinds := [.torrentRemoved] }
  { p with janitor := some id }

def start (settings : Settings) (engine : σ) : Except Failure (Pipeline σ) :=
  match settings.validate with
  | .error e => .error e
  | .ok () =>
    match (assemble settings engine).run with
    | (.error e, _) => .error (.delivery e)
    | (.ok (), p) => .ok p.startJanitor

def stopJanitor (p : Pipeline σ) : Pipeline σ :=
  match p.janitor with
  | none => p
  | some id => { p with janitor := none }.unsubscribe id

def stopDelivery (p : Pipeline σ) : Pipeline σ := { p with hub := p.hub.stop }

/-- One step of the janitor: it looks at the next alert of its subscription and forgets the window
of a removed torrent. Its work is over when its subscription is. -/
def janitorStep (p : Pipeline σ) : Option (Pipeline σ) :=
  match p.janitor with
  | none => none
  | some id =>
    if !p.hub.isAwake id then none
    else
      match p.pollSubscription id with
      | (none, p) => some p
      | (some (.ok (.torrentRemoved handle _)), p) => some (p.forgetWindow handle).2
      | (some (.ok _), p) => some p
      | (some (.error .shutdown), p) => some p.stopJanitor
      | (some (.error e), p) => some (p.tell [.janitorStopped e]).stopJanitor

/-- One step of the first background task that can go on; none when all is quiet. -/
def advance? [DecidableEq σ] (p : Pipeline σ) : Option (Pipeline σ) :=
  let pumps := List.range p.pumps.length
  let subscriptions := p.hub.subscriptions.keys
  (pumps.findSome? fun k => p.workerStep k)
    <|> (pumps.findSome? fun k => p.pumpStep k)
    <|> (subscriptions.findSome? fun id => p.askLiveness id)
    <|> (subscriptions.findSome? fun id => p.answerLiveness id)
    <|> p.janitorStep

/-! ### Timers -/

inductive Timer where
  | stall (pump : Nat)
  | poll (waiter : Nat)

def timers (p : Pipeline σ) : List (Nat × Timer) :=
  ((List.range p.pumps.length).filterMap fun k => (p.stallDue? k).map fun t => (t, .stall k)) ++
    (p.waiters.keys.filterMap fun id => (p.pollDue? id).map fun t => (t, .poll id))

def nextTimer? (p : Pipeline σ) : Option (Nat × Timer) :=
  p.timers.foldl (fun first t => match first with
    | none => some t
    | some f => if t.1 < f.1 then some t else some f) none

def fire (p : Pipeline σ) : Timer → Pipeline σ
  | .stall k => p.stall k
  | .poll id => (p.askPoll id).publishPoll id

end TorrentFlow.Pipeline
