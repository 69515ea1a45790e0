import TorrentFlow.Delivery.Worker

/-!
# Sources of alerts

A source turns the engine's readiness into batches of alerts, each alert in exactly one batch. It
learns of readiness from a callback registered with the engine, or from a thread that watches the
engine. A callback leaves a permit, however often it is called before the permit is used: a permit
is there when the callback was called more often than had been seen when the last one was used.
-/

namespace TorrentFlow

inductive SourceMode where
  /-- By callback, and by a thread where the engine cannot call back. -/
  | auto
  | notify
  | thread
deriving DecidableEq

namespace SourceMode

def all : List SourceMode := [auto, notify, thread]

def name : SourceMode → String
  | auto => "auto"
  | notify => "notify"
  | thread => "thread"

/-- Reads a mode's name, in letters of either case. No letter outside ASCII becomes a letter of one
of the names in lower case. -/
def ofName? (s : String) : Option SourceMode :=
  all.find? fun m => m.name == String.ofList (s.toList.map Char.toLower)

def complaint (s : String) : String :=
  "invalid alert source '" ++ s ++ "', expected auto, notify or thread"

end SourceMode

inductive Readiness where
  /-- By the callback of a registration, of whose calls so many were seen. -/
  | callback (registration seen : Nat)
  | watched (worker : Worker)
deriving DecidableEq

structure Source where
  readiness : Readiness
  closed : Bool := false
deriving DecidableEq

namespace Source

def mode (s : Source) : SourceMode :=
  match s.readiness with
  | .callback _ _ => .notify
  | .watched _ => .thread

def hasThread (s : Source) : Bool :=
  match s.readiness with
  | .callback _ _ => false
  | .watched w => !s.closed && w.phase != .exited

variable {σ : Type} [Engine σ]

/-! ### Opening -/

def register (engine : σ) : Except DeliveryError (Option Source) × σ :=
  match Engine.watch engine with
  | (.ok n, engine) => (.ok (some { readiness := .callback n 0 }), engine)
  | (.error e, engine) => (if e.isNotSupported then .ok none else .error (.engine e), engine)

def startThread (engine : σ) : Except DeliveryError Source × σ :=
  match Engine.hasAlerts engine with
  | (.ok _, engine) => (.ok { readiness := .watched {} }, engine)
  | (.error e, engine) =>
    (.error (if e.isNotSupported then .unsupported else .engine e), engine)

def «open» (mode : SourceMode) (engine : σ) : Except DeliveryError Source × σ :=
  match mode with
  | .thread => startThread engine
  | .notify =>
    match register engine with
    | (.ok (some s), engine) => (.ok s, engine)
    | (.ok none, engine) => (.error .unsupported, engine)
    | (.error e, engine) => (.error e, engine)
  | .auto =>
    match register engine with
    | (.ok (some s), engine) => (.ok s, engine)
    | (.ok none, engine) => startThread engine
    | (.error e, engine) => (.error e, engine)

/-! ### Draining -/

/-- Uses the permit that the callback left, or takes the token out of the ready channel; none if
there is neither. -/
def signalled? (s : Source) (engine : σ) : Option Source :=
  match s.readiness with
  | .callback n seen =>
    let rings := Engine.rings n engine
    if seen < rings then some { s with readiness := .callback n rings } else none
  | .watched w =>
    if w.ready then some { s with readiness := .watched { w with ready := false } } else none

def acknowledge (s : Source) : Source :=
  match s.readiness with
  | .callback _ _ => s
  | .watched w => { s with readiness := .watched { w with drained := true } }

def isDead (s : Source) : Bool :=
  match s.readiness with
  | .callback _ _ => false
  | .watched w => w.phase == .exited

/-- Asks for the next batch. Without a signal there is none yet. With one the queue is drained, and
the batch is what was in it; if that is nothing, the asking goes on. -/
def poll (s : Source) (engine : σ) : Option (Except DeliveryError (List Alert)) × Source × σ :=
  if s.closed then (some (.error .sourceClosed), s, engine)
  else
    match s.signalled? engine with
    | none => (if s.isDead then some (.error .sourceClosed) else none, s, engine)
    | some s =>
      let (answer, engine) := Engine.takeAlerts engine
      let s := s.acknowledge
      match answer with
      | .error e => (some (.error (.ofEngine e)), s, engine)
      | .ok [] => (none, s, engine)
      | .ok batch => (some (.ok batch), s, engine)

/-! ### The watching thread -/

def workerTurn [DecidableEq σ] (s : Source) (engine : σ) : Option (Source × σ × List Notice) :=
  match s.readiness with
  | .callback _ _ => none
  | .watched w => (w.turn engine).map fun (w, engine, notices) =>
      ({ s with readiness := .watched w }, engine, notices)

/-- Lets the watching thread run until it is blocked or changes nothing any more; at most `fuel`
turns. -/
def settle [DecidableEq σ] : (fuel : Nat) → Source → σ → Source × σ
  | 0, s, engine => (s, engine)
  | fuel + 1, s, engine =>
    match s.workerTurn engine with
    | some (s, engine, _) => settle fuel s engine
    | none => (s, engine)

/-- Drains as `poll` does, with the watching thread at work in between, until there is an answer or
nothing moves any more; at most `fuel` rounds. -/
def drain [DecidableEq σ] : (fuel : Nat) → Source → σ →
    Option (Except DeliveryError (List Alert)) × Source × σ
  | 0, s, engine => (none, s, engine)
  | fuel + 1, s, engine =>
    match s.poll engine with
    | (some answer, s, engine) => (some answer, s, engine)
    | (none, s', engine') =>
      if s' = s then
        match s'.workerTurn engine' with
        | some (s, engine, _) => drain fuel s engine
        | none => (none, s', engine')
      else drain fuel s' engine'

/-! ### Closing -/

/-- Stops observing, once. A callback is cleared, and it does not matter whether that succeeds. A
thread is told to stop. -/
def stop (s : Source) (engine : σ) : Source × σ :=
  if s.closed then (s, engine)
  else
    match s.readiness with
    | .callback _ _ => ({ s with closed := true }, (Engine.unwatch engine).2)
    | .watched w =>
      ({ readiness := .watched { w with stopped := true }, closed := true }, engine)

def isStopped (s : Source) : Bool :=
  match s.readiness with
  | .callback _ _ => true
  | .watched w => w.phase == .exited

def close (s : Source) (engine : σ) : Source × σ × List Notice :=
  let (s, engine) := s.stop engine
  match s.readiness with
  | .callback _ _ => (s, engine, [])
  | .watched w =>
    let (w, engine, notices) := w.join Worker.stepsToExit engine
    ({ s with readiness := .watched w }, engine, notices)

end Source

end TorrentFlow
