import TorrentFlow.Session.Consumer

/-!
# Sessions

A session is a pipeline together with those who use it, on a clock that stands still unless it is
moved. Consumers have names. A consumer is asked by hand (`next`), or followed by a task of its own
that takes every item as soon as it is there (`follow`, `take`). After everything that is done in a
session, the background tasks and the followers run until all is quiet (`settle`), so that what is
seen afterwards does not depend on the order in which they ran.
-/

namespace TorrentFlow

structure Follower where
  stream : Option Consumer
  items : List Item := []

inductive Holding where
  | free (consumer : Consumer)
  | followed (follower : Follower)

structure Session (σ : Type) where
  pipeline : Pipeline σ
  held : Table String Holding := {}
  serving : Bool := false
  /-- The pump that was set to work last without services, until its result was asked for. -/
  running : Option Nat := none

inductive Answer where
  | item (item : Item)
  | ended
  | pending
  | followed
  | missing
  | overflow

namespace Answer

def isGood : Answer → Bool
  | item i => i.isGood
  | _ => false

end Answer

namespace Session

variable {σ : Type} [Engine σ]

/-! ### Background work -/

def followStep (name : String) (s : Session σ) : Option (Session σ) :=
  match s.held.get? name with
  | some (.followed ⟨some c, items⟩) =>
    let keep (stream : Option Consumer) (items : List Item) (p : Pipeline σ) : Session σ :=
      { s with pipeline := p, held := s.held.set name (.followed ⟨stream, items⟩) }
    if !s.pipeline.isConsumerAwake c then none
    else
      match s.pipeline.pollConsumer c with
      | (.pending, p) => some (keep (some c) items p)
      | (.item i, p) =>
        if Pipeline.endsStream c i then some (keep none (items ++ [i]) (p.dropConsumer c))
        else some (keep (some c) (items ++ [i]) p)
      | (.done, p) => some (keep none items (p.dropConsumer c))
      | (.overflow, p) => some (keep none items (p.dropConsumer c))
  | _ => none

variable [DecidableEq σ]

def advance? (s : Session σ) : Option (Session σ) :=
  (s.pipeline.advance?.map fun pipeline => { s with pipeline })
    <|> (s.held.keys.findSome? fun name => s.followStep name)

def settleWithin : (fuel : Nat) → Session σ → Session σ
  | 0, s => s
  | fuel + 1, s =>
    match s.advance? with
    | none => s
    | some s => settleWithin fuel s

/-- More steps than any session takes between two of its commands. -/
def stepLimit : Nat := 18446744073709551616

def settle (s : Session σ) : Session σ := settleWithin stepLimit s

def act {α : Type} (s : Session σ) (f : Pipeline σ → α × Pipeline σ) : α × Session σ :=
  let (a, pipeline) := f s.pipeline
  (a, { s with pipeline }.settle)

/-! ### Time -/

/-- Moves the clock to `target`. Every timer that is due by then fires at its time, and the tasks
run after each. -/
def moveTo : (fuel : Nat) → (target : Nat) → Session σ → Session σ
  | 0, target, s => { s with pipeline := { s.pipeline with now := target } }
  | fuel + 1, target, s =>
    match s.pipeline.nextTimer? with
    | some (due, timer) =>
      if due ≤ target then
        let p := { s.pipeline with now := max s.pipeline.now due }
        moveTo fuel target (settle { s with pipeline := p.fire timer })
      else { s with pipeline := { s.pipeline with now := target } }
    | none => { s with pipeline := { s.pipeline with now := target } }

def elapse (d : Duration) (s : Session σ) : Session σ :=
  moveTo stepLimit (s.pipeline.now + d.nanos) s

/-! ### Names -/

def release (s : Session σ) : Holding → Session σ
  | .free c => { s with pipeline := s.pipeline.dropConsumer c }
  | .followed ⟨some c, _⟩ => { s with pipeline := s.pipeline.dropConsumer c }
  | .followed ⟨none, _⟩ => s

def hold (name : String) (c : Consumer) (s : Session σ) : Session σ :=
  let before := s.held.get? name
  let s := { s with held := s.held.set name (.free c) }
  match before with
  | some h => s.release h
  | none => s

def drop (name : String) (s : Session σ) : Bool × Session σ :=
  match s.held.get? name with
  | none => (false, s.settle)
  | some h => (true, ({ s with held := s.held.erase name }.release h).settle)

/-! ### Consumers -/

def subscribe (name : String) (r : Request) (s : Session σ) : Nat × Session σ :=
  let (id, pipeline) := s.pipeline.subscribe r
  (id, (hold name (.subscription id) { s with pipeline }).settle)

def read (name : String) (handle : Handle) (pieces : List Piece) (s : Session σ) : Session σ :=
  let (id, pipeline) := s.pipeline.read handle pieces
  (hold name (.reader id) { s with pipeline }).settle

def wait (name : String) (handle : Handle) (pieces : List Piece) (interval : Duration)
    (s : Session σ) : Except PieceError Unit × Session σ :=
  match s.pipeline.wait handle pieces interval with
  | (.error e, pipeline) => (.error e, { s with pipeline }.settle)
  | (.ok id, pipeline) => (.ok (), (hold name (.waiter id) { s with pipeline }).settle)

/-- Asks a consumer until it answers or all is quiet without an answer; it then stops waiting. -/
def nextOf (c : Consumer) : (fuel : Nat) → Session σ → Answer × Session σ
  | 0, s => (.pending, s)
  | fuel + 1, s =>
    match s.pipeline.pollConsumer c with
    | (.item i, pipeline) => (.item i, { s with pipeline })
    | (.done, pipeline) => (.ended, { s with pipeline })
    | (.overflow, pipeline) => (.overflow, { s with pipeline })
    | (.pending, pipeline) =>
      let s := settle { s with pipeline }
      if s.pipeline.isConsumerAwake c then nextOf c fuel s
      else (.pending, { s with pipeline := s.pipeline.cancelConsumer c })

def ask (name : String) (s : Session σ) : Answer × Session σ :=
  match s.held.get? name with
  | some (.free c) => nextOf c stepLimit s
  | some (.followed _) => (.followed, s)
  | none => (.missing, s)

def next (name : String) (s : Session σ) : Answer × Session σ :=
  let (answer, s) := s.ask name
  (answer, s.settle)

/-- Asks the consumer of a name again and again: at most `max` times, and not after an answer that
is not a good item. -/
def askAll (name : String) : (max : Nat) → Session σ → List Answer × Session σ
  | 0, s => ([], s)
  | max + 1, s =>
    let (answer, s) := s.ask name
    if answer.isGood then
      let (answers, s) := askAll name max s
      (answer :: answers, s)
    else ([answer], s)

def all (name : String) (max : Nat) (s : Session σ) : List Answer × Session σ :=
  let (answers, s) := askAll name max s
  (answers, s.settle)

inductive Following where
  | begun
  | already
  | missing

def follow (name : String) (s : Session σ) : Following × Session σ :=
  match s.held.get? name with
  | some (.free c) =>
    (.begun, { s with held := s.held.set name (.followed { stream := some c }) }.settle)
  | some (.followed _) => (.already, s.settle)
  | none => (.missing, s.settle)

def take (name : String) (s : Session σ) : Option (List Item × Bool) × Session σ :=
  match s.held.get? name with
  | some (.followed f) =>
    (some (f.items, f.stream.isNone),
      { s with held := s.held.set name (.followed { f with items := [] }) }.settle)
  | _ => (none, s.settle)

def current? (name : String) (s : Session σ) : Option (List Piece) :=
  match s.held.get? name with
  | some (.free (.reader id)) => (s.pipeline.readers.get? id).map (·.current.elements)
  | _ => none

def subscription? (name : String) (s : Session σ) : Option (Nat × Subscription) :=
  match s.held.get? name with
  | some (.free (.subscription id)) => (s.pipeline.hub.subscriptions.get? id).map fun x => (id, x)
  | _ => none

end Session

end TorrentFlow
