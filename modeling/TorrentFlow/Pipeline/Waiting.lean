import TorrentFlow.Pipeline.State

/-!
# Waiting through the pipeline

A wait needs neither subscriptions nor deadlines. Its poller asks the engine when its time has come;
the question and the publishing of the answer are two steps, and other things may happen in between.
-/

namespace TorrentFlow.Pipeline

variable {σ : Type}

def putWaiter (p : Pipeline σ) (id : Nat) (w : Waiter) : Pipeline σ :=
  { p with waiters := p.waiters.set id w }

def pollWaiter (id : Nat) (p : Pipeline σ) : Polled (Except PieceError Piece) × Pipeline σ :=
  match p.waiters.get? id with
  | none => (.done, p)
  | some w =>
    let (answer, w) := w.poll
    (answer, p.putWaiter id w)

def dropWaiter (id : Nat) (p : Pipeline σ) : Pipeline σ :=
  { p with waiters := p.waiters.erase id }

/-- When the poller of a waiter is to ask next. -/
def pollDue? (p : Pipeline σ) (id : Nat) : Option Nat :=
  (p.waiters.get? id).bind fun w => w.poller.map (·.due)

def publishPoll (id : Nat) (p : Pipeline σ) : Pipeline σ :=
  match p.waiters.get? id with
  | none => p
  | some w => p.putWaiter id (w.publish p.now)

variable [Engine σ]

def wait (handle : Handle) (pieces : List Piece) (interval : Duration) (p : Pipeline σ) :
    Except PieceError Nat × Pipeline σ :=
  match Waiter.start handle pieces interval.nanos p.now p.engine with
  | (.error e, engine) => (.error e, { p with engine })
  | (.ok w, engine) =>
    let id := p.nextScope
    (.ok id, { p with engine, nextScope := id + 1 }.putWaiter id w)

def askPoll (id : Nat) (p : Pipeline σ) : Pipeline σ :=
  match p.waiters.get? id with
  | none => p
  | some w =>
    let (w, engine) := w.ask p.engine
    { p with engine }.putWaiter id w

end TorrentFlow.Pipeline
