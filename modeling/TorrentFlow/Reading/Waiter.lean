import TorrentFlow.Engine
import TorrentFlow.Reading.Reader

/-!
# Waiters

A waiter yields the pieces of a request in the order of the request, each as soon as it is there. It
has a poller, which asks the engine once per interval which pieces are there and publishes the
answer; the waiter only looks at what was published last. The poller ends when every piece of the
request is there, or with the first failure, which it publishes too.
-/

namespace TorrentFlow

structure Poller where
  interval : Nat
  due : Nat
  /-- The request was compared with the number of pieces. -/
  checked : Bool
  answer : Option (Except PieceError (List Bool)) := none

structure Waiter where
  handle : Handle
  pieces : List Piece
  cursor : Nat := 0
  available : List Bool
  failure : Option PieceError := none
  poller : Option Poller
  finished : Bool := false

namespace Waiter

def has (available : List Bool) (p : Piece) : Bool :=
  match p.position? with
  | some i => available[i]?.getD false
  | none => false

def isSatisfied (w : Waiter) : Bool := w.pieces.all (has w.available)

/-- The first piece of a request that a torrent of `count` pieces does not have. -/
def beyond? (pieces : List Piece) (count : Nat) : Option Piece :=
  pieces.find? fun p => match p.position? with
    | some i => decide (count ≤ i)
    | none => true

def negative? (pieces : List Piece) : Option Piece :=
  pieces.find? fun p => p.position?.isNone

/-- Asks for the next piece. One that is there is yielded even after a failure. Without a poller
nobody is left who could report it. -/
def poll (w : Waiter) : Polled (Except PieceError Piece) × Waiter :=
  if w.finished then (.done, w)
  else
    let ended := { w with finished := true, poller := none }
    match w.pieces[w.cursor]? with
    | none => (.done, ended)
    | some p =>
      if has w.available p then (.item (.ok p), { w with cursor := w.cursor + 1 })
      else
        match w.failure, w.poller with
        | some e, _ => (.item (.error e), ended)
        | none, none => (.item (.error .cancelled), ended)
        | none, some _ => (.pending, w)

section Engine

variable {σ : Type} [Engine σ]

/-- Which pieces are there; an empty list while that is not known. -/
def query (handle : Handle) (engine : σ) : Except PieceError (List Bool) × σ :=
  match Engine.status handle engine with
  | (.ok status, engine) => (.ok status.available, engine)
  | (.error e, engine) => (.error (.ofEngine e), engine)

/-- Begins to wait at time `now`. A request with a piece that cannot exist is refused, as far as
that can be told. A poller without an interval ends before it asks anything. -/
def start (handle : Handle) (pieces : List Piece) (interval now : Nat) (engine : σ) :
    Except PieceError Waiter × σ :=
  match negative? pieces with
  | some p => (.error (.outOfRange p), engine)
  | none =>
    match query handle engine with
    | (.error e, engine) => (.error e, engine)
    | (.ok available, engine) =>
      match if available.isEmpty then none else beyond? pieces available.length with
      | some p => (.error (.outOfRange p), engine)
      | none =>
        let poller : Poller := { interval, due := now + interval, checked := !available.isEmpty }
        let w : Waiter := { handle, pieces, available, poller := some poller }
        (.ok (if interval = 0 || w.isSatisfied then { w with poller := none } else w), engine)

def ask (w : Waiter) (engine : σ) : Waiter × σ :=
  match w.poller with
  | none => (w, engine)
  | some poller =>
    let (answer, engine) := query w.handle engine
    ({ w with poller := some { poller with answer := some answer } }, engine)

/-- The poller publishes what the engine answered and waits for the next interval, or ends. -/
def publish (w : Waiter) (now : Nat) : Waiter :=
  match w.poller with
  | none => w
  | some poller =>
    let next := { poller with due := now + poller.interval, answer := none }
    match poller.answer with
    | none => w
    | some (.error e) => { w with failure := some e, poller := none }
    | some (.ok []) => { w with poller := some next }
    | some (.ok available) =>
      match if poller.checked then none else beyond? w.pieces available.length with
      | some p => { w with failure := some (.outOfRange p), poller := none }
      | none =>
        let w := { w with available, poller := some { next with checked := true } }
        if w.isSatisfied then { w with poller := none } else w

end Engine

end Waiter

end TorrentFlow
