import TorrentFlow.Alert
import TorrentFlow.Numeral
import TorrentFlow.OrderedSet
import TorrentFlow.Table

/-!
# Readers

A reader yields the pieces of a request in the order of the request, each with its bytes. It wants
the next few pieces at a time, and slides this window along as it yields. Pieces come in as alerts,
in any order, and are kept until it is their turn. The first error ends it.

This module is the reader by itself: what it wants, what it does with an alert, what it yields.
Where its alerts come from and who keeps its deadlines is the pipeline's business.
-/

namespace TorrentFlow

inductive Polled (α : Type) where
  | pending
  | item (value : α)
  | done
  /-- The position of the window's end is not a 64-bit number. -/
  | overflow

structure PieceData where
  piece : Piece
  data : Payload
deriving DecidableEq

structure Reader where
  handle : Handle
  window : Nat
  subscription : Nat
  pieces : List Piece
  cursor : Nat := 0
  /-- How many pieces from the cursor on are wanted at a time; at least one. -/
  ahead : Nat
  current : OrderedSet Piece := {}
  /-- The wanted pieces that have come in, or failed. -/
  ready : Table Piece (Except EngineError Payload) := {}
  handleInvalid : Bool := false
  finished : Bool := false

namespace Reader

/-- The pieces from the cursor on that are to be wanted next; none if the end of that stretch,
before it is cut off at the end of the request, is no number of 64 bits. -/
def upcoming? (r : Reader) : Option (OrderedSet Piece) :=
  if r.cursor + r.ahead < Numeral.wordSize then
    some (.ofList ((r.pieces.drop r.cursor).take r.ahead))
  else none

def negative? (pieces : OrderedSet Piece) : Option Piece :=
  pieces.elements.find? fun p => p.position?.isNone

/-- Wants `pieces` from now on. What came in for other pieces is dropped. -/
def slide (r : Reader) (pieces : OrderedSet Piece) : Reader :=
  { r with current := pieces, ready := r.ready.filterKeys pieces.contains }

def serve? (r : Reader) : Option (Except PieceError PieceData × Reader) :=
  match r.pieces[r.cursor]? with
  | none => none
  | some p =>
    match r.ready.get? p with
    | none => none
    | some (.ok data) => some (.ok ⟨p, data⟩, { r with cursor := r.cursor + 1 })
    | some (.error e) => some (.error (.ofEngine e), { r with cursor := r.cursor + 1 })

/-- Takes in an alert. Bytes and failures of wanted pieces are kept, the news that the torrent was
removed is an error, and the rest is passed over. -/
def take (r : Reader) : Alert → Except PieceError Reader
  | .readPiece _ _ p data error =>
    if r.current.contains p then
      let result : Except EngineError Payload := match error with
        | some e => .error e
        | none => .ok data
      .ok { r with ready := r.ready.set p result }
    else .ok r
  | .torrentRemoved _ _ => .error .handleInvalid
  | _ => .ok r

def ended (r : Reader) : Reader := { r with finished := true, ready := {}, current := {} }

end Reader

end TorrentFlow
