import TorrentFlow.Engine
import TorrentFlow.Notice
import TorrentFlow.OrderedSet
import TorrentFlow.Table

/-!
# Piece windows

All readers of one torrent share a window, which counts for each piece how many of them want it. A
piece carries a deadline at the engine exactly while somebody wants it: `delta` moves one reader
from one set of pieces to another, arms what enters and resets what nobody wants any more. The
counts are kept in full whatever the engine answers, and the first failure is the one that is
reported.
-/

namespace TorrentFlow

/-- How many readers want each piece of one torrent. A piece that nobody wants has no entry. -/
structure Window where
  handle : Handle
  deadline : Duration
  counts : Table Piece Nat := {}
deriving DecidableEq

namespace Window

def count (w : Window) (p : Piece) : Nat := (w.counts.get? p).getD 0

def wanted (w : Window) : List Piece := w.counts.keys

def describe (w : Window) : String :=
  "PieceWindow \x7b handle: " ++ w.handle.describe ++ ", wanted: [" ++
    ", ".intercalate (w.wanted.map Piece.describe) ++ "] \x7d"

def raise (w : Window) (p : Piece) : Window := { w with counts := w.counts.set p (w.count p + 1) }

def lower (w : Window) (p : Piece) : Window :=
  match w.counts.get? p with
  | none => w
  | some n =>
    { w with counts := if n ≤ 1 then w.counts.erase p else w.counts.set p (n - 1) }

/-- Drops one reader's claim on some pieces without a word to the engine, for a torrent that is
gone. -/
def discard (w : Window) (pieces : OrderedSet Piece) : Window := pieces.elements.foldl lower w

section Engine

variable {σ : Type} [Engine σ]

/-- A window in the middle of a change: the engine, the first failure so far, and what is to be
told. -/
structure Change (σ : Type) where
  window : Window
  engine : σ
  failure : Option PieceError := none
  notices : List Notice := []

namespace Change

def noteFailure (c : Change σ) : Except EngineError Unit → Change σ
  | .ok _ => c
  | .error e => { c with failure := c.failure.or (some (.ofEngine e)) }

/-- A reader begins to want a piece. The piece is armed even if it was wanted before, so that this
reader too is told when it is there. -/
def claim (c : Change σ) (p : Piece) : Change σ :=
  let (answer, engine) := Engine.setDeadline c.window.handle p c.window.deadline true c.engine
  noteFailure { c with window := c.window.raise p, engine } answer

/-- A reader does not want a piece any more. With the last one the deadline is reset. -/
def yieldUp (c : Change σ) (p : Piece) : Change σ :=
  match c.window.counts.get? p with
  | none => { c with notices := c.notices ++ [.pieceNotWanted p] }
  | some n =>
    let lowered := { c with window := c.window.lower p }
    if n ≤ 1 then
      let (answer, engine) := Engine.resetDeadline c.window.handle p c.engine
      noteFailure { lowered with engine } answer
    else lowered

end Change

/-- Moves one reader from wanting `old` to wanting `new`: first what enters is claimed, then what
leaves is given up, each in index order. -/
def delta (w : Window) (old new : OrderedSet Piece) (engine : σ) : Change σ :=
  let entered := (new.diff old).elements.foldl Change.claim { window := w, engine }
  (old.diff new).elements.foldl Change.yieldUp entered

end Engine

end Window

/-- Every window there is, and for each torrent the one that new readers are to share. A window that
is forgotten stays with the readers that have it. -/
structure Windows where
  windows : Table Nat Window := {}
  current : Table Handle Nat := {}
  next : Nat := 0

namespace Windows

def size (ws : Windows) : Nat := ws.current.size

def share (ws : Windows) (handle : Handle) (deadline : Duration) : Nat × Windows :=
  match ws.current.get? handle with
  | some id => (id, ws)
  | none =>
    (ws.next,
      { windows := ws.windows.set ws.next { handle, deadline }
        current := ws.current.set handle ws.next
        next := ws.next + 1 })

def forget (ws : Windows) (handle : Handle) : Bool × Windows :=
  (ws.current.contains handle, { ws with current := ws.current.erase handle })

def put (ws : Windows) (id : Nat) (w : Window) : Windows :=
  { ws with windows := ws.windows.set id w }

end Windows

end TorrentFlow
