import TorrentFlow.Pipeline.State

/-!
# Reading through the pipeline

A read shares the window of its torrent with the other reads, has a subscription for what happens to
the torrent's pieces, and gives its claims back however it ends: when everything was yielded, on an
error, or because it was dropped in the middle. When the torrent is gone there is nothing to give
back to; the claims are then discarded, and the window is forgotten.
-/

namespace TorrentFlow.Pipeline

variable {σ : Type}

def putReader (p : Pipeline σ) (id : Nat) (r : Reader) : Pipeline σ :=
  { p with readers := p.readers.set id r }

def shareWindow (handle : Handle) (p : Pipeline σ) : Nat × Pipeline σ :=
  let (id, windows) := p.windows.share handle p.settings.pieceDeadline
  (id, { p with windows })

def forgetWindow (handle : Handle) (p : Pipeline σ) : Bool × Pipeline σ :=
  let (found, windows) := p.windows.forget handle
  (found, { p with windows })

variable [Engine σ]

/-- Moves a reader of a window from wanting `old` to wanting `new`; answers the first failure. -/
def moveClaims (p : Pipeline σ) (window : Nat) (old new : OrderedSet Piece) :
    Option PieceError × Pipeline σ :=
  match p.windows.windows.get? window with
  | none => (none, p)
  | some w =>
    let change := w.delta old new p.engine
    (change.failure,
      { p with
        engine := change.engine
        windows := p.windows.put window change.window }.tell change.notices)

def discardClaims (p : Pipeline σ) (window : Nat) (pieces : OrderedSet Piece) : Pipeline σ :=
  match p.windows.windows.get? window with
  | none => p
  | some w => { p with windows := p.windows.put window (w.discard pieces) }

def readRequest (handle : Handle) : Request :=
  { kinds := [.readPiece, .torrentRemoved], handle := some handle
    mask := .storage ||| .status, raiseIfRemoved := true }

/-- Begins to read pieces and answers the reader's number. Nothing is wanted before it is polled. -/
def read (handle : Handle) (pieces : List Piece) (p : Pipeline σ) : Nat × Pipeline σ :=
  let (window, p) := p.shareWindow handle
  let (subscription, p) := p.subscribe (readRequest handle)
  let id := p.nextScope
  let reader : Reader :=
    { handle, window, subscription, pieces, ahead := max p.settings.readWindow 1 }
  (id, { p with nextScope := id + 1 }.putReader id reader)

/-- Ends a reader and gives back its claims. To end it again changes nothing, except that the window
of a torrent that is gone is forgotten again. -/
def endReader (id : Nat) (p : Pipeline σ) : Pipeline σ :=
  match p.readers.get? id with
  | none => p
  | some r =>
    let p := p.putReader id r.ended
    if r.handleInvalid then ((p.discardClaims r.window r.current).forgetWindow r.handle).2
    else if r.current.isEmpty then p
    else (p.moveClaims r.window r.current {}).2

def failReader (id : Nat) (e : PieceError) (p : Pipeline σ) :
    Polled (Except PieceError PieceData) × Pipeline σ :=
  let p := match p.readers.get? id with
    | some r =>
      p.putReader id
        { r with handleInvalid := r.handleInvalid || decide (e = PieceError.handleInvalid) }
    | none => p
  (.item (.error e), p.endReader id)

def slideReader (id : Nat) (r : Reader) (pieces : OrderedSet Piece) (p : Pipeline σ) :
    Option PieceError × Pipeline σ :=
  if pieces = r.current then (none, p)
  else (p.putReader id (r.slide pieces)).moveClaims r.window r.current pieces

/-- Yields the piece at the cursor, or takes in one alert; no answer if it took one in and is to be
asked again. -/
def readOnce (id : Nat) (p : Pipeline σ) :
    Option (Polled (Except PieceError PieceData)) × Pipeline σ :=
  match p.readers.get? id with
  | none => (some .done, p)
  | some r =>
    match r.serve? with
    | some (.ok data, r) => (some (.item (.ok data)), p.putReader id r)
    | some (.error e, r) =>
      let (answer, p) := (p.putReader id r).failReader id e
      (some answer, p)
    | none =>
      match p.pollSubscription r.subscription with
      | (none, p) => (some .pending, p)
      | (some (.error e), p) =>
        let (answer, p) := p.failReader id (.ofDelivery e)
        (some answer, p)
      | (some (.ok alert), p) =>
        match r.take alert with
        | .ok r => (none, p.putReader id r)
        | .error e =>
          let (answer, p) := p.failReader id e
          (some answer, p)

def readOn : (fuel : Nat) → (id : Nat) → Pipeline σ →
    Polled (Except PieceError PieceData) × Pipeline σ
  | 0, _, p => (.pending, p)
  | fuel + 1, id, p =>
    match p.readOnce id with
    | (some answer, p) => (answer, p)
    | (none, p) => readOn fuel id p

def pollReader (id : Nat) (p : Pipeline σ) : Polled (Except PieceError PieceData) × Pipeline σ :=
  match p.readers.get? id with
  | none => (.done, p)
  | some r =>
    if r.finished then (.done, p)
    else if r.pieces.length ≤ r.cursor then (.done, p.endReader id)
    else
      match r.upcoming? with
      | none => (.overflow, p)
      | some pieces =>
        match Reader.negative? pieces with
        | some q => p.failReader id (.outOfRange q)
        | none =>
          match p.slideReader id r pieces with
          | (some e, p) => p.failReader id e
          | (none, p) => p.readOn (p.hub.backlog r.subscription + 1) id

def cancelReader (id : Nat) (p : Pipeline σ) : Pipeline σ :=
  match p.readers.get? id with
  | none => p
  | some r => p.cancelSubscription r.subscription

def dropReader (id : Nat) (p : Pipeline σ) : Pipeline σ :=
  match p.readers.get? id with
  | none => p
  | some r =>
    let p := p.endReader id
    { p with readers := p.readers.erase id }.unsubscribe r.subscription

def isReaderAwake (id : Nat) (p : Pipeline σ) : Bool :=
  match p.readers.get? id with
  | none => true
  | some r => r.finished || p.hub.isAwake r.subscription

end TorrentFlow.Pipeline
