import TorrentFlow.Engine
import TorrentFlow.OrderedSet
import TorrentFlow.Table

/-!
# The simulated engine

An engine held in memory. Torrents live in slots; the slot of a removed torrent is used again with
the next generation. What happens is told in alerts, and `emit` is the only way for an alert into
the queue: it keeps those whose category is in the mask and calls the callback when the queue was
empty before and is not any more. A piece that was asked for with an alert is delivered as a
`readPiece` alert, at once if it is there and else when it comes.
-/

namespace TorrentFlow

structure SimulatedTorrent where
  name : String
  payloads : List Payload
  available : List Bool
  state : TorrentState
  deadlines : Table Piece Duration := {}
  readRequests : OrderedSet Piece := {}
deriving DecidableEq

namespace SimulatedTorrent

def fresh (name : String) (payloads : List Payload) (state : TorrentState) : SimulatedTorrent :=
  { name, payloads, available := payloads.map fun _ => false, state }

def position? (t : SimulatedTorrent) (p : Piece) : Option Nat :=
  p.position?.filter fun i => decide (i < t.payloads.length)

def isAvailable (t : SimulatedTorrent) (i : Nat) : Bool := t.available[i]?.getD false

def payload (t : SimulatedTorrent) (i : Nat) : Payload := t.payloads[i]?.getD []

end SimulatedTorrent

structure Slot where
  generation : UInt32
  torrent : Option SimulatedTorrent
deriving DecidableEq

structure Simulated where
  slots : List Slot := []
  queue : List Alert := []
  mask : Category := .none
  watcher : Option Nat := none
  registrations : Nat := 0
  /-- The registrations whose callbacks were called, one entry per call, the last call first. -/
  rung : List Nat := []
  notifySupported : Bool := true
  waitSupported : Bool := true
  statusQueries : Nat := 0
deriving DecidableEq

namespace Simulated

/-! ### Torrents by handle -/

def torrent? (s : Simulated) (h : Handle) : Option SimulatedTorrent :=
  match s.slots[h.slot.toNat]? with
  | some slot => if slot.generation = h.generation then slot.torrent else none
  | none => none

/-- Puts a torrent, or none, into the slot that a handle names; the slot keeps its generation. -/
def putTorrent (s : Simulated) (h : Handle) (t : Option SimulatedTorrent) : Simulated :=
  { s with slots := s.slots.modify h.slot.toNat fun slot => { slot with torrent := t } }

def withTorrent {α : Type} (h : Handle) (act : SimulatedTorrent → Call Simulated α) :
    Call Simulated α := fun s =>
  match s.torrent? h with
  | some t => act t s
  | none => (.error .invalidHandle, s)

def withPiece {α : Type} (h : Handle) (p : Piece)
    (act : SimulatedTorrent → Nat → Call Simulated α) : Call Simulated α :=
  withTorrent h fun t s =>
    match t.position? p with
    | some i => act t i s
    | none => (.error (.invalidPiece p), s)

/-! ### Alerts -/

/-- The engine emits an alert only if its category is in the mask. -/
def accepts (s : Simulated) (a : Alert) : Bool := s.mask.intersects a.category

def ring (s : Simulated) : Simulated :=
  match s.watcher with
  | some n => { s with rung := n :: s.rung }
  | none => s

/-- Queues what the mask lets through, and rings if that ends an empty queue. One call of the engine
emits once, whatever the number of its alerts, and so rings at most once. -/
def emit (alerts : List Alert) (s : Simulated) : Simulated :=
  let accepted := alerts.filter s.accepts
  let queued := { s with queue := s.queue ++ accepted }
  if s.queue.isEmpty && !accepted.isEmpty then queued.ring else queued

/-! ### Control -/

/-- Adds a torrent in the first free slot, under that slot's next generation. -/
def insertTorrent (name : String) (payloads : List Payload) (state : TorrentState)
    (s : Simulated) : Handle × Simulated :=
  let i := s.slots.findIdx fun slot => slot.torrent.isNone
  let generation := (s.slots[i]?.map (·.generation)).getD 0 + 1
  let slot : Slot := ⟨generation, some (.fresh name payloads state)⟩
  let slots := if i < s.slots.length then s.slots.set i slot else s.slots ++ [slot]
  let handle : Handle := ⟨UInt32.ofNat i, generation⟩
  (handle, emit [.addTorrent (some handle) name none, .torrentAdded handle name] { s with slots })

def addTorrent (name : String) (payloads : List Payload) : Simulated → Handle × Simulated :=
  insertTorrent name payloads .downloading

/-- Adds a torrent whose pieces are not known until `finishChecking`. -/
def addChecking (name : String) (payloads : List Payload) : Simulated → Handle × Simulated :=
  insertTorrent name payloads .checkingFiles

def finishChecking (h : Handle) : Call Simulated Unit :=
  withTorrent h fun t s =>
    (.ok (), (s.putTorrent h (some { t with state := .downloading })).emit
      [.stateChanged h t.name t.state .downloading, .torrentChecked h t.name])

def removeTorrent (h : Handle) : Call Simulated Unit :=
  withTorrent h fun t s => (.ok (), (s.putTorrent h none).emit [.torrentRemoved h t.name])

def fed (t : SimulatedTorrent) (p : Piece) (i : Nat) : SimulatedTorrent :=
  let available := t.available.set i true
  { t with
    available
    readRequests := t.readRequests.erase p
    state := if available.all id then .finished else t.state }

def feedAlerts (h : Handle) (t : SimulatedTorrent) (p : Piece) (i : Nat) : List Alert :=
  [.pieceFinished h t.name p] ++
    (if t.readRequests.contains p then [.readPiece h t.name p (t.payload i) none] else []) ++
    (if (t.available.set i true).all id && t.state != .finished then
      [.stateChanged h t.name t.state .finished] else [])

def feed (h : Handle) (p : Piece) : Call Simulated Unit :=
  withPiece h p fun t i s => (.ok (), (s.putTorrent h (some (fed t p i))).emit (feedAlerts h t p i))

def failPiece (h : Handle) (p : Piece) (e : EngineError) : Call Simulated Unit :=
  withPiece h p fun t _ s => (.ok (), s.emit [.readPiece h t.name p [] (some e)])

def postLog (text : String) (s : Simulated) : Simulated := s.emit [.log text]

/-! ### Views -/

def deadlines (h : Handle) (s : Simulated) : Except EngineError (List Piece) :=
  match s.torrent? h with
  | some t => .ok t.deadlines.keys
  | none => .error .invalidHandle

def hasDeadline (h : Handle) (p : Piece) (s : Simulated) : Bool :=
  match s.torrent? h with
  | some t => t.deadlines.contains p
  | none => false

/-! ### The calls of an engine -/

/-- Registers a callback, which is called at once if alerts are queued. -/
def watch : Call Simulated Nat := fun s =>
  if s.notifySupported then
    let n := s.registrations
    let watched := { s with watcher := some n, registrations := n + 1 }
    (.ok n, if s.queue.isEmpty then watched else watched.ring)
  else (.error .notSupported, s)

def unwatch : Call Simulated Unit := fun s =>
  if s.notifySupported then (.ok (), { s with watcher := none }) else (.error .notSupported, s)

def hasAlerts : Call Simulated Bool := fun s =>
  if s.waitSupported then (.ok !s.queue.isEmpty, s) else (.error .notSupported, s)

def takeAlerts : Call Simulated (List Alert) := fun s => (.ok s.queue, { s with queue := [] })

def applyMask (mask : Category) (s : Simulated) : Simulated := { s with mask }

def isTracked (h : Handle) : Call Simulated Bool := fun s => (.ok (s.torrent? h).isSome, s)

/-- Answers a status query and counts it. The pieces are told only if they are asked for and
known. -/
def status (h : Handle) (withPieces : Bool) : Call Simulated TorrentStatus := fun s =>
  withTorrent h
    (fun t s => (.ok ⟨t.state, if withPieces && t.state.piecesKnown then t.available else []⟩, s))
    { s with statusQueries := s.statusQueries + 1 }

/-- Puts a deadline on a piece. If an alert is asked for, it comes at once for a piece that is there
and is remembered for one that is not. -/
def setDeadline (h : Handle) (p : Piece) (deadline : Duration) (alert : Bool) :
    Call Simulated Unit :=
  withPiece h p fun t i s =>
    let armed := { t with deadlines := t.deadlines.set p deadline }
    if !alert then (.ok (), s.putTorrent h (some armed))
    else if t.isAvailable i then
      (.ok (), (s.putTorrent h (some armed)).emit [.readPiece h t.name p (t.payload i) none])
    else
      (.ok (), s.putTorrent h (some { armed with readRequests := t.readRequests.insert p }))

/-- Takes back the deadline of a piece, and the wish for its bytes. -/
def resetDeadline (h : Handle) (p : Piece) : Call Simulated Unit :=
  withPiece h p fun t _ s =>
    (.ok (), s.putTorrent h (some
      { t with deadlines := t.deadlines.erase p, readRequests := t.readRequests.erase p }))

instance : Engine Simulated where
  watch := watch
  unwatch := unwatch
  rings n s := s.rung.count n
  hasAlerts := hasAlerts
  takeAlerts := takeAlerts
  applyMask := applyMask
  isTracked := isTracked
  status h := status h true
  setDeadline := setDeadline
  resetDeadline := resetDeadline

end Simulated

end TorrentFlow
