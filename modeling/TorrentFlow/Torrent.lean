/-!
# Handles and pieces

A torrent is named by a handle: the slot it occupies in the engine and the generation of that slot.
A slot is used again once its torrent is gone, a generation is not, so that a handle kept too long
never names a newer torrent. A piece is named by its index, which may be negative in a request but
never in an answer.
-/

namespace TorrentFlow

structure Handle where
  slot : UInt32
  generation : UInt32
deriving DecidableEq

namespace Handle

instance : LT Handle :=
  ⟨fun a b => a.slot < b.slot ∨ (a.slot = b.slot ∧ a.generation < b.generation)⟩

instance : DecidableLT Handle := fun a b =>
  inferInstanceAs (Decidable (a.slot < b.slot ∨ (a.slot = b.slot ∧ a.generation < b.generation)))

def text (h : Handle) : String :=
  toString h.slot.toNat ++ "#" ++ toString h.generation.toNat

def describe (h : Handle) : String :=
  "TorrentHandle \x7b slot: " ++ toString h.slot.toNat ++ ", generation: " ++
    toString h.generation.toNat ++ " \x7d"

end Handle

/-- The index of a piece within a torrent, as the engine counts: signed, and never valid below
zero. -/
structure Piece where
  index : Int
deriving DecidableEq

namespace Piece

instance : LT Piece := ⟨fun a b => a.index < b.index⟩

instance : DecidableLT Piece := fun a b => inferInstanceAs (Decidable (a.index < b.index))

def position? (p : Piece) : Option Nat := if 0 ≤ p.index then some p.index.toNat else none

def text (p : Piece) : String := toString p.index

def describe (p : Piece) : String := "PieceIndex(" ++ p.text ++ ")"

end Piece

abbrev Payload := List UInt8

inductive TorrentState where
  | checkingFiles
  | downloadingMetadata
  | downloading
  | finished
  | seeding
  | checkingResumeData
deriving DecidableEq

namespace TorrentState

def name : TorrentState → String
  | checkingFiles => "CheckingFiles"
  | downloadingMetadata => "DownloadingMetadata"
  | downloading => "Downloading"
  | finished => "Finished"
  | seeding => "Seeding"
  | checkingResumeData => "CheckingResumeData"

def all : List TorrentState :=
  [checkingFiles, downloadingMetadata, downloading, finished, seeding, checkingResumeData]

/-- While a torrent is being checked, or its description fetched, nobody knows which pieces are
there. -/
def piecesKnown : TorrentState → Bool
  | checkingFiles | downloadingMetadata | checkingResumeData => false
  | downloading | finished | seeding => true

end TorrentState

structure TorrentStatus where
  state : TorrentState
  /-- One entry per piece, true when the piece is there; empty while the pieces are not known. -/
  available : List Bool
deriving DecidableEq

def orderOf {α : Type} [DecidableEq α] [LT α] [DecidableLT α] (a b : α) : Ordering :=
  if a = b then .eq else if a < b then .lt else .gt

end TorrentFlow
