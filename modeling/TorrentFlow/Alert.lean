import TorrentFlow.Category
import TorrentFlow.Error

/-!
# Alerts

An alert is a record of something that happened in the engine. Its kind decides the category that it
is filed under; the torrent, the name and the error in it are there or not according to the kind.
`message` is the sentence an alert is shown with, `line` the one it is logged with.
-/

namespace TorrentFlow

inductive AlertKind where
  | addTorrent
  | torrentAdded
  | torrentRemoved
  | stateChanged
  | pieceFinished
  | readPiece
  | torrentError
  | torrentChecked
  | saveResumeData
  | saveResumeDataFailed
  | listenSucceeded
  | listenFailed
  | log
deriving DecidableEq

namespace AlertKind

def all : List AlertKind :=
  [addTorrent, torrentAdded, torrentRemoved, stateChanged, pieceFinished, readPiece, torrentError,
   torrentChecked, saveResumeData, saveResumeDataFailed, listenSucceeded, listenFailed, log]

def rank (k : AlertKind) : Nat := k.ctorIdx

instance : LT AlertKind := ⟨fun a b => a.rank < b.rank⟩

instance : DecidableLT AlertKind := fun a b => inferInstanceAs (Decidable (a.rank < b.rank))

def name : AlertKind → String
  | addTorrent => "add_torrent_alert"
  | torrentAdded => "torrent_added_alert"
  | torrentRemoved => "torrent_removed_alert"
  | stateChanged => "state_changed_alert"
  | pieceFinished => "piece_finished_alert"
  | readPiece => "read_piece_alert"
  | torrentError => "torrent_error_alert"
  | torrentChecked => "torrent_checked_alert"
  | saveResumeData => "save_resume_data_alert"
  | saveResumeDataFailed => "save_resume_data_failed_alert"
  | listenSucceeded => "listen_succeeded_alert"
  | listenFailed => "listen_failed_alert"
  | log => "log_alert"

def label : AlertKind → String
  | addTorrent => "AddTorrent"
  | torrentAdded => "TorrentAdded"
  | torrentRemoved => "TorrentRemoved"
  | stateChanged => "StateChanged"
  | pieceFinished => "PieceFinished"
  | readPiece => "ReadPiece"
  | torrentError => "TorrentError"
  | torrentChecked => "TorrentChecked"
  | saveResumeData => "SaveResumeData"
  | saveResumeDataFailed => "SaveResumeDataFailed"
  | listenSucceeded => "ListenSucceeded"
  | listenFailed => "ListenFailed"
  | log => "Log"

def category : AlertKind → Category
  | addTorrent | torrentAdded | torrentRemoved | stateChanged | torrentChecked
  | listenSucceeded => .status
  | pieceFinished => .pieceProgress
  | readPiece | saveResumeData => .storage
  | torrentError | saveResumeDataFailed | listenFailed => .error
  | log => .sessionLog

end AlertKind

inductive Alert where
  /-- An add came to its end; there is no handle if it failed. -/
  | addTorrent (handle : Option Handle) (name : String) (error : Option EngineError)
  | torrentAdded (handle : Handle) (name : String)
  | torrentRemoved (handle : Handle) (name : String)
  | stateChanged (handle : Handle) (name : String) (previous state : TorrentState)
  | pieceFinished (handle : Handle) (name : String) (piece : Piece)
  /-- The bytes of a piece that somebody asked for, or the error that took their place. -/
  | readPiece (handle : Handle) (name : String) (piece : Piece) (data : Payload)
      (error : Option EngineError)
  | torrentError (handle : Handle) (name : String) (error : EngineError)
  | torrentChecked (handle : Handle) (name : String)
  | saveResumeData (handle : Handle) (name : String)
  | saveResumeDataFailed (handle : Handle) (name : String) (error : EngineError)
  | listenSucceeded (address : String)
  | listenFailed (address : String) (error : EngineError)
  | log (text : String)
deriving DecidableEq

namespace Alert

def kind : Alert → AlertKind
  | addTorrent .. => .addTorrent
  | torrentAdded .. => .torrentAdded
  | torrentRemoved .. => .torrentRemoved
  | stateChanged .. => .stateChanged
  | pieceFinished .. => .pieceFinished
  | readPiece .. => .readPiece
  | torrentError .. => .torrentError
  | torrentChecked .. => .torrentChecked
  | saveResumeData .. => .saveResumeData
  | saveResumeDataFailed .. => .saveResumeDataFailed
  | listenSucceeded .. => .listenSucceeded
  | listenFailed .. => .listenFailed
  | log .. => .log

def category (a : Alert) : Category := a.kind.category

def handle? : Alert → Option Handle
  | addTorrent h _ _ => h
  | torrentAdded h _ => some h
  | torrentRemoved h _ => some h
  | stateChanged h _ _ _ => some h
  | pieceFinished h _ _ => some h
  | readPiece h _ _ _ _ => some h
  | torrentError h _ _ => some h
  | torrentChecked h _ => some h
  | saveResumeData h _ => some h
  | saveResumeDataFailed h _ _ => some h
  | listenSucceeded _ => none
  | listenFailed _ _ => none
  | log _ => none

def torrentName? : Alert → Option String
  | addTorrent _ n _ => some n
  | torrentAdded _ n => some n
  | torrentRemoved _ n => some n
  | stateChanged _ n _ _ => some n
  | pieceFinished _ n _ => some n
  | readPiece _ n _ _ _ => some n
  | torrentError _ n _ => some n
  | torrentChecked _ n => some n
  | saveResumeData _ n => some n
  | saveResumeDataFailed _ n _ => some n
  | listenSucceeded _ => none
  | listenFailed _ _ => none
  | log _ => none

def error? : Alert → Option EngineError
  | addTorrent _ _ e => e
  | readPiece _ _ _ _ e => e
  | torrentError _ _ e => some e
  | saveResumeDataFailed _ _ e => some e
  | listenFailed _ e => some e
  | torrentAdded .. => none
  | torrentRemoved .. => none
  | stateChanged .. => none
  | pieceFinished .. => none
  | torrentChecked .. => none
  | saveResumeData .. => none
  | listenSucceeded .. => none
  | log .. => none

def message : Alert → String
  | addTorrent _ n (some e) => "failed to add torrent " ++ n ++ ": " ++ e.message
  | addTorrent _ n none => "added torrent " ++ n
  | torrentAdded _ n => n ++ " added"
  | torrentRemoved _ n => n ++ " removed"
  | stateChanged _ n previous state =>
    n ++ ": state changed " ++ previous.name ++ " -> " ++ state.name
  | pieceFinished _ n p => n ++ " piece: " ++ p.text ++ " finished downloading"
  | readPiece _ n p data _ => n ++ ": piece " ++ p.text ++ " size " ++ toString data.length
  | torrentError _ n e => n ++ " ERROR: " ++ e.message
  | torrentChecked _ n => n ++ " checked"
  | saveResumeData _ n => n ++ " resume data generated"
  | saveResumeDataFailed _ n e => n ++ " resume data was not generated: " ++ e.message
  | listenSucceeded address => "successfully listening on " ++ address
  | listenFailed address e => "listening on " ++ address ++ " failed: " ++ e.message
  | log text => text

def occursIn (needle : List Char) : List Char → Bool
  | [] => needle.isEmpty
  | c :: rest => needle.isPrefixOf (c :: rest) || occursIn needle rest

def errorSuffix (e : EngineError) : String :=
  " [" ++ e.message ++ " (" ++ e.domain.name ++ " " ++ toString e.code ++ ")]"

/-- The alert as a log line: its kind, the torrent's name unless the message has it, the message,
and the error if there is one. -/
def line (a : Alert) : String :=
  let named := match a.torrentName? with
    | some n => if occursIn n.toList a.message.toList then "" else n ++ ": "
    | none => ""
  let failed := match a.error? with
    | some e => errorSuffix e
    | none => ""
  a.kind.name ++ ": " ++ named ++ a.message ++ failed

end Alert

end TorrentFlow
