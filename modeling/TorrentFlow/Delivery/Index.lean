import TorrentFlow.Delivery.Filter
import TorrentFlow.Table

/-!
# The index of subscribers

Subscribers are filed by kind, and under each kind by torrent, where either may be left open. An
alert is looked up under its kind and under no kind, each with its torrent and with no torrent, so
that the work grows with the subscribers that match and not with those that are there. A bucket goes
with its last subscriber, and a shelf with its last bucket.
-/

namespace TorrentFlow

/-- Where subscribers are filed; `none` stands for any kind, or for any alert with or without a
torrent. -/
structure Route where
  kind : Option AlertKind
  handle : Option Handle
deriving DecidableEq

namespace Route

def ofFilter (f : Filter) : List Route :=
  if f.kinds.isEmpty then [⟨none, f.handle⟩]
  else f.kinds.elements.map fun kind => ⟨some kind, f.handle⟩

def ofAlert (a : Alert) : List Route :=
  match a.handle? with
  | some h => [⟨some a.kind, some h⟩, ⟨some a.kind, none⟩, ⟨none, some h⟩, ⟨none, none⟩]
  | none => [⟨some a.kind, none⟩, ⟨none, none⟩]

end Route

/-- A key that is left open comes before every other. -/
instance decidableLTOption {α : Type} [LT α] [DecidableLT α] : DecidableLT (Option α) := fun a b =>
  inferInstanceAs (Decidable (Option.lt (· < ·) a b))

/-- What is filed under one kind, or under no kind: a bucket of subscribers for each torrent, and
one for those who left the torrent open. -/
abbrev Shelf := Table (Option Handle) (OrderedSet Nat)

namespace Shelf

def bucket (shelf : Shelf) (handle : Option Handle) : OrderedSet Nat := (shelf.get? handle).getD {}

def put (shelf : Shelf) (handle : Option Handle) (id : Nat) : Shelf :=
  shelf.set handle ((shelf.bucket handle).insert id)

/-- Takes a subscriber out of the bucket of a torrent, and the bucket away if nobody is left in
it. -/
def drop (shelf : Shelf) (handle : Option Handle) (id : Nat) : Shelf :=
  match shelf.get? handle with
  | some bucket =>
    let rest := bucket.erase id
    if rest.isEmpty then shelf.erase handle else shelf.set handle rest
  | none => shelf

end Shelf

structure SubscriberIndex where
  shelves : Table (Option AlertKind) Shelf := {}
deriving DecidableEq

namespace SubscriberIndex

def empty : SubscriberIndex := {}

def isEmpty (x : SubscriberIndex) : Bool := x.shelves.isEmpty

def shelf (x : SubscriberIndex) (kind : Option AlertKind) : Shelf := (x.shelves.get? kind).getD {}

def fileUnder (id : Nat) (x : SubscriberIndex) (route : Route) : SubscriberIndex :=
  ⟨x.shelves.set route.kind ((x.shelf route.kind).put route.handle id)⟩

def dropFrom (id : Nat) (x : SubscriberIndex) (route : Route) : SubscriberIndex :=
  match x.shelves.get? route.kind with
  | some shelf =>
    let rest := shelf.drop route.handle id
    ⟨if rest.isEmpty then x.shelves.erase route.kind else x.shelves.set route.kind rest⟩
  | none => x

def insert (x : SubscriberIndex) (id : Nat) (f : Filter) : SubscriberIndex :=
  (Route.ofFilter f).foldl (fileUnder id) x

def remove (x : SubscriberIndex) (id : Nat) (f : Filter) : SubscriberIndex :=
  (Route.ofFilter f).foldl (dropFrom id) x

def filedUnder (x : SubscriberIndex) (route : Route) : List Nat :=
  ((x.shelf route.kind).bucket route.handle).elements

/-- The subscribers whose filters accept an alert. -/
def lookup (x : SubscriberIndex) (a : Alert) : OrderedSet Nat :=
  .ofList ((Route.ofAlert a).flatMap x.filedUnder)

def addToSlice {α : Type} (item : α) (slices : Table Nat (List α)) (id : Nat) :
    Table Nat (List α) :=
  slices.set id ((slices.get? id).getD [] ++ [item])

/-- Cuts a batch into one slice per subscriber, in batch order. Subscribers for whom there is
nothing have no slice. -/
def route {α : Type} (x : SubscriberIndex) (alertOf : α → Alert) (batch : List α) :
    Table Nat (List α) :=
  batch.foldl
    (fun slices item => (x.lookup (alertOf item)).elements.foldl (addToSlice item) slices) {}

end SubscriberIndex

end TorrentFlow
