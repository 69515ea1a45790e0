import TorrentFlow.Pipeline.Services

/-!
# Consumers

Whoever takes things out of the pipeline is a consumer: a subscription yields alerts, a reader
pieces with their bytes, a waiter pieces that are there. Asked through `pollConsumer` they are all
alike.
-/

namespace TorrentFlow

inductive Consumer where
  | subscription (id : Nat)
  | reader (id : Nat)
  | waiter (id : Nat)

inductive Item where
  | alert (answer : Except DeliveryError Alert)
  | piece (answer : Except PieceError PieceData)
  | available (answer : Except PieceError Piece)

namespace Item

def isGood : Item → Bool
  | alert (.ok _) | piece (.ok _) | available (.ok _) => true
  | alert (.error _) | piece (.error _) | available (.error _) => false

end Item

def Polled.map {α β : Type} (f : α → β) : Polled α → Polled β
  | .pending => .pending
  | .item a => .item (f a)
  | .done => .done
  | .overflow => .overflow

namespace Pipeline

variable {σ : Type} [Engine σ]

def pollConsumer (c : Consumer) (p : Pipeline σ) : Polled Item × Pipeline σ :=
  match c with
  | .subscription id =>
    match p.pollSubscription id with
    | (none, p) => (.pending, p)
    | (some answer, p) => (.item (.alert answer), p)
  | .reader id =>
    let (answer, p) := p.pollReader id
    (answer.map .piece, p)
  | .waiter id =>
    let (answer, p) := p.pollWaiter id
    (answer.map .available, p)

def isConsumerAwake (c : Consumer) (p : Pipeline σ) : Bool :=
  match c with
  | .subscription id => p.hub.isAwake id
  | .reader id => p.isReaderAwake id
  | .waiter id =>
    match (p.pollWaiter id).1 with
    | .pending => false
    | _ => true

def cancelConsumer (c : Consumer) (p : Pipeline σ) : Pipeline σ :=
  match c with
  | .subscription id => p.cancelSubscription id
  | .reader id => p.cancelReader id
  | .waiter _ => p

def dropConsumer (c : Consumer) (p : Pipeline σ) : Pipeline σ :=
  match c with
  | .subscription id => p.unsubscribe id
  | .reader id => p.dropReader id
  | .waiter id => p.dropWaiter id

/-- A stream of alerts ends with its first error; the other streams end when they have nothing more
to yield. -/
def endsStream (c : Consumer) (i : Item) : Bool :=
  match c with
  | .subscription _ => !i.isGood
  | _ => false

end Pipeline

end TorrentFlow
