import TorrentFlow.Delivery.Index
import TorrentFlow.Delivery.Mailbox

/-!
# The hub

The hub holds the subscriptions: their filters, their mailboxes, the number of mailboxes that are
busy, and whether delivery goes on. A batch is cut into slices by the index and each slice goes into
one mailbox. Closing the hub closes every mailbox, and whoever subscribes after that gets one that
is shut.
-/

namespace TorrentFlow

inductive Liveness where
  | settled
  | unasked (handle : Handle)
  | answered (answer : Except EngineError Bool)

structure Subscription where
  filter : Filter
  mask : Category
  mailbox : Mailbox
  /-- Filed in the index and counted among the subscribers. -/
  listed : Bool
  liveness : Liveness

namespace Subscription

def describe (id : Nat) (s : Subscription) : String :=
  let kinds := ", ".intercalate (s.filter.kinds.elements.map AlertKind.label)
  let handle := match s.filter.handle with
    | some h => "Some(" ++ h.describe ++ ")"
    | none => "None"
  "Subscription \x7b id: " ++ toString id ++ ", filter: AlertFilter \x7b kinds: [" ++ kinds ++
    "], handle: " ++ handle ++ " \x7d, mask: AlertCategory(" ++
    toString s.mask.bits.toNat ++ ") \x7d"

end Subscription

structure Hub where
  index : SubscriberIndex := {}
  subscriptions : Table Nat Subscription := {}
  nextId : Nat := 0
  /-- How many mailboxes hold alerts that were not consumed. -/
  busy : Nat := 0
  /-- Nobody can subscribe to anything any more. -/
  closed : Bool := false
  stopped : Bool := false

namespace Hub

def size (h : Hub) : Nat := (h.subscriptions.values.filter (·.listed)).length

def onMailbox (h : Hub) (id : Nat) (f : Mailbox → Nat → Mailbox × Nat) : Hub :=
  match h.subscriptions.get? id with
  | none => h
  | some s =>
    let (mailbox, busy) := f s.mailbox h.busy
    { h with subscriptions := h.subscriptions.set id { s with mailbox }, busy }

def add (h : Hub) (r : Request) : Nat × Hub :=
  let id := h.nextId
  let liveness : Liveness := match r.raiseIfRemoved, r.handle with
    | true, some handle => .unasked handle
    | _, _ => .settled
  let subscription : Subscription :=
    { filter := r.filter, mask := r.requiredMask, liveness, listed := !h.closed
      mailbox := if h.closed then .shut else {} }
  (id,
    { h with
      nextId := id + 1
      subscriptions := h.subscriptions.set id subscription
      index := if h.closed then h.index else h.index.insert id r.filter })

/-- Removes a subscription. If its mailbox was busy, it is not any more. -/
def remove (h : Hub) (id : Nat) : Hub :=
  match h.subscriptions.get? id with
  | none => h
  | some s =>
    let h := h.onMailbox id Mailbox.release
    { h with
      subscriptions := h.subscriptions.erase id
      index := if s.listed then h.index.remove id s.filter else h.index }

def dispatch (h : Hub) (batch : List Alert) : Hub :=
  (h.index.route id batch).entries.foldl
    (fun h (id, slice) => h.onMailbox id (Mailbox.deliver slice)) h

def close (h : Hub) : Hub :=
  h.subscriptions.entries.foldl
    (fun h (id, s) => if s.listed then h.onMailbox id Mailbox.close else h)
    { h with closed := true }

def stop (h : Hub) : Hub := { h with stopped := true }.close

def fail (h : Hub) (id : Nat) (e : DeliveryError) : Hub := h.onMailbox id (Mailbox.fail e)

def poll (h : Hub) (id : Nat) : Option (Except DeliveryError Alert) × Hub :=
  match h.subscriptions.get? id with
  | none => (none, h)
  | some s =>
    let (found, mailbox, busy) := s.mailbox.poll h.busy
    (found, { h with subscriptions := h.subscriptions.set id { s with mailbox }, busy })

def cancel (h : Hub) (id : Nat) : Hub := h.onMailbox id fun m busy => (m.cancel, busy)

/-- Whether asking for the next alert of a subscription would look into its mailbox. -/
def isAwake (h : Hub) (id : Nat) : Bool :=
  match h.subscriptions.get? id with
  | none => false
  | some s => s.mailbox.isAwake

def backlog (h : Hub) (id : Nat) : Nat :=
  match h.subscriptions.get? id with
  | none => 0
  | some s => s.mailbox.queue.length

end Hub

end TorrentFlow
