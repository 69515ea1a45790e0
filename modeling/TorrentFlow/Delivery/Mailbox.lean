import TorrentFlow.Alert

/-!
# Mailboxes

A mailbox stands between the pump and one subscriber. It holds the slice of the batch that is in
flight, and while it holds one it is counted as busy, together with all others, in one number. The
pump fills it (`deliver`), shutting down closes it (`close`), a liveness check may fail it (`fail`),
and the subscriber empties it (`poll`). Each of these gives the mailbox and the number of busy
mailboxes after it.

A subscriber that finds nothing waits. Whoever changes the mailbox then leaves a wake-up, which is
stored until the subscriber uses it; there is never more than one.
-/

namespace TorrentFlow

structure Mailbox where
  queue : List Alert := []
  /-- Counted among the busy mailboxes. -/
  holding : Bool := false
  failure : Option DeliveryError := none
  closed : Bool := false
  wake : Bool := false
  waiting : Bool := false
deriving DecidableEq

namespace Mailbox

def shut : Mailbox := { closed := true }

def release (m : Mailbox) (busy : Nat) : Mailbox × Nat :=
  if m.holding then ({ m with holding := false }, busy - 1) else (m, busy)

/-- Adds a slice. A mailbox that has failed or is closed takes none. -/
def deliver (slice : List Alert) (m : Mailbox) (busy : Nat) : Mailbox × Nat :=
  if m.failure.isSome || m.closed || slice.isEmpty then (m, busy)
  else
    ({ m with queue := m.queue ++ slice, holding := true, wake := true },
      if m.holding then busy else busy + 1)

/-- Ends delivery with an error and drops what was not consumed. The first error is the one that
stays. -/
def fail (e : DeliveryError) (m : Mailbox) (busy : Nat) : Mailbox × Nat :=
  let (m, busy) := release { m with failure := m.failure.or (some e), queue := [] } busy
  ({ m with wake := true }, busy)

/-- Ends delivery. What is queued is still handed out. -/
def close (m : Mailbox) (busy : Nat) : Mailbox × Nat :=
  let (m, busy) := release { m with closed := true } busy
  ({ m with wake := true }, busy)

/-- One look into the mailbox: the error if it failed, else the first alert, else the news that it
is closed, else nothing. The alert that empties it ends its being busy. -/
def look (m : Mailbox) (busy : Nat) : Option (Except DeliveryError Alert) × Mailbox × Nat :=
  match m.failure, m.queue with
  | some e, _ => (some (.error e), m, busy)
  | none, a :: rest =>
    let m := { m with queue := rest }
    if rest.isEmpty then
      let (m, busy) := m.release busy
      (some (.ok a), m, busy)
    else (some (.ok a), m, busy)
  | none, [] =>
    let (m, busy) := m.release busy
    (if m.closed then some (.error .shutdown) else none, m, busy)

def attempt (m : Mailbox) (busy : Nat) : Option (Except DeliveryError Alert) × Mailbox × Nat :=
  let (found, m, busy) := m.look busy
  (found, { m with waiting := found.isNone }, busy)

def isAwake (m : Mailbox) : Bool := !m.waiting || m.wake

def useWake (m : Mailbox) : Mailbox := if m.waiting then { m with wake := false } else m

/-- Asks for the next alert: looks unless it waits without a wake-up, and looks again if a wake-up
was left from before. -/
def poll (m : Mailbox) (busy : Nat) : Option (Except DeliveryError Alert) × Mailbox × Nat :=
  if !m.isAwake then (none, m, busy)
  else
    match m.useWake.attempt busy with
    | (some r, m, busy) => (some r, m, busy)
    | (none, m, busy) => if m.wake then m.useWake.attempt busy else (none, m, busy)

/-- Gives up waiting. A wake-up that was meant for the subscriber stays stored. -/
def cancel (m : Mailbox) : Mailbox := { m with waiting := false }

end Mailbox

end TorrentFlow
