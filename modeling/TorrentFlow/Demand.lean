import TorrentFlow.Engine
import TorrentFlow.Notice
import TorrentFlow.Table

/-!
# Demand for alert categories

Several parties want categories enabled at the engine: the configuration, and every subscription.
Each bit counts its holders, and the mask of a demand is the union of the bits that somebody holds.
The engine is given the mask whenever it differs from the one it was given last, and only then.
-/

namespace TorrentFlow

/-- How many parties hold each category. A bit that nobody holds has no entry. -/
structure Holders where
  counts : Table Category Nat := {}
deriving DecidableEq

namespace Holders

def count (h : Holders) (bit : Category) : Nat := (h.counts.get? bit).getD 0

def mask (h : Holders) : Category := .union h.counts.keys

def acquireBit (h : Holders) (bit : Category) : Holders := ⟨h.counts.set bit (h.count bit + 1)⟩

def acquire (h : Holders) (mask : Category) : Holders := mask.members.foldl acquireBit h

/-- One holder fewer of a single category; with the last one the entry goes. To give back what
nobody holds changes nothing and is worth a notice. -/
def releaseBit (h : Holders) (bit : Category) : Holders × List Notice :=
  match h.counts.get? bit with
  | none => (h, [.categoryNotHeld bit])
  | some n => if n ≤ 1 then (⟨h.counts.erase bit⟩, []) else (⟨h.counts.set bit (n - 1)⟩, [])

def release (h : Holders) (mask : Category) : Holders × List Notice :=
  mask.members.foldl (fun (h, notices) bit =>
    let (h, more) := h.releaseBit bit
    (h, notices ++ more)) (h, [])

end Holders

/-- The holders, what the configuration holds, and what the engine was last told. -/
structure Demand where
  holders : Holders := {}
  configured : Category := .none
  applied : Category := .none
deriving DecidableEq

namespace Demand

def changeNotices (before after : Category) : List Notice :=
  (before.symmDiff after).members.map fun bit =>
    if after.contains bit then .categoryEnabled bit else .categoryDisabled bit

section Push

variable {σ : Type} [Engine σ]

/-- Gives the engine the mask that is demanded, if it was last given another. -/
def push (d : Demand) (engine : σ) : Demand × σ × List Notice :=
  let mask := d.holders.mask
  if mask = d.applied then (d, engine, [])
  else ({ d with applied := mask }, Engine.applyMask mask engine, changeNotices d.applied mask)

def start (configured : Category) (engine : σ) : Demand × σ × List Notice :=
  push { holders := Holders.acquire {} configured, configured } engine

def acquire (d : Demand) (mask : Category) (engine : σ) : Demand × σ × List Notice :=
  push { d with holders := d.holders.acquire mask } engine

def release (d : Demand) (mask : Category) (engine : σ) : Demand × σ × List Notice :=
  let (holders, warnings) := d.holders.release mask
  let (d, engine, changes) := push { d with holders } engine
  (d, engine, warnings ++ changes)

/-- Replaces what the configuration holds. The new categories are acquired before the old ones are
released, so that what is in both is held throughout. -/
def stage (d : Demand) (configured : Category) (engine : σ) : Demand × σ × List Notice :=
  let (holders, warnings) := (d.holders.acquire configured).release d.configured
  let (d, engine, changes) := push { d with holders, configured } engine
  (d, engine, warnings ++ changes)

end Push

end Demand

end TorrentFlow
