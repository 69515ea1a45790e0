/-!
# Alert categories

The engine files every alert under a category and emits only the categories in its mask. A set of
categories is a word of 32 bits. Some bits have names, and a set is written as the names of its
members joined by bars, lowest bit first; a bit without a name is written in hexadecimal.
-/

namespace TorrentFlow

/-- A set of alert categories. -/
structure Category where
  bits : UInt32
deriving DecidableEq

namespace Category

instance : LT Category := ⟨fun a b => a.bits < b.bits⟩

instance : DecidableLT Category := fun a b => inferInstanceAs (Decidable (a.bits < b.bits))

def bit (i : Nat) : Category := ⟨1 <<< UInt32.ofNat i⟩

def none : Category := ⟨0⟩
def error : Category := bit 0
def storage : Category := bit 3
def status : Category := bit 6
def sessionLog : Category := bit 13
def pieceProgress : Category := bit 22

def named : List (Category × String) :=
  [(bit 0, "error"), (bit 1, "peer"), (bit 2, "port_mapping"), (bit 3, "storage"),
   (bit 4, "tracker"), (bit 5, "connect"), (bit 6, "status"), (bit 8, "ip_block"),
   (bit 9, "performance_warning"), (bit 10, "dht"), (bit 11, "stats"), (bit 13, "session_log"),
   (bit 14, "torrent_log"), (bit 15, "peer_log"), (bit 16, "incoming_request"),
   (bit 17, "dht_log"), (bit 18, "dht_operation"), (bit 19, "port_mapping_log"),
   (bit 20, "picker_log"), (bit 21, "file_progress"), (bit 22, "piece_progress"),
   (bit 23, "upload"), (bit 24, "block_progress")]

def isEmpty (c : Category) : Bool := c.bits == 0

def contains (c d : Category) : Bool := c.bits &&& d.bits == d.bits

def intersects (c d : Category) : Bool := c.bits &&& d.bits != 0

instance : OrOp Category := ⟨fun c d => ⟨c.bits ||| d.bits⟩⟩

instance : AndOp Category := ⟨fun c d => ⟨c.bits &&& d.bits⟩⟩

def symmDiff (c d : Category) : Category := ⟨c.bits ^^^ d.bits⟩

/-- The lowest member, as a set of its own: the one bit that a word shares with its negative. -/
def lowest (c : Category) : Category := ⟨c.bits &&& -c.bits⟩

/-- All members but the lowest: the bits that a word shares with its predecessor. -/
def dropLowest (c : Category) : Category := ⟨c.bits &&& (c.bits - 1)⟩

theorem dropLowest_lt {c : Category} (h : ¬ c.isEmpty = true) :
    c.dropLowest.bits.toNat < c.bits.toNat := by
  have hpos : 1 ≤ c.bits.toNat := by
    have hne : c.bits.toNat ≠ 0 := fun h0 => h (beq_iff_eq.mpr (UInt32.toNat_inj.mp h0))
    omega
  have hpred : (c.bits - 1).toNat = c.bits.toNat - 1 := UInt32.toNat_sub_of_le _ _ hpos
  have hle : c.dropLowest.bits.toNat ≤ (c.bits - 1).toNat := by
    rw [dropLowest, UInt32.toNat_and]
    exact Nat.and_le_right
  omega

/-- The members, each as a set of its own, lowest bit first: the lowest is split off until none is
left. -/
@[semireducible] def members (c : Category) : List Category :=
  if c.isEmpty then [] else c.lowest :: members c.dropLowest
termination_by c.bits.toNat
decreasing_by exact dropLowest_lt ‹_›

def union (cs : List Category) : Category := cs.foldl (· ||| ·) none

/-- The name of a set with exactly one member, where that member has a name. -/
def name? (c : Category) : Option String :=
  (named.find? fun e => e.1 == c).map (·.2)

def hexadecimal (n : Nat) : String := "0x" ++ String.ofList (Nat.toDigits 16 n)

def memberText (c : Category) : String := c.name?.getD (hexadecimal c.bits.toNat)

def text (c : Category) : String :=
  if c.isEmpty then "none" else "|".intercalate (c.members.map memberText)

end Category

end TorrentFlow
