/-!
# Decimal numerals

How numbers are read from the environment and the command line: an optional sign, then one or more
of the ten ASCII digits, any number of leading zeros, and a value within bounds.
-/

namespace TorrentFlow.Numeral

def digit? (c : Char) : Option Nat :=
  if '0' ≤ c ∧ c ≤ '9' then some (c.toNat - '0'.toNat) else none

/-- The value of a string of digits, of which there must be one at least. -/
def digits? : List Char → Option Nat
  | [] => none
  | cs => cs.foldl (fun n c => do return (← n) * 10 + (← digit? c)) (some 0)

def dropPlus : List Char → List Char
  | '+' :: cs => cs
  | cs => cs

/-- Reads a number without a minus that is less than `bound`. -/
def unsigned? (bound : Nat) (s : String) : Option Nat :=
  (digits? (dropPlus s.toList)).filter fun n => decide (n < bound)

def signed? (bound : Nat) (s : String) : Option Int :=
  match s.toList with
  | '-' :: cs => (digits? cs).bind fun n => if n ≤ bound then some (-(n : Int)) else none
  | cs => (digits? (dropPlus cs)).bind fun n => if n < bound then some (n : Int) else none

def wordSize : Nat := 18446744073709551616

def word? (s : String) : Option Nat := unsigned? wordSize s

def index? (s : String) : Option Int := signed? 2147483648 s

end TorrentFlow.Numeral
