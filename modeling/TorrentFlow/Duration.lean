/-!
# Durations and their written form

A duration is a number of nanoseconds. Its written form names the largest unit that makes the whole
part positive, and then gives the rest exactly: as many decimals as are needed, none when the rest
is zero. `90 s` is `90s`, `1500 ms` is `1.5s`, `250 µs` is `250µs`, and no time at all is `0ns`.
-/

namespace TorrentFlow

structure Duration where
  nanos : Nat
deriving DecidableEq

namespace Duration

def zero : Duration := ⟨0⟩

def nanosPerSecond : Nat := 1000000000

def ofMillis (ms : Nat) : Duration := ⟨ms * 1000000⟩

def ofSeconds (s : Nat) : Duration := ⟨s * nanosPerSecond⟩

def seconds (d : Duration) : Nat := d.nanos / nanosPerSecond

def lastDigits : (places : Nat) → (n : Nat) → List Char
  | 0, _ => []
  | places + 1, n => lastDigits places (n / 10) ++ [Nat.digitChar (n % 10)]

/-- The digits after the decimal point, without the zeros that end them. -/
def fraction (places rest : Nat) : List Char :=
  ((lastDigits places rest).reverse.dropWhile (· == '0')).reverse

/-- A number of units that each have as many parts as `places` decimals can count, of which `n`
parts are present. -/
def inUnits (n places : Nat) (unit : String) : String :=
  let parts := Nat.pow 10 places
  let whole := toString (n / parts)
  match fraction places (n % parts) with
  | [] => whole ++ unit
  | digits => whole ++ "." ++ String.ofList digits ++ unit

/-- The written form: seconds, milliseconds, microseconds or nanoseconds, whichever is the largest
unit of which there is at least one. -/
def text (d : Duration) : String :=
  if 1000000000 ≤ d.nanos then inUnits d.nanos 9 "s"
  else if 1000000 ≤ d.nanos then inUnits d.nanos 6 "ms"
  else if 1000 ≤ d.nanos then inUnits d.nanos 3 "µs"
  else inUnits d.nanos 0 "ns"

end Duration

end TorrentFlow
