/-!
# Durations

A length of time, in whole nanoseconds. `Duration.text` writes it in the largest of the units
s, ms, µs and ns that it fills, with the decimals that it needs. Timers run on a clock of
milliseconds, and a duration is rounded up to it.
-/

namespace TraceRelay

structure Duration where
  nanoseconds : Nat
  deriving DecidableEq, Repr, Inhabited

namespace Duration

def ofSeconds (s : Nat) : Duration := ⟨s * 1000000000⟩

def ofMillis (ms : Nat) : Duration := ⟨ms * 1000000⟩

/-- Whole seconds. -/
def seconds (d : Duration) : Nat := d.nanoseconds / 1000000000

/-- What the whole seconds leave. -/
def subsecond (d : Duration) : Nat := d.nanoseconds % 1000000000

/-- Whole milliseconds. -/
def millis (d : Duration) : Nat := d.nanoseconds / 1000000

/-- Milliseconds, rounded up. -/
def ticks (d : Duration) : Nat := (d.nanoseconds + 999999) / 1000000

def isZero (d : Duration) : Bool := d.nanoseconds == 0

/-- `n` in `width` decimal digits, without the zeros at the end. -/
def decimals (width n : Nat) : String :=
  let digits := (Nat.toDigits 10 n).leftpad width '0'
  String.ofList (digits.reverse.dropWhile (· == '0')).reverse

/-- `n` units of which `10 ^ width` make one `unit`. -/
def inUnit (width n : Nat) (unit : String) : String :=
  let fraction := decimals width (n % Nat.pow 10 width)
  let point := if fraction = "" then "" else "." ++ fraction
  toString (n / Nat.pow 10 width) ++ point ++ unit

def text (d : Duration) : String :=
  let n := d.nanoseconds
  if 1000000000 ≤ n then inUnit 9 n "s"
  else if 1000000 ≤ n then inUnit 6 n "ms"
  else if 1000 ≤ n then inUnit 3 n "µs"
  else inUnit 0 n "ns"

end Duration

end TraceRelay
