import TraceRelay.Duration
import TraceRelay.Text.Blank

/-!
# Durations as people write them

A duration is a run of spans, each a number and a unit: `1h 30m`, `2s500ms`. Blanks may stand between
all parts, and do not part the digits of a number. A number may have decimals, if what they say is a
whole number of nanoseconds, or, from hours on, of seconds. Numbers and sums must fit a word.
-/

namespace TraceRelay.Duration

inductive TimeUnit where
  | nanosecond
  | microsecond
  | millisecond
  | second
  | minute
  | hour
  | day
  | week
  | month
  | year
  deriving DecidableEq, Repr

namespace TimeUnit

def names : TimeUnit → List String
  | nanosecond => ["nanos", "nsec", "ns"]
  | microsecond => ["usec", "us", "µs"]
  | millisecond => ["millis", "msec", "ms"]
  | second => ["seconds", "second", "secs", "sec", "s"]
  | minute => ["minutes", "minute", "min", "mins", "m"]
  | hour => ["hours", "hour", "hrs", "hr", "h"]
  | day => ["days", "day", "d"]
  | week => ["weeks", "week", "wks", "wk", "w"]
  | month => ["months", "month", "M"]
  | year => ["years", "year", "yrs", "yr", "y"]

def all : List TimeUnit :=
  [nanosecond, microsecond, millisecond, second, minute, hour, day, week, month, year]

def ofName? (name : List Char) : Option TimeUnit := all.find? (·.names.contains (String.ofList name))

/-- Whole seconds of a unit. A month is the twelfth part of 365.28 days, a year 365.25 days. -/
def seconds : TimeUnit → Nat
  | nanosecond | microsecond | millisecond => 0
  | second => 1
  | minute => 60
  | hour => 3600
  | day => 86400
  | week => 604800
  | month => 2630016
  | year => 31557600

/-- Nanoseconds of a unit of less than a second. -/
def nanoseconds : TimeUnit → Nat
  | nanosecond => 1
  | microsecond => 1000
  | millisecond => 1000000
  | _ => 0

/-- What decimals of a unit are counted in: how many to the unit, and nanoseconds of each. -/
def grain : TimeUnit → Nat × Nat
  | nanosecond => (1, 1)
  | microsecond => (1000, 1)
  | millisecond => (1000000, 1)
  | second => (1000000000, 1)
  | minute => (60000000000, 1)
  | u => (u.seconds, 1000000000)

end TimeUnit

/-- Only what fits a word. -/
def word? (n : Nat) : Option Nat := if n < UInt64.size then some n else none

/-- The decimals of a number: `numerator` of `10 ^ places`. -/
structure Fraction where
  numerator : Nat
  places : Nat
  deriving Repr

/-- Adds a span of seconds and nanoseconds. The nanoseconds on both sides may not go beyond a
word, nor may the seconds. -/
def plus (d : Duration) (seconds nanoseconds : Nat) : Option Duration := do
  let nanos ← word? (d.subsecond + nanoseconds)
  let seconds ← word? (seconds + nanos / 1000000000)
  let total ← word? (d.seconds + seconds)
  return ⟨total * 1000000000 + nanos % 1000000000⟩

/-- Adds `n` of a unit and a fraction of it. -/
def plusSpan (d : Duration) (n : Nat) (fraction? : Option Fraction) (name : List Char) :
    Option Duration := do
  let u ← TimeUnit.ofName? name
  let d ← d.plus (← word? (n * u.seconds)) (← word? (n * u.nanoseconds))
  match fraction? with
  | none => some d
  | some fraction => do
    let (count, each) := u.grain
    let n ← word? (fraction.numerator * count)
    if n % Nat.pow 10 fraction.places ≠ 0 then none
    let whole := n / Nat.pow 10 fraction.places * each
    d.plus (whole / 1000000000) (whole % 1000000000)

/-- What a name of a unit is made of. -/
def isLetter (c : Char) : Bool := c.isAlpha || c == 'µ'

/-- The rest of a number that began with `n`. -/
def number : (n : Nat) → List Char → Option (Nat × List Char)
  | n, [] => some (n, [])
  | n, c :: rest =>
    if c.isDigit then do number (← word? (n * 10 + (c.toNat - 48))) rest
    else if Text.isBlank c then number n rest
    else some (n, c :: rest)

/-- The decimals after a point, up to a letter. -/
def decimalsOf (f : Fraction) : List Char → Option (Fraction × List Char)
  | [] => some (f, [])
  | c :: rest =>
    if c.isDigit then do
      let _ ← word? (Nat.pow 10 (f.places + 1))
      let numerator ← word? (f.numerator * 10 + (c.toNat - 48))
      decimalsOf ⟨numerator, f.places + 1⟩ rest
    else if Text.isBlank c then decimalsOf f rest
    else if isLetter c then some (f, c :: rest)
    else none

/-- Adds the spans that follow; `first` is the first digit of the next. -/
def spans : (fuel : Nat) → Duration → (first : Nat) → List Char → Option Duration
  | 0, _, _, _ => none
  | fuel + 1, d, first, cs => do
    let (n, rest) ← number first cs
    let (fraction?, rest) ← match rest with
      | '.' :: rest => do
        let (f, rest) ← decimalsOf ⟨0, 0⟩ rest
        if f.places = 0 then none
        pure (some f, rest)
      | rest => pure (none, rest)
    let name := rest.takeWhile isLetter
    let d ← d.plusSpan n fraction? name
    match rest.dropWhile isLetter with
    | [] => some d
    | c :: rest =>
      if c.isDigit then spans fuel d (c.toNat - 48) rest
      else if Text.isBlank c then
        match rest.dropWhile Text.isBlank with
        | [] => some d
        | c :: rest => if c.isDigit then spans fuel d (c.toNat - 48) rest else none
      else none

/-- The duration that a text gives. A lone zero needs no unit. -/
def parse? (s : String) : Option Duration :=
  if s = "0" then some ⟨0⟩
  else match s.toList.dropWhile Text.isBlank with
    | [] => none
    | c :: rest => if c.isDigit then spans (rest.length + 1) ⟨0⟩ (c.toNat - 48) rest else none

end TraceRelay.Duration
