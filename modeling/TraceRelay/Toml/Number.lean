import TraceRelay.Toml.Text
import TraceRelay.Toml.Value

/-!
# Numbers and dates

Digits may be parted by single underscores. An integer must fit 64 bits with a sign; a number with
a point or an exponent is real. A number in another base is named by `0x`, `0o` or `0b` and has no
sign. Dates and times are checked and their values not kept.
-/

namespace TraceRelay.Toml

/-! ## Digits -/

/-- Digits after the first: an underscore must have one on each side. -/
def moreDigits (base : Nat) : List Char → List Nat × List Char
  | '_' :: c :: rest =>
    match Text.digit? base c with
    | some d => let (ds, rest) := moreDigits base rest; (d :: ds, rest)
    | none => ([], '_' :: c :: rest)
  | c :: rest =>
    match Text.digit? base c with
    | some d => let (ds, rest) := moreDigits base rest; (d :: ds, rest)
    | none => ([], c :: rest)
  | [] => ([], [])

/-- At least one digit. -/
def digits (base : Nat) : Reader (List Nat)
  | c :: rest => do
    let d ← Text.digit? base c
    let (ds, rest) := moreDigits base rest
    return (d :: ds, rest)
  | [] => none

/-- A sign, if there is one; true if it is a minus. -/
def sign : List Char → Bool × List Char
  | '-' :: rest => (true, rest)
  | '+' :: rest => (false, rest)
  | cs => (false, cs)

/-! ## Numbers -/

/-- An integer that fits 64 bits with a sign. -/
def word? (n : Int) : Option Value :=
  if Int64.minValue.toInt ≤ n ∧ n ≤ Int64.maxValue.toInt then some (.integer n) else none

/-- A natural number in `base`. -/
def based (base : Nat) : Reader Value := fun cs => do
  let (ds, rest) ← digits base cs
  return (← word? (Text.ofDigits base ds), rest)

/-- Digits without a zero in front of others. -/
def wholeDigits : Reader (List Nat)
  | '0' :: rest => some ([0], rest)
  | cs => digits 10 cs

/-- An exponent, if there is one. -/
def exponent : List Char → Option (Option Int × List Char)
  | c :: rest =>
    if c == 'e' || c == 'E' then do
      let (negative, rest) := sign rest
      let (ds, rest) ← digits 10 rest
      let n := Text.ofDigits 10 ds
      return (some (if negative then -n else n), rest)
    else some (none, c :: rest)
  | [] => some (none, [])

/-- A real number; without an upper end, but not above it. -/
def real? (negative : Bool) (ds : List Nat) (exponent : Int) : Option Value :=
  match Real.ofDecimal negative (Text.ofDigits 10 ds) exponent with
  | .infinite false => none
  | r => some (.real r)

/-- A number in base ten. -/
def decimal : Reader Value := fun cs => do
  let (negative, cs) := sign cs
  match cs with
  | 'i' :: 'n' :: 'f' :: rest => some (.real (.infinite negative), rest)
  | 'n' :: 'a' :: 'n' :: rest => some (.real .nan, rest)
  | cs =>
    let (whole, rest) ← wholeDigits cs
    match rest with
    | '.' :: rest => do
      let (fraction, rest) ← digits 10 rest
      let (shift, rest) ← exponent rest
      return (← real? negative (whole ++ fraction) (shift.getD 0 - fraction.length), rest)
    | rest => do
      match ← exponent rest with
      | (none, rest) =>
        let n : Int := Text.ofDigits 10 whole
        return (← word? (if negative then -n else n), rest)
      | (some shift, rest) => return (← real? negative whole shift, rest)

/-! ## Dates and times -/

/-- A number of exactly `count` digits from `low` to `high`. -/
def field (count low high : Nat) : Reader Nat := fun cs => do
  let ds ← (cs.take count).mapM (Text.digit? 10)
  let n := Text.ofDigits 10 ds
  if ds.length = count ∧ low ≤ n ∧ n ≤ high then some (n, cs.drop count) else none

def char (c : Char) : Reader Unit
  | d :: rest => if d = c then some ((), rest) else none
  | [] => none

def daysIn (year month : Nat) : Nat :=
  if month = 2 then
    if year % 4 = 0 ∧ (year % 100 ≠ 0 ∨ year % 400 = 0) then 29 else 28
  else if month = 4 ∨ month = 6 ∨ month = 9 ∨ month = 11 then 30
  else 31

def date : Reader Unit := fun cs => do
  let (year, cs) ← field 4 0 9999 cs
  let ((), cs) ← char '-' cs
  let (month, cs) ← field 2 1 12 cs
  let ((), cs) ← char '-' cs
  let (_, cs) ← field 2 1 (daysIn year month) cs
  return ((), cs)

/-- Hours, minutes, seconds and, after a point, parts of a second. -/
def timeOfDay : Reader Unit := fun cs => do
  let (_, cs) ← field 2 0 23 cs
  let ((), cs) ← char ':' cs
  let (_, cs) ← field 2 0 59 cs
  let ((), cs) ← char ':' cs
  let (_, cs) ← field 2 0 60 cs
  match cs with
  | '.' :: c :: rest =>
    if c.isDigit then return ((), rest.dropWhile Char.isDigit) else return ((), cs)
  | cs => return ((), cs)

/-- How far the clock is from the common one, if that is said. -/
def zone : List Char → Option (List Char)
  | c :: rest =>
    if c == 'Z' || c == 'z' then some rest
    else if c == '+' || c == '-' then do
      let (_, rest) ← field 2 0 23 rest
      let ((), rest) ← char ':' rest
      let (_, rest) ← field 2 0 59 rest
      return rest
    else some (c :: rest)
  | [] => some []

/-- A date, with a time if one follows, or a time. -/
def moment : Reader Value := fun cs =>
  match date cs with
  | some ((), rest) =>
    match rest with
    | c :: after =>
      match (if c == 'T' || c == 't' || c == ' ' then timeOfDay after else none) with
      | some ((), after) => (zone after).map fun rest => (.moment, rest)
      | none => some (.moment, rest)
    | [] => some (.moment, [])
  | none => (timeOfDay cs).map fun ((), rest) => (.moment, rest)

/-- A number or a date. -/
def number : Reader Value := fun cs =>
  match moment cs with
  | some found => some found
  | none =>
    match cs with
    | '0' :: 'x' :: rest => based 16 rest
    | '0' :: 'o' :: rest => based 8 rest
    | '0' :: 'b' :: rest => based 2 rest
    | cs => decimal cs

end TraceRelay.Toml
