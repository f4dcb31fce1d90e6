/-!
# Real numbers

Documents write reals in decimal; they are held as `m * 2 ^ q` with at most 53 bits, the nearest to
what was written, of two the even one.

A real is written with the fewest digits that read back, the nearest of those. `Real.text` has no
exponent and at least one decimal; `Real.compact` has an exponent once the digits are too far from
the point.
-/

namespace TraceRelay

inductive Real where
  | nan
  | infinite (negative : Bool)
  /-- `m * 2 ^ q`. -/
  | finite (negative : Bool) (m : Nat) (q : Int)
  deriving DecidableEq, Repr, Inhabited

namespace Real

/-- The least exponent of two. -/
def leastExponent : Int := -1074

/-- The greatest exponent of two with 53 bits. -/
def greatestExponent : Int := 971

/-- `num / den` rounded, a half to the even side. -/
def roundQuotient (num den : Nat) : Nat :=
  let whole := num / den
  let twice := 2 * (num % den)
  if den < twice ∨ (twice = den ∧ whole % 2 = 1) then whole + 1 else whole

/-- `num / den` as the quotient of two numbers, times `base ^ exponent`. -/
def scale (num den base : Nat) (exponent : Int) : Nat × Nat :=
  if 0 ≤ exponent then (num * Nat.pow base exponent.toNat, den)
  else (num, den * Nat.pow base (-exponent).toNat)

/-- The `m` and `q` of the real nearest to `num / den`, without an upper end. -/
def nearest (num den : Nat) : Nat × Int :=
  if num = 0 then (0, leastExponent)
  else
    let guess : Int := num.log2 - den.log2 - 52
    let (n, d) := scale num den 2 (-guess)
    let q := max (if n < d * Nat.pow 2 52 then guess - 1 else guess) leastExponent
    let (n, d) := scale num den 2 (-q)
    let m := roundQuotient n d
    if m = Nat.pow 2 53 then (Nat.pow 2 52, q + 1) else (m, q)

/-- Digits in decimal; one for zero. -/
def countDigits (n : Nat) : Nat := (Nat.toDigits 10 n).length

/-- The real nearest to `digits * 10 ^ exponent`. -/
def ofDecimal (negative : Bool) (digits : Nat) (exponent : Int) : Real :=
  let magnitude : Int := countDigits digits + exponent
  if digits = 0 ∨ magnitude < -400 then .finite negative 0 leastExponent
  else if 400 < magnitude then .infinite negative
  else
    let (num, den) := scale digits 1 10 exponent
    let (m, q) := nearest num den
    if greatestExponent < q then .infinite negative else .finite negative m q

/-- The exponent of ten of the first digit of `num / den`. -/
def leadingPlace (num den : Nat) : Int :=
  let guess : Int := countDigits num - countDigits den
  let (n, d) := scale num den 10 (-guess)
  if n < d then guess - 1 else guess

/-- Of the two neighbours of `num / den` with `count` digits, the nearest that reads back as `m` and
`q`, as digits and exponent. -/
def neighbour? (m : Nat) (q : Int) (num den count : Nat) : Option (Nat × Int) :=
  let place := leadingPlace num den - count + 1
  let (n, d) := scale num den 10 (-place)
  let below := n / d
  let readsBack (digits : Nat) : Bool :=
    let (a, b) := scale digits 1 10 place
    nearest a b == (m, q)
  let up := d < 2 * (n % d) ∨ (2 * (n % d) = d ∧ below % 2 = 1)
  let (first, second) := if up then (below + 1, below) else (below, below + 1)
  if readsBack first then some (first, place)
  else if readsBack second then some (second, place)
  else none

/-- Without the zeros at the end. -/
def withoutZeros (digits : Nat) (exponent : Int) : Nat × Int :=
  if digits ≠ 0 ∧ digits % 10 = 0 then withoutZeros (digits / 10) (exponent + 1)
  else (digits, exponent)
termination_by digits
decreasing_by omega

/-- The fewest digits that read back. -/
def shortest (m : Nat) (q : Int) : Nat × Int :=
  let (num, den) := scale m 1 2 q
  let (digits, exponent) :=
    ((List.range 17).findSome? fun i => neighbour? m q num den (i + 1)).getD (0, 0)
  withoutZeros digits exponent

/-- Digits and exponent in positions, with a point. -/
def positional (digits : Nat) (exponent : Int) : String :=
  let shown := Nat.toDigits 10 digits
  let (whole, fraction) :=
    if 0 ≤ exponent then (shown ++ List.replicate exponent.toNat '0', [])
    else
      let places := (-exponent).toNat
      let padded := shown.leftpad (places + 1) '0'
      (padded.take (padded.length - places), padded.drop (padded.length - places))
  let kept := (fraction.reverse.dropWhile (· == '0')).reverse
  String.ofList (whole ++ '.' :: if kept.isEmpty then ['0'] else kept)

/-- Digits and exponent with the point after the first digit. -/
def scientific (digits : Nat) (exponent : Int) : String :=
  match Nat.toDigits 10 digits with
  | [] => ""
  | d :: more =>
    String.ofList (d :: if more.isEmpty then [] else '.' :: more) ++ s!"e{exponent + more.length}"

/-- The text of a real, given how the digits and the exponent of a finite one are written. -/
def textBy (write : Nat → Int → String) : Real → String
  | nan => "NaN"
  | infinite negative => if negative then "-inf" else "inf"
  | finite negative m q =>
    let (digits, exponent) := if m = 0 then (0, 0) else shortest m q
    (if negative then "-" else "") ++ write digits exponent

def text : Real → String := textBy positional

/-- In positions if the point then stands among the first 16 digits, or no more than four zeros part
it from them. -/
def compact : Real → String := textBy fun digits exponent =>
  let place : Int := countDigits digits + exponent
  if -5 < place ∧ place ≤ 16 then positional digits exponent else scientific digits exponent

end Real

end TraceRelay
