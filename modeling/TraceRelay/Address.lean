import TraceRelay.Text.Digits

/-!
# Socket addresses

An address in figures and a port: `10.0.0.7:4001`, `[::1]:4001`. Of the eight groups of a long
address one run of zero groups may be left out, and the last two may be written as a short one.
-/

namespace TraceRelay

inductive Host where
  /-- Four bytes. -/
  | v4 (bytes : List Nat)
  /-- Eight groups of two bytes, and the interface it is meant for. -/
  | v6 (groups : List Nat) (scope : Nat)
  deriving DecidableEq, Repr

structure Address where
  host : Host
  port : Nat
  deriving DecidableEq, Repr

namespace Address

/-- What the digits of a number in a base are worth, and the rest. -/
def number (base : Nat) (cs : List Char) : List Nat × List Char :=
  match cs with
  | [] => ([], [])
  | c :: rest =>
    match Text.digit? base c with
    | some d => let (ds, rest) := number base rest; (d :: ds, rest)
    | none => ([], c :: rest)

/-- A number of at least one digit that is at most `high`. -/
def atMost (base high : Nat) (cs : List Char) : Option (Nat × List Char) :=
  let (ds, rest) := number base cs
  let n := Text.ofDigits base ds
  if ds ≠ [] ∧ n ≤ high then some (n, rest) else none

def char (c : Char) : List Char → Option (List Char)
  | d :: rest => if c = d then some rest else none
  | [] => none

/-- One byte of a short address: at most three digits, without a zero in front. -/
def byte (cs : List Char) : Option (Nat × List Char) :=
  let (ds, rest) := number 10 cs
  let n := Text.ofDigits 10 ds
  if ds ≠ [] ∧ ds.length ≤ 3 ∧ n ≤ 255 ∧ ¬ (ds.head? = some 0 ∧ 1 < ds.length) then some (n, rest)
  else none

def short (cs : List Char) : Option (List Nat × List Char) := do
  let (a, cs) ← byte cs
  let (b, cs) ← byte (← char '.' cs)
  let (c, cs) ← byte (← char '.' cs)
  let (d, cs) ← byte (← char '.' cs)
  return ([a, b, c, d], cs)

/-- One group of a long address: at most four digits. -/
def group (cs : List Char) : Option (Nat × List Char) :=
  let (ds, rest) := number 16 cs
  if ds ≠ [] ∧ ds.length ≤ 4 then some (Text.ofDigits 16 ds, rest) else none

/-- Past the colon in front of a group, unless it is the first. -/
def pastColon (first : Bool) (cs : List Char) : Option (List Char) :=
  if first then some cs else char ':' cs

/-- Up to `room` groups; also whether the last two were a short address. -/
def groups (first : Bool) : (room : Nat) → List Char → List Nat × Bool × List Char
  | 0, cs => ([], false, cs)
  | room + 1, cs =>
    match (if room = 0 then none else (pastColon first cs).bind short) with
    | some ([a, b, c, d], rest) => ([a * 256 + b, c * 256 + d], true, rest)
    | _ =>
      match (pastColon first cs).bind group with
      | some (g, rest) =>
        let (gs, ended, rest) := groups false room rest
        (g :: gs, ended, rest)
      | none => ([], false, cs)

/-- A long address; two colons stand for at least one zero group. -/
def long (cs : List Char) : Option (List Nat × List Char) := do
  let (front, shortEnd, cs) := groups true 8 cs
  if front.length = 8 then return (front, cs)
  if shortEnd then none
  let cs ← char ':' (← char ':' cs)
  let (back, _, cs) := groups true (7 - front.length) cs
  return (front ++ List.replicate (8 - front.length - back.length) 0 ++ back, cs)

def portOf (cs : List Char) : Option (Nat × List Char) := do atMost 10 65535 (← char ':' cs)

def scopeOf (cs : List Char) : Option (Nat × List Char) :=
  match char '%' cs with
  | none => some (0, cs)
  | some rest => atMost 10 4294967295 rest

/-- The address that a text gives. -/
def parse? (s : String) : Option Address :=
  let cs := s.toList
  let v4 : Option Address := do
    let (bytes, rest) ← short cs
    let (port, rest) ← portOf rest
    if rest = [] then some ⟨.v4 bytes, port⟩ else none
  let v6 : Option Address := do
    let (groups, rest) ← long (← char '[' cs)
    let (scope, rest) ← scopeOf rest
    let (port, rest) ← portOf (← char ']' rest)
    if rest = [] then some ⟨.v6 groups scope, port⟩ else none
  v4 <|> v6

end Address

end TraceRelay
