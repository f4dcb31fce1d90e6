import TraceRelay.Bytes

/-!
# Bit strings and their codes

A compressed block is read as bits, least first within each byte. A code gives symbols bit
strings of different lengths, none the start of another; it is fixed by the lengths alone.

* `Tree.walk` reads one symbol.
* `Tree.ofLengths?` builds the code, unless the lengths leave strings over or promise too many. A
  code of at most one symbol may leave strings over.
-/

namespace TraceRelay.Deflate

abbrev Bits := List Bool

/-- The eight bits of a byte, least first. -/
def bitsOf (b : UInt8) : Bits := (List.range 8).map fun i => b.toNat.testBit i

/-- The number whose bits are these, least first. -/
def ofBits : Bits → Nat
  | [] => 0
  | b :: rest => b.toNat + 2 * ofBits rest

/-- The number in the next `n` bits, once they are there. -/
def takeBits (n : Nat) (bits : Bits) : Option (Nat × Bits) :=
  if n ≤ bits.length then some (ofBits (bits.take n), bits.drop n) else none

/-- A code as a tree; a leaf holds a symbol. -/
inductive Tree where
  | empty
  | leaf (symbol : Nat)
  | node (zero one : Tree)
  deriving Inhabited, Repr

/-- What the next bits say. -/
inductive Walk where
  | found (symbol : Nat) (rest : Bits)
  /-- The bits end inside a string of the code. -/
  | more
  /-- No string of the code starts so. -/
  | invalid

namespace Tree

def walk : Tree → Bits → Walk
  | leaf symbol, bits => .found symbol bits
  | empty, _ => .invalid
  | node _ _, [] => .more
  | node zero one, b :: bits => if b then one.walk bits else zero.walk bits

def insert : Tree → Bits → Nat → Tree
  | _, [], symbol => leaf symbol
  | node zero one, b :: bits, symbol =>
    if b then node zero (one.insert bits symbol) else node (zero.insert bits symbol) one
  | _, b :: bits, symbol =>
    if b then node empty (empty.insert bits symbol) else node (empty.insert bits symbol) empty

/-- Strings are at most this long. -/
def maxLength : Nat := 15

/-- The `n` low bits of `v`, greatest first. -/
def codeBits (n v : Nat) : Bits := (List.range n).reverse.map fun i => v.testBit i

def countOf (lengths : List Nat) (n : Nat) : Nat := lengths.countP (· == n)

/-- The first string of each length, from the one before. -/
def firstCodes (lengths : List Nat) : Nat → Nat
  | 0 => 0
  | n + 1 => (firstCodes lengths n + if n = 0 then 0 else countOf lengths n) * 2

/-- The part of all strings that the code uses, in units of `2 ^ -16`. -/
def coverage (lengths : List Nat) : Nat :=
  (List.range maxLength).foldl (fun total i =>
    total + countOf lengths (i + 1) * Nat.pow 2 (maxLength - i)) 0

/-- Gives each symbol from `symbol` on the next string of its length. -/
def assign (next : Array Nat) (symbol : Nat) (t : Tree) : List Nat → Tree
  | [] => t
  | 0 :: lengths => assign next (symbol + 1) t lengths
  | n :: lengths =>
    let code := next.getD n 0
    assign (next.setIfInBounds n (code + 1)) (symbol + 1) (t.insert (codeBits n code) symbol) lengths

def ofLengths (lengths : List Nat) : Tree :=
  assign ((Array.range (maxLength + 1)).map (firstCodes lengths)) 0 empty lengths

/-- The code with these lengths. A code that must be whole leaves no string over. -/
def ofLengths? (whole : Bool) (lengths : List Nat) : Option Tree :=
  let used := lengths.countP (· != 0)
  if coverage lengths ≠ Nat.pow 2 (maxLength + 1) ∧ (1 < used ∨ whole) then none
  else some (ofLengths lengths)

end Tree

end TraceRelay.Deflate
