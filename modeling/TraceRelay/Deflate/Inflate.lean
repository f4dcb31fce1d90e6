import TraceRelay.Deflate.Code

/-!
# Decompression

Compressed data is a sequence of tokens: bytes, and copies of what was written before. `Cursor` reads
tokens off the bits, `Inflate` writes what they stand for. It takes the data byte by byte, and after
each byte it has written all that the bytes so far determine, so what it has written does not depend
on how they were cut into pieces (`Inflate.feedAll_append`).

Every step uses at least one bit; `settle` steps until the bits at hand do not suffice. A bit
string outside an incomplete code is told from a string not yet complete once fifteen bits are
there. A copy that reaches back beyond the start finds zeros.
-/

namespace TraceRelay.Deflate

/-- What the next bits are. -/
inductive Phase where
  /-- The start of a block. -/
  | block
  /-- The length of a stored block, twice. -/
  | storedLength
  | stored (left : Nat)
  /-- The sizes of a block's own codes. -/
  | codeSizes
  /-- Lengths of the code of lengths, `left` to come, in order of appearance. -/
  | metaLengths (literals distances left : Nat) (lengths : Array Nat)
  /-- Lengths of the block's own codes. -/
  | lengths (code : Tree) (literals distances : Nat) (lengths : Array Nat)
  /-- How often to repeat a length. -/
  | repetition (code : Tree) (literals distances : Nat) (lengths : Array Nat)
      (length base extra : Nat)
  | symbol (literal distance : Tree)
  | copyLength (literal distance : Tree) (base extra : Nat)
  | copyDistance (literal distance : Tree) (length : Nat)
  | copyDistanceExtra (literal distance : Tree) (length base extra : Nat)
  /-- The last block has ended. -/
  | done
  /-- No stream continues so. -/
  | corrupt
  deriving Inhabited

/-- Where a stream has got to: the bits at hand, whether the block is the last, what comes next. -/
structure Cursor where
  bits : Bits
  last : Bool
  phase : Phase
  deriving Inhabited

/-- What a step has read. -/
inductive Token where
  /-- Nothing that writes. -/
  | none
  | byte (b : UInt8)
  /-- `length` bytes, each a copy of the one `distance` back. -/
  | copy (length distance : Nat)

namespace Cursor

/-! ## Tables -/

/-- The order in which the lengths of the code of lengths appear. -/
def metaOrder : List Nat := [16, 17, 18, 0, 8, 7, 9, 6, 10, 5, 11, 4, 12, 3, 13, 2, 14, 1, 15]

/-- Least length and extra bits of a length symbol, counted from 257. -/
def lengthTable : Array (Nat × Nat) :=
  #[(3, 0), (4, 0), (5, 0), (6, 0), (7, 0), (8, 0), (9, 0), (10, 0), (11, 1), (13, 1), (15, 1),
    (17, 1), (19, 2), (23, 2), (27, 2), (31, 2), (35, 3), (43, 3), (51, 3), (59, 3), (67, 4),
    (83, 4), (99, 4), (115, 4), (131, 5), (163, 5), (195, 5), (227, 5), (258, 0)]

/-- Least distance and extra bits of a distance symbol. -/
def distanceTable : Array (Nat × Nat) :=
  #[(1, 0), (2, 0), (3, 0), (4, 0), (5, 1), (7, 1), (9, 2), (13, 2), (17, 3), (25, 3), (33, 4),
    (49, 4), (65, 5), (97, 5), (129, 6), (193, 6), (257, 7), (385, 7), (513, 8), (769, 8),
    (1025, 9), (1537, 9), (2049, 10), (3073, 10), (4097, 11), (6145, 11), (8193, 12), (12289, 12),
    (16385, 13), (24577, 13)]

/-- The literal code of a block that brings none. -/
def fixedLiterals : Tree :=
  Tree.ofLengths (List.replicate 144 8 ++ List.replicate 112 9 ++ List.replicate 24 7 ++
    List.replicate 8 8)

/-- The distance code of a block that brings none. -/
def fixedDistances : Tree := Tree.ofLengths (List.replicate 32 5)

/-! ## Steps -/

def fail (s : Cursor) : Option (Cursor × Token) :=
  some ({ s with bits := [], phase := .corrupt }, .none)

/-- Goes on with `phase`. -/
def expect (s : Cursor) (bits : Bits) (phase : Phase) : Option (Cursor × Token) :=
  some ({ s with bits, phase }, .none)

/-- The block is over; after the last one the rest of the byte is padding. -/
def endBlock (s : Cursor) (bits : Bits) : Cursor :=
  if s.last then { s with bits := [], phase := .done } else { s with bits, phase := .block }

/-- What the bits say about the next symbol. -/
inductive Next where
  | symbol (n : Nat) (rest : Bits)
  | wait
  | corrupt

/-- The next symbol of `code`; corrupt once no symbol can come of the bits. -/
def takeSymbol (code : Tree) (bits : Bits) : Next :=
  match code.walk bits with
  | .found n rest => .symbol n rest
  | .more => .wait
  | .invalid => if Tree.maxLength ≤ bits.length then .corrupt else .wait

/-- All lengths of the block's codes are there. -/
def endLengths (s : Cursor) (bits : Bits) (literals distances : Nat) (lengths : Array Nat) :
    Option (Cursor × Token) :=
  if lengths.size < literals + distances then none
  else if literals + distances < lengths.size then s.fail
  else
    match Tree.ofLengths? false (lengths.toList.drop literals),
      Tree.ofLengths? false (lengths.toList.take literals) with
    | some distance, some literal => s.expect bits (.symbol literal distance)
    | _, _ => s.fail

/-- Goes on with the lengths of the block's codes. -/
def addLengths (s : Cursor) (bits : Bits) (code : Tree) (literals distances : Nat)
    (lengths : Array Nat) : Option (Cursor × Token) :=
  if lengths.size < literals + distances then
    s.expect bits (.lengths code literals distances lengths)
  else s.endLengths bits literals distances lengths

/-- The lengths of the code of lengths by symbol, from those that appeared. -/
def metaBySymbol (lengths : Array Nat) : List Nat :=
  (List.range 19).map fun symbol =>
    match (metaOrder.zip lengths.toList).find? (·.1 == symbol) with
    | some (_, n) => n
    | none => 0

/-- Copies and goes on with the next symbol. -/
def copyMatch (s : Cursor) (bits : Bits) (literal distance : Tree) (length back : Nat) :
    Option (Cursor × Token) :=
  some ({ s with bits, phase := .symbol literal distance }, .copy length back)

/-- One step; none while more bits are needed. -/
def step (s : Cursor) : Option (Cursor × Token) :=
  match s.phase with
  | .done | .corrupt => none
  | .block => do
    let (header, rest) ← takeBits 3 s.bits
    let s := { s with last := header % 2 == 1 }
    match header / 2 with
    | 0 => s.expect (rest.drop (rest.length % 8)) .storedLength
    | 1 => s.expect rest (.symbol fixedLiterals fixedDistances)
    | 2 => s.expect rest .codeSizes
    | _ => s.fail
  | .storedLength => do
    let (both, rest) ← takeBits 32 s.bits
    let length := both % 65536
    if both / 65536 + length ≠ 65535 then s.fail
    else if length = 0 then some (s.endBlock rest, .none)
    else s.expect rest (.stored length)
  | .stored left => do
    let (b, rest) ← takeBits 8 s.bits
    let after := if left ≤ 1 then s.endBlock rest
      else { s with bits := rest, phase := .stored (left - 1) }
    some (after, .byte b.toUInt8)
  | .codeSizes => do
    let (sizes, rest) ← takeBits 14 s.bits
    let literals := sizes % 32 + 257
    let distances := sizes / 32 % 32 + 1
    if 286 < literals ∨ 30 < distances then s.fail
    else s.expect rest (.metaLengths literals distances (sizes / 1024 + 4) #[])
  | .metaLengths literals distances left lengths => do
    let (n, rest) ← takeBits 3 s.bits
    let lengths := lengths.push n
    if 1 < left then
      s.expect rest (.metaLengths literals distances (left - 1) lengths)
    else match Tree.ofLengths? true (metaBySymbol lengths) with
      | none => s.fail
      | some code => s.expect rest (.lengths code literals distances #[])
  | .lengths code literals distances lengths =>
    match takeSymbol code s.bits with
    | .wait => none
    | .corrupt => s.fail
    | .symbol symbol rest =>
      if symbol < 16 then s.addLengths rest code literals distances (lengths.push symbol)
      else if symbol = 16 then
        match lengths.back? with
        | none => s.fail
        | some n =>
          s.expect rest (.repetition code literals distances lengths n 3 2)
      else if symbol = 17 then
        s.expect rest (.repetition code literals distances lengths 0 3 3)
      else
        s.expect rest (.repetition code literals distances lengths 0 11 7)
  | .repetition code literals distances lengths n base extra => do
    let (more, rest) ← takeBits extra s.bits
    s.addLengths rest code literals distances (lengths ++ Array.replicate (base + more) n)
  | .symbol literal distance =>
    match takeSymbol literal s.bits with
    | .wait => none
    | .corrupt => s.fail
    | .symbol symbol rest =>
      if symbol < 256 then some ({ s with bits := rest }, .byte symbol.toUInt8)
      else if symbol = 256 then some (s.endBlock rest, .none)
      else match lengthTable[symbol - 257]? with
        | none => s.fail
        | some (length, 0) =>
          s.expect rest (.copyDistance literal distance length)
        | some (base, extra) =>
          s.expect rest (.copyLength literal distance base extra)
  | .copyLength literal distance base extra => do
    let (more, rest) ← takeBits extra s.bits
    s.expect rest (.copyDistance literal distance (base + more))
  | .copyDistance literal distance length =>
    match takeSymbol distance s.bits with
    | .wait => none
    | .corrupt => s.fail
    | .symbol symbol rest =>
      match distanceTable[symbol]? with
      | none => s.fail
      | some (back, 0) => s.copyMatch rest literal distance length back
      | some (base, extra) =>
        s.expect rest (.copyDistanceExtra literal distance length base extra)
  | .copyDistanceExtra literal distance length base extra => do
    let (more, rest) ← takeBits extra s.bits
    s.copyMatch rest literal distance length (base + more)

end Cursor

/-- A stream being read, and what it has written. -/
structure Inflate where
  cursor : Cursor
  out : Array UInt8
  deriving Inhabited

namespace Inflate

def start : Inflate := ⟨⟨[], false, .block⟩, #[]⟩

def isDone (s : Inflate) : Bool := s.cursor.phase matches .done

def isCorrupt (s : Inflate) : Bool := s.cursor.phase matches .corrupt

/-- Appends `length` bytes, each a copy of the one `distance` back. -/
def copy (out : Array UInt8) (distance : Nat) : Nat → Array UInt8
  | 0 => out
  | length + 1 =>
    copy (out.push (if distance ≤ out.size then out.getD (out.size - distance) 0 else 0))
      distance length

/-- Writes what a token stands for. -/
def write (out : Array UInt8) : Token → Array UInt8
  | .none => out
  | .byte b => out.push b
  | .copy length distance => copy out distance length

/-- Up to `fuel` steps. -/
def settle : Nat → Cursor → Array UInt8 → Inflate
  | 0, cursor, out => ⟨cursor, out⟩
  | fuel + 1, cursor, out =>
    match cursor.step with
    | none => ⟨cursor, out⟩
    | some (cursor, token) => settle fuel cursor (write out token)

/-- Takes one byte. A stream that is over or corrupt takes no more. -/
def feed : Inflate → UInt8 → Inflate
  | ⟨⟨bits, last, .done⟩, out⟩, _ => ⟨⟨bits, last, .done⟩, out⟩
  | ⟨⟨bits, last, .corrupt⟩, out⟩, _ => ⟨⟨bits, last, .corrupt⟩, out⟩
  | ⟨⟨bits, last, phase⟩, out⟩, b =>
    let bits := bits ++ bitsOf b
    settle bits.length ⟨bits, last, phase⟩ out

/-- Takes bytes in order. -/
def feedAll (s : Inflate) (data : Bytes) : Inflate := data.foldl feed s

theorem feedAll_append (s : Inflate) (a b : Bytes) :
    s.feedAll (a ++ b) = (s.feedAll a).feedAll b := by simp [feedAll]

end Inflate

end TraceRelay.Deflate
