import TraceRelay.Gzip.Decoder

/-!
# Writing a gzip stream

An `Encoder` takes data piece by piece and gives, for each, bytes from which a reader can decompress
all of it at once. How data is compressed is up to a `Method`.

`Method.stored` puts data into stored blocks. After each piece an empty stored block brings the
stream to a byte boundary. The header notes the compression level that was asked for.
-/

namespace TraceRelay.Gzip

/-- A stored block holds at most this many bytes. -/
def maxStored : Nat := 65535

/-- One stored block. -/
def storedBlock (last : Bool) (data : Bytes) : Bytes :=
  (if last then 1 else 0) :: Bytes.littleEndian 2 data.length ++
    Bytes.littleEndian 2 (65535 - data.length) ++ data

/-- Stored blocks that hold `data`, none of them the last. -/
def storedBlocks (data : Bytes) : Bytes :=
  if data.length ≤ maxStored then
    if data = [] then [] else storedBlock false data
  else storedBlock false (data.take maxStored) ++ storedBlocks (data.drop maxStored)
termination_by data.length
decreasing_by simp [maxStored] at *; omega

/-- The mark of a level in the header. -/
def levelMark (level : Nat) : UInt8 := if 9 ≤ level then 2 else if level ≤ 1 then 4 else 0

/-- A header without optional fields. -/
def plainHeader (level : Nat) : Bytes := [0x1f, 0x8b, 8, 0, 0, 0, 0, 0, levelMark level, 0xff]

/-- A way to compress: what a stream gains by a piece of data, up to where a reader can decompress
all of that piece, and what completes a stream. Both go by the pieces that came before. -/
structure Method where
  emit : (level : Nat) → (before : List Bytes) → (piece : Bytes) → Bytes
  complete : (level : Nat) → (pieces : List Bytes) → Bytes
  deriving Inhabited

namespace Method

/-- The header, if it is still to come. -/
def opening (level : Nat) (before : List Bytes) : Bytes :=
  if before.isEmpty then plainHeader level else []

/-- Everything in stored blocks. -/
def stored : Method where
  emit level before piece := opening level before ++ storedBlocks piece ++ storedBlock false []
  complete level pieces :=
    let data := pieces.flatten
    opening level pieces ++ storedBlock true [] ++
      Bytes.littleEndian 4 (Checksum.ofBytes data).toNat ++ Bytes.littleEndian 4 data.length

end Method

/-- A stream being written, and the pieces in it so far. -/
structure Encoder where
  method : Method
  level : Nat
  pieces : List Bytes
  deriving Inhabited

namespace Encoder

def start (method : Method) (level : Nat) : Encoder := ⟨method, level, []⟩

/-- Takes a piece of data and gives all bytes up to where it can be read in full. -/
def flush (e : Encoder) (data : Bytes) : Encoder × Bytes :=
  ({ e with pieces := e.pieces ++ [data] }, e.method.emit e.level e.pieces data)

/-- The end of the stream. -/
def finish (e : Encoder) : Bytes := e.method.complete e.level e.pieces

end Encoder

end TraceRelay.Gzip
