import TraceRelay.Deflate.Inflate
import TraceRelay.Gzip.Header

/-!
# Reading a gzip stream

A stream is a header, compressed data, and a trailer: check and length of the data, modulo
`2 ^ 32`. `Gzip.Decoder` takes a stream byte by byte, so what it has written does not depend on
how the stream was cut into pieces (`feedAll_append`). Nothing may follow the trailer.
-/

namespace TraceRelay.Gzip

def incompleteData : Fault := ⟨.unexpectedEof, "incomplete deflate stream"⟩

/-- Bytes of a trailer. -/
def trailerSize : Nat := 8

/-- The part of a stream that comes next. -/
inductive Part where
  | header (h : Header)
  | data
  /-- A trailer of which these bytes were read. -/
  | trailer (got : Bytes)
  | failed (d : Defect)
  deriving Inhabited

structure Decoder where
  part : Part
  inflate : Deflate.Inflate
  deriving Inhabited

namespace Decoder

def start : Decoder := ⟨.header .start, .start⟩

/-- The decompressed bytes so far. -/
def out (d : Decoder) : Array UInt8 := d.inflate.out

/-- Takes one byte. -/
def feed (d : Decoder) (b : UInt8) : Decoder :=
  match d with
  | ⟨.header h, inflate⟩ =>
    match h.feed b with
    | .error d => ⟨.failed d, inflate⟩
    | .ok h => if h.stage = .complete then ⟨.data, inflate⟩ else ⟨.header h, inflate⟩
  | ⟨.data, inflate⟩ =>
    let inflate := inflate.feed b
    if inflate.isDone then ⟨.trailer [], inflate⟩
    else if inflate.isCorrupt then ⟨.failed .corruptData, inflate⟩
    else ⟨.data, inflate⟩
  | ⟨.trailer got, inflate⟩ =>
    if got.length < trailerSize then ⟨.trailer (got ++ [b]), inflate⟩
    else ⟨.failed .trailing, inflate⟩
  | ⟨.failed d, inflate⟩ => ⟨.failed d, inflate⟩

/-- Takes bytes in order. -/
def feedAll (d : Decoder) (data : Bytes) : Decoder := data.foldl feed d

theorem feedAll_append (d : Decoder) (a b : Bytes) :
    d.feedAll (a ++ b) = (d.feedAll a).feedAll b := by simp [feedAll]

/-- The fault that the bytes so far have shown. -/
def fault? (d : Decoder) : Option Fault :=
  match d.part with
  | .failed defect => some defect.fault
  | _ => none

/-- Whether the trailer is there and agrees with the data. -/
def agrees (d : Decoder) : Bool :=
  match d.part with
  | .trailer got =>
    got.length == trailerSize &&
      Bytes.ofLittleEndian (got.take 4) == (Checksum.ofArray d.out).toNat &&
      Bytes.ofLittleEndian (got.drop 4) == d.out.size % UInt32.size
  | _ => false

end Decoder

end TraceRelay.Gzip
