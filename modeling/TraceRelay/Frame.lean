import TraceRelay.Batch
import TraceRelay.Encoding
import TraceRelay.Source

/-!
# Length-delimited frames

A frame is a length, as a base-128 number, and that many bytes. A trace file is a run of frames,
one event each; a remote stream, decompressed, is a run of frames, one batch each.

* `Frame.peek` looks for a length at the front of bytes that are there already.
* `Frame.Reader.next` reads a frame from a source, byte by byte up to the end of its length.

A length has at most ten bytes. The tenth can only add the highest bit of a word; what it holds
beyond that is not looked at. A read that was interrupted is tried again, in a length as in what
follows it.
-/

namespace TraceRelay

/-- Frames are at most this long unless a reader is told otherwise: 16 MiB. -/
def Frame.defaultLimit : Nat := 16 * 1024 * 1024

/-- Why a frame, or what is in it, could not be read. -/
inductive DecodeFailure where
  | io (f : Fault)
  | frameTooLarge (len max : Nat)
  | invalidLength
  | truncated
  | message (f : Wire.Failure)
  deriving DecidableEq, Repr

namespace DecodeFailure

def kind : DecodeFailure → String
  | io f => s!"Io:{f.kind.name}"
  | frameTooLarge _ _ => "FrameTooLarge"
  | invalidLength => "InvalidLength"
  | truncated => "Truncated"
  | message _ => "Protobuf"

def text : DecodeFailure → String
  | io f => s!"I/O error: {f.text}"
  | frameTooLarge len max => s!"frame of {len} bytes exceeds limit of {max}"
  | invalidLength => "malformed length prefix"
  | truncated => "stream ended inside a frame"
  | message f => s!"protobuf decoding failed: {f.message}"

end DecodeFailure

namespace Frame

/-- A length has at most this many bytes. -/
def maxPrefix : Nat := 10

/-- The worth of `b` as byte number `place` of a length, in a word. -/
def digit (place : Nat) (b : UInt8) : Nat := b.toNat % 128 * Nat.pow 128 place % UInt64.size

/-- What is known of the length at the front of some bytes. -/
inductive Length where
  | found (len size : Nat)
  | incomplete
  | malformed
  deriving DecidableEq, Repr

def peekAt (place value : Nat) : Bytes → Length
  | [] => if place < maxPrefix then .incomplete else .malformed
  | b :: rest =>
    if maxPrefix ≤ place then .malformed
    else if b.toNat < 128 then .found (value + digit place b) (place + 1)
    else peekAt (place + 1) (value + digit place b) rest

/-- The length at the front of `data` and the bytes it takes. -/
def peek (data : Bytes) : Length := peekAt 0 0 data

/-- Reads frames of at most `limit` bytes from a source. -/
structure Reader (σ : Type) where
  source : σ
  limit : Nat

namespace Reader

variable {σ : Type} [ByteSource σ]

def ofSource (source : σ) : Reader σ := ⟨source, defaultLimit⟩

/-- Goes on with a length of which `place` bytes, worth `value`, were read; none at the end. -/
def readLength (source : σ) (place value : Nat) : Except DecodeFailure (Option Nat) × σ :=
  if place < maxPrefix then
    match ByteSource.readPatiently source 1 with
    | (.error f, source) => (.error (.io f), source)
    | (.ok [], source) => (if place = 0 then .ok none else .error .truncated, source)
    | (.ok (b :: _), source) =>
      if b.toNat < 128 then (.ok (some (value + digit place b)), source)
      else readLength source (place + 1) (value + digit place b)
  else (.error .invalidLength, source)
termination_by maxPrefix - place

/-- The next frame; none if the source ends between frames. -/
def next (r : Reader σ) : Except DecodeFailure (Option Bytes) × Reader σ :=
  match readLength r.source 0 0 with
  | (.error e, source) => (.error e, { r with source })
  | (.ok none, source) => (.ok none, { r with source })
  | (.ok (some len), source) =>
    if r.limit < len then (.error (.frameTooLarge len r.limit), { r with source })
    else match ByteSource.readExact ByteSource.readPatiently source len [] with
      | (.full body, source) => (.ok (some body), { r with source })
      | (.short _, source) => (.error .truncated, { r with source })
      | (.failed f, source) =>
        (.error (if f.kind = .unexpectedEof then .truncated else .io f), { r with source })

/-- The next frames up to the end or a failure; `fuel` bounds their number. -/
def nextAll (r : Reader σ) (fuel : Nat) : List Bytes × Except DecodeFailure Unit :=
  match fuel with
  | 0 => ([], .ok ())
  | fuel + 1 =>
    match r.next with
    | (.error e, _) => ([], .error e)
    | (.ok none, _) => ([], .ok ())
    | (.ok (some frame), r) =>
      let (frames, last) := r.nextAll fuel
      (frame :: frames, last)

end Reader

/-- Every event of a trace file. The first frame or event that cannot be read is the answer. -/
def readEvents {α : Type} [Message α] (file : Bytes) : Except DecodeFailure (List α) :=
  let (frames, last) := (Reader.ofSource (Source.ofBytes file)).nextAll (file.length + 1)
  match frames.mapM (Message.decode (α := α)) with
  | .error f => .error (.message f)
  | .ok events => last.map fun _ => events

end Frame

end TraceRelay
