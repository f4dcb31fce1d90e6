import TraceRelay.Frame
import TraceRelay.Gzip.Decoder

/-!
# Batches from a compressed stream, as it arrives

`Batch.Decoder` is fed the bytes of a gzip stream of frames in whatever pieces they arrive, and
gives the batches that they complete. `finish` checks that the stream ended where it may.
-/

namespace TraceRelay.Batch

structure Decoder where
  gzip : Gzip.Decoder
  /-- Decompressed bytes, from the first that was not given at the last feed. -/
  held : Array UInt8
  /-- Bytes of `held` that were given since. -/
  consumed : Nat
  limit : Nat
  deriving Inhabited

namespace Decoder

def start : Decoder := ⟨.start, #[], 0, Frame.defaultLimit⟩

def withLimit (d : Decoder) (limit : Nat) : Decoder := { d with limit }

/-- Lets go of the bytes that were given. -/
def compact (d : Decoder) : Decoder :=
  if 0 < d.consumed then { d with held := d.held.extract d.consumed, consumed := 0 } else d

/-- Takes a piece of the stream. -/
def feed (d : Decoder) (data : Bytes) : Except DecodeFailure Unit × Decoder :=
  match d.compact with
  | ⟨gzip, held, consumed, limit⟩ =>
    let before := gzip.out.size
    let gzip := gzip.feedAll data
    let held := held ++ gzip.out.extract before
    (match gzip.fault? with
      | some f => .error (.io f)
      | none => .ok (),
      ⟨gzip, held, consumed, limit⟩)

/-- The bytes that are there but were not given. -/
def pending (d : Decoder) : Bytes := (d.held.extract d.consumed).toList

/-- The next batch that the bytes so far complete. -/
def next (d : Decoder) : Except DecodeFailure (Option Batch) × Decoder :=
  match Frame.peek (d.held.extract d.consumed (d.consumed + Frame.maxPrefix)).toList with
  | .malformed => (.error .invalidLength, d)
  | .incomplete => (.ok none, d)
  | .found len size =>
    if d.limit < len then (.error (.frameTooLarge len d.limit), d)
    else if d.held.size - d.consumed - size < len then (.ok none, d)
    else
      let body := (d.held.extract (d.consumed + size) (d.consumed + size + len)).toList
      match Batch.decode body with
      | .error f => (.error (.message f), d)
      | .ok batch => (.ok (some batch), { d with consumed := d.consumed + size + len })

/-- Every batch that the bytes so far complete, up to a failure; `fuel` bounds their number. -/
def drainWith : Nat → Decoder → List Batch × Except DecodeFailure Unit × Decoder
  | 0, d => ([], .ok (), d)
  | fuel + 1, d =>
    match d.next with
    | (.error e, d) => ([], .error e, d)
    | (.ok none, d) => ([], .ok (), d)
    | (.ok (some batch), d) =>
      let (batches, last, d) := drainWith fuel d
      (batch :: batches, last, d)

/-- Every batch that the bytes so far complete, up to a failure. A batch takes a byte at least. -/
def drain (d : Decoder) : List Batch × Except DecodeFailure Unit × Decoder :=
  drainWith (d.held.size - d.consumed + 1) d

/-- Feeds the pieces of a stream in turn and drains after each, up to a failure: what came out, with
the number of its piece. -/
def feedPieces (d : Decoder) (i : Nat) : List Bytes → List (Nat × Except DecodeFailure Batch) × Decoder
  | [] => ([], d)
  | piece :: pieces =>
    match d.feed piece with
    | (.error e, d) => ([(i, .error e)], d)
    | (.ok (), d) =>
      let (batches, last, d) := d.drain
      let out := batches.map fun b => (i, Except.ok b)
      match last with
      | .error e => (out ++ [(i, .error e)], d)
      | .ok () =>
        let (more, d) := d.feedPieces (i + 1) pieces
        (out ++ more, d)

/-- The end of the stream: the trailer must be there and agree, and no frame may be cut short. -/
def finish (d : Decoder) : Except DecodeFailure Unit :=
  if d.gzip.agrees then
    if d.consumed < d.held.size then .error .truncated else .ok ()
  else .error (.io (d.gzip.fault?.getD Gzip.Defect.mismatch.fault))

end Decoder

/-! ## What a stream carries -/

/-- How the bytes of a stream end. -/
inductive StreamEnd where
  | empty
  /-- Before the stream is complete. -/
  | cut
  | clean
  deriving DecidableEq, Repr

/-- The batches that the bytes of a stream complete, and how the bytes end. -/
def ofStream (data : Bytes) : List Batch × StreamEnd :=
  let (fed, d) := Decoder.start.feed data
  let (batches, _, d) := d.drain
  (batches,
    if data.isEmpty then .empty
    else match fed, d.finish with
    | .ok (), .ok () => .clean
    | _, _ => .cut)

end TraceRelay.Batch
