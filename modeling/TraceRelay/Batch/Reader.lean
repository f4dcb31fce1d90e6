import TraceRelay.Frame
import TraceRelay.Gzip.Reader

/-!
# Batches from a compressed stream, on request

`Batch.Reader` pulls batches from a source that holds a gzip stream of frames. A batch is there as
soon as its frame can be decompressed; the end of the stream is not awaited.
-/

namespace TraceRelay.Batch

structure Reader where
  frames : Frame.Reader Gzip.Reader

namespace Reader

def ofSource (source : Source) : Reader := ⟨.ofSource (.ofSource source)⟩

def withLimit (r : Reader) (limit : Nat) : Reader := ⟨{ r.frames with limit }⟩

/-- The next batch; none at the end of the stream. -/
def next (r : Reader) : Except DecodeFailure (Option Batch) × Reader :=
  match r.frames.next with
  | (.error e, frames) => (.error e, ⟨frames⟩)
  | (.ok none, frames) => (.ok none, ⟨frames⟩)
  | (.ok (some frame), frames) =>
    match Batch.decode frame with
    | .error f => (.error (.message f), ⟨frames⟩)
    | .ok batch => (.ok (some batch), ⟨frames⟩)

/-- The next batch with its events read. -/
def nextEvents (α : Type) [Message α] (r : Reader) :
    Except DecodeFailure (Option (List α)) × Reader :=
  match r.next with
  | (.error e, r) => (.error e, r)
  | (.ok none, r) => (.ok none, r)
  | (.ok (some batch), r) =>
    match batch.events (α := α) with
    | .error f => (.error (.message f), r)
    | .ok events => (.ok (some events), r)

/-- The next batches up to the end or a failure; `fuel` bounds their number. -/
def nextAll (r : Reader) : (fuel : Nat) → List Batch × Except DecodeFailure Unit
  | 0 => ([], .ok ())
  | fuel + 1 =>
    match r.next with
    | (.error e, _) => ([], .error e)
    | (.ok none, _) => ([], .ok ())
    | (.ok (some batch), r) =>
      let (batches, last) := r.nextAll fuel
      (batch :: batches, last)

end Reader

end TraceRelay.Batch
