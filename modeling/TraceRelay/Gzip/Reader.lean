import TraceRelay.Gzip.Decoder
import TraceRelay.Source

/-!
# Decompressing a source on request

`Gzip.Reader` reads compressed bytes from a source in chunks and hands out what they decompress to.
Every request looks for a chunk first, even while decompressed bytes are waiting, so a fault of
the source comes before them.

A chunk is decompressed in runs that end at multiples of the window size. What a run that proves
corrupt has decompressed is lost; what earlier runs gave has been handed out.
-/

namespace TraceRelay.Gzip

/-- Bytes asked of the source at a time. -/
def chunkSize : Nat := 32768

/-- Runs of decompression end at multiples of this. -/
def windowSize : Nat := 32768

structure Reader where
  source : Source
  /-- Bytes from the source that are still compressed. -/
  chunk : Bytes
  decoder : Decoder
  /-- Decompressed bytes of finished runs, from the start. -/
  ready : Nat
  /-- Of these, the ones handed out. -/
  given : Nat

namespace Reader

def ofSource (source : Source) : Reader := ⟨source, [], .start, 0, 0⟩

/-- Looks for a chunk in the given way, unless one is there. At the end there is none. -/
def refill (read : Source → Nat → Except Fault Bytes × Source) (r : Reader) :
    Except Fault Unit × Reader :=
  match r.chunk with
  | [] =>
    match read r.source chunkSize with
    | (.error f, source) => (.error f, { r with source })
    | (.ok chunk, source) => (.ok (), { r with source, chunk })
  | _ => (.ok (), r)

/-- Feeds the next byte of the chunk and says whether there was one. -/
def feedNext (r : Reader) : Except Fault Bool × Reader :=
  match r.refill ByteSource.readPatiently with
  | (.error f, r) => (.error f, r)
  | (.ok (), r) =>
    match r.chunk with
    | [] => (.ok false, r)
    | b :: chunk => (.ok true, { r with chunk, decoder := r.decoder.feed b })

/-- Decompresses until the chunk is used up, more than `limit` bytes are there, or the data is
over. -/
def runTo (limit : Nat) (d : Decoder) : Bytes → Decoder × Bytes
  | [] => (d, [])
  | b :: rest =>
    match d.part with
    | .data => if limit < d.out.size then (d, b :: rest) else runTo limit (d.feed b) rest
    | _ => (d, b :: rest)

/-- Where the next run ends. -/
def limit (r : Reader) : Nat := (r.ready / windowSize + 1) * windowSize

/-- One run over the chunk; its bytes become ready unless it proves the data corrupt. -/
def run (r : Reader) : Except Defect Reader :=
  let (decoder, chunk) := runTo r.limit r.decoder r.chunk
  let ready := min decoder.out.size r.limit
  match decoder.part with
  | .failed d =>
    if decoder.out.size ≤ r.limit then .error d else .ok { r with decoder, chunk, ready }
  | _ => .ok { r with decoder, chunk, ready }

/-- Hands out at most `want` of the bytes that are ready. -/
def hand (r : Reader) (want : Nat) : Except Fault Bytes × Reader :=
  let n := min want (r.ready - r.given)
  (.ok (r.decoder.out.extract r.given (r.given + n)).toList, { r with given := r.given + n })

/-- Whether all that was decompressed has been handed out. -/
def isDrained (r : Reader) : Bool := r.given == r.decoder.out.size

/-- Goes on until it can hand something out; `fuel` bounds the rounds. -/
def readWith (want : Nat) : Nat → Reader → Except Fault Bytes × Reader
  | 0, r => (.ok [], r)
  | fuel + 1, r =>
    match r.decoder.part, r.isDrained with
    | .header _, _ =>
      match r.feedNext with
      | (.error f, r) => (.error f, r)
      | (.ok false, r) => (.error .unexpectedEof, r)
      | (.ok true, r) =>
        match r.decoder.part with
        | .failed d => (.error d.fault, r)
        | _ => readWith want fuel r
    | .trailer got, true =>
      if got.length = trailerSize then
        (if r.decoder.agrees then .ok [] else .error Defect.mismatch.fault, r)
      else
        match r.feedNext with
        | (.error f, r) => (.error f, r)
        | (.ok false, r) => (.error .unexpectedEof, r)
        | (.ok true, r) => readWith want fuel r
    | _, _ =>
      match r.refill ByteSource.read with
      | (.error f, r) => (.error f, r)
      | (.ok (), r) =>
        if r.given < r.ready then r.hand want
        else
          match r.run with
          | .error d => (.error d.fault, r)
          | .ok after =>
            if after.given < after.ready then after.hand want
            else
              match after.decoder.part with
              | .data =>
                if r.chunk = [] then (.error incompleteData, after) else readWith want fuel after
              | _ => readWith want fuel after

/-- Compressed bytes that may still come. -/
def remaining (r : Reader) : Nat := r.chunk.length + r.source.data.length

def read (r : Reader) (want : Nat) : Except Fault Bytes × Reader :=
  readWith want (r.remaining + 2) r

/-! ## Interruptions

A reader is interrupted only where its source is, so not more often. -/

/-- A step with this outcome has left so many interruptions, its own included. -/
def Spends {α : Type} (n : Nat) (outcome : Except Fault α × Reader) : Prop :=
  outcome.2.source.interruptions + (isInterrupted outcome.1).toNat ≤ n

namespace Spends

variable {α β : Type} {n : Nat} {a : Except Fault α} {b : Except Fault β} {r r' : Reader}

/-- What then reads nothing more answers for itself. -/
theorem answer (h : Spends n (a, r)) (hsource : r'.source = r.source)
    (hb : isInterrupted b = false) : Spends n (b, r') := by
  simp only [Spends, hsource, hb, Bool.toNat_false] at *
  omega

theorem trans {outcome : Except Fault β × Reader} (h : Spends n (a, r))
    (hnext : Spends r.source.interruptions outcome) : Spends n outcome :=
  Nat.le_trans hnext (Nat.le_of_add_right_le h)

end Spends

theorem spends_refill {read : Source → Nat → Except Fault Bytes × Source} {r : Reader}
    (h : (read r.source chunkSize).2.interruptions +
      (isInterrupted (read r.source chunkSize).1).toNat ≤ r.source.interruptions) :
    Spends r.source.interruptions (r.refill read) := by
  unfold refill
  split
  · split
    · next hread => rwa [hread] at h
    · next hread => rwa [hread] at h
  · exact Nat.le_refl _

theorem spends_feedNext (r : Reader) : Spends r.source.interruptions r.feedNext := by
  have h : Spends r.source.interruptions (r.refill ByteSource.readPatiently) :=
    spends_refill (by
      rw [ByteSource.isInterrupted_readPatiently]
      exact ByteSource.interruptions_readPatiently r.source chunkSize)
  unfold feedNext
  split
  · next hrefill => rwa [hrefill] at h
  · next hrefill =>
    rw [hrefill] at h
    split <;> exact h

theorem source_run {r after : Reader} (h : r.run = .ok after) : after.source = r.source := by
  unfold run at h
  dsimp only at h
  split at h
  · by_cases hsize : (runTo r.limit r.decoder r.chunk).1.out.size ≤ r.limit
    · rw [if_pos hsize] at h; cases h
    · rw [if_neg hsize] at h; cases h; rfl
  · cases h; rfl

theorem spends_readWith (want fuel : Nat) (r : Reader) :
    Spends r.source.interruptions (readWith want fuel r) := by
  have hfeed {r r' : Reader} {a} (h : r.feedNext = (a, r')) :
      Spends r.source.interruptions (a, r') := h ▸ spends_feedNext r
  have hrefill {r r' : Reader} {a} (h : r.refill ByteSource.read = (a, r')) :
      Spends r.source.interruptions (a, r') := h ▸ spends_refill (Source.interruptions_read _ _)
  fun_induction readWith want fuel r with
  | case1 r => exact Nat.le_refl _
  -- the header
  | case2 fuel r _ _ f r' hnext => exact hfeed hnext
  | case3 fuel r _ _ r' hnext => exact (hfeed hnext).answer rfl rfl
  | case4 fuel r _ _ r' hnext d _ => exact (hfeed hnext).answer rfl d.isInterrupted_fault
  | case5 fuel r _ _ r' hnext _ ih => exact (hfeed hnext).trans ih
  -- the trailer
  | case6 fuel r _ _ _ _ => split <;> exact Nat.le_refl _
  | case7 fuel r _ _ _ _ f r' hnext => exact hfeed hnext
  | case8 fuel r _ _ _ _ r' hnext => exact (hfeed hnext).answer rfl rfl
  | case9 fuel r _ _ _ _ r' hnext ih => exact (hfeed hnext).trans ih
  -- the data
  | case10 fuel r f r' hchunk _ _ => exact hrefill hchunk
  | case11 fuel r r' hchunk _ _ _ => exact (hrefill hchunk).answer rfl rfl
  | case12 fuel r r' hchunk _ d _ _ _ => exact (hrefill hchunk).answer rfl d.isInterrupted_fault
  | case13 fuel r r' hchunk _ after hrun _ _ _ =>
    have hsource := source_run hrun
    exact (hrefill hchunk).answer hsource rfl
  | case14 fuel r r' hchunk _ after hrun _ _ _ _ _ =>
    exact (hrefill hchunk).answer (source_run hrun) rfl
  | case15 fuel r r' hchunk _ after hrun _ _ _ _ _ ih =>
    exact (hrefill hchunk).trans (source_run hrun ▸ ih)
  | case16 fuel r r' hchunk _ after hrun _ _ _ _ ih =>
    exact (hrefill hchunk).trans (source_run hrun ▸ ih)

instance : ByteSource Reader :=
  ⟨read, fun r => r.source.interruptions, fun r want => spends_readWith want _ r⟩

end Reader

end TraceRelay.Gzip
