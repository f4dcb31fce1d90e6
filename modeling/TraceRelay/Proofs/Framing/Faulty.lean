import TraceRelay.Proofs.Framing.Incremental

/-!
# A stream that goes bad

A decoder decompresses a whole piece before it gives a batch out of it, and gives none out of a piece
in which it comes upon a fault. What a stream that goes bad is good for depends on where it is cut.

1. `soundPieces`: the pieces before the first that shows a fault. Without a fault it is all of them.
2. `Scanned`: the batches that were given, and those that are still to come out of the bytes that are
   held, are those of everything that was decompressed. Taking a piece and giving a batch keep this.
-/

namespace TraceRelay.Batch.Decoder

/-! ## Sound pieces -/

/-- The pieces before the first in which the stream goes bad. -/
def soundPieces (g : Gzip.Decoder) : List Bytes → List Bytes
  | [] => []
  | p :: ps =>
    if (g.feedAll p).fault?.isNone then p :: soundPieces (g.feedAll p) ps else []

variable {g : Gzip.Decoder} {p : Bytes} {ps : List Bytes}

theorem soundPieces_append (h : (g.feedAll ps.flatten).fault? = none) (qs : List Bytes) :
    soundPieces g (ps ++ qs) = ps ++ soundPieces (g.feedAll ps.flatten) qs := by
  induction ps generalizing g with
  | nil => rfl
  | cons p ps ih =>
    rw [List.flatten_cons] at h ⊢
    have hfirst : (g.feedAll p).fault? = none := Gzip.Decoder.fault?_of_append h
    rw [Gzip.Decoder.feedAll_append] at h ⊢
    rw [List.cons_append, soundPieces, hfirst, ih h]
    rfl

/-- A stream that shows no fault may be cut anywhere. -/
theorem soundPieces_of_sound (h : (g.feedAll ps.flatten).fault? = none) : soundPieces g ps = ps := by
  have := soundPieces_append h []
  rwa [List.append_nil, soundPieces, List.append_nil] at this

theorem soundPieces_of_fault (h : (g.feedAll p).fault? ≠ none) (ps : List Bytes) :
    soundPieces g (p :: ps) = [] := by
  rw [soundPieces, if_neg fun hnone => h (Option.isNone_iff_eq_none.mp hnone)]

/-- The batches of what the sound pieces of a stream decompress to. -/
def soundBatches (limit : Nat) (ps : List Bytes) : List Batch :=
  (scan limit (Gzip.Decoder.start.feedAll (soundPieces .start ps).flatten).out.toList).batches

/-! ## What is given -/

/-- A decoder that was fed `z`, without a fault, has given the batches `given`. -/
structure Scanned (limit : Nat) (z : Bytes) (given : List Batch) (d : Decoder) : Prop where
  bound : d.limit = limit
  gzip : d.gzip = Gzip.Decoder.start.feedAll z
  sound : (Gzip.Decoder.start.feedAll z).fault? = none
  scan : scan limit (Gzip.Decoder.start.feedAll z).out.toList =
    { scan limit d.pending with batches := given ++ (scan limit d.pending).batches }

variable {limit : Nat} {z : Bytes} {given : List Batch} {d : Decoder}

theorem scanned_start (limit : Nat) : Scanned limit [] [] (start.withLimit limit) :=
  ⟨rfl, rfl, rfl, rfl⟩

/-- A piece that shows no fault is taken. -/
theorem Scanned.feed (h : Scanned limit z given d) {data : Bytes} {d' : Decoder}
    (feed : d.feed data = (.ok (), d')) : Scanned limit (z ++ data) given d' := by
  obtain ⟨hresult, hgzip, hlimit, hpending⟩ := feed_eq d data
  rw [feed] at hresult hgzip hlimit hpending
  have hfed : d.gzip.feedAll data = Gzip.Decoder.start.feedAll (z ++ data) := by
    rw [h.gzip, Gzip.Decoder.feedAll_append]
  refine ⟨hlimit.trans h.bound, hgzip.trans hfed, ?_, ?_⟩
  · rw [hfed] at hresult
    split at hresult
    · cases hresult
    · next hnone => exact hnone
  · have hpending : d'.pending = d.pending ++ d.coming data := hpending
    have hout : (Gzip.Decoder.start.feedAll (z ++ data)).out.toList =
        (Gzip.Decoder.start.feedAll z).out.toList ++ d.coming data := by
      rw [← hfed, out_feedAll, h.gzip, coming, h.gzip]
    rw [hout, hpending, scan_append, scan_append limit d.pending, h.scan]
    dsimp only
    cases (Batch.scan limit d.pending).failure? with
    | some e => rfl
    | none => simp only [List.append_assoc]

/-- A batch is given. -/
theorem Scanned.next (h : Scanned limit z given d) {b : Batch} {d' : Decoder}
    (next : d.next = (.ok (some b), d')) : Scanned limit z (given ++ [b]) d' := by
  have hcases := d.next_cases
  rw [next] at hcases
  cases hcases with
  | given hfront =>
    refine ⟨h.bound, h.gzip, h.sound, ?_⟩
    rw [h.scan, pending_give_front hfront, scan_of_some (h.bound ▸ hfront)]
    simp only [List.append_assoc, List.singleton_append]

/-- What a decoder that has no batch to give can still come to. -/
theorem Scanned.idle (h : Scanned limit z given d) {d' : Decoder} (next : d.next = (.ok none, d')) :
    d' = d ∧ (Batch.scan limit (Gzip.Decoder.start.feedAll z).out.toList).batches = given := by
  have hcases := d.next_cases
  rw [next] at hcases
  cases hcases with
  | none hfront =>
    rw [h.scan, scan_of_none (h.bound ▸ hfront)]
    exact ⟨rfl, List.append_nil _⟩

/-- What a decoder refuses, it refuses whatever comes after it. -/
theorem Scanned.refused (h : Scanned limit z given d) {e : DecodeFailure} {d' : Decoder}
    (next : d.next = (.error e, d')) (data : Bytes) :
    (Batch.scan limit (Gzip.Decoder.start.feedAll (z ++ data)).out.toList).batches = given := by
  have hcases := d.next_cases
  rw [next] at hcases
  cases hcases with
  | refused hfront =>
    rw [Gzip.Decoder.feedAll_append, out_feedAll, scan_append, h.scan, scan_of_error (h.bound ▸ hfront)]
    exact List.append_nil _

/-! ## The batches of a stream -/

variable {bs : List Bytes}

/-- A fault in the next piece: no batch comes out of it. -/
theorem Scanned.soundBatches_of_fault (h : Scanned limit bs.flatten given d)
    (idle : (Batch.scan limit (Gzip.Decoder.start.feedAll bs.flatten).out.toList).batches = given)
    (fault : (d.gzip.feedAll p).fault? ≠ none) (ps : List Bytes) :
    soundBatches limit (bs ++ p :: ps) = given := by
  rw [h.gzip] at fault
  rw [soundBatches, soundPieces_append h.sound, soundPieces_of_fault fault, List.append_nil, idle]

/-- The end of the stream. -/
theorem Scanned.soundBatches_of_idle (h : Scanned limit bs.flatten given d)
    (idle : (Batch.scan limit (Gzip.Decoder.start.feedAll bs.flatten).out.toList).batches = given) :
    soundBatches limit bs = given := by
  rw [soundBatches, soundPieces_of_sound h.sound, idle]

/-- Something is refused. -/
theorem Scanned.soundBatches_of_refused (h : Scanned limit bs.flatten given d) {e : DecodeFailure}
    {d' : Decoder} (next : d.next = (.error e, d')) (ps : List Bytes) :
    soundBatches limit (bs ++ ps) = given := by
  rw [soundBatches, soundPieces_append h.sound, List.flatten_append]
  exact h.refused next _

end TraceRelay.Batch.Decoder
