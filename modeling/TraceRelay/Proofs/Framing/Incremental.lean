import TraceRelay.Batch.Decoder
import TraceRelay.Proofs.Framing.Scan
import TraceRelay.Proofs.Gzip.Growth

/-!
# Batches from pieces of a stream

`Batch.Decoder` against `Batch.scan`: what a decoder still holds is its `pending` bytes, and

* `next` gives the batch at their front (`next_eq`),
* `drain` gives all of their batches (`drain_eq`),
* a piece adds the bytes that it decompresses to (`feed_eq`).

So the batches of a stream that shows no fault are those of what it decompresses to, whatever its
pieces are (`feedPieces_eq`).
-/

namespace TraceRelay.Batch

/-- How reading a payload ends for a caller who stops at the first failure. -/
def Scan.verdict (s : Scan) : Except DecodeFailure Unit :=
  match s.failure? with
  | some e => .error e
  | none => .ok ()

/-- What a caller sees that feeds pieces and drains after each, up to a failure. -/
def Scan.seen (s : Scan) : List (Except DecodeFailure Batch) :=
  s.batches.map .ok ++ s.failure?.toList.map .error

namespace Decoder

/-! ## What is held -/

theorem pending_eq (d : Decoder) : d.pending = d.held.toList.drop d.consumed := by
  rw [pending, Array.toList_extract, List.extract_eq_take_drop]
  exact List.take_of_length_le (Nat.le_of_eq (by rw [List.length_drop, Array.length_toList]))

/-- `n` more bytes have been given. -/
def give (d : Decoder) (n : Nat) : Decoder := { d with consumed := d.consumed + n }

@[simp] theorem give_zero (d : Decoder) : d.give 0 = d := rfl

@[simp] theorem gzip_give (d : Decoder) (n : Nat) : (d.give n).gzip = d.gzip := rfl

@[simp] theorem limit_give (d : Decoder) (n : Nat) : (d.give n).limit = d.limit := rfl

theorem pending_give (d : Decoder) (n : Nat) : (d.give n).pending = d.pending.drop n := by
  rw [pending_eq, pending_eq, List.drop_drop]; rfl

theorem give_give (d : Decoder) (m n : Nat) : (d.give m).give n = d.give (m + n) := by
  simp only [give, Nat.add_assoc]

theorem length_pending (d : Decoder) : d.pending.length = d.held.size - d.consumed := by
  rw [pending_eq, List.length_drop, Array.length_toList]

/-! ## Giving -/

theorem next_eq (d : Decoder) : d.next = match front d.limit d.pending with
    | .error e => (.error e, d)
    | .ok none => (.ok none, d)
    | .ok (some (b, rest)) => (.ok (some b), d.give (d.pending.length - rest.length)) := by
  have hpeek : Frame.peek (d.held.extract d.consumed (d.consumed + Frame.maxPrefix)).toList =
      Frame.peek d.pending := by
    rw [← Frame.peek_take d.pending, pending_eq, Array.toList_extract, List.extract_eq_take_drop,
      Nat.add_sub_cancel_left]
  have hbody (size len : Nat) :
      (d.held.extract (d.consumed + size) (d.consumed + size + len)).toList =
        (d.pending.drop size).take len := by
    rw [pending_eq, List.drop_drop, Array.toList_extract, List.extract_eq_take_drop,
      Nat.add_sub_cancel_left]
  unfold next Batch.front Frame.front
  rw [hpeek]
  cases hfound : Frame.peek d.pending with
  | malformed => rfl
  | incomplete => rfl
  | found len size =>
    have hsize := Frame.size_of_peek hfound
    dsimp only
    rw [hbody, ← length_pending]
    by_cases hlimit : d.limit < len
    · rw [if_pos hlimit, if_pos hlimit]
    rw [if_neg hlimit, if_neg hlimit]
    by_cases hle : d.pending.length - size < len
    · rw [if_pos hle, if_pos hle]
    rw [if_neg hle, if_neg hle]
    dsimp only
    cases Batch.decode ((d.pending.drop size).take len) with
    | error f => rfl
    | ok b =>
      have : d.pending.length - (d.pending.drop (size + len)).length = size + len := by
        rw [List.length_drop]; omega
      simp only [this, give, Nat.add_assoc]

/-- A batch that is given takes its frame with it. -/
theorem pending_give_front {d : Decoder} {b : Batch} {rest : Bytes}
    (h : front d.limit d.pending = .ok (some (b, rest))) :
    (d.give (d.pending.length - rest.length)).pending = rest := by
  obtain ⟨body, hframe, -⟩ := front_eq_some.mp h
  rw [pending_give]
  exact (List.suffix_iff_eq_drop.mp (Frame.front_suffix hframe)).symm

/-- What a decoder answers that is asked for a batch, and what it is afterwards. -/
inductive Next (d : Decoder) : Except DecodeFailure (Option Batch) × Decoder → Prop where
  | given {b : Batch} {rest : Bytes} (at_ : front d.limit d.pending = .ok (some (b, rest))) :
    Next d (.ok (some b), d.give (d.pending.length - rest.length))
  | none (at_ : front d.limit d.pending = .ok none) : Next d (.ok none, d)
  | refused {e : DecodeFailure} (at_ : front d.limit d.pending = .error e) : Next d (.error e, d)

theorem next_cases (d : Decoder) : Next d d.next := by
  rw [next_eq]
  split
  · next hfront => exact .refused hfront
  · next hfront => exact .none hfront
  · next hfront => exact .given hfront

theorem drainWith_eq (fuel : Nat) (d : Decoder) (h : d.pending.length < fuel) :
    drainWith fuel d = ((scan d.limit d.pending).batches, (scan d.limit d.pending).verdict,
      d.give (d.pending.length - (scan d.limit d.pending).rest.length)) := by
  induction fuel generalizing d with
  | zero => omega
  | succ fuel ih =>
    rw [drainWith, next_eq]
    cases hf : front d.limit d.pending with
    | error e => rw [scan_of_error hf]; simp [Scan.verdict]
    | ok found =>
      cases found with
      | none => rw [scan_of_none hf]; simp [Scan.verdict]
      | some found =>
        obtain ⟨b, rest⟩ := found
        have hlt := length_front hf
        have hpending := pending_give_front hf
        have hscan := length_scan_rest d.limit rest
        dsimp only
        rw [ih _ (by rw [hpending]; omega), limit_give, hpending, scan_of_some hf, give_give]
        simp only [Scan.verdict, Prod.mk.injEq, true_and]
        congr 1
        omega

theorem drain_eq (d : Decoder) :
    d.drain = ((scan d.limit d.pending).batches, (scan d.limit d.pending).verdict,
      d.give (d.pending.length - (scan d.limit d.pending).rest.length)) :=
  drainWith_eq _ d (by rw [length_pending]; omega)

theorem pending_drain (d : Decoder) :
    d.drain.2.2.pending = (scan d.limit d.pending).rest := by
  rw [drain_eq, pending_give]
  exact (List.suffix_iff_eq_drop.mp (scan_rest_suffix _ _)).symm

/-! ## Taking a piece -/

/-- The bytes that `data` would decompress to. -/
def coming (d : Decoder) (data : Bytes) : Bytes :=
  (d.gzip.feedAll data).out.toList.drop d.gzip.out.size

theorem out_feedAll (g : Gzip.Decoder) (data : Bytes) :
    (g.feedAll data).out.toList =
      g.out.toList ++ (g.feedAll data).out.toList.drop g.out.size := by
  obtain ⟨more, h⟩ := g.out_prefix_feedAll data
  rw [← h, ← Array.length_toList, List.drop_left]

theorem feed_eq (d : Decoder) (data : Bytes) :
    (d.feed data).1 = (match (d.gzip.feedAll data).fault? with
      | some f => .error (.io f)
      | none => .ok ()) ∧
    (d.feed data).2.gzip = d.gzip.feedAll data ∧ (d.feed data).2.limit = d.limit ∧
    (d.feed data).2.pending = d.pending ++ d.coming data := by
  have hcompact : d.compact.gzip = d.gzip ∧ d.compact.limit = d.limit ∧
      d.compact.consumed = 0 ∧ d.compact.held.toList = d.pending := by
    unfold compact
    split
    · exact ⟨rfl, rfl, rfl, rfl⟩
    · next h =>
      have h0 : d.consumed = 0 := by omega
      refine ⟨rfl, rfl, h0, ?_⟩
      rw [pending_eq, h0, List.drop_zero]
  obtain ⟨hgzip, hlimit, hconsumed, hheld⟩ := hcompact
  unfold feed
  generalize d.compact = c at *
  obtain ⟨gzip, held, consumed, limit⟩ := c
  dsimp only at hgzip hlimit hconsumed hheld ⊢
  subst hgzip hlimit hconsumed
  refine ⟨rfl, rfl, rfl, ?_⟩
  rw [pending_eq, List.drop_zero, Array.toList_append, hheld, coming, Array.toList_extract,
    List.extract_eq_take_drop, List.take_of_length_le]
  exact Nat.le_of_eq (by rw [List.length_drop, Array.length_toList])

theorem coming_append (d : Decoder) (a b : Bytes) :
    d.coming (a ++ b) = d.coming a ++ (d.feed a).2.coming b := by
  have hgzip := (feed_eq d a).2.1
  have ha := out_feedAll d.gzip a
  have hb := out_feedAll (d.gzip.feedAll a) b
  have hle : d.gzip.out.size ≤ (d.gzip.feedAll a).out.toList.length := by
    rw [ha, List.length_append, Array.length_toList]; omega
  rw [coming, coming, coming, hgzip, Gzip.Decoder.feedAll_append, ← List.drop_append_of_le_length hle,
    ← hb]

@[simp] theorem coming_give (d : Decoder) (n : Nat) (data : Bytes) :
    (d.give n).coming data = d.coming data := rfl

/-- A piece that shows no fault is taken, and what it decompresses to is scanned behind what was
held. What is not given out of it stays. -/
theorem feed_drain (d : Decoder) {piece : Bytes} (hfault : (d.gzip.feedAll piece).fault? = none) :
    ∃ d₁ d₂, d.feed piece = (.ok (), d₁) ∧
      d₁.drain = ((scan d.limit (d.pending ++ d.coming piece)).batches,
        (scan d.limit (d.pending ++ d.coming piece)).verdict, d₂) ∧
      d₂.limit = d.limit ∧ d₂.gzip = d.gzip.feedAll piece ∧
      d₂.pending = (scan d.limit (d.pending ++ d.coming piece)).rest ∧
      ∀ rest, d.coming (piece ++ rest) = d.coming piece ++ d₂.coming rest := by
  obtain ⟨hresult, hgzip, hlimit, hpending⟩ := feed_eq d piece
  rw [hfault] at hresult
  have hdrain := drain_eq (d.feed piece).2
  have hdrained := pending_drain (d.feed piece).2
  rw [hlimit, hpending] at hdrain hdrained
  rw [hdrain] at hdrained
  refine ⟨(d.feed piece).2, _, Prod.ext hresult rfl, hdrain, ?_, ?_, hdrained, fun rest => ?_⟩
  · rw [limit_give, hlimit]
  · rw [gzip_give, hgzip]
  · rw [coming_give, coming_append]

/-! ## Taking all pieces -/

/-- **Pieces give the batches of what they decompress to.** Once a failure was met nothing more is
fed, and the decoder stands before what it refused. -/
theorem feedPieces_eq (d : Decoder) (i : Nat) (pieces : List Bytes)
    (hd : front d.limit d.pending = .ok none)
    (hfault : (d.gzip.feedAll pieces.flatten).fault? = none) :
    (d.feedPieces i pieces).1.map Prod.snd =
      Scan.seen (scan d.limit (d.pending ++ d.coming pieces.flatten)) ∧
    match (scan d.limit (d.pending ++ d.coming pieces.flatten)).failure? with
    | none => (d.feedPieces i pieces).2.gzip = d.gzip.feedAll pieces.flatten ∧
        (d.feedPieces i pieces).2.pending =
          (scan d.limit (d.pending ++ d.coming pieces.flatten)).rest
    | some e =>
      front (d.feedPieces i pieces).2.limit (d.feedPieces i pieces).2.pending = .error e := by
  induction pieces generalizing d i with
  | nil =>
    have hcoming : d.coming [] = [] := by
      rw [coming, Gzip.Decoder.feedAll_nil, ← Array.length_toList, List.drop_length]
    simp only [List.flatten_nil, hcoming, List.append_nil, scan_of_none hd]
    exact ⟨rfl, rfl, rfl⟩
  | cons piece pieces ih =>
    rw [List.flatten_cons] at hfault ⊢
    obtain ⟨d₁, d₂, hfeed, hdrain, hlimit, hgzip, hpending, hcoming⟩ :=
      d.feed_drain (Gzip.Decoder.fault?_of_append hfault)
    rw [feedPieces, hfeed]
    dsimp only
    rw [hdrain, hcoming, ← List.append_assoc,
      scan_append d.limit (d.pending ++ d.coming piece) (d₂.coming pieces.flatten)]
    dsimp only
    cases hs : (scan d.limit (d.pending ++ d.coming piece)).failure? with
    | some e =>
      rw [Scan.verdict, hs]
      refine ⟨by simp [Scan.seen, Function.comp_def], ?_⟩
      dsimp only
      rw [hlimit, hpending]
      exact front_rest_of_failure hs
    | none =>
      have hrest : front d₂.limit d₂.pending = .ok none := by
        rw [hlimit, hpending]
        exact front_rest hs
      have hlast := ih d₂ (i + 1) hrest
        (by rw [hgzip, ← Gzip.Decoder.feedAll_append]; exact hfault)
      rw [hlimit, hpending, hgzip, ← Gzip.Decoder.feedAll_append] at hlast
      obtain ⟨hseen, hlast⟩ := hlast
      rw [Scan.verdict, hs]
      refine ⟨?_, hlast⟩
      dsimp only
      rw [List.map_append, hseen]
      simp [Scan.seen, Function.comp_def]

/-- The pieces of a stream that shows no fault, from the start. -/
theorem feedPieces_start {pieces : List Bytes} {stream payload : Bytes} (limit : Nat)
    (hpieces : pieces.flatten = stream)
    (hfault : (Gzip.Decoder.start.feedAll stream).fault? = none)
    (hpayload : (Gzip.Decoder.start.feedAll stream).out.toList = payload) :
    ((start.withLimit limit).feedPieces 0 pieces).1.map Prod.snd = (scan limit payload).seen ∧
    match (scan limit payload).failure? with
    | none => ((start.withLimit limit).feedPieces 0 pieces).2.gzip =
          Gzip.Decoder.start.feedAll stream ∧
        ((start.withLimit limit).feedPieces 0 pieces).2.pending = (scan limit payload).rest
    | some e => front ((start.withLimit limit).feedPieces 0 pieces).2.limit
        ((start.withLimit limit).feedPieces 0 pieces).2.pending = .error e := by
  subst hpieces
  have hcoming : (start.withLimit limit).coming pieces.flatten = payload := hpayload
  have hall := feedPieces_eq (start.withLimit limit) 0 pieces (front_nil limit) hfault
  rwa [show (start.withLimit limit).pending = [] from rfl, List.nil_append, hcoming] at hall

/-! ## The end -/

theorem finish_eq {d : Decoder} (h : d.gzip.agrees = true) :
    d.finish = if d.pending = [] then .ok () else .error .truncated := by
  have hlength := length_pending d
  have : d.pending = [] ↔ ¬ d.consumed < d.held.size := by
    rw [← List.length_eq_zero_iff, hlength]; omega
  unfold finish
  rw [if_pos h]
  by_cases hp : d.pending = []
  · rw [if_pos hp, if_neg (this.mp hp)]
  · rw [if_neg hp, if_pos (Decidable.not_not.mp fun h => hp (this.mpr h))]

/-- A stream in which something was refused does not end where it may. -/
theorem finish_ne_ok {d : Decoder} (h : d.pending ≠ []) : d.finish ≠ .ok () := by
  have hlength := length_pending d
  have hpos := List.length_pos_iff.mpr h
  unfold finish
  split
  · rw [if_pos (by omega)]; nofun
  · nofun

end Decoder

end TraceRelay.Batch
