import Mathlib.Algebra.Group.Nat.Defs
import TraceRelay.Proofs.Gzip.Sound

/-!
# Stored blocks are sound

1. Bytes and their bits: `ofBits_flatMap`.
2. The inflater on a stored block: its header, its length, its data (`Inflate.feedAll_storedBlock`).
3. The decoder on a header, on blocks, on the last block and on a trailer.
4. `Method.sound_stored`: what `Method.stored` gives for each piece decompresses to all pieces so far, and
   the end of a stream agrees with them.
-/

namespace TraceRelay

/-! ## Bits -/

namespace Bytes

theorem ofLittleEndian_littleEndian (width n : Nat) :
    ofLittleEndian (littleEndian width n) = n % 256 ^ width := by
  induction width generalizing n with
  | zero => rw [Nat.pow_zero, Nat.mod_one]; rfl
  | succ width ih =>
    have hbyte : (n % 256).toUInt8.toNat = n % 256 := by simp
    rw [littleEndian, ofLittleEndian, ih, hbyte, Nat.pow_succ, Nat.mul_comm (256 ^ width),
      Nat.mod_mul]

theorem ofLittleEndian_append (a b : Bytes) :
    ofLittleEndian (a ++ b) = ofLittleEndian a + 256 ^ a.length * ofLittleEndian b := by
  induction a with
  | nil => simp [ofLittleEndian]
  | cons x a ih =>
    rw [List.cons_append, ofLittleEndian, ofLittleEndian, ih, List.length_cons, Nat.pow_succ,
      Nat.mul_add, Nat.mul_comm (256 ^ a.length) 256, Nat.mul_assoc, Nat.add_assoc]

end Bytes

namespace Deflate

theorem length_bitsOf (b : UInt8) : (bitsOf b).length = 8 := by
  rw [bitsOf, List.length_map, List.length_range]

theorem ofBits_bitsOf (b : UInt8) : ofBits (bitsOf b) = b.toNat := by
  have hall : ∀ n < 256, ofBits ((List.range 8).map fun i => n.testBit i) = n := by decide +kernel
  exact hall b.toNat b.toNat_lt

theorem ofBits_append (a b : Bits) : ofBits (a ++ b) = ofBits a + 2 ^ a.length * ofBits b := by
  induction a with
  | nil => simp [ofBits]
  | cons x a ih =>
    rw [List.cons_append, ofBits, ofBits, ih, List.length_cons, Nat.pow_succ, Nat.mul_add,
      Nat.mul_comm (2 ^ a.length) 2, Nat.mul_assoc, Nat.add_assoc]

/-- The bits of some bytes say what the bytes do, least first. -/
theorem ofBits_flatMap (data : Bytes) : ofBits (data.flatMap bitsOf) = Bytes.ofLittleEndian data := by
  induction data with
  | nil => rfl
  | cons b data ih =>
    rw [List.flatMap_cons, ofBits_append, ofBits_bitsOf, length_bitsOf, ih]
    rfl

theorem length_flatMap_bitsOf (data : Bytes) : (data.flatMap bitsOf).length = 8 * data.length := by
  induction data with
  | nil => rfl
  | cons b data ih =>
    rw [List.flatMap_cons, List.length_append, length_bitsOf, ih, List.length_cons]
    omega

/-- What comes next in a stored block of which `left` bytes are still to come. -/
def Phase.inStored (last : Bool) (left : Nat) : Phase :=
  if left = 0 then (if last then .done else .block) else .stored left

namespace Inflate

@[simp] theorem feedAll_nil (s : Inflate) : s.feedAll [] = s := rfl

theorem feedAll_cons (s : Inflate) (b : UInt8) (data : Bytes) :
    s.feedAll (b :: data) = (s.feed b).feedAll data := rfl

/-- A step that cannot be made ends the settling. -/
theorem settle_of_none {cursor : Cursor} (h : cursor.step = none) (fuel : Nat) (out : Array UInt8) :
    settle fuel cursor out = ⟨cursor, out⟩ := by
  cases fuel with
  | zero => rfl
  | succ fuel => rw [settle, h]

/-- A step after which no other can be made. -/
theorem settle_of_some {cursor next : Cursor} {token : Token} (h : cursor.step = some (next, token))
    (hnext : next.step = none) {fuel : Nat} (hfuel : 0 < fuel) (out : Array UInt8) :
    settle fuel cursor out = ⟨next, write out token⟩ := by
  obtain ⟨fuel, rfl⟩ := Nat.exists_eq_succ_of_ne_zero (Nat.pos_iff_ne_zero.mp hfuel)
  rw [settle, h]
  exact settle_of_none hnext fuel _

/-! ## One stored block -/

/-- In a stored block of which `left` bytes are still to come; after it, if there are none. -/
def inStored (last : Bool) (left : Nat) (out : Array UInt8) : Inflate :=
  ⟨⟨[], last, .inStored last left⟩, out⟩

theorem step_inStored (last : Bool) (left : Nat) :
    (⟨[], last, .inStored last left⟩ : Cursor).step = none := by
  unfold Phase.inStored
  split
  · cases last <;> rfl
  · rfl

theorem endBlock_nil (bits : Bits) (last : Bool) (phase : Phase) :
    (⟨bits, last, phase⟩ : Cursor).endBlock [] = ⟨[], last, .inStored last 0⟩ := by
  cases last <;> rfl

theorem feed_blockHeader (last : Bool) (out : Array UInt8) :
    (inStored false 0 out).feed (if last then 1 else 0) = ⟨⟨[], last, .storedLength⟩, out⟩ := by
  cases last <;> rfl

/-- The bits of a length are kept until all of them are there. -/
theorem feedAll_length (last : Bool) (out : Array UInt8) (before data : Bytes)
    (h : before.length + data.length < 4) :
    (⟨⟨before.flatMap bitsOf, last, .storedLength⟩, out⟩ : Inflate).feedAll data =
      ⟨⟨(before ++ data).flatMap bitsOf, last, .storedLength⟩, out⟩ := by
  induction data generalizing before with
  | nil => rw [List.append_nil]; rfl
  | cons b data ih =>
    rw [List.length_cons] at h
    have hbits : before.flatMap bitsOf ++ bitsOf b = (before ++ [b]).flatMap bitsOf := by
      rw [List.flatMap_append, List.flatMap_singleton]
    have hstep : (⟨(before ++ [b]).flatMap bitsOf, last, .storedLength⟩ : Cursor).step = none := by
      have hlength := length_flatMap_bitsOf (before ++ [b])
      rw [List.length_append, List.length_singleton] at hlength
      simp only [Cursor.step, takeBits]
      rw [if_neg (by omega)]
      rfl
    have hfeed : (⟨⟨before.flatMap bitsOf, last, .storedLength⟩, out⟩ : Inflate).feed b =
        ⟨⟨(before ++ [b]).flatMap bitsOf, last, .storedLength⟩, out⟩ := by
      rw [← settle_of_none hstep _ out, ← hbits]
      rfl
    rw [feedAll_cons, hfeed, ih _ (by rw [List.length_append, List.length_singleton]; omega),
      List.append_assoc]
    rfl

/-- The length of a block, and its complement. -/
theorem step_length (last : Bool) {a b c d : UInt8} {n : Nat} (hn : n ≤ 65535)
    (h : Bytes.ofLittleEndian [a, b, c, d] = n + 65536 * (65535 - n)) :
    (⟨[a, b, c, d].flatMap bitsOf, last, .storedLength⟩ : Cursor).step =
      some (⟨[], last, .inStored last n⟩, .none) := by
  have hlength := length_flatMap_bitsOf [a, b, c, d]
  have htake : takeBits 32 ([a, b, c, d].flatMap bitsOf) = some (n + 65536 * (65535 - n), []) := by
    rw [takeBits, if_pos (by rw [hlength]; exact Nat.le_refl _), List.take_of_length_le,
      List.drop_of_length_le, ofBits_flatMap, h]
    · rw [hlength]; exact Nat.le_refl _
    · rw [hlength]; exact Nat.le_refl _
  simp only [Cursor.step, htake, Option.bind_eq_bind, Option.bind_some]
  have hmod : (n + 65536 * (65535 - n)) % 65536 = n := by omega
  have hdiv : (n + 65536 * (65535 - n)) / 65536 = 65535 - n := by omega
  rw [hmod, hdiv, if_neg (by omega)]
  split
  · next hzero => rw [endBlock_nil, hzero]
  · next hzero => rw [Cursor.expect, Phase.inStored, if_neg hzero]

theorem feedAll_storedLength (last : Bool) (out : Array UInt8) {n : Nat} (hn : n ≤ 65535) :
    (⟨⟨[], last, .storedLength⟩, out⟩ : Inflate).feedAll
      (Bytes.littleEndian 2 n ++ Bytes.littleEndian 2 (65535 - n)) = inStored last n out := by
  have hvalue : Bytes.ofLittleEndian (Bytes.littleEndian 2 n ++ Bytes.littleEndian 2 (65535 - n)) =
      n + 65536 * (65535 - n) := by
    rw [Bytes.ofLittleEndian_append, Bytes.ofLittleEndian_littleEndian,
      Bytes.ofLittleEndian_littleEndian, Bytes.length_littleEndian]
    omega
  have hstep := step_length last hn hvalue
  simp only [Bytes.littleEndian, List.cons_append, List.nil_append] at hstep ⊢
  generalize (n % 256).toUInt8 = a at hstep ⊢
  generalize (n / 256 % 256).toUInt8 = b at hstep ⊢
  generalize ((65535 - n) % 256).toUInt8 = c at hstep ⊢
  generalize ((65535 - n) / 256 % 256).toUInt8 = d at hstep ⊢
  have hbits : [a, b, c].flatMap bitsOf ++ bitsOf d = [a, b, c, d].flatMap bitsOf := by
    simp only [List.flatMap_cons, List.flatMap_nil, List.append_nil, List.append_assoc]
  rw [show [a, b, c, d] = [a, b, c] ++ [d] from rfl, feedAll_append]
  rw [show ([] : Bits) = ([] : Bytes).flatMap bitsOf from rfl,
    feedAll_length last out [] [a, b, c] (Nat.lt_succ_self 3), List.nil_append, feedAll_cons,
    feedAll_nil, feed, hbits]
  · exact settle_of_some hstep (step_inStored last n) (by rw [length_flatMap_bitsOf]; simp) out
  · intro h; cases h
  · intro h; cases h

/-- A byte of data. -/
theorem feed_inStored (last : Bool) (left : Nat) (out : Array UInt8) (b : UInt8) :
    (inStored last (left + 1) out).feed b = inStored last left (out.push b) := by
  have htake : takeBits 8 (bitsOf b) = some (b.toNat, []) := by
    rw [takeBits, length_bitsOf, if_pos (Nat.le_refl _), List.take_of_length_le,
      List.drop_of_length_le, ofBits_bitsOf]
    · exact Nat.le_of_eq (length_bitsOf b)
    · exact Nat.le_of_eq (length_bitsOf b)
  have hstep : (⟨bitsOf b, last, .stored (left + 1)⟩ : Cursor).step =
      some (⟨[], last, .inStored last left⟩, .byte b) := by
    simp only [Cursor.step, htake, Option.bind_eq_bind, Option.bind_some, endBlock_nil]
    cases left with
    | zero => simp
    | succ left => simp [Phase.inStored]
  rw [inStored, Phase.inStored, if_neg (Nat.succ_ne_zero left), feed, List.nil_append]
  · exact settle_of_some hstep (step_inStored last left) (by rw [length_bitsOf]; decide) out
  · nofun
  · nofun

theorem feedAll_inStored (last : Bool) (out : Array UInt8) (data : Bytes) :
    (inStored last data.length out).feedAll data = inStored last 0 (out ++ data.toArray) := by
  induction data generalizing out with
  | nil => simp
  | cons b data ih =>
    rw [List.length_cons, feedAll_cons, feed_inStored, ih]
    congr 1
    apply Array.ext'
    simp

/-- **A stored block writes its data.** -/
theorem feedAll_storedBlock (last : Bool) (out : Array UInt8) {data : Bytes}
    (h : data.length ≤ 65535) :
    (inStored false 0 out).feedAll (Gzip.storedBlock last data) =
      inStored last 0 (out ++ data.toArray) := by
  rw [Gzip.storedBlock, List.cons_append, List.cons_append, feedAll_cons, feed_blockHeader,
    feedAll_append, feedAll_storedLength last out h, feedAll_inStored]

theorem feedAll_storedBlocks (out : Array UInt8) (data : Bytes) :
    (inStored false 0 out).feedAll (Gzip.storedBlocks data) =
      inStored false 0 (out ++ data.toArray) := by
  fun_induction Gzip.storedBlocks data generalizing out with
  | case1 => simp
  | case2 data hshort => exact feedAll_storedBlock false out hshort
  | case3 data _ ih =>
    have htake : (data.take Gzip.maxStored).length ≤ 65535 := List.length_take_le _ _
    rw [feedAll_append, feedAll_storedBlock false out htake, ih]
    congr 1
    apply Array.ext'
    simp

/-! ## Being over -/

/-- There is more to come. -/
def Live (s : Inflate) : Prop := s.isDone = false ∧ s.isCorrupt = false

theorem live_inStored (out : Array UInt8) : (inStored false 0 out).Live := ⟨rfl, rfl⟩

theorem feed_of_not_live {s : Inflate} (h : ¬ s.Live) (b : UInt8) : s.feed b = s := by
  obtain ⟨⟨bits, last, phase⟩, out⟩ := s
  cases phase with
  | done | corrupt => rfl
  | _ => exact absurd ⟨rfl, rfl⟩ h

theorem live_of_feed {s : Inflate} {b : UInt8} (h : (s.feed b).Live) : s.Live := by
  apply Classical.byContradiction
  intro hs
  rw [feed_of_not_live hs] at h
  exact hs h

theorem live_of_feedAll {s : Inflate} {data : Bytes} (h : (s.feedAll data).Live) : s.Live := by
  induction data generalizing s with
  | nil => exact h
  | cons b data ih => exact live_of_feed (ih h)

end Inflate

end Deflate

namespace Gzip

/-! ## The decoder -/

namespace Decoder

open Deflate (Inflate)

/-- In the middle of the data. -/
theorem feedAll_data {s : Inflate} {data : Bytes} (h : (s.feedAll data).Live) :
    (⟨.data, s⟩ : Decoder).feedAll data = ⟨.data, s.feedAll data⟩ := by
  induction data generalizing s with
  | nil => rfl
  | cons b data ih =>
    rw [Inflate.feedAll_cons] at h ⊢
    obtain ⟨hdone, hcorrupt⟩ := Inflate.live_of_feedAll h
    rw [feedAll_cons, feed, if_neg (Bool.eq_false_iff.mp hdone),
      if_neg (Bool.eq_false_iff.mp hcorrupt), ih h]

/-- The last byte of the data. -/
theorem feed_last {s : Inflate} {b : UInt8} (h : (s.feed b).isDone = true) :
    (⟨.data, s⟩ : Decoder).feed b = ⟨.trailer [], s.feed b⟩ := by
  rw [feed, if_pos h]

theorem feedAll_plainHeader (level : Nat) :
    start.feedAll (plainHeader level) = ⟨.data, .inStored false 0 #[]⟩ := by
  unfold plainHeader levelMark
  split
  · rfl
  · split <;> rfl

/-- An empty last block. -/
theorem feedAll_lastBlock (out : Array UInt8) :
    (⟨.data, .inStored false 0 out⟩ : Decoder).feedAll (storedBlock true []) =
      ⟨.trailer [], .inStored true 0 out⟩ := by
  have hfour : (Inflate.inStored false 0 out).feedAll [1, 0, 0, 255] =
      ⟨⟨[0, 0, 255].flatMap Deflate.bitsOf, true, .storedLength⟩, out⟩ := by
    have hheader : (Inflate.inStored false 0 out).feed 1 = _ := Inflate.feed_blockHeader true out
    rw [Inflate.feedAll_cons, hheader]
    exact Inflate.feedAll_length true out [] [0, 0, 255] (by decide)
  have hall : (Inflate.inStored false 0 out).feedAll (storedBlock true []) = _ :=
    Inflate.feedAll_storedBlock true out (Nat.zero_le _)
  rw [show storedBlock true [] = [1, 0, 0, 255] ++ [255] from rfl] at hall ⊢
  rw [Inflate.feedAll_append, Inflate.feedAll_cons, Inflate.feedAll_nil, Array.append_empty] at hall
  rw [feedAll_append, feedAll_data (by rw [hfour]; exact ⟨rfl, rfl⟩), feedAll_cons, feedAll_nil,
    feed_last (by rw [hall]; rfl), hall]

/-- A trailer is kept. -/
theorem feedAll_trailer {s : Inflate} (got data : Bytes)
    (h : got.length + data.length ≤ trailerSize) :
    (⟨.trailer got, s⟩ : Decoder).feedAll data = ⟨.trailer (got ++ data), s⟩ := by
  induction data generalizing got with
  | nil => rw [List.append_nil]; rfl
  | cons b data ih =>
    rw [List.length_cons] at h
    rw [feedAll_cons, feed, if_pos (by omega),
      ih _ (by rw [List.length_append, List.length_singleton]; omega),
      List.append_assoc]
    rfl

/-- The check and the length of the data make a trailer. -/
theorem agrees_trailer (out : Array UInt8) (last : Bool) (left : Nat) :
    (⟨.trailer (Bytes.littleEndian 4 (Checksum.ofBytes out.toList).toNat ++
      Bytes.littleEndian 4 out.toList.length), .inStored last left out⟩ : Decoder).agrees = true := by
  have hcheck := (Checksum.ofBytes out.toList).toNat_lt
  simp only [agrees, Decoder.out, Inflate.inStored, Checksum.ofArray_eq, Bool.and_eq_true, beq_iff_eq]
  refine ⟨⟨by simp [trailerSize], ?_⟩, ?_⟩
  · rw [List.take_left' (Bytes.length_littleEndian 4 _), Bytes.ofLittleEndian_littleEndian]
    exact Nat.mod_eq_of_lt hcheck
  · rw [List.drop_left' (Bytes.length_littleEndian 4 _), Bytes.ofLittleEndian_littleEndian]
    exact congrArg (· % UInt32.size) Array.length_toList

end Decoder

/-! ## The method -/

namespace Method

/-- Where a decoder is after some pieces. -/
def storedAt (before : List Bytes) : Decoder :=
  if before.isEmpty then .start else ⟨.data, .inStored false 0 before.flatten.toArray⟩

theorem storedAt_opening (level : Nat) (before : List Bytes) :
    (storedAt before).feedAll (opening level before) =
      ⟨.data, .inStored false 0 before.flatten.toArray⟩ := by
  cases before with
  | nil => exact Decoder.feedAll_plainHeader level
  | cons => rfl

theorem storedAt_emit (level : Nat) (before : List Bytes) (piece : Bytes) :
    (storedAt before).feedAll (stored.emit level before piece) = storedAt (before ++ [piece]) := by
  have hblocks : (Deflate.Inflate.inStored false 0 before.flatten.toArray).feedAll
      (storedBlocks piece ++ storedBlock false []) =
        .inStored false 0 (before ++ [piece]).flatten.toArray := by
    rw [Deflate.Inflate.feedAll_append, Deflate.Inflate.feedAll_storedBlocks,
      Deflate.Inflate.feedAll_storedBlock false _ (Nat.zero_le _)]
    congr 1
    apply Array.ext'
    simp
  show (storedAt before).feedAll
    (opening level before ++ storedBlocks piece ++ storedBlock false []) = _
  rw [List.append_assoc, Decoder.feedAll_append, storedAt_opening, Decoder.feedAll_data, hblocks,
    storedAt, if_neg (by simp)]
  rw [hblocks]
  exact Deflate.Inflate.live_inStored _

theorem storedAt_flushAll (level : Nat) (before pieces : List Bytes) :
    (storedAt before).feedAll (((Encoder.start stored level).after before).flushAll pieces) =
      storedAt (before ++ pieces) := by
  induction pieces generalizing before with
  | nil => rw [List.append_nil]; rfl
  | cons piece pieces ih =>
    rw [Encoder.flushAll, Encoder.flush_eq, Decoder.feedAll_append, Encoder.after_after]
    show ((storedAt before).feedAll (stored.emit level before piece)).feedAll _ = _
    rw [storedAt_emit, ih, List.append_assoc]
    rfl

theorem storedAt_complete (level : Nat) (pieces : List Bytes) :
    ((storedAt pieces).feedAll (stored.complete level pieces)).agrees = true ∧
    ((storedAt pieces).feedAll (stored.complete level pieces)).out.toList = pieces.flatten := by
  have hend : (storedAt pieces).feedAll (stored.complete level pieces) =
      ⟨.trailer (Bytes.littleEndian 4 (Checksum.ofBytes pieces.flatten).toNat ++
        Bytes.littleEndian 4 pieces.flatten.length), .inStored true 0 pieces.flatten.toArray⟩ := by
    show (storedAt pieces).feedAll (opening level pieces ++ storedBlock true [] ++ _ ++ _) = _
    rw [List.append_assoc, Decoder.feedAll_append, Decoder.feedAll_append (storedAt pieces),
      storedAt_opening, Decoder.feedAll_lastBlock,
      Decoder.feedAll_trailer _ _ (by simp [trailerSize])]
    rfl
  rw [hend]
  exact ⟨Decoder.agrees_trailer pieces.flatten.toArray true 0, rfl⟩

/-- **Stored blocks are sound.** -/
theorem sound_stored (level : Nat) : stored.Sound level where
  flushed pieces := by
    have hall := storedAt_flushAll level [] pieces
    rw [Encoder.after_nil, List.nil_append] at hall
    rw [show Decoder.start = storedAt [] from rfl, hall, storedAt]
    cases pieces with
    | nil => exact ⟨rfl, rfl⟩
    | cons => exact ⟨rfl, rfl⟩
  completed pieces := by
    have hall := storedAt_flushAll level [] pieces
    rw [Encoder.after_nil, List.nil_append] at hall
    rw [Encoder.whole, Decoder.feedAll_append, show Decoder.start = storedAt [] from rfl, hall]
    exact storedAt_complete level pieces

end Method

end Gzip

end TraceRelay
