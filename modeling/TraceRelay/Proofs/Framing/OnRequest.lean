import TraceRelay.Batch.Reader
import TraceRelay.Proofs.Framing.Incremental
import TraceRelay.Proofs.Gzip.OnRequest

/-!
# Batches on request

`Frame.Reader` and `Batch.Reader` against `Batch.scan`, over any source that gives the bytes that it
holds. A length is read byte by byte and asks the same of its bytes as `Frame.peek` (`readLength_eq`);
a frame is there if and only if its length and its body are (`next_of_some`, `next_of_none`). So a
reader gives the batches of the payload and then says why there are no more (`Reader.nextAll_eq`).
-/

namespace TraceRelay

open ByteSource

variable {σ : Type} [ByteSource σ] {R : σ → Bytes → Prop} {last : LastAnswer}

/-- The verdict on bytes that hold no frame, by a reader that has met the end of its source. -/
def LastAnswer.Verdict (last : LastAnswer) (rest : Bytes) (v : Except DecodeFailure Unit) : Prop :=
  match last with
  | none => v = if rest = [] then .ok () else .error .truncated
  | some _ => v ≠ .ok ()

namespace Frame.Reader

/-- The verdict on a length that is not all there. -/
def cutLength (last : LastAnswer) (size : Nat) : Except DecodeFailure (Option Nat) :=
  match last with
  | some f => .error (.io f)
  | none => if size = 0 then .ok none else .error .truncated

/-- **Reading a length byte by byte and looking at it agree.** -/
theorem readLength_eq (h : Serves readPatiently R last) {s : σ} {data : Bytes} (hs : R s data)
    (place value : Nat) :
    match peekAt place value data with
    | .found len size => ∃ s', readLength s place value = (.ok (some len), s') ∧
        R s' (data.drop (size - place))
    | .malformed => ∃ s', readLength s place value = (.error .invalidLength, s')
    | .incomplete => ∃ s', readLength s place value = (cutLength last (place + data.length), s') ∧
        R s' [] := by
  induction data generalizing s place value with
  | nil =>
    rw [peekAt]
    by_cases hp : place < maxPrefix
    · rw [if_pos hp]
      obtain ⟨s', hread, hs'⟩ := h.ends hs Nat.one_pos
      refine ⟨s', ?_, hs'⟩
      rw [readLength, if_pos hp, hread]
      cases last with
      | none => rfl
      | some f => rfl
    · rw [if_neg hp]
      exact ⟨s, by rw [readLength, if_neg hp]⟩
  | cons b rest ih =>
    rw [peekAt]
    by_cases hp : maxPrefix ≤ place
    · rw [if_pos hp]
      exact ⟨s, by rw [readLength, if_neg (by omega)]⟩
    rw [if_neg hp]
    obtain ⟨s₁, hread, hs₁⟩ := read_one h hs
    by_cases hb : b.toNat < 128
    · rw [if_pos hb]
      refine ⟨s₁, ?_, ?_⟩
      · rw [readLength, if_pos (by omega), hread]
        dsimp only
        rw [if_pos hb]
      · rw [Nat.add_sub_cancel_left]; exact hs₁
    · rw [if_neg hb]
      have hstep : readLength s place value =
          readLength s₁ (place + 1) (value + digit place b) := by
        conv => lhs; rw [readLength, if_pos (by omega), hread]
        dsimp only
        rw [if_neg hb]
      have hrest := ih hs₁ (place + 1) (value + digit place b)
      rw [hstep]
      cases hpeek : peekAt (place + 1) (value + digit place b) rest with
      | malformed => rw [hpeek] at hrest; exact hrest
      | found len size =>
        rw [hpeek] at hrest
        obtain ⟨s', hlen, hs'⟩ := hrest
        have := size_of_peekAt hpeek
        refine ⟨s', hlen, ?_⟩
        rw [show size - place = size - (place + 1) + 1 by omega, List.drop_succ_cons]
        exact hs'
      | incomplete =>
        rw [hpeek] at hrest
        obtain ⟨s', hlen, hs'⟩ := hrest
        refine ⟨s', ?_, hs'⟩
        rw [hlen, List.length_cons]
        congr 2
        omega

variable {r : Frame.Reader σ} {p : Bytes}

/-- A frame that is refused where it stands is refused by a reader, for the same reason. -/
theorem next_of_error (h : Serves readPatiently R last) (hs : R r.source p) {e : DecodeFailure}
    (hfront : front r.limit p = .error e) : ∃ r', r.next = (.error e, r') := by
  have hlength := readLength_eq h hs 0 0
  rw [front_eq_error] at hfront
  rcases hfront with ⟨hpeek, rfl⟩ | ⟨len, size, hpeek, hlimit, rfl⟩
  · rw [show peekAt 0 0 p = _ from hpeek] at hlength
    obtain ⟨s', hread⟩ := hlength
    exact ⟨_, by rw [next, hread]⟩
  · rw [show peekAt 0 0 p = _ from hpeek] at hlength
    obtain ⟨s', hread, -⟩ := hlength
    refine ⟨{ r with source := s' }, ?_⟩
    rw [next, hread]
    dsimp only
    rw [if_pos hlimit]

/-- The answer to a request for a frame when less than one is left. -/
def cutFrame (last : LastAnswer) (p : Bytes) (v : Except DecodeFailure (Option Bytes)) : Prop :=
  match last with
  | none => v = if p = [] then .ok none else .error .truncated
  | some _ => ∃ e, v = .error e

/-- Less than a frame is read to its end. -/
theorem next_of_none (h : Serves readPatiently R last) (hs : R r.source p)
    (hfront : front r.limit p = .ok none) :
    ∃ v r', r.next = (v, r') ∧ cutFrame last p v ∧ r'.limit = r.limit ∧ R r'.source [] := by
  have hlength := readLength_eq h hs 0 0
  rw [front_eq_none] at hfront
  rcases hfront with hpeek | ⟨len, size, hpeek, hlimit, hshort⟩
  · rw [show peekAt 0 0 p = _ from hpeek] at hlength
    obtain ⟨s', hread, hs'⟩ := hlength
    rw [next, hread]
    cases last with
    | some f => exact ⟨_, _, rfl, ⟨_, rfl⟩, rfl, hs'⟩
    | none =>
      rw [cutLength, Nat.zero_add]
      by_cases hp : p = []
      · rw [if_pos (List.length_eq_zero_iff.mpr hp)]
        exact ⟨_, _, rfl, by rw [cutFrame, if_pos hp], rfl, hs'⟩
      · rw [if_neg (fun h0 => hp (List.length_eq_zero_iff.mp h0))]
        exact ⟨_, _, rfl, by rw [cutFrame, if_neg hp], rfl, hs'⟩
  · have hsize := size_of_peek hpeek
    rw [show peekAt 0 0 p = _ from hpeek] at hlength
    obtain ⟨s', hread, hs'⟩ := hlength
    obtain ⟨s₂, hexact, hs₂⟩ := readExact_of_lt h [] len hs'
      (by rw [List.length_drop]; omega)
    have hp : p ≠ [] := by
      rintro rfl
      rw [peek_nil] at hpeek
      cases hpeek
    rw [next, hread]
    dsimp only
    rw [if_neg (by omega), hexact]
    cases last with
    | none => exact ⟨_, _, rfl, by rw [cutFrame, if_neg hp], rfl, hs₂⟩
    | some f => exact ⟨_, _, rfl, ⟨_, rfl⟩, rfl, hs₂⟩

theorem next_of_some (h : Serves readPatiently R last) (hs : R r.source p) {body rest : Bytes}
    (hfront : front r.limit p = .ok (some (body, rest))) :
    ∃ r', r.next = (.ok (some body), r') ∧ r'.limit = r.limit ∧ R r'.source rest := by
  have hlength := readLength_eq h hs 0 0
  obtain ⟨len, size, hpeek, hlimit, hle, rfl, rfl⟩ := front_eq_some.mp hfront
  rw [show peekAt 0 0 p = _ from hpeek] at hlength
  obtain ⟨s', hread, hs'⟩ := hlength
  obtain ⟨s₂, hexact, hs₂⟩ := readExact_of_le h [] len hs'
    (by rw [List.length_drop]; omega)
  refine ⟨{ r with source := s₂ }, ?_, rfl, ?_⟩
  · rw [next, hread]
    dsimp only
    rw [if_neg (by omega), hexact]
    rfl
  · rw [List.drop_drop] at hs₂
    exact hs₂

end Frame.Reader

namespace Batch.Reader

/-! ## Batches -/

variable {R : Gzip.Reader → Bytes → Prop}

/-- **Batches on request are those of the payload**, and after them comes the verdict on what is
left. -/
theorem nextAll_eq (h : Serves readPatiently R last) (fuel : Nat) {r : Reader} {p : Bytes}
    (hs : R r.frames.source p) (hfuel : p.length < fuel) :
    ∃ v, r.nextAll fuel = ((scan r.frames.limit p).batches, v) ∧
      match (scan r.frames.limit p).failure? with
      | some e => v = .error e
      | none => last.Verdict (scan r.frames.limit p).rest v := by
  induction fuel generalizing r p with
  | zero => omega
  | succ fuel ih =>
    rw [nextAll, next]
    cases hf : front r.frames.limit p with
    | error e =>
      rw [scan_of_error hf]
      refine ⟨.error e, ?_, rfl⟩
      rcases front_eq_error.mp hf with hframe | ⟨body, rest, f, hframe, hdecode, rfl⟩
      · obtain ⟨r', hnext⟩ := Frame.Reader.next_of_error h hs hframe
        rw [hnext]
      · obtain ⟨r', hnext, -⟩ := Frame.Reader.next_of_some h hs hframe
        rw [hnext]
        dsimp only
        rw [hdecode]
    | ok found =>
      cases found with
      | none =>
        rw [scan_of_none hf]
        obtain ⟨v, r', hnext, hv, -⟩ := Frame.Reader.next_of_none h hs (front_eq_none.mp hf)
        rw [hnext]
        cases last with
        | some f =>
          obtain ⟨e, rfl⟩ := hv
          exact ⟨.error e, rfl, nofun⟩
        | none =>
          have hv : v = if p = [] then .ok none else .error .truncated := hv
          refine ⟨if p = [] then .ok () else .error .truncated, ?_, rfl⟩
          rw [hv]
          by_cases hp : p = []
          · rw [if_pos hp, if_pos hp]
          · rw [if_neg hp, if_neg hp]
      | some found =>
        obtain ⟨b, rest⟩ := found
        obtain ⟨body, hframe, hdecode⟩ := front_eq_some.mp hf
        have hlt := length_front hf
        obtain ⟨r', hnext, hlimit, hs'⟩ := Frame.Reader.next_of_some h hs hframe
        obtain ⟨v, hrest, hv⟩ := ih (r := ⟨r'⟩) hs' (by omega)
        rw [hnext, scan_of_some hf]
        dsimp only
        rw [hdecode]
        dsimp only at hrest hv ⊢
        rw [hlimit] at hrest hv
        rw [hrest]
        exact ⟨v, rfl, hv⟩

end Batch.Reader

end TraceRelay
