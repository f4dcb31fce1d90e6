import TraceRelay.Proofs.Framing.Incremental
import TraceRelay.Proofs.Framing.Written

/-!
# Frames on either side of a limit

What becomes of frames, some of which are longer than the limit of whoever reads them.

1. `length_encode`: the frame of a batch is as long as those of its events, taken together.
2. `seen_frames_append`: frames within the limit come out, whatever follows them.
3. `seen_oversized`: a longer one is refused, and it is the last that is looked at.
4. `seen_cut`: of a frame that has not arrived as a whole nothing is seen but what would be seen of
   the whole.
-/

namespace TraceRelay.Batch

variable {α : Type} [Message α] {limit : Nat}

/-- How long the frames of some events, one event each, are together, without their prefixes. -/
def together : List α → Nat
  | [] => 0
  | e :: es => (ofEvents [e]).encode.length + together es

theorem together_append (a b : List α) : together (a ++ b) = together a + together b := by
  induction a with
  | nil => exact (Nat.zero_add _).symm
  | cons e es ih => rw [List.cons_append, together, together, ih, Nat.add_assoc]

/-- **A batch is as long as its events are together**: it is the number of events that makes a frame
long, however short each is. -/
theorem length_encode (events : List α) : (ofEvents events).encode.length = together events := by
  induction events with
  | nil => rfl
  | cons e es ih =>
    have hone : (ofEvents [e]).encode = Wire.bytesField 1 (Message.encode e) :=
      List.flatMap_singleton ..
    have hmore : (ofEvents (e :: es)).encode =
        Wire.bytesField 1 (Message.encode e) ++ (ofEvents es).encode := List.flatMap_cons
    rw [together, hone, hmore, List.length_append, ih]

theorem admits_iff {events : List α} : Admits limit events ↔ together events ≤ limit := by
  rw [Admits, length_encode]

/-- What a decoder gives for batches that it takes. -/
def given (batches : List (List α)) : List (Except DecodeFailure Batch) :=
  batches.map fun events => .ok (ofEvents events)

/-- What a decoder says of one batch. -/
def verdict (limit : Nat) (events : List α) : Except DecodeFailure Batch :=
  if together events ≤ limit then .ok (ofEvents events)
  else .error (.frameTooLarge (together events) limit)

/-- Frames that are admitted come out, and what follows them is looked at. -/
theorem seen_frames_append (hlimit : limit < UInt64.size) {batches : List (List α)}
    (h : ∀ events ∈ batches, together events ≤ limit) (rest : Bytes) :
    (scan limit ((batches.map frame).flatten ++ rest)).seen =
      given batches ++ (scan limit rest).seen := by
  rw [scan_frames_append hlimit fun events hmem => admits_iff.mpr (h events hmem)]
  simp only [Scan.seen, given, List.map_append, List.map_map, List.append_assoc]
  rfl

theorem front_oversized {events : List α} (hlarge : limit < together events)
    (hsize : together events < UInt64.size) (rest : Bytes) :
    front limit (frame events ++ rest) = .error (.frameTooLarge (together events) limit) := by
  rw [← length_encode] at hlarge hsize ⊢
  refine front_eq_error.mpr (.inl ?_)
  rw [frame_eq, Frame.front_block rest hsize, if_pos hlarge]

/-- A frame that is not admitted is the last thing seen. -/
theorem seen_oversized {events : List α} (hlarge : limit < together events)
    (hsize : together events < UInt64.size) (rest : Bytes) :
    (scan limit (frame events ++ rest)).seen =
      [.error (.frameTooLarge (together events) limit)] := by
  rw [scan_of_error (front_oversized hlarge hsize rest)]
  rfl

/-- A frame that is cut is seen as the whole would be, or not at all. -/
theorem seen_cut (hlimit : limit < UInt64.size) {events : List α}
    (hsize : together events < UInt64.size) {q : Bytes} (hq : q <+: frame events) :
    (scan limit q).seen = [] ∨ (scan limit q).seen = [verdict limit events] := by
  unfold verdict
  by_cases hfits : together events ≤ limit
  · rw [if_pos hfits]
    rcases scan_cut hlimit (admits_iff.mpr hfits) hq with hcut | ⟨-, hwhole⟩
    · exact .inl (by rw [hcut]; rfl)
    · exact .inr (by rw [hwhole]; rfl)
  · rw [if_neg hfits]
    obtain ⟨more, hmore⟩ := hq
    have hwhole := front_oversized (Nat.lt_of_not_le hfits) hsize []
    rw [List.append_nil, ← hmore] at hwhole
    cases hfront : front limit q with
    | error e =>
      rw [front_append_error more hfront] at hwhole
      cases hwhole
      exact .inr (by rw [scan_of_error hfront]; rfl)
    | ok found =>
      cases found with
      | none => exact .inl (by rw [scan_of_none hfront]; rfl)
      | some found =>
        rw [front_append_some more hfront] at hwhole
        cases hwhole

end TraceRelay.Batch
