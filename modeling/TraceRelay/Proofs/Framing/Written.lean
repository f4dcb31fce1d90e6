import TraceRelay.Proofs.Framing.Scan
import TraceRelay.Proofs.Wire.RoundTrip

/-!
# Batches as they are written

The frames that batches are written in give these batches again, for a reader whose limit admits them
(`scan_frames`). Of a frame that was cut a reader makes the whole batch or nothing
(`scan_cut`).
-/

namespace TraceRelay

/-- A block is a frame. -/
theorem Frame.front_block {limit : Nat} {body : Bytes} (rest : Bytes)
    (h : body.length < UInt64.size) :
    front limit (Wire.block body ++ rest) =
      if limit < body.length then .error (.frameTooLarge body.length limit)
      else .ok (some (body, rest)) := by
  have hpeek := peek_encode [] h
  rw [List.append_nil] at hpeek
  exact front_of_frame rest (by rw [hpeek, Varint.length_encode])

namespace Batch

variable {α : Type} [Message α] {limit : Nat}

/-- A reader admits the frame of these events. -/
def Admits (limit : Nat) (events : List α) : Prop := (ofEvents events).encode.length ≤ limit

theorem length_entry_le {b : Batch} {entry : Bytes} (h : entry ∈ b.entries) :
    entry.length ≤ b.encode.length := by
  obtain ⟨before, after, hsplit⟩ := List.append_of_mem h
  rw [encode, hsplit, List.flatMap_append, List.flatMap_cons, List.length_append,
    List.length_append, length_bytesField, entrySize]
  omega

/-- The frame of some events is read as their batch. -/
theorem front_frame (hlimit : limit < UInt64.size) {events : List α} (h : Admits limit events)
    (rest : Bytes) : front limit (frame events ++ rest) = .ok (some (ofEvents events, rest)) := by
  have hle : (ofEvents events).encode.length ≤ limit := h
  refine front_eq_some.mpr ⟨(ofEvents events).encode, ?_, ?_⟩
  · rw [frame_eq, Frame.front_block rest (by omega), if_neg (by omega)]
  · refine decode_encode _ fun entry hentry => ?_
    have := length_entry_le hentry
    omega

theorem frame_ne_nil (events : List α) : frame events ≠ [] := by
  rw [frame, append, List.nil_append]
  exact List.append_ne_nil_of_left_ne_nil (Varint.encode_ne_nil _) _

/-- **Frames give the batches that they were written for**, before whatever follows them. -/
theorem scan_frames_append (hlimit : limit < UInt64.size) {batches : List (List α)}
    (h : ∀ events ∈ batches, Admits limit events) (rest : Bytes) :
    scan limit ((batches.map frame).flatten ++ rest) =
      { scan limit rest with
        batches := batches.map ofEvents ++ (scan limit rest).batches } := by
  induction batches with
  | nil => rfl
  | cons events batches ih =>
    rw [List.map_cons, List.flatten_cons, List.append_assoc,
      scan_of_some (front_frame hlimit (h events (List.mem_cons_self ..)) _),
      ih fun events hmem => h events (List.mem_cons_of_mem _ hmem)]
    rfl

theorem scan_frames (hlimit : limit < UInt64.size) {batches : List (List α)}
    (h : ∀ events ∈ batches, Admits limit events) :
    scan limit (batches.map frame).flatten = ⟨batches.map ofEvents, [], none⟩ := by
  have := scan_frames_append hlimit h []
  rw [List.append_nil, scan_of_none (front_nil limit), List.append_nil] at this
  exact this

/-- What a reader makes of the beginning of a frame: all or nothing. -/
theorem scan_cut (hlimit : limit < UInt64.size) {events : List α} (h : Admits limit events)
    {q : Bytes} (hq : q <+: frame events) :
    scan limit q = ⟨[], q, none⟩ ∨
      (q = frame events ∧ scan limit q = ⟨[ofEvents events], [], none⟩) := by
  obtain ⟨more, hmore⟩ := hq
  have hframe := front_frame hlimit h []
  rw [List.append_nil, ← hmore] at hframe
  cases hfront : front limit q with
  | error e => rw [front_append_error more hfront] at hframe; cases hframe
  | ok found =>
    cases found with
    | none => exact .inl (scan_of_none hfront)
    | some found =>
      obtain ⟨b, rest⟩ := found
      rw [front_append_some more hfront] at hframe
      simp only [Except.ok.injEq, Option.some.injEq, Prod.mk.injEq, List.append_eq_nil_iff] at hframe
      obtain ⟨rfl, rfl, rfl⟩ := hframe
      rw [List.append_nil] at hmore
      exact .inr ⟨hmore, by rw [scan_of_some hfront, scan_of_none (front_nil limit)]⟩

/-! ## The events of batches -/

/-- The events of some batches, one after the other. -/
def allEvents (batches : List Batch) : Except Wire.Failure (List α) :=
  (batches.mapM events).map List.flatten

/-- A batch has the events that it was made of, if each of them is read back. -/
theorem events_ofEvents {es : List α}
    (lawful : ∀ e ∈ es, Message.decode (Message.encode e) = .ok e) : (ofEvents es).events = .ok es := by
  induction es with
  | nil => rfl
  | cons e es ih =>
    have hrest : (es.map Message.encode).mapM (Message.decode (α := α)) = .ok es :=
      ih fun e hmem => lawful e (List.mem_cons_of_mem _ hmem)
    rw [ofEvents, events, List.map_cons, List.mapM_cons, lawful e (List.mem_cons_self ..), hrest]
    rfl

theorem allEvents_ofEvents {batches : List (List α)}
    (lawful : ∀ es ∈ batches, ∀ e ∈ es, Message.decode (Message.encode e) = .ok e) :
    allEvents (batches.map ofEvents) = .ok batches.flatten := by
  have hall : (batches.map ofEvents).mapM (events (α := α)) = .ok batches := by
    induction batches with
    | nil => rfl
    | cons es batches ih =>
      rw [List.map_cons, List.mapM_cons, events_ofEvents (lawful es (List.mem_cons_self ..)),
        ih fun es hmem => lawful es (List.mem_cons_of_mem _ hmem)]
      rfl
  rw [allEvents, hall]
  rfl

end Batch

end TraceRelay
