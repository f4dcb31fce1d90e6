import TraceRelay.Proofs.Framing.OnRequest
import TraceRelay.Proofs.Framing.Written

/-!
# Trace files

A file of blocks is read block by block (`Reader.nextAll_blocks`), so the events that were written to
it are read from it (`readEvents_written`).
-/

namespace TraceRelay.Frame

open ByteSource

variable {σ : Type} [ByteSource σ] {R : σ → Bytes → Prop} {r : Reader σ}

theorem Reader.nextAll_blocks (h : Serves readPatiently R none) (hlimit : r.limit < UInt64.size)
    {bodies : List Bytes} (fits : ∀ body ∈ bodies, body.length ≤ r.limit) {fuel : Nat}
    (hs : R r.source (bodies.flatMap Wire.block)) (hfuel : bodies.length < fuel) :
    r.nextAll fuel = (bodies, .ok ()) := by
  induction bodies generalizing r fuel with
  | nil =>
    obtain ⟨fuel, rfl⟩ : ∃ n, fuel = n + 1 := Nat.exists_eq_succ_of_ne_zero (by omega)
    obtain ⟨v, r', hnext, hv, -⟩ := next_of_none h hs (front_nil _)
    have hv : v = .ok none := hv
    rw [nextAll, hnext, hv]
  | cons body bodies ih =>
    obtain ⟨fuel, rfl⟩ : ∃ n, fuel = n + 1 := Nat.exists_eq_succ_of_ne_zero (by omega)
    have hbody : body.length ≤ r.limit := fits body (List.mem_cons_self ..)
    rw [List.flatMap_cons] at hs
    obtain ⟨r', hnext, hsame, hs'⟩ := next_of_some h hs
      ((front_block _ (by omega)).trans (if_neg (by omega)))
    have hrest : r'.nextAll fuel = (bodies, .ok ()) := ih (by rw [hsame]; exact hlimit)
      (fun body hmem => by rw [hsame]; exact fits body (List.mem_cons_of_mem _ hmem)) hs'
      (by rw [List.length_cons] at hfuel; omega)
    rw [nextAll, hnext]
    dsimp only
    rw [hrest]

variable {α : Type} [Message α]

/-- Every record of a file of events is a byte long at least. -/
theorem length_le_flatMap_block (bodies : List Bytes) :
    bodies.length ≤ (bodies.flatMap Wire.block).length := by
  induction bodies with
  | nil => exact Nat.le_refl _
  | cons body bodies ih =>
    have hpos := List.length_pos_iff.mpr (Varint.encode_ne_nil body.length)
    rw [List.flatMap_cons, List.length_append, List.length_cons, Wire.block, List.length_append]
    omega

/-- A file of bodies that are read one by one is read as a whole. -/
theorem readEvents_blocks {bodies : List Bytes} {events : List α}
    (fits : ∀ body ∈ bodies, body.length ≤ defaultLimit)
    (hdecode : bodies.mapM Message.decode = .ok events) :
    readEvents (bodies.flatMap Wire.block) = .ok events := by
  have hle := length_le_flatMap_block bodies
  have hlimit : defaultLimit < UInt64.size := by decide
  have hread : (Reader.ofSource (Source.ofBytes (bodies.flatMap Wire.block))).nextAll
      ((bodies.flatMap Wire.block).length + 1) = (bodies, .ok ()) :=
    Reader.nextAll_blocks Source.serves hlimit fits ⟨rfl, Source.calm_ofBytes _⟩
      (Nat.lt_succ_of_le hle)
  rw [readEvents, hread]
  dsimp only
  rw [hdecode]
  rfl

/-- **The events that were written to a file are read from it.** -/
theorem readEvents_written {events : List α}
    (fits : ∀ e ∈ events, (Message.encode e).length ≤ defaultLimit)
    (lawful : ∀ e ∈ events, Message.decode (Message.encode e) = .ok e) :
    readEvents ((events.map Message.encode).flatMap Wire.block) = .ok events :=
  readEvents_blocks (List.forall_mem_map.mpr fits) (Batch.events_ofEvents lawful)

end TraceRelay.Frame
