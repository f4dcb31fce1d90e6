import TraceRelay.Gzip.Encoder
import TraceRelay.Proofs.Gzip.Growth

/-!
# What is asked of a way to compress

A method is sound if a reader can decompress what it gives: after every flush exactly the pieces so
far, and at the end all of them, with a trailer that agrees. From this follows what a reader makes
of a stream that was cut anywhere (`Sound.cut_flush`, `Sound.cut_complete`), and that a sound method
never gives nothing for something.
-/

namespace TraceRelay.Gzip

namespace Encoder

/-- The bytes that an encoder gives for some pieces, each flushed. -/
def flushAll (e : Encoder) : List Bytes → Bytes
  | [] => []
  | piece :: pieces => (e.flush piece).2 ++ (e.flush piece).1.flushAll pieces

/-- An encoder that has taken some more pieces. -/
def after (e : Encoder) (pieces : List Bytes) : Encoder := { e with pieces := e.pieces ++ pieces }

@[simp] theorem after_nil (e : Encoder) : e.after [] = e := by simp [after]

theorem after_after (e : Encoder) (ps qs : List Bytes) :
    (e.after ps).after qs = e.after (ps ++ qs) := by simp [after]

theorem flush_eq (e : Encoder) (piece : Bytes) :
    e.flush piece = (e.after [piece], e.method.emit e.level e.pieces piece) := rfl

theorem flushAll_append (e : Encoder) (ps qs : List Bytes) :
    e.flushAll (ps ++ qs) = e.flushAll ps ++ (e.after ps).flushAll qs := by
  induction ps generalizing e with
  | nil => simp [flushAll]
  | cons p ps ih =>
    rw [List.cons_append, flushAll, flushAll, ih, List.append_assoc, flush_eq, after_after]
    rfl

theorem flushAll_concat (e : Encoder) (ps : List Bytes) (p : Bytes) :
    e.flushAll (ps ++ [p]) = e.flushAll ps ++ ((e.after ps).flush p).2 := by
  rw [flushAll_append, flushAll, flushAll, List.append_nil]

/-- A whole stream. -/
def whole (e : Encoder) (pieces : List Bytes) : Bytes :=
  e.flushAll pieces ++ (e.after pieces).finish

end Encoder

/-- A reader can follow. -/
structure Method.Sound (m : Method) (level : Nat) : Prop where
  flushed : ∀ pieces, (Decoder.start.feedAll ((Encoder.start m level).flushAll pieces)).fault? = none ∧
    (Decoder.start.feedAll ((Encoder.start m level).flushAll pieces)).out.toList = pieces.flatten
  completed : ∀ pieces, (Decoder.start.feedAll ((Encoder.start m level).whole pieces)).agrees = true ∧
    (Decoder.start.feedAll ((Encoder.start m level).whole pieces)).out.toList = pieces.flatten

namespace Method.Sound

variable {m : Method} {level : Nat} (h : m.Sound level)
include h

/-- A stream cut within a flush: all earlier pieces are there, and some of the last. -/
theorem cut_flush (pieces : List Bytes) (piece : Bytes) {p : Bytes}
    (hp : p <+: (((Encoder.start m level).after pieces).flush piece).2) :
    (Decoder.start.feedAll ((Encoder.start m level).flushAll pieces ++ p)).fault? = none ∧
    ∃ q, q <+: piece ∧
      (Decoder.start.feedAll ((Encoder.start m level).flushAll pieces ++ p)).out.toList =
        pieces.flatten ++ q := by
  obtain ⟨hfault, hout⟩ := h.flushed (pieces ++ [piece])
  rw [Encoder.flushAll_concat] at hfault hout
  have hprefix := (List.prefix_append_right_inj ((Encoder.start m level).flushAll pieces)).mpr hp
  refine ⟨Decoder.fault?_of_prefix hprefix hfault, ?_⟩
  obtain ⟨q, hq⟩ := Decoder.out_prefix_of_prefix Decoder.start
    (List.prefix_append ((Encoder.start m level).flushAll pieces) p)
  rw [(h.flushed pieces).2] at hq
  refine ⟨q, ?_, hq.symm⟩
  have hall := Decoder.out_prefix_of_prefix Decoder.start hprefix
  rw [hout, ← hq, List.flatten_append, List.flatten_singleton] at hall
  exact (List.prefix_append_right_inj _).mp hall

/-- A stream cut within its end: all pieces are there. -/
theorem cut_complete (pieces : List Bytes) {p : Bytes}
    (hp : p <+: ((Encoder.start m level).after pieces).finish) :
    (Decoder.start.feedAll ((Encoder.start m level).flushAll pieces ++ p)).fault? = none ∧
    (Decoder.start.feedAll ((Encoder.start m level).flushAll pieces ++ p)).out.toList =
      pieces.flatten := by
  obtain ⟨hagrees, hout⟩ := h.completed pieces
  rw [Encoder.whole] at hagrees hout
  have hprefix := (List.prefix_append_right_inj ((Encoder.start m level).flushAll pieces)).mpr hp
  refine ⟨Decoder.fault?_of_prefix hprefix (Decoder.fault?_of_agrees hagrees), ?_⟩
  have hbefore := Decoder.out_prefix_of_prefix Decoder.start
    (List.prefix_append ((Encoder.start m level).flushAll pieces) p)
  have hafter := Decoder.out_prefix_of_prefix Decoder.start hprefix
  rw [(h.flushed pieces).2] at hbefore
  rw [hout] at hafter
  exact (hafter.eq_of_length (Nat.le_antisymm hafter.length_le hbefore.length_le))

/-- Something is given for every piece that is not empty. -/
theorem flush_ne_nil (pieces : List Bytes) {piece : Bytes} (hpiece : piece ≠ []) :
    (((Encoder.start m level).after pieces).flush piece).2 ≠ [] := by
  intro hnil
  have hout := (h.flushed (pieces ++ [piece])).2
  rw [Encoder.flushAll_concat, hnil, List.append_nil, (h.flushed pieces).2, List.flatten_append,
    List.flatten_singleton] at hout
  exact hpiece (List.self_eq_append_right.mp hout)

/-- Something is given to complete a stream: what is complete takes no further piece. -/
theorem finish_ne_nil (pieces : List Bytes) :
    ((Encoder.start m level).after pieces).finish ≠ [] := by
  intro hnil
  have hagrees := (h.completed pieces).1
  rw [Encoder.whole, hnil, List.append_nil] at hagrees
  have hmore := (h.flushed (pieces ++ [[0]])).1
  have hsome := List.length_pos_iff.mpr (h.flush_ne_nil pieces (List.cons_ne_nil 0 []))
  rw [Encoder.flushAll_concat, Decoder.feedAll_append] at hmore
  unfold Decoder.agrees at hagrees
  split at hagrees
  · next got hpart =>
    simp only [Bool.and_eq_true, beq_iff_eq] at hagrees
    have hfull := hagrees.1.1
    have := (Decoder.feedAll_of_trailer hpart hmore (by omega)).2
    omega
  · cases hagrees

end Method.Sound

end TraceRelay.Gzip
