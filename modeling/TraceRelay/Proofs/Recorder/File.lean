import TraceRelay.Recorder.File
import TraceRelay.Proofs.Recorder.Lossless
import TraceRelay.Proofs.Storage

/-!
# What a recorder leaves in its file

A recorder whose output does not fail leaves in its file, behind what was there, the records of all
events that it accepted (`FileRecorder.read_store`).
-/

namespace TraceRelay.FileRecorder

open Recorder

variable {α : Type} {s s' : Storage} {path : String} {append : Bool} {encoder : Encoder α}
  {plan : ChannelPlan} {f : FileRecorder α}

/-! ## Records of messages -/

theorem records_rawDelimited (es : List Bytes) :
    records .rawDelimited es = es.flatMap Wire.block := rfl

theorem records_delimited [Message α] (es : List α) :
    records .delimited es = (es.map Message.encode).flatMap Wire.block := by
  rw [List.flatMap_map]; rfl

theorem recordable_rawDelimited (es : List Bytes) : recordable .rawDelimited es = es :=
  List.filter_eq_self.mpr fun _ _ => rfl

/-! ## Files -/

/-- A recorder that has just been started. -/
structure Started (s : Storage) (path : String) (append : Bool) (encoder : Encoder α)
    (f : FileRecorder α) (s' : Storage) : Prop where
  openFile : s.openFile path append = .ok (f.file, s')
  encoder : f.recorder.encoder = encoder
  open_ : f.recorder.intake.buffer.closed = false
  lossless : Lossless [] f.recorder

theorem fresh_ofFile (path : String) (file : Storage.File) (encoder : Encoder α)
    (plan : ChannelPlan) : (ofFile path file encoder plan).recorder.Fresh encoder plan :=
  ⟨rfl, rfl, rfl, rfl, rfl, rfl⟩

theorem start_spec (h : FileRecorder.start true s path append encoder plan = .ok (f, s'))
    (faultless : plan.Faultless) : Started s path append encoder f s' := by
  simp only [FileRecorder.start, Bool.not_true, Bool.false_eq_true, if_false] at h
  split at h
  · cases h
  · next file s₁ hopen =>
    cases h
    exact ⟨hopen, rfl, rfl, (fresh_ofFile path file encoder plan).lossless faultless⟩

/-- **What a recorder leaves in its file.** -/
theorem read_store (h : Started s path append encoder f s') {r : Recorder α} {ms : List (Move α)}
    {es : List α} (run : Run f.recorder ms es r) (ended : r.phase = .ended) :
    (({ f with recorder := r } : FileRecorder α).store s').read path =
      .ok (s.before append f.file.place ++ records encoder es) := by
  obtain ⟨haccepted, -, -⟩ := (run.lossless h.lossless).written ended
  rw [run.encoder, h.encoder] at haccepted
  rw [store, haccepted]
  exact (Storage.openFile_spec h.openFile).read_written _

end TraceRelay.FileRecorder
