import TraceRelay.Proofs.Recorder.File
import TraceRelay.Proofs.Trail

/-!
# The whole life of a recorder whose output does not fail

1. `Run.calls`: the trace calls before the close are counted as traced, those after it as dropped.
2. `closings`: what the output has accepted each time that a close of it comes to an end.
   `Run.closings`: that is once, and then nothing more is written.
3. `whole_life`: with what `Lossless` says of the records, all that is left of a recorder's life.
-/

namespace TraceRelay.Recorder

variable {α : Type} {r₀ r r' : Recorder α} {ms : List (Move α)} {es : List α} {encoder : Encoder α}
  {plan : ChannelPlan}

/-! ## Calls -/

/-- The counters of calls. -/
def calls (t : Tally) : List UInt64 := [t.eventsTraced, t.eventsDropped]

/-- A step of its own counts no call. -/
theorem Work.calls (w : Work r r') : calls r'.intake.tally = calls r.intake.tally := by
  have hcomplain : ∀ (r : Recorder α) (message error : String),
      Recorder.calls (r.complain message error).intake.tally = Recorder.calls r.intake.tally :=
    fun _ _ _ => congrArg _ (Intake.tally_logAll _ _)
  cases w with
  | encodeFails | throughFails | outputFlushFails => exact hcomplain _ _ _
  | roomWaits at_ ready out | roomMade at_ ready out | flushPart at_ ready some_ out
  | finishPart at_ ready some_ out | finishFails at_ ready some_ out =>
    obtain ⟨_, _, rfl, -⟩ := writeOut_spec out
    rfl
  | roomFails at_ ready out | flushFails at_ ready some_ out =>
    obtain ⟨_, _, rfl, -⟩ := writeOut_spec out
    exact hcomplain _ _ _
  | _ => rfl

theorem Run.calls (run : Run r₀ ms es r) (fresh : r₀.Fresh encoder plan) :
    Recorder.calls r.intake.tally = [.ofNat (early ms).length, .ofNat (late ms).length] := by
  have hopen : r₀.intake.buffer.closed = false := by rw [fresh.buffer]; rfl
  induction run with
  | start => rw [fresh.tally]; rfl
  | @move ms es r r' m run h ih =>
    have hclosed := (run.accepted hopen).1
    rw [early_concat, late_concat, ← hclosed]
    have hquiet : traced [m] = [] → Recorder.calls r'.intake.tally = Recorder.calls r.intake.tally →
        Recorder.calls r'.intake.tally =
          [.ofNat (early ms ++ if r.intake.buffer.closed then [] else traced [m]).length,
            .ofNat (late ms ++ if r.intake.buffer.closed then traced [m] else []).length] := by
      intro hnone hsame
      rw [hsame, ih, hnone, ite_self, List.append_nil, List.append_nil]
    cases m with
    | trace e =>
      cases h
      simp only [Recorder.calls, List.cons.injEq, and_true] at ih ⊢
      obtain ⟨htraced, hdropped⟩ := ih
      cases hnow : r.intake.buffer.closed with
      | true =>
        rw [trace_eq, Intake.trace_of_closed hnow]
        simp [Tally.dropped, htraced, hdropped, traced, UInt64.ofNat_add]
      | false =>
        rw [trace_eq, Intake.trace_of_open hnow]
        simp [Tally.traced, htraced, hdropped, traced, UInt64.ofNat_add]
    | close => cases h; exact hquiet rfl (congrArg _ (Intake.tally_close _))
    | abandon => cases h; exact hquiet rfl rfl
    | advance t =>
      rw [Recorder.move, Option.ite_none_right_eq_some] at h
      obtain ⟨-, ⟨⟩⟩ := h
      exact hquiet rfl rfl
    | work => exact hquiet rfl (work_cases h).calls

/-! ## The close of the output -/

/-- Whether the output is being closed. -/
def isClosing (r : Recorder α) : Bool := r.phase matches .closingOutput

/-- What the output has accepted when, in a move, a close of it comes to an end. -/
def closing (r : Recorder α) : Move α → List Bytes
  | .work => if r.isClosing && (r.output.close r.clock).2.isSome then [r.output.accepted] else []
  | _ => []

def closings (r₀ : Recorder α) (ms : List (Move α)) : List Bytes := Trail.along move closing r₀ ms

/-- A step that neither closes the output nor ends. -/
theorem closing_of_not (elsewhere : r.isClosing = false) (now : r'.isEnded = false) :
    r.closing .work = if r'.isEnded then [r'.output.accepted] else [] := by
  rw [now, closing, elsewhere]
  rfl

theorem isEnded_endRound (r : Recorder α) (last : Bool) : (r.endRound last).isEnded = false := by
  cases last <;> rfl

/-- The one step that ends is that in which the output has been closed. -/
theorem Work.closing (w : Work r r') (h : Orderly r) :
    r.closing .work = if r'.isEnded then [r'.output.accepted] else [] := by
  cases w with
  | @closeWaits output at_ ready close =>
    have hnow : ({ r with output } : Recorder α).isEnded = false := by rw [isEnded, at_]
    rw [hnow, Recorder.closing, isClosing, at_]
    simp [close]
  | @closed output at_ ready close =>
    have haccepted := (r.output.close_spec r.clock).1
    rw [close] at haccepted
    rw [Recorder.closing, isClosing, at_]
    simp [close, leave, isEnded, ← haccepted]
  | closeFails at_ ready close =>
    rcases (Channel.close_faultless h.faultless r.clock).2 with hresult | hresult
    · rw [close] at hresult; cases hresult
    · rw [close] at hresult; cases hresult
  | finishFails at_ ready some_ out => exact absurd rfl ((h.writeOut some_ out).2 _)
  | roomWaits at_ ready out | flushPart at_ ready some_ out | finishPart at_ ready some_ out =>
    obtain ⟨_, _, rfl, -⟩ := writeOut_spec out
    exact closing_of_not (by rw [isClosing, at_]) (by rw [isEnded, at_])
  | throughWaits at_ => exact closing_of_not (by rw [isClosing, at_]) (by rw [isEnded, at_])
  | takeNothing at_ | flushFails at_ | outputFlushed at_ | outputFlushFails at_ =>
    exact closing_of_not (by rw [isClosing, at_]) (isEnded_endRound _ _)
  | start at_ | wake at_ | close at_ | take at_ | encoded at_ | encode at_ | encodeFails at_
  | written at_ | wait at_ | hold at_ | throughFails at_ | throughPart at_ | roomMade at_
  | roomFails at_ | flushed at_ | finished at_ =>
    exact closing_of_not (by rw [isClosing, at_]) rfl

/-- Once a recorder has ended, its output has been closed once, with all that it has accepted. -/
theorem Run.closings (run : Run r₀ ms es r) (start : Lossless [] r₀) (running : r₀.isEnded = false) :
    Recorder.closings r₀ ms = if r.isEnded then [r.output.accepted] else [] := by
  induction run with
  | start => rw [running]; rfl
  | @move ms es r r' m run h ih =>
    rw [show Recorder.closings r₀ (ms ++ [m]) = Recorder.closings r₀ ms ++ r.closing m from
      Trail.along_concat run.foldlM_move m, ih]
    cases m with
    | trace e => cases h; exact List.append_nil _
    | close => cases h; exact List.append_nil _
    | abandon => cases h; exact List.append_nil _
    | advance t =>
      rw [Recorder.move, Option.ite_none_right_eq_some] at h
      obtain ⟨-, ⟨⟩⟩ := h
      exact List.append_nil _
    | work =>
      have hbefore : r.isEnded = false := by
        cases hended : r.isEnded with
        | true => rw [Recorder.move, work, isEnded_iff.mp hended] at h; cases h
        | false => rfl
      rw [hbefore, (work_cases h).closing (run.lossless start).orderly]
      rfl

/-! ## The whole life -/

/-- What is left of a recorder that has ended, in numbers of the events traced before the close and
after it. -/
structure Complete (encoder : Encoder α) (r₀ : Recorder α) (ms : List (Move α)) (r : Recorder α) :
    Prop where
  accepted : r.output.accepted = records encoder (early ms)
  eventsTraced : r.intake.tally.eventsTraced = .ofNat (early ms).length
  eventsDropped : r.intake.tally.eventsDropped = .ofNat (late ms).length
  eventsWritten : r.intake.tally.eventsWritten = .ofNat (recordable encoder (early ms)).length
  bytesWritten : r.intake.tally.bytesWritten = .ofNat (records encoder (early ms)).length
  encodeErrors : r.intake.tally.encodeErrors =
    .ofNat ((early ms).filter fun e => (encoder e).failure?.isSome).length
  writeErrors : r.intake.tally.writeErrors = 0
  closings : closings r₀ ms = [records encoder (early ms)]
  outcome : r.output.outcome = .closed

theorem length_unrecordable (encoder : Encoder α) (es : List α) :
    es.length - (recordable encoder es).length =
      (es.filter fun e => (encoder e).failure?.isSome).length := by
  have hsum := es.length_eq_length_filter_add fun e => (encoder e).failure?.isNone
  simp only [Option.not_isNone] at hsum
  rw [recordable]
  omega

theorem Run.complete (run : Run r₀ ms es r) (fresh : r₀.Fresh encoder plan)
    (faultless : plan.Faultless) (ended : r.phase = .ended) : Complete encoder r₀ ms r := by
  have hlossless := fresh.lossless faultless
  obtain ⟨haccepted, hcounts, houtcome⟩ := (run.lossless hlossless).written ended
  have hcalls := run.calls fresh
  have hclosings := run.closings hlossless (isEnded_eq_false fresh.phase nofun)
  rw [run.encoder, fresh.encoder, (run.accepted (by rw [fresh.buffer]; rfl)).2]
    at haccepted hcounts
  rw [isEnded_iff.mpr ended, if_pos rfl, haccepted] at hclosings
  simp only [counts, countsOf, length_unrecordable, List.cons.injEq, and_true] at hcounts
  simp only [Recorder.calls, List.cons.injEq, and_true] at hcalls
  obtain ⟨hwritten, hbytes, herrors, hfailures⟩ := hcounts
  exact ⟨haccepted, hcalls.1, hcalls.2, hwritten, hbytes, herrors, hfailures, hclosings, houtcome⟩

/-- **A recorder whose output does not fail loses nothing.** When it has ended, its output has accepted
the record of every event traced before the close, in order and once each, and was then closed; the
events that could not be encoded, and those that came too late, are counted and leave nothing else. A
file holds these records behind what it held when it was opened. -/
theorem whole_life (fresh : r₀.Fresh encoder plan) (faultless : plan.Faultless)
    (run : Run r₀ ms es r) (ended : r.phase = .ended) :
    Complete encoder r₀ ms r ∧
    ∀ (s s' : Storage) (path : String) (append : Bool) (f : FileRecorder α),
      FileRecorder.start true s path append encoder plan = .ok (f, s') → f.recorder = r₀ →
      let file := (({ f with recorder := r } : FileRecorder α).store s').read path
      file = .ok (s.before append f.file.place ++ records encoder (early ms)) ∧
      (append = false → file = .ok (records encoder (early ms))) ∧
      (append = true → ∀ content, s.read path = .ok content →
        file = .ok (content ++ records encoder (early ms))) := by
  refine ⟨run.complete fresh faultless ended, ?_⟩
  intro s s' path append f hstart hf file
  subst hf
  have hstarted := FileRecorder.start_spec hstart faultless
  have hfile : file = .ok (s.before append f.file.place ++ records encoder (early ms)) := by
    rw [← (run.accepted hstarted.open_).2]
    exact FileRecorder.read_store hstarted run ended
  refine ⟨hfile, ?_, ?_⟩
  · rintro rfl
    rw [hfile, Storage.before_false, List.nil_append]
  · rintro rfl content hread
    rw [hfile, (Storage.openFile_spec hstarted.openFile).before_of_read hread]

/-! ## A life with everything in it -/

/-- Cannot encode a single byte, and finds out when it has appended something. -/
def picky : Encoder Bytes := fun b =>
  if b.length = 1 then ⟨[255], some (.json "too short")⟩ else ⟨Wire.block b, none⟩

/-- Takes a few bytes at a time, and makes the writer wait. -/
def hesitating : ChannelPlan :=
  { writes := ⟨[.upTo 1, .waits 5], .upTo 2⟩, closes := ⟨[.waits 5], .succeeds⟩ }

theorem faultless_hesitating : hesitating.Faultless where
  writes turn h := by
    rcases h with h | rfl
    · simp only [hesitating, List.mem_cons, List.not_mem_nil, or_false] at h
      rcases h with rfl | rfl <;> exact ⟨nofun, nofun⟩
    · exact ⟨nofun, nofun⟩
  flushes := ChannelPlan.faultless_default.flushes
  closes turn h := by
    rcases h with h | rfl
    · simp only [hesitating, List.mem_cons, List.not_mem_nil, or_false] at h
      subst h
      nofun
    · nofun

/-- A storage with one file. -/
def oneFile : Storage := ⟨[(["t"], .file [7])]⟩

def pickyRecorder : FileRecorder Bytes := .ofFile "t" ⟨["t"], true, 0⟩ picky hesitating

theorem start_pickyRecorder :
    FileRecorder.start true oneFile "t" true picky hesitating = .ok (pickyRecorder, oneFile) := by
  have hopen : oneFile.openFile "t" true = .ok (⟨["t"], true, 0⟩, oneFile) := by
    rw [Storage.openFile, Storage.placeOf, Storage.names_letter (.inl rfl)]
    rfl
  unfold FileRecorder.start
  rw [hopen]
  rfl

/-- The second event cannot be encoded, the third comes while the first is being written, and the
fourth after the close. -/
def fullLife : List (Move Bytes) :=
  List.flatten [[.trace [1, 2], .trace [9]], List.replicate 9 .work,
    [.advance 5, .trace [3, 4], .close, .trace [5, 6]], List.replicate 16 .work,
    [.advance 10, .work]]

theorem whole_life_picky : ∃ es r, Run pickyRecorder.recorder fullLife es r ∧ r.phase = .ended ∧
    FileRecorder.start true oneFile "t" true picky hesitating = .ok (pickyRecorder, oneFile) ∧
    early fullLife = [[1, 2], [9], [3, 4]] ∧ late fullLife = [[5, 6]] ∧
    Complete picky pickyRecorder.recorder fullLife r ∧
    (({ pickyRecorder with recorder := r } : FileRecorder Bytes).store oneFile).read "t" =
      .ok ([7] ++ [2, 1, 2, 2, 3, 4]) := by
  have hmoves : (pickyRecorder.recorder.moves fullLife).map (fun (_, r) => r.isEnded) =
      some true := by decide +kernel
  rw [Option.map_eq_some_iff] at hmoves
  obtain ⟨⟨es, r⟩, hmoves, hended⟩ := hmoves
  have hrun : Run pickyRecorder.recorder fullLife es r := Run.start.moves hmoves
  have hphase : r.phase = .ended := isEnded_iff.mp hended
  have hrecords : records picky (early fullLife) = [2, 1, 2, 2, 3, 4] := by decide +kernel
  obtain ⟨hcomplete, hfile⟩ :=
    whole_life (FileRecorder.fresh_ofFile "t" ⟨["t"], true, 0⟩ picky hesitating) faultless_hesitating
      hrun hphase
  refine ⟨es, r, hrun, hphase, start_pickyRecorder, rfl, rfl, hcomplete, ?_⟩
  rw [← hrecords]
  exact (hfile oneFile oneFile "t" true pickyRecorder start_pickyRecorder rfl).1

end TraceRelay.Recorder
