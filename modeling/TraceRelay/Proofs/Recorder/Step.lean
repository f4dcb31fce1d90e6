import TraceRelay.Proofs.Channel
import TraceRelay.Proofs.Intake
import TraceRelay.Recorder

/-!
# What a recorder can do

A recorder is moved by its callers, by time, and by its own work. `Work` says in named cases everything
that one step of its work can come to, with what it was that the step found (`work_cases`). What is
proved of a recorder is proved from these cases.

Three phases write out what is held; `writeOut_spec` says what such a call does, whatever its result.
-/

namespace TraceRelay.Recorder

variable {α : Type}

/-! ## Moves -/

/-- What may come next: a call, time, or a step of the recorder's own. -/
inductive Move (α : Type) where
  | trace (e : α)
  | close
  | abandon
  | advance (t : Nat)
  | work

/-- The recorder after a move; none if it cannot be made. Time does not run backwards. -/
def move (r : Recorder α) : Move α → Option (Recorder α)
  | .trace e => some (r.trace e)
  | .close => some r.close
  | .abandon => some r.abandon
  | .advance t => if r.clock ≤ t then some (r.advance t) else none
  | .work => r.work

/-! ## Writing out -/

theorem writeOut_spec {r r' : Recorder α} {result : Option (Except Fault Bool)}
    (h : r.writeOut = (r', result)) :
    ∃ output held, r' = { r with output, held } ∧
      output.accepted ++ held.held = r.output.accepted ++ r.held.held ∧
      output.outcome = r.output.outcome ∧ (result = none → held = r.held) ∧
      ∀ all, result = some (.ok all) → all = held.isEmpty := by
  obtain ⟨haccepted, hle, houtcome⟩ := r.output.write_spec r.clock r.held.held
  unfold writeOut at h
  generalize r.output.write r.clock r.held.held = written at h haccepted hle houtcome
  obtain ⟨output, answer⟩ := written
  dsimp only at haccepted hle houtcome
  cases answer with
  | none =>
    cases h
    have haccepted : output.accepted = r.output.accepted := haccepted.trans (List.append_nil _)
    exact ⟨output, r.held, rfl, by rw [haccepted], houtcome, fun _ => rfl, nofun⟩
  | some answer =>
    cases answer with
    | error f =>
      cases h
      have haccepted : output.accepted = r.output.accepted := haccepted.trans (List.append_nil _)
      exact ⟨output, r.held, rfl, by rw [haccepted], houtcome, nofun, nofun⟩
    | ok n =>
      cases n with
      | zero =>
        cases h
        have haccepted : output.accepted = r.output.accepted := haccepted.trans (List.append_nil _)
        exact ⟨output, r.held, rfl, by rw [haccepted], houtcome, nofun, nofun⟩
      | succ n =>
        cases h
        refine ⟨output, r.held.drop (n + 1), rfl, ?_, houtcome, nofun, ?_⟩
        · show output.accepted ++ r.held.held.drop (n + 1) = _
          rw [haccepted, Channel.took, List.append_assoc, List.take_append_drop]
        · rintro all h
          cases h
          rfl

/-! ## Work -/

/-- What one step of its own work can come to. -/
inductive Work (r : Recorder α) : Recorder α → Prop where
  | start (at_ : r.phase = .starting) :
      Work r { r with intake := r.intake.report .info "file tracer starting" [], phase := .waiting }
  | wake (at_ : r.phase = .waiting) (wait : r.intake.wait.2 = some .wake) :
      Work r { r with intake := r.intake.wait.1, phase := .collecting false }
  | close (at_ : r.phase = .waiting) (wait : r.intake.wait.2 = some .closed) :
      Work r { r with intake := r.intake.wait.1, phase := .collecting true }
  | takeNothing {last : Bool} (at_ : r.phase = .collecting last)
      (events : r.intake.buffer.events = #[]) :
      Work r ({ r with intake := (r.intake.swap #[]).1 }.endRound last)
  | take {last : Bool} (at_ : r.phase = .collecting last) (events : r.intake.buffer.events ≠ #[]) :
      Work r { r with
        intake := (r.intake.swap #[]).1
        phase := .encoding r.intake.buffer.events.toList last }
  | encoded {last : Bool} (at_ : r.phase = .encoding [] last) :
      Work r { r with phase := .flushing last }
  | encode {e : α} {left : List α} {last : Bool} (at_ : r.phase = .encoding (e :: left) last)
      (fine : (r.encoder e).failure? = none) :
      Work r { r with
        encoded := (r.encoder e).appended
        phase := .writing (r.encoder e).appended.length (r.encoder e).appended left last }
  | encodeFails {e : α} {left : List α} {last : Bool} {f : EncodeFailure}
      (at_ : r.phase = .encoding (e :: left) last) (failure : (r.encoder e).failure? = some f) :
      Work r (({ r with encoded := (r.encoder e).appended }.encodeFailed f).proceed left last)
  | written {size : Nat} {left : List α} {last : Bool} (at_ : r.phase = .writing size [] left last)
      (ready : r.output.isReady r.clock = true) : Work r (r.recorded size left last)
  | wait {size : Nat} {rest : Bytes} {left : List α} {last : Bool}
      (at_ : r.phase = .writing size rest left last) (ready : r.output.isReady r.clock = true)
      (some_ : rest ≠ []) (way : r.held.way rest = .waits) :
      Work r { r with phase := .makingRoom size rest left last }
  | hold {size : Nat} {rest : Bytes} {left : List α} {last : Bool}
      (at_ : r.phase = .writing size rest left last) (ready : r.output.isReady r.clock = true)
      (some_ : rest ≠ []) (way : r.held.way rest = .held) :
      Work r ({ r with held := r.held.hold rest }.recorded size left last)
  | throughWaits {size : Nat} {rest : Bytes} {left : List α} {last : Bool} {output : Channel}
      (at_ : r.phase = .writing size rest left last) (ready : r.output.isReady r.clock = true)
      (some_ : rest ≠ []) (way : r.held.way rest = .through)
      (write : r.output.write r.clock rest = (output, none)) : Work r { r with output }
  | throughFails {size : Nat} {rest : Bytes} {left : List α} {last : Bool} {output : Channel}
      {result : Option (Except Fault Nat)} {f : Fault}
      (at_ : r.phase = .writing size rest left last) (ready : r.output.isReady r.clock = true)
      (some_ : rest ≠ []) (way : r.held.way rest = .through)
      (write : r.output.write r.clock rest = (output, result))
      (failure : result = some (.error f) ∨ result = some (.ok 0) ∧ f = .writeZero) :
      Work r (({ r with output }.writeFailed f).proceed left last)
  | throughPart {size n : Nat} {rest : Bytes} {left : List α} {last : Bool} {output : Channel}
      (at_ : r.phase = .writing size rest left last) (ready : r.output.isReady r.clock = true)
      (some_ : rest ≠ []) (way : r.held.way rest = .through)
      (write : r.output.write r.clock rest = (output, some (.ok n))) (took : n ≠ 0) :
      Work r { r with output, phase := .writing size (rest.drop n) left last }
  | roomWaits {size : Nat} {rest : Bytes} {left : List α} {last : Bool} {r' : Recorder α}
      {result : Option (Except Fault Bool)} (at_ : r.phase = .makingRoom size rest left last)
      (ready : r.output.isReady r.clock = true) (out : r.writeOut = (r', result))
      (more : result = none ∨ result = some (.ok false)) : Work r r'
  | roomMade {size : Nat} {rest : Bytes} {left : List α} {last : Bool} {r' : Recorder α}
      (at_ : r.phase = .makingRoom size rest left last) (ready : r.output.isReady r.clock = true)
      (out : r.writeOut = (r', some (.ok true))) :
      Work r { r' with phase := .writing size rest left last }
  | roomFails {size : Nat} {rest : Bytes} {left : List α} {last : Bool} {r' : Recorder α} {f : Fault}
      (at_ : r.phase = .makingRoom size rest left last) (ready : r.output.isReady r.clock = true)
      (out : r.writeOut = (r', some (.error f))) : Work r ((r'.writeFailed f).proceed left last)
  | flushed {last : Bool} (at_ : r.phase = .flushing last) (ready : r.output.isReady r.clock = true)
      (none_held : r.held.held = []) : Work r { r with phase := .flushingOutput last }
  | flushPart {last : Bool} {r' : Recorder α} {result : Option (Except Fault Bool)}
      (at_ : r.phase = .flushing last) (ready : r.output.isReady r.clock = true)
      (some_held : r.held.held ≠ []) (out : r.writeOut = (r', result))
      (fine : ∀ f, result ≠ some (.error f)) : Work r r'
  | flushFails {last : Bool} {r' : Recorder α} {f : Fault} (at_ : r.phase = .flushing last)
      (ready : r.output.isReady r.clock = true) (some_held : r.held.held ≠ [])
      (out : r.writeOut = (r', some (.error f))) : Work r ((r'.flushFailed f).endRound last)
  | outputFlushed {last : Bool} {output : Channel} (at_ : r.phase = .flushingOutput last)
      (ready : r.output.isReady r.clock = true) (flush : r.output.flush = (output, .ok ())) :
      Work r ({ r with output }.endRound last)
  | outputFlushFails {last : Bool} {output : Channel} {f : Fault}
      (at_ : r.phase = .flushingOutput last) (ready : r.output.isReady r.clock = true)
      (flush : r.output.flush = (output, .error f)) :
      Work r (({ r with output }.flushFailed f).endRound last)
  | finished (at_ : r.phase = .finishing) (ready : r.output.isReady r.clock = true)
      (none_held : r.held.held = []) : Work r { r with phase := .closingOutput }
  | finishPart {r' : Recorder α} {result : Option (Except Fault Bool)} (at_ : r.phase = .finishing)
      (ready : r.output.isReady r.clock = true) (some_held : r.held.held ≠ [])
      (out : r.writeOut = (r', result)) (fine : ∀ f, result ≠ some (.error f)) : Work r r'
  | finishFails {r' : Recorder α} {f : Fault} (at_ : r.phase = .finishing)
      (ready : r.output.isReady r.clock = true) (some_held : r.held.held ≠ [])
      (out : r.writeOut = (r', some (.error f))) : Work r (r'.closeFailed f).leave
  | closeWaits {output : Channel} (at_ : r.phase = .closingOutput)
      (ready : r.output.isReady r.clock = true) (close : r.output.close r.clock = (output, none)) :
      Work r { r with output }
  | closed {output : Channel} (at_ : r.phase = .closingOutput)
      (ready : r.output.isReady r.clock = true)
      (close : r.output.close r.clock = (output, some (.ok ()))) : Work r { r with output }.leave
  | closeFails {output : Channel} {f : Fault} (at_ : r.phase = .closingOutput)
      (ready : r.output.isReady r.clock = true)
      (close : r.output.close r.clock = (output, some (.error f))) :
      Work r ({ r with output }.closeFailed f).leave

/-! ## The cases are all -/

theorem onOutput_eq_some {r r' next : Recorder α} :
    r.onOutput next = some r' ↔ r.output.isReady r.clock = true ∧ next = r' := by
  unfold onOutput
  split
  · next h => simp [h]
  · next h => simp [h]

theorem collect_cases {r : Recorder α} {last : Bool} (at_ : r.phase = .collecting last) :
    Work r (r.collect last) := by
  by_cases hempty : r.intake.buffer.events = #[]
  · have htaken : (r.intake.swap #[]).2 = #[] := hempty
    have hcollect : r.collect last = { r with intake := (r.intake.swap #[]).1 }.endRound last := by
      simp only [collect, htaken, List.isEmpty_toArray, List.isEmpty_nil, if_true]
    rw [hcollect]
    exact .takeNothing at_ hempty
  · have hsome : ¬ r.intake.buffer.events.isEmpty = true := fun h => hempty (Array.isEmpty_iff.mp h)
    have htaken : (r.intake.swap #[]).2 = r.intake.buffer.events := rfl
    have := Work.take at_ hempty
    simp only [collect, htaken, if_neg hsome]
    exact this

/-- Nothing of what was encoded before is left. -/
theorem encode_eq (r : Recorder α) (e : α) :
    r.encode e = ({ r with encoded := (r.encoder e).appended }, (r.encoder e).failure?) := rfl

theorem encodeNext_cases {r : Recorder α} {left : List α} {last : Bool}
    (at_ : r.phase = .encoding left last) : Work r (r.encodeNext left last) := by
  cases left with
  | nil => exact .encoded at_
  | cons e left =>
    simp only [encodeNext, encode_eq]
    cases hfailure : (r.encoder e).failure? with
    | some f => exact .encodeFails at_ hfailure
    | none => exact .encode at_ hfailure

theorem write_cases {r : Recorder α} {size : Nat} {rest : Bytes} {left : List α} {last : Bool}
    (at_ : r.phase = .writing size rest left last) (ready : r.output.isReady r.clock = true) :
    Work r (r.write size rest left last) := by
  unfold write
  by_cases hrest : rest = []
  · subst hrest
    exact .written at_ ready
  rw [if_neg (fun h => hrest (List.isEmpty_iff.mp h))]
  split
  · next hway => exact .wait at_ ready hrest hway
  · next hway => exact .hold at_ ready hrest hway
  · next hway =>
    cases hwrite : r.output.write r.clock rest with
    | mk output result =>
      cases result with
      | none => exact .throughWaits at_ ready hrest hway hwrite
      | some result =>
        cases result with
        | error f => exact .throughFails at_ ready hrest hway hwrite (.inl rfl)
        | ok n =>
          cases n with
          | zero => exact .throughFails at_ ready hrest hway hwrite (.inr ⟨rfl, rfl⟩)
          | succ n => exact .throughPart at_ ready hrest hway hwrite (Nat.succ_ne_zero n)

theorem makeRoom_cases {r : Recorder α} {size : Nat} {rest : Bytes} {left : List α} {last : Bool}
    (at_ : r.phase = .makingRoom size rest left last) (ready : r.output.isReady r.clock = true) :
    Work r (r.makeRoom size rest left last) := by
  unfold makeRoom
  split
  · next hout => exact .roomWaits at_ ready hout (.inl rfl)
  · next hout => exact .roomWaits at_ ready hout (.inr rfl)
  · next hout => exact .roomMade at_ ready hout
  · next hout => exact .roomFails at_ ready hout

theorem flush_cases {r : Recorder α} {last : Bool} (at_ : r.phase = .flushing last)
    (ready : r.output.isReady r.clock = true) : Work r (r.flush last) := by
  unfold flush
  split
  · next hnone => exact .flushed at_ ready (List.isEmpty_iff.mp hnone)
  · next hsome =>
    have hheld : r.held.held ≠ [] := fun h => hsome (List.isEmpty_iff.mpr h)
    split
    · next hout => exact .flushPart at_ ready hheld hout nofun
    · next hout => exact .flushPart at_ ready hheld hout nofun
    · next hout => exact .flushFails at_ ready hheld hout

theorem flushOutput_cases {r : Recorder α} {last : Bool} (at_ : r.phase = .flushingOutput last)
    (ready : r.output.isReady r.clock = true) : Work r (r.flushOutput last) := by
  unfold flushOutput
  split
  · next hflush => exact .outputFlushed at_ ready hflush
  · next hflush => exact .outputFlushFails at_ ready hflush

theorem finish_cases {r : Recorder α} (at_ : r.phase = .finishing)
    (ready : r.output.isReady r.clock = true) : Work r r.finish := by
  unfold finish
  split
  · next hnone => exact .finished at_ ready (List.isEmpty_iff.mp hnone)
  · next hsome =>
    have hheld : r.held.held ≠ [] := fun h => hsome (List.isEmpty_iff.mpr h)
    split
    · next hout => exact .finishPart at_ ready hheld hout nofun
    · next hout => exact .finishPart at_ ready hheld hout nofun
    · next hout => exact .finishFails at_ ready hheld hout

theorem closeOutput_cases {r : Recorder α} (at_ : r.phase = .closingOutput)
    (ready : r.output.isReady r.clock = true) : Work r r.closeOutput := by
  unfold closeOutput
  split
  · next hclose => exact .closeWaits at_ ready hclose
  · next hclose => exact .closed at_ ready hclose
  · next hclose => exact .closeFails at_ ready hclose

/-- **The cases of `Work` are all** that a step of the recorder comes to. -/
theorem work_cases {r r' : Recorder α} (h : r.work = some r') : Work r r' := by
  unfold work at h
  cases hp : r.phase with
  | starting =>
    rw [hp] at h
    cases h
    exact .start hp
  | waiting =>
    rw [hp] at h
    dsimp only at h
    split at h
    · cases h
    · next signal hwait =>
      cases h
      cases signal with
      | wake =>
        have := Work.wake hp (by rw [hwait])
        rwa [hwait] at this
      | closed =>
        have := Work.close hp (by rw [hwait])
        rwa [hwait] at this
  | collecting last =>
    rw [hp] at h
    cases h
    exact collect_cases hp
  | encoding left last =>
    rw [hp] at h
    cases h
    exact encodeNext_cases hp
  | writing size rest left last =>
    rw [hp] at h
    obtain ⟨hready, rfl⟩ := onOutput_eq_some.mp h
    exact write_cases hp hready
  | makingRoom size rest left last =>
    rw [hp] at h
    obtain ⟨hready, rfl⟩ := onOutput_eq_some.mp h
    exact makeRoom_cases hp hready
  | flushing last =>
    rw [hp] at h
    obtain ⟨hready, rfl⟩ := onOutput_eq_some.mp h
    exact flush_cases hp hready
  | flushingOutput last =>
    rw [hp] at h
    obtain ⟨hready, rfl⟩ := onOutput_eq_some.mp h
    exact flushOutput_cases hp hready
  | finishing =>
    rw [hp] at h
    obtain ⟨hready, rfl⟩ := onOutput_eq_some.mp h
    exact finish_cases hp hready
  | closingOutput =>
    rw [hp] at h
    obtain ⟨hready, rfl⟩ := onOutput_eq_some.mp h
    exact closeOutput_cases hp hready
  | ended =>
    rw [hp] at h
    cases h

end TraceRelay.Recorder
