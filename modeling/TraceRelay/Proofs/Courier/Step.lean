import TraceRelay.Courier
import TraceRelay.Proofs.Intake

/-!
# What a courier can do

A courier is moved by its callers, by a cancellation, by time, and by its own work. `Work` says in
named cases everything that one step of its work can come to, with what it was that the step found
(`work_cases`). What is proved of a courier is proved from these cases.

Each step comes with its `Deed`s: what happens in it to events. They are read off the state before
the step.
-/

namespace TraceRelay

namespace Courier

variable {α : Type}

/-! ## Moves -/

/-- What may come next: a call, a cancellation, time, or a step of the courier's own. -/
inductive Move (α : Type) where
  | trace (e : α)
  | close
  | abandon
  | cancel
  | advance (t : Nat)
  | work (pick : Pick)

/-- The courier after a move; none if it cannot be made. Time does not run backwards. -/
def move [Message α] (c : Courier α) : Move α → Option (Courier α)
  | .trace e => some (c.trace e)
  | .close => some c.close
  | .abandon => some c.abandon
  | .cancel => some c.cancel
  | .advance t => if c.net.clock ≤ t then some (c.advance t) else none
  | .work pick => c.work pick

/-! ## Deeds -/

/-- What became of a batch. -/
inductive Fate where
  | sent (stream : Nat)
  /-- Its sending failed. -/
  | lost (stream : Nat)
  /-- There was no stream left to send it on. -/
  | abandoned
  deriving DecidableEq, Repr

/-- What happens to events. -/
inductive Deed (α : Type) where
  | accepted (e : α)
  | refused (e : α)
  /-- These events left the buffer, to travel together. -/
  | took (events : List α)
  | settled (events : List α) (fate : Fate)
  deriving DecidableEq, Repr

/-- What a move does to events. -/
def deeds (c : Courier α) : Move α → List (Deed α)
  | .trace e => if c.intake.buffer.closed then [.refused e] else [.accepted e]
  | .work _ =>
    match c.phase with
    | .collecting _ _ =>
      if c.intake.buffer.events.isEmpty then [] else [.took c.intake.buffer.events.toList]
    | .writing s _ _ rest =>
      match (c.net.write s.stream rest).2 with
      | some (.error _) | some (.ok 0) => [.settled c.scratch.toList (.lost s.stream)]
      | _ => []
    | .flushing s _ _ =>
      match (c.net.flush s.stream).2 with
      | .ok () => [.settled c.scratch.toList (.sent s.stream)]
      | .error _ => [.settled c.scratch.toList (.lost s.stream)]
    | .discarding =>
      if c.intake.buffer.events.isEmpty then []
      else [.took c.intake.buffer.events.toList, .settled c.intake.buffer.events.toList .abandoned]
    | _ => []
  | _ => []

/-! ## Work -/

/-- A write or a flush has failed with `f`. -/
def writeFailure (result : Option (Except Fault Nat)) (f : Fault) : Prop :=
  result = some (.error f) ∨ result = some (.ok 0) ∧ f = .writeZero

/-- What one step of its own work can come to, and what it does to events. -/
inductive Work [Message α] (c : Courier α) : List (Deed α) → Courier α → Prop where
  | start (at_ : c.phase = .starting) :
      Work c [] { c with
        intake := c.intake.report .info "remote tracer starting" [c.peerField]
        phase := .opening .start false false }
  | opened {o : Opening} {closing again : Bool} {i : Nat}
      (at_ : c.phase = .opening o closing again) (result : o.result? = some (.ok i)) :
      Work c [] (c.endOpening again (.ok i))
  | gaveUp {o : Opening} {closing again : Bool} {e : OpenFailure}
      (at_ : c.phase = .opening o closing again) (result : o.result? = some (.error e)) :
      Work c [] (c.endOpening again (.error e))
  | connect {o : Opening} {closing again : Bool} {turn : Opening.Turn}
      (at_ : c.phase = .opening o closing again) (result : o.result? = none)
      (step : c.connector.step c.cancelled c.stopped c.net o = some turn) :
      Work c [] { c with
        intake := (if turn.counted then c.intake.count .connectFailure else c.intake).logAll
          turn.records
        net := turn.net
        phase := .opening turn.opening closing again }
  | noteWake {o : Opening} {again : Bool} (at_ : c.phase = .opening o false again)
      (wait : c.intake.wait.2 = some .wake) :
      Work c [] { c with intake := c.intake.wait.1, pendingWake := true }
  | noteClose {o : Opening} {again : Bool} (at_ : c.phase = .opening o false again)
      (wait : c.intake.wait.2 = some .closed) :
      Work c [] { c with
        intake := c.intake.wait.1
        stopped := true
        phase := .opening o true again }
  | heedNoted {s : Session} (at_ : c.phase = .waiting s) (noted : c.pendingWake = true) :
      Work c [] ({ c with pendingWake := false }.heed s .wake)
  | heed {s : Session} {signal : Signal} (at_ : c.phase = .waiting s)
      (noted : c.pendingWake = false) (wait : c.intake.wait.2 = some signal) :
      Work c [] ({ c with intake := c.intake.wait.1 }.heed s signal)
  | heedCancel {s : Session} (at_ : c.phase = .waiting s) (noted : c.pendingWake = false)
      (cancelled : c.cancelled = true) :
      Work c [] ({ c with intake := c.intake.abandon }.heed s .closed)
  | gathered {s : Session} {deadline : Nat} (at_ : c.phase = .gathering s deadline)
      (due : deadline ≤ c.net.clock) :
      Work c [] { c with phase := .collecting s false }
  | takeNothing {s : Session} {last : Bool} (at_ : c.phase = .collecting s last)
      (events : c.intake.buffer.events = #[]) :
      Work c [] ({ c with intake := (c.intake.swap c.scratch).1, scratch := #[] }.endBatch s last)
  | take {s : Session} {last : Bool} (at_ : c.phase = .collecting s last)
      (events : c.intake.buffer.events ≠ #[]) :
      Work c [.took c.intake.buffer.events.toList] { c with
        intake := (c.intake.swap c.scratch).1
        scratch := c.intake.buffer.events
        phase :=
          let (gzip, data) := s.gzip.flush (Batch.frame c.intake.buffer.events.toList)
          .writing { s with gzip } last ⟨c.intake.buffer.events.size, data.length⟩ data }
  | writeWaits {s : Session} {last : Bool} {parcel : Parcel} {rest : Bytes} {net : Net}
      (at_ : c.phase = .writing s last parcel rest)
      (ready : c.net.isReady s.stream = true) (write : c.net.write s.stream rest = (net, none)) :
      Work c [] { c with net }
  | writeFails {s : Session} {last : Bool} {parcel : Parcel} {rest : Bytes} {net : Net}
      {result : Option (Except Fault Nat)} {f : Fault}
      (at_ : c.phase = .writing s last parcel rest)
      (ready : c.net.isReady s.stream = true) (write : c.net.write s.stream rest = (net, result))
      (failure : writeFailure result f) :
      Work c [.settled c.scratch.toList (.lost s.stream)] ({ c with net }.lost s last parcel f)
  | writePart {s : Session} {last : Bool} {parcel : Parcel} {rest : Bytes} {net : Net} {n : Nat}
      (at_ : c.phase = .writing s last parcel rest)
      (ready : c.net.isReady s.stream = true)
      (write : c.net.write s.stream rest = (net, some (.ok n))) (some_ : n ≠ 0)
      (left : rest.drop n ≠ []) :
      Work c [] { c with net, phase := .writing s last parcel (rest.drop n) }
  | writeAll {s : Session} {last : Bool} {parcel : Parcel} {rest : Bytes} {net : Net} {n : Nat}
      (at_ : c.phase = .writing s last parcel rest)
      (ready : c.net.isReady s.stream = true)
      (write : c.net.write s.stream rest = (net, some (.ok n))) (some_ : n ≠ 0)
      (left : rest.drop n = []) :
      Work c [] { c with net, phase := .flushing s last parcel }
  | flush {s : Session} {last : Bool} {parcel : Parcel} {net : Net}
      (at_ : c.phase = .flushing s last parcel)
      (ready : c.net.isReady s.stream = true) (flush : c.net.flush s.stream = (net, .ok ())) :
      Work c [.settled c.scratch.toList (.sent s.stream)] ({ c with net }.sent s last parcel)
  | flushFails {s : Session} {last : Bool} {parcel : Parcel} {net : Net} {f : Fault}
      (at_ : c.phase = .flushing s last parcel)
      (ready : c.net.isReady s.stream = true) (flush : c.net.flush s.stream = (net, .error f)) :
      Work c [.settled c.scratch.toList (.lost s.stream)] ({ c with net }.lost s last parcel f)
  | completeWaits {i : Nat} {rest : Bytes} {net : Net} (at_ : c.phase = .completing i rest)
      (ready : c.net.isReady i = true) (write : c.net.write i rest = (net, none)) :
      Work c [] { c with net }
  | completeFails {i : Nat} {rest : Bytes} {net : Net} {result : Option (Except Fault Nat)}
      {f : Fault} (at_ : c.phase = .completing i rest)
      (ready : c.net.isReady i = true) (write : c.net.write i rest = (net, result))
      (failure : writeFailure result f) :
      Work c [] ({ c with net }.spoiled i f)
  | completePart {i : Nat} {rest : Bytes} {net : Net} {n : Nat} (at_ : c.phase = .completing i rest)
      (ready : c.net.isReady i = true) (write : c.net.write i rest = (net, some (.ok n)))
      (some_ : n ≠ 0) (left : rest.drop n ≠ []) :
      Work c [] { c with net, phase := .completing i (rest.drop n) }
  | completeAll {i : Nat} {rest : Bytes} {net : Net} {n : Nat} (at_ : c.phase = .completing i rest)
      (ready : c.net.isReady i = true) (write : c.net.write i rest = (net, some (.ok n)))
      (some_ : n ≠ 0) (left : rest.drop n = []) :
      Work c [] { c with net, phase := .flushingEnd i }
  | flushEnd {i : Nat} {net : Net} (at_ : c.phase = .flushingEnd i)
      (ready : c.net.isReady i = true) (flush : c.net.flush i = (net, .ok ())) :
      Work c [] { c with net := net.startClose i, phase := .closing i }
  | flushEndFails {i : Nat} {net : Net} {f : Fault} (at_ : c.phase = .flushingEnd i)
      (ready : c.net.isReady i = true) (flush : c.net.flush i = (net, .error f)) :
      Work c [] ({ c with net }.spoiled i f)
  | closeWaits {i : Nat} {net : Net} (at_ : c.phase = .closing i)
      (ready : c.net.isReady i = true) (close : c.net.close i = (net, none)) :
      Work c [] { c with net }
  | closed {i : Nat} {net : Net} (at_ : c.phase = .closing i)
      (ready : c.net.isReady i = true) (close : c.net.close i = (net, some (.ok ()))) :
      Work c [] { c with net, phase := .leaving }
  | closeFails {i : Nat} {net : Net} {f : Fault} (at_ : c.phase = .closing i)
      (ready : c.net.isReady i = true) (close : c.net.close i = (net, some (.error f))) :
      Work c [] { { c with net }.warnClose f with phase := .leaving }
  | leave (at_ : c.phase = .leaving) :
      Work c [] { c with intake := c.intake.abandon, phase := .discarding }
  | discardNothing (at_ : c.phase = .discarding) (events : c.intake.buffer.events = #[]) :
      Work c [] c.discard
  | discard (at_ : c.phase = .discarding) (events : c.intake.buffer.events ≠ #[]) :
      Work c [.took c.intake.buffer.events.toList,
        .settled c.intake.buffer.events.toList .abandoned] c.discard

/-! ## What the parts of a step leave alone -/

theorem isEnded_iff {c : Courier α} : c.isEnded = true ↔ c.phase = .ended := by
  unfold isEnded
  constructor
  · intro h
    split at h
    · next hp => exact hp
    · cases h
  · intro h
    rw [h]

theorem trace_eq (c : Courier α) (e : α) : c.trace e = { c with intake := c.intake.trace e } := rfl

@[simp] theorem intake_heed (c : Courier α) (s : Session) (signal : Signal) :
    (c.heed s signal).intake = c.intake := by cases signal <;> rfl

@[simp] theorem net_heed (c : Courier α) (s : Session) (signal : Signal) :
    (c.heed s signal).net = c.net := by cases signal <;> rfl

@[simp] theorem intake_endBatch (c : Courier α) (s : Session) (last : Bool) :
    (c.endBatch s last).intake = c.intake := by cases last <;> rfl

@[simp] theorem net_endBatch (c : Courier α) (s : Session) (last : Bool) :
    (c.endBatch s last).net = c.net := by cases last <;> rfl

@[simp] theorem net_discard (c : Courier α) : c.discard.net = c.net := rfl

@[simp] theorem phase_discard (c : Courier α) : c.discard.phase = .ended := rfl

@[simp] theorem events_discard (c : Courier α) : c.discard.intake.buffer.events = #[] := by
  cases hempty : c.intake.buffer.events.isEmpty <;>
    simp only [discard, Intake.swap_taken, hempty, Bool.false_eq_true, if_true, if_false,
      Intake.buffer_report, Intake.buffer_count, Intake.events_swap]

@[simp] theorem closed_discard (c : Courier α) :
    c.discard.intake.buffer.closed = c.intake.buffer.closed := by
  cases hempty : c.intake.buffer.events.isEmpty <;>
    simp only [discard, Intake.swap_taken, hempty, Bool.false_eq_true, if_true, if_false,
      Intake.buffer_report, Intake.buffer_count, Intake.closed_swap]

@[simp] theorem token_discard (c : Courier α) :
    c.discard.intake.buffer.token = c.intake.buffer.token := by
  cases hempty : c.intake.buffer.events.isEmpty <;>
    simp only [discard, Intake.swap_taken, hempty, Bool.false_eq_true, if_true, if_false,
      Intake.buffer_report, Intake.buffer_count, Intake.token_swap]

theorem tally_discard (c : Courier α) : c.discard.intake.tally =
    if c.intake.buffer.events.isEmpty then c.intake.tally
    else c.intake.tally.abandoned c.intake.buffer.events.size := by
  cases hempty : c.intake.buffer.events.isEmpty <;>
    simp only [discard, Intake.swap_taken, hempty, Bool.false_eq_true, if_true, if_false,
      Intake.tally_report, Intake.tally_count, Intake.tally_swap]

/-! ## The cases are all -/

theorem workOpening_cases [Message α] {c c' : Courier α} {o : Opening} {closing again : Bool}
    (at_ : c.phase = .opening o closing again) (h : c.workOpening o closing again = some c') :
    Work c [] c' := by
  unfold workOpening at h
  split at h
  · next result hresult =>
    cases h
    cases result with
    | ok i => exact .opened at_ hresult
    | error e => exact .gaveUp at_ hresult
  · next hresult =>
    rw [Option.map_eq_some_iff] at h
    obtain ⟨turn, hstep, rfl⟩ := h
    exact .connect at_ hresult hstep

theorem noticeOpening_cases [Message α] {c c' : Courier α} {o : Opening} {closing again : Bool}
    (at_ : c.phase = .opening o closing again) (h : c.noticeOpening o closing again = some c') :
    Work c [] c' := by
  unfold noticeOpening at h
  split at h
  · cases h
  · next hclosing =>
    rw [Bool.not_eq_true] at hclosing
    subst hclosing
    split at h
    · cases h
    · next hwait =>
      cases h
      have := Work.noteWake at_ (by rw [hwait])
      rwa [hwait] at this
    · next hwait =>
      cases h
      have := Work.noteClose at_ (by rw [hwait])
      rwa [hwait] at this

theorem choose_cases {β : Type} {pick : Pick} {a b : Option β} {x : β}
    (h : pick.choose a b = some x) : a = some x ∨ b = some x := by
  cases pick with
  | former =>
    cases a with
    | none => exact .inr h
    | some _ => exact .inl h
  | latter =>
    cases b with
    | none => exact .inl h
    | some _ => exact .inr h

theorem waiting_cases [Message α] {c c' : Courier α} {s : Session} (at_ : c.phase = .waiting s)
    (noted : c.pendingWake = false) (h : c.noticeSignal s = some c' ∨ c.noticeCancel s = some c') :
    Work c [] c' := by
  rcases h with h | h
  · unfold noticeSignal at h
    split at h
    · cases h
    · next hwait =>
      cases h
      have := Work.heed at_ noted (by rw [hwait])
      rwa [hwait] at this
  · unfold noticeCancel at h
    split at h
    · next hcancelled => cases h; exact .heedCancel at_ noted hcancelled
    · cases h

theorem onStream_eq_some {c c' next : Courier α} {i : Nat} :
    c.onStream i next = some c' ↔ c.net.isReady i = true ∧ next = c' := by
  unfold onStream
  split
  · next h => simp [h]
  · next h => simp [h]

theorem collect_cases [Message α] {c : Courier α} {s : Session} {last : Bool} {pick : Pick}
    (at_ : c.phase = .collecting s last) : Work c (c.deeds (.work pick)) (c.collect s last) := by
  have hdeeds : c.deeds (.work pick) = if c.intake.buffer.events.isEmpty then []
      else [.took c.intake.buffer.events.toList] := by rw [deeds, at_]
  rw [hdeeds]
  by_cases hempty : c.intake.buffer.events = #[]
  · have htaken : (c.intake.swap c.scratch).2 = #[] := hempty
    have hcollect : c.collect s last =
        { c with intake := (c.intake.swap c.scratch).1, scratch := #[] }.endBatch s last := by
      simp only [collect, htaken, List.isEmpty_toArray, List.isEmpty_nil, if_true]
    rw [if_pos (by rw [hempty]; rfl), hcollect]
    exact .takeNothing at_ hempty
  · have hsome : ¬ c.intake.buffer.events.isEmpty = true := fun h => hempty (Array.isEmpty_iff.mp h)
    have htaken : (c.intake.swap c.scratch).2 = c.intake.buffer.events := rfl
    have := Work.take at_ hempty
    simp only [collect, htaken, if_neg hsome]
    exact this

theorem write_cases [Message α] {c : Courier α} {s : Session} {last : Bool} {parcel : Parcel}
    {rest : Bytes} {pick : Pick} (at_ : c.phase = .writing s last parcel rest)
    (ready : c.net.isReady s.stream = true) :
    Work c (c.deeds (.work pick)) (c.write s last parcel rest) := by
  have hdeeds : c.deeds (.work pick) = match (c.net.write s.stream rest).2 with
      | some (.error _) | some (.ok 0) => [.settled c.scratch.toList (.lost s.stream)]
      | _ => [] := by rw [deeds, at_]
  rw [hdeeds]
  unfold write
  cases hwrite : c.net.write s.stream rest with
  | mk net result =>
    cases result with
    | none => exact .writeWaits at_ ready hwrite
    | some result =>
      cases result with
      | error f => exact .writeFails at_ ready hwrite (.inl rfl)
      | ok n =>
        cases n with
        | zero => exact .writeFails at_ ready hwrite (.inr ⟨rfl, rfl⟩)
        | succ n =>
          show Work c [] { c with
            net
            phase := if (rest.drop (n + 1)).isEmpty then .flushing s last parcel
              else .writing s last parcel (rest.drop (n + 1)) }
          by_cases hleft : rest.drop (n + 1) = []
          · rw [if_pos (List.isEmpty_iff.mpr hleft)]
            exact .writeAll at_ ready hwrite (Nat.succ_ne_zero n) hleft
          · rw [if_neg (fun h => hleft (List.isEmpty_iff.mp h))]
            exact .writePart at_ ready hwrite (Nat.succ_ne_zero n) hleft

theorem flush_cases [Message α] {c : Courier α} {s : Session} {last : Bool} {parcel : Parcel}
    {pick : Pick} (at_ : c.phase = .flushing s last parcel)
    (ready : c.net.isReady s.stream = true) :
    Work c (c.deeds (.work pick)) (c.flush s last parcel) := by
  have hdeeds : c.deeds (.work pick) = match (c.net.flush s.stream).2 with
      | .ok () => [.settled c.scratch.toList (.sent s.stream)]
      | .error _ => [.settled c.scratch.toList (.lost s.stream)] := by rw [deeds, at_]
  rw [hdeeds]
  unfold flush
  cases hflush : c.net.flush s.stream with
  | mk net result =>
    cases result with
    | ok _ => exact .flush at_ ready hflush
    | error f => exact .flushFails at_ ready hflush

theorem complete_cases [Message α] {c : Courier α} {i : Nat} {rest : Bytes}
    (at_ : c.phase = .completing i rest) (ready : c.net.isReady i = true) :
    Work c [] (c.complete i rest) := by
  unfold complete
  cases hwrite : c.net.write i rest with
  | mk net result =>
    cases result with
    | none => exact .completeWaits at_ ready hwrite
    | some result =>
      cases result with
      | error f => exact .completeFails at_ ready hwrite (.inl rfl)
      | ok n =>
        cases n with
        | zero => exact .completeFails at_ ready hwrite (.inr ⟨rfl, rfl⟩)
        | succ n =>
          show Work c [] { c with
            net
            phase := if (rest.drop (n + 1)).isEmpty then .flushingEnd i
              else .completing i (rest.drop (n + 1)) }
          by_cases hleft : rest.drop (n + 1) = []
          · rw [if_pos (List.isEmpty_iff.mpr hleft)]
            exact .completeAll at_ ready hwrite (Nat.succ_ne_zero n) hleft
          · rw [if_neg (fun h => hleft (List.isEmpty_iff.mp h))]
            exact .completePart at_ ready hwrite (Nat.succ_ne_zero n) hleft

theorem flushEnd_cases [Message α] {c : Courier α} {i : Nat} (at_ : c.phase = .flushingEnd i)
    (ready : c.net.isReady i = true) : Work c [] (c.flushEnd i) := by
  unfold Courier.flushEnd
  split
  · next hflush => exact .flushEnd at_ ready hflush
  · next hflush => exact .flushEndFails at_ ready hflush

theorem closeStream_cases [Message α] {c : Courier α} {i : Nat} (at_ : c.phase = .closing i)
    (ready : c.net.isReady i = true) : Work c [] (c.closeStream i) := by
  unfold closeStream
  split
  · next hclose => exact .closeWaits at_ ready hclose
  · next hclose => exact .closed at_ ready hclose
  · next hclose => exact .closeFails at_ ready hclose

/-- **The cases of `Work` are all** that a step of the courier comes to. -/
theorem work_cases [Message α] {c c' : Courier α} {pick : Pick} (h : c.work pick = some c') :
    Work c (c.deeds (.work pick)) c' := by
  unfold work at h
  have hquiet : ∀ {p : Phase}, c.phase = p → c.deeds (.work pick) = match p with
      | .collecting _ _ | .writing _ _ _ _ | .flushing _ _ _ | .discarding => c.deeds (.work pick)
      | _ => [] := by
    intro p hp
    rw [deeds, hp]
    cases p <;> rfl
  cases hp : c.phase with
  | starting =>
    rw [hp] at h
    cases h
    rw [hquiet hp]
    exact .start hp
  | opening o closing again =>
    rw [hp] at h
    rw [hquiet hp]
    rcases choose_cases h with h | h
    · exact workOpening_cases hp h
    · exact noticeOpening_cases hp h
  | waiting s =>
    rw [hp] at h
    rw [hquiet hp]
    dsimp only at h
    split at h
    · next hnoted => cases h; exact .heedNoted hp hnoted
    · next hnoted => exact waiting_cases hp (Bool.eq_false_iff.mpr hnoted) (choose_cases h)
  | gathering s deadline =>
    rw [hp] at h
    rw [hquiet hp]
    dsimp only at h
    split at h
    · next hdue => cases h; exact .gathered hp hdue
    · cases h
  | collecting s last =>
    rw [hp] at h
    cases h
    exact collect_cases hp
  | writing s last parcel rest =>
    rw [hp] at h
    obtain ⟨hready, rfl⟩ := onStream_eq_some.mp h
    exact write_cases hp hready
  | flushing s last parcel =>
    rw [hp] at h
    obtain ⟨hready, rfl⟩ := onStream_eq_some.mp h
    exact flush_cases hp hready
  | completing i rest =>
    rw [hp] at h
    rw [hquiet hp]
    obtain ⟨hready, rfl⟩ := onStream_eq_some.mp h
    exact complete_cases hp hready
  | flushingEnd i =>
    rw [hp] at h
    rw [hquiet hp]
    obtain ⟨hready, rfl⟩ := onStream_eq_some.mp h
    exact flushEnd_cases hp hready
  | closing i =>
    rw [hp] at h
    rw [hquiet hp]
    obtain ⟨hready, rfl⟩ := onStream_eq_some.mp h
    exact closeStream_cases hp hready
  | leaving =>
    rw [hp] at h
    cases h
    rw [hquiet hp]
    exact .leave hp
  | discarding =>
    rw [hp] at h
    cases h
    have hdeeds : c.deeds (.work pick) = if c.intake.buffer.events.isEmpty then []
        else [.took c.intake.buffer.events.toList,
          .settled c.intake.buffer.events.toList .abandoned] := by rw [deeds, hp]
    rw [hdeeds]
    split
    · next hempty => exact .discardNothing hp (Array.isEmpty_iff.mp hempty)
    · next hsome => exact .discard hp fun h => hsome (Array.isEmpty_iff.mpr h)
  | ended =>
    rw [hp] at h
    cases h

end Courier

end TraceRelay
