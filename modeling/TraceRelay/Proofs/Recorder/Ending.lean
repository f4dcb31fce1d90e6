import TraceRelay.Proofs.Channel.Prompt
import TraceRelay.Proofs.Recorder.Fates

/-!
# How a recorder comes to its end

Whatever fails, every step of a recorder leads nearer to its end if its output answers sooner or later
(`Work.nearer`): a wake is used up, an event is done with, bytes are written, or the output has made it wait
one of the times that it may. A recorder that has been closed makes a step when its output is due
(`works_when_due`).
-/

namespace TraceRelay.Recorder

variable {α : Type} {r r' : Recorder α}

/-! ## What is ahead -/

/-- The place of a phase on the way to the end. -/
def Phase.rank : Phase α → Nat
  | .starting => 13
  | .collecting false => 12
  | .encoding _ false | .writing _ _ _ false | .makingRoom _ _ _ false => 11
  | .flushing false => 10
  | .flushingOutput false => 9
  | .waiting => 8
  | .collecting true => 7
  | .encoding _ true | .writing _ _ _ true | .makingRoom _ _ _ true => 6
  | .flushing true => 5
  | .flushingOutput true => 4
  | .finishing => 3
  | .closingOutput => 2
  | .ended => 1

/-- What is left of the events that were taken, two for each. -/
def Phase.eventsLeft : Phase α → Nat
  | .encoding left _ => 2 * left.length
  | .writing _ _ left _ | .makingRoom _ _ left _ => 2 * left.length + 1
  | _ => 0

/-- What is left to write when `held` bytes are held. A write turns to these first, if there is no room. -/
def Phase.bytesLeft (held : Nat) : Phase α → Nat
  | .writing _ rest _ _ => 2 * (rest.length + held) + 1
  | .makingRoom _ rest _ _ => 2 * (rest.length + held)
  | .flushing _ | .finishing => held
  | _ => 0

def toGo (r : Recorder α) : Nat × Nat × Nat × Nat × Nat :=
  (r.intake.buffer.token.toNat, r.phase.rank, r.phase.eventsLeft, r.phase.bytesLeft r.held.held.length,
    r.output.hesitations)

/-- `r'` is nearer to the end than `r`. -/
def Nearer (r r' : Recorder α) : Prop :=
  Prod.Lex (· < ·) (Prod.Lex (· < ·) (Prod.Lex (· < ·) (Prod.Lex (· < ·) (· < ·)))) r'.toGo r.toGo

theorem nearer_of_token (before : r.intake.buffer.token = true)
    (after : r'.intake.buffer.token = false) : Nearer r r' := by
  unfold Nearer toGo
  rw [before, after]
  exact .left _ _ Nat.one_pos

section

variable {p : Phase α} (at_ : r.phase = p) (token : r'.intake.buffer.token = r.intake.buffer.token)
include at_ token

theorem nearer_of_rank (h : r'.phase.rank < p.rank) : Nearer r r' := by
  unfold Nearer toGo
  rw [token, at_]
  exact .right _ (.left _ _ h)

theorem nearer_of_events (rank : r'.phase.rank = p.rank) (h : r'.phase.eventsLeft < p.eventsLeft) :
    Nearer r r' := by
  unfold Nearer toGo
  rw [token, rank, at_]
  exact .right _ (.right _ (.left _ _ h))

theorem nearer_of_bytes (rank : r'.phase.rank = p.rank) (events : r'.phase.eventsLeft = p.eventsLeft)
    (h : r'.phase.bytesLeft r'.held.held.length < p.bytesLeft r.held.held.length) : Nearer r r' := by
  unfold Nearer toGo
  rw [token, rank, events, at_]
  exact .right _ (.right _ (.right _ (.left _ _ h)))

end

theorem nearer_of_wait {output : Channel} (h : output.hesitations < r.output.hesitations) :
    Nearer r { r with output } := .right _ (.right _ (.right _ (.right _ h)))

/-! ## Every step leads nearer -/

/-- A call that writes out what is held makes it fewer, or makes the recorder wait. -/
theorem writeOut_prompt {result : Option (Except Fault Bool)} (h : r.output.Prompt)
    (out : r.writeOut = (r', result)) :
    ∃ output held, r' = { r with output, held } ∧ output.Prompt ∧
      (result = none → held = r.held ∧ output.hesitations < r.output.hesitations) ∧
      ∀ all, result = some (.ok all) → held.held.length < r.held.held.length := by
  obtain ⟨hprompt, hwaits⟩ := h.write r.clock r.held.held
  obtain ⟨-, hle, -⟩ := r.output.write_spec r.clock r.held.held
  unfold writeOut at out
  generalize r.output.write r.clock r.held.held = written at out hprompt hwaits hle
  obtain ⟨output, answer⟩ := written
  cases answer with
  | none =>
    cases out
    exact ⟨output, r.held, rfl, hprompt, fun _ => ⟨rfl, hwaits rfl⟩, nofun⟩
  | some answer =>
    cases answer with
    | error f => cases out; exact ⟨output, r.held, rfl, hprompt, nofun, nofun⟩
    | ok n =>
      cases n with
      | zero => cases out; exact ⟨output, r.held, rfl, hprompt, nofun, nofun⟩
      | succ n =>
        cases out
        refine ⟨output, r.held.drop (n + 1), rfl, hprompt, nofun, fun _ _ => ?_⟩
        have hle : n + 1 ≤ r.held.held.length := hle
        show (r.held.held.drop (n + 1)).length < _
        rw [List.length_drop]
        omega

/-- **A step leads nearer to the end.** -/
theorem Work.nearer (w : Work r r') (h : r.output.Prompt) : r'.output.Prompt ∧ Nearer r r' := by
  cases w with
  -- what comes later in a round has a lower rank
  | start at_ => exact ⟨h, nearer_of_rank at_ rfl (by decide : 8 < 13)⟩
  | wake at_ wait =>
    obtain ⟨htoken, hused⟩ := Intake.token_of_wake wait
    exact ⟨h, nearer_of_token htoken hused⟩
  | close at_ wait =>
    obtain ⟨htoken, hused⟩ := Intake.token_of_closed wait
    exact ⟨h, nearer_of_rank at_ (hused.trans htoken.symm) (Nat.lt_succ_self 7)⟩
  | @takeNothing last at_ =>
    refine ⟨h, nearer_of_rank at_ rfl ?_⟩
    cases last with
    | false => exact (by decide : 8 < 12)
    | true => exact (by decide : 3 < 7)
  | @take last at_ =>
    refine ⟨h, nearer_of_rank at_ rfl ?_⟩
    cases last with
    | false => exact Nat.lt_succ_self 11
    | true => exact Nat.lt_succ_self 6
  | @encoded last at_ =>
    refine ⟨h, nearer_of_rank at_ rfl ?_⟩
    cases last with
    | false => exact Nat.lt_succ_self 10
    | true => exact Nat.lt_succ_self 5
  -- an event is done with in two steps: it is encoded, and then its record is written or held
  | @encode e left last at_ =>
    refine ⟨h, nearer_of_events at_ rfl (by cases last <;> rfl) ?_⟩
    exact Nat.lt_succ_self (2 * left.length + 1)
  | @encodeFails e left last f at_ =>
    refine ⟨h, nearer_of_events at_ (congrArg _ (buffer_encodeFailed _ f)) (by cases last <;> rfl) ?_⟩
    exact Nat.lt_add_of_pos_right (k := 2) Nat.two_pos
  | @written size left last at_ =>
    refine ⟨h, nearer_of_events at_ rfl (by cases last <;> rfl) ?_⟩
    exact Nat.lt_succ_self (2 * left.length)
  -- a write takes its bytes piece by piece, and before it those that are held
  | @wait size rest left last at_ =>
    refine ⟨h, nearer_of_bytes at_ rfl (by cases last <;> rfl) rfl ?_⟩
    exact Nat.lt_succ_self _
  | @hold size rest left last at_ =>
    refine ⟨h, nearer_of_events at_ rfl (by cases last <;> rfl) ?_⟩
    exact Nat.lt_succ_self (2 * left.length)
  | @throughWaits size rest left last output at_ ready some_ way write =>
    obtain ⟨hprompt, hwaits⟩ := h.write r.clock rest
    rw [write] at hprompt hwaits
    exact ⟨hprompt, nearer_of_wait (hwaits rfl)⟩
  | @throughFails size rest left last output result f at_ ready some_ way write =>
    have hprompt := (h.write r.clock rest).1
    rw [write] at hprompt
    refine ⟨hprompt, nearer_of_events at_ (congrArg _ (buffer_writeFailed _ f)) (by cases last <;> rfl) ?_⟩
    exact Nat.lt_succ_self (2 * left.length)
  | @throughPart size n rest left last output at_ ready some_ way write took =>
    have hprompt := (h.write r.clock rest).1
    rw [write] at hprompt
    have hfewer : (rest.drop n).length < rest.length := by
      have hpos := List.length_pos_iff.mpr some_
      rw [List.length_drop]
      omega
    refine ⟨hprompt, nearer_of_bytes at_ rfl (by cases last <;> rfl) rfl ?_⟩
    show 2 * ((rest.drop n).length + r.held.held.length) + 1 < 2 * (rest.length + r.held.held.length) + 1
    omega
  | @roomWaits size rest left last r' result at_ ready out more =>
    obtain ⟨output, held, rfl, hprompt, hwaits, hfewer⟩ := writeOut_prompt h out
    refine ⟨hprompt, ?_⟩
    rcases more with rfl | rfl
    · obtain ⟨rfl, hlt⟩ := hwaits rfl
      exact nearer_of_wait hlt
    · have hlt := hfewer false rfl
      refine nearer_of_bytes at_ rfl (congrArg _ at_) (congrArg _ at_) ?_
      show Phase.bytesLeft held.held.length r.phase < 2 * (rest.length + r.held.held.length)
      rw [at_, Phase.bytesLeft]
      omega
  | @roomMade size rest left last r' at_ ready out =>
    obtain ⟨output, held, rfl, hprompt, -, hfewer⟩ := writeOut_prompt h out
    have hlt := hfewer true rfl
    refine ⟨hprompt, nearer_of_bytes at_ rfl (by cases last <;> rfl) rfl ?_⟩
    show 2 * (rest.length + held.held.length) + 1 < 2 * (rest.length + r.held.held.length)
    omega
  | @roomFails size rest left last r' f at_ ready out =>
    obtain ⟨output, held, rfl, hprompt, -⟩ := writeOut_prompt h out
    refine ⟨hprompt, nearer_of_events at_ (congrArg _ (buffer_writeFailed _ f)) (by cases last <;> rfl) ?_⟩
    exact Nat.lt_succ_self (2 * left.length)
  | @flushed last at_ =>
    refine ⟨h, nearer_of_rank at_ rfl ?_⟩
    cases last with
    | false => exact Nat.lt_succ_self 9
    | true => exact Nat.lt_succ_self 4
  -- what is held is written out, before a flush or at the end
  | @flushPart _ r' result at_ ready some_held out fine
  | @finishPart r' result at_ ready some_held out fine =>
    obtain ⟨output, held, rfl, hprompt, hwaits, hfewer⟩ := writeOut_prompt h out
    refine ⟨hprompt, ?_⟩
    rcases result with _ | f | all
    · obtain ⟨rfl, hlt⟩ := hwaits rfl
      exact nearer_of_wait hlt
    · exact absurd rfl (fine f)
    · refine nearer_of_bytes at_ rfl (congrArg _ at_) (congrArg _ at_) ?_
      show Phase.bytesLeft held.held.length r.phase < r.held.held.length
      rw [at_]
      exact hfewer all rfl
  | @flushFails last r' f at_ ready some_held out =>
    obtain ⟨output, held, rfl, hprompt, -⟩ := writeOut_prompt h out
    refine ⟨hprompt, nearer_of_rank at_ (congrArg _ (buffer_flushFailed _ f)) ?_⟩
    cases last with
    | false => exact (by decide : 8 < 10)
    | true => exact (by decide : 3 < 5)
  | @outputFlushed last output at_ ready flush =>
    have hprompt := h.flush
    rw [flush] at hprompt
    refine ⟨hprompt, nearer_of_rank at_ rfl ?_⟩
    cases last with
    | false => exact Nat.lt_succ_self 8
    | true => exact Nat.lt_succ_self 3
  | @outputFlushFails last output f at_ ready flush =>
    have hprompt := h.flush
    rw [flush] at hprompt
    refine ⟨hprompt, nearer_of_rank at_ (congrArg _ (buffer_flushFailed _ f)) ?_⟩
    cases last with
    | false => exact Nat.lt_succ_self 8
    | true => exact Nat.lt_succ_self 3
  | finished at_ => exact ⟨h, nearer_of_rank at_ rfl (Nat.lt_succ_self 2)⟩
  | finishFails at_ ready some_held out =>
    obtain ⟨output, held, rfl, hprompt, -⟩ := writeOut_prompt h out
    exact ⟨hprompt, nearer_of_rank at_ rfl (by decide : 1 < 3)⟩
  | closeWaits at_ ready close =>
    obtain ⟨hprompt, hwaits⟩ := h.close r.clock
    rw [close] at hprompt hwaits
    exact ⟨hprompt, nearer_of_wait (hwaits rfl)⟩
  | closed at_ ready close | closeFails at_ ready close =>
    have hprompt := (h.close r.clock).1
    rw [close] at hprompt
    exact ⟨hprompt, nearer_of_rank at_ rfl (Nat.lt_succ_self 1)⟩

/-! ## A closed recorder -/

/-- **A closed recorder waits for its output only**, and no longer than this is due. -/
theorem works_when_due (h : r.output.Prompt) (closed : r.intake.buffer.closed = true)
    (going : r.phase ≠ .ended) (due : ∀ t, r.due = some t → t ≤ r.clock) : ∃ r', r.work = some r' := by
  have hready : r.output.isReady r.clock = true := h.ready due
  unfold work
  cases hp : r.phase with
  | starting | collecting | encoding => exact ⟨_, rfl⟩
  | writing | makingRoom | flushing | flushingOutput | finishing | closingOutput =>
    exact ⟨_, if_pos hready⟩
  | waiting =>
    obtain ⟨signal, hsignal⟩ := Intake.wait_of_closed closed
    generalize r.intake.wait = waited at hsignal
    obtain ⟨intake, signal?⟩ := waited
    cases hsignal
    exact ⟨_, rfl⟩
  | ended => exact absurd hp going

end TraceRelay.Recorder
