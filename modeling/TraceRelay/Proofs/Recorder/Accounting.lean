import TraceRelay.Proofs.Recorder.Complete
import TraceRelay.Proofs.Recorder.Fates

/-!
# The accounts of a recorder, whatever the output does

1. `lapses`: the flushes and the close that failed along a run. `Work.tally`: all that a step counts, in
   terms of these and of `fates`. `Run.outcomes`: every counter of what became of events is a count of both.
2. `Sealed`: a buffer that was taken for the last time is closed and stays empty. `Shut`: the output is
   closed last, when nothing is held any more.
3. `Booked.ended`: a recorder that has ended has given each event that it accepted its turn.
-/

namespace TraceRelay.Recorder

variable {α : Type} {r₀ r r' : Recorder α} {ms : List (Move α)} {es new : List α}
  {fs : List Fate} {encoder : Encoder α} {plan : ChannelPlan}

/-! ## Failures that cost no event -/

/-- A call of the output that failed and was not the writing of a record. -/
inductive Lapse where
  | flush
  | close
  deriving DecidableEq, Repr

/-- How a step of the recorder's own fails, if it does not work on a record. -/
def slips (r : Recorder α) : List Lapse :=
  match r.phase with
  | .flushing _ =>
    if r.held.isEmpty then [] else if r.writeOut.2 matches some (.error _) then [.flush] else []
  | .flushingOutput _ => if r.output.flush.2 matches .error _ then [.flush] else []
  | .finishing =>
    if r.held.isEmpty then [] else if r.writeOut.2 matches some (.error _) then [.close] else []
  | .closingOutput =>
    if (r.output.close r.clock).2 matches some (.error _) then [.close] else []
  | _ => []

section

variable {f : Fault} {last : Bool} {result : Option (Except Fault Bool)}

theorem slips_of_fine (at_ : (∃ last, r.phase = .flushing last) ∨ r.phase = .finishing)
    (out : r.writeOut = (r', result)) (fine : ∀ f, result ≠ some (.error f)) : r.slips = [] := by
  rcases result with _ | f | all
  · rcases at_ with ⟨last, at_⟩ | at_ <;> simp [slips, at_, out]
  · exact absurd rfl (fine f)
  · rcases at_ with ⟨last, at_⟩ | at_ <;> simp [slips, at_, out]

theorem slips_of_flush (at_ : r.phase = .flushing last) (some_held : r.held.held ≠ [])
    (out : r.writeOut = (r', some (.error f))) : r.slips = [.flush] := by
  simp [slips, at_, WriteBuffer.isEmpty, some_held, out]

theorem slips_of_finish (at_ : r.phase = .finishing) (some_held : r.held.held ≠ [])
    (out : r.writeOut = (r', some (.error f))) : r.slips = [.close] := by
  simp [slips, at_, WriteBuffer.isEmpty, some_held, out]

end

/-- How a move fails, if it does not work on a record. -/
def lapse (r : Recorder α) : Move α → List Lapse
  | .work => r.slips
  | _ => []

def lapses (r₀ : Recorder α) (ms : List (Move α)) : List Lapse := Trail.along move lapse r₀ ms

/-! ## Counters -/

/-- The events whose writing failed. -/
def failures (fs : List Fate) : Nat := fs.countP (· matches .failed _)

theorem failures_append (fs gs : List Fate) : failures (fs ++ gs) = failures fs + failures gs :=
  List.countP_append

/-- Every fate is one of the three. -/
theorem length_fates (fs : List Fate) :
    fs.length = fs.count .recorded + fs.count .unencodable + failures fs := by
  induction fs with
  | nil => rfl
  | cons f fs ih =>
    cases f <;> simp [failures] at ih ⊢ <;> omega

/-- The counters of what became of events, and of what failed. -/
def outcomes (t : Tally) : List UInt64 := [t.eventsWritten, t.encodeErrors, t.writeErrors]

/-- What these counters are for some fates and lapses. -/
def outcomesOf (fs : List Fate) (ls : List Lapse) : List UInt64 :=
  [.ofNat (fs.count .recorded), .ofNat (fs.count .unencodable), .ofNat (failures fs + ls.length)]

/-- Between two tallies lie these fates and these lapses. -/
def Counts (t t' : Tally) (fs : List Fate) (ls : List Lapse) : Prop :=
  ∀ gs ks, outcomes t = outcomesOf gs ks → outcomes t' = outcomesOf (gs ++ fs) (ks ++ ls)

theorem counts_same {t t' : Tally} (same : outcomes t' = outcomes t) {fs : List Fate}
    {ls : List Lapse} (hfs : fs = []) (hls : ls = []) : Counts t t' fs ls := by
  intro gs ks h
  rw [hfs, hls, List.append_nil, List.append_nil, same, h]

theorem counts_written (t : Tally) (size : Nat) : Counts t (t.written 1 size) [.recorded] [] := by
  intro gs ks h
  simp only [outcomes, outcomesOf, List.cons.injEq, and_true] at h ⊢
  obtain ⟨hwritten, hencode, hwrite⟩ := h
  refine ⟨?_, ?_, ?_⟩
  · rw [List.count_append, UInt64.ofNat_add, ← hwritten]; rfl
  · rw [List.count_append, UInt64.ofNat_add, ← hencode]; exact (UInt64.add_zero _).symm
  · rw [failures_append, List.append_nil]; exact hwrite

theorem counts_encodeError (t : Tally) : Counts t t.encodeError [.unencodable] [] := by
  intro gs ks h
  simp only [outcomes, outcomesOf, List.cons.injEq, and_true] at h ⊢
  obtain ⟨hwritten, hencode, hwrite⟩ := h
  refine ⟨?_, ?_, ?_⟩
  · rw [List.count_append, UInt64.ofNat_add, ← hwritten]; exact (UInt64.add_zero _).symm
  · rw [List.count_append, UInt64.ofNat_add, ← hencode]; rfl
  · rw [failures_append, List.append_nil]; exact hwrite

theorem counts_failed (t : Tally) (taken : Nat) : Counts t t.writeError [.failed taken] [] := by
  intro gs ks h
  simp only [outcomes, outcomesOf, List.cons.injEq, and_true] at h ⊢
  obtain ⟨hwritten, hencode, hwrite⟩ := h
  refine ⟨?_, ?_, ?_⟩
  · rw [List.count_append, UInt64.ofNat_add, ← hwritten]; exact (UInt64.add_zero _).symm
  · rw [List.count_append, UInt64.ofNat_add, ← hencode]; exact (UInt64.add_zero _).symm
  · rw [failures_append, List.append_nil, show failures [.failed taken] = 1 from rfl,
      Nat.add_right_comm, UInt64.ofNat_add, ← hwrite]
    rfl

theorem counts_lapse (t : Tally) (l : Lapse) : Counts t t.writeError [] [l] := by
  intro gs ks h
  simp only [outcomes, outcomesOf, List.cons.injEq, and_true] at h ⊢
  obtain ⟨hwritten, hencode, hwrite⟩ := h
  rw [List.append_nil]
  refine ⟨hwritten, hencode, ?_⟩
  rw [List.length_append, List.length_singleton, ← Nat.add_assoc, UInt64.ofNat_add, ← hwrite]
  rfl

/-- What is counted for an event that has had its turn, if its record has `size` bytes. -/
def settle (size : Nat) (t : Tally) : Fate → Tally
  | .recorded => t.written 1 size
  | .unencodable => t.encodeError
  | .failed _ => t.writeError

theorem counts_settle (size : Nat) (t : Tally) (f : Fate) : Counts t (settle size t f) [f] [] := by
  cases f with
  | recorded => exact counts_written t size
  | unencodable => exact counts_encodeError t
  | failed taken => exact counts_failed t taken

theorem Counts.trans {t t' t'' : Tally} {fs fs' : List Fate} {ls ls' : List Lapse}
    (h : Counts t t' fs ls) (h' : Counts t' t'' fs' ls') :
    Counts t t'' (fs ++ fs') (ls ++ ls') := by
  intro gs ks before
  have hafter := h' _ _ (h gs ks before)
  rwa [List.append_assoc, List.append_assoc] at hafter

theorem counts_settles (size : Nat) (fs : List Fate) (t : Tally) :
    Counts t (fs.foldl (settle size) t) fs [] := by
  induction fs generalizing t with
  | nil => exact counts_same rfl rfl rfl
  | cons f fs ih => exact (counts_settle size t f).trans (ih _)

theorem counts_lapses (ls : List Lapse) (t : Tally) :
    Counts t (ls.foldl (fun t _ => t.writeError) t) [] ls := by
  induction ls generalizing t with
  | nil => exact counts_same rfl rfl rfl
  | cons l ls ih => exact (counts_lapse t l).trans (ih _)

/-- Reports count nothing. -/
theorem tally_complain (r : Recorder α) (message error : String) :
    (r.complain message error).intake.tally = r.intake.tally := Intake.tally_logAll _ _

/-! ## What a step counts -/

/-- The counters after a step of its own: those before, and what the step settles and how it slips. -/
def reckoned (r : Recorder α) : Tally :=
  r.slips.foldl (fun t _ => t.writeError)
    (r.settles.foldl (settle (r.phase.size?.getD 0)) r.intake.tally)

theorem reckoned_quiet (settles : r.settles = []) (slips : r.slips = []) :
    r.reckoned = r.intake.tally := by
  rw [reckoned, settles, slips]; rfl

theorem reckoned_settled {f : Fate} (settles : r.settles = [f]) (slips : r.slips = []) :
    r.reckoned = settle (r.phase.size?.getD 0) r.intake.tally f := by
  rw [reckoned, settles, slips]; rfl

theorem reckoned_slipped {l : Lapse} (settles : r.settles = []) (slips : r.slips = [l]) :
    r.reckoned = r.intake.tally.writeError := by
  rw [reckoned, settles, slips]; rfl

/-- **Every step counts what it does.** -/
theorem Work.tally (w : Work r r') : r'.intake.tally = r.reckoned := by
  cases w with
  | start at_ | wake at_ | close at_ | takeNothing at_ | take at_ | encoded at_ =>
    exact (reckoned_quiet (by rw [settles, at_]) (by rw [slips, at_])).symm
  | encode at_ fine =>
    exact (reckoned_quiet (by rw [settles, at_]; simp [fine]) (by rw [slips, at_])).symm
  | encodeFails at_ failure =>
    rw [reckoned_settled (f := .unencodable) (by rw [settles, at_]; simp [failure])
      (by rw [slips, at_]), proceed, encodeFailed, tally_complain]
    rfl
  | written at_ =>
    rw [reckoned_settled (f := .recorded) (by rw [settles, at_]; rfl) (by rw [slips, at_]), at_]
    rfl
  | wait at_ ready some_ way =>
    exact (reckoned_quiet (by rw [settles, at_]; simp [some_, way]) (by rw [slips, at_])).symm
  | hold at_ ready some_ way =>
    rw [reckoned_settled (f := .recorded) (by rw [settles, at_]; simp [some_, way])
      (by rw [slips, at_]), at_]
    rfl
  | throughWaits at_ ready some_ way write =>
    exact (reckoned_quiet (by rw [settles, at_]; simp [some_, way, write]) (by rw [slips, at_])).symm
  | @throughFails size rest left last output result f at_ ready some_ way write failure =>
    rw [reckoned_settled (settles_of_refused at_ some_ way write failure) (by rw [slips, at_]), proceed,
      writeFailed, tally_complain]
    rfl
  | @throughPart size n rest left last output at_ ready some_ way write took =>
    exact (reckoned_quiet (settles_of_took at_ some_ way write took) (by rw [slips, at_])).symm
  | @roomWaits size rest left last r' result at_ ready out more =>
    have hnone := settles_of_room at_ out (fine_of_more more)
    obtain ⟨output, held, rfl, -⟩ := writeOut_spec out
    exact (reckoned_quiet hnone (by rw [slips, at_])).symm
  | @roomMade size rest left last r' at_ ready out =>
    have hnone := settles_of_room at_ out (by simp)
    obtain ⟨output, held, rfl, -⟩ := writeOut_spec out
    exact (reckoned_quiet hnone (by rw [slips, at_])).symm
  | @roomFails size rest left last r' f at_ ready out =>
    have hsettles := settles_of_no_room at_ out
    obtain ⟨output, held, rfl, -⟩ := writeOut_spec out
    rw [reckoned_settled hsettles (by rw [slips, at_]), proceed, writeFailed, tally_complain]
    rfl
  -- flushes and the close: a failure is a lapse
  | flushed at_ ready none_held | finished at_ ready none_held =>
    exact (reckoned_quiet (by rw [settles, at_])
      (by rw [slips, at_]; simp [WriteBuffer.isEmpty, none_held])).symm
  | @flushPart last r' result at_ ready some_held out fine =>
    have hnone := slips_of_fine (.inl ⟨last, at_⟩) out fine
    obtain ⟨output, held, rfl, -⟩ := writeOut_spec out
    exact (reckoned_quiet (by rw [settles, at_]) hnone).symm
  | @flushFails last r' f at_ ready some_held out =>
    have hslips := slips_of_flush at_ some_held out
    obtain ⟨output, held, rfl, -⟩ := writeOut_spec out
    rw [reckoned_slipped (by rw [settles, at_]) hslips, endRound, flushFailed, tally_complain]
    rfl
  | outputFlushed at_ ready flush =>
    exact (reckoned_quiet (by rw [settles, at_]) (by rw [slips, at_]; simp [flush])).symm
  | outputFlushFails at_ ready flush =>
    rw [reckoned_slipped (l := .flush) (by rw [settles, at_]) (by rw [slips, at_]; simp [flush]),
      endRound, flushFailed, tally_complain]
    rfl
  | @finishPart r' result at_ ready some_held out fine =>
    have hnone := slips_of_fine (.inr at_) out fine
    obtain ⟨output, held, rfl, -⟩ := writeOut_spec out
    exact (reckoned_quiet (by rw [settles, at_]) hnone).symm
  | @finishFails r' f at_ ready some_held out =>
    have hslips := slips_of_finish at_ some_held out
    obtain ⟨output, held, rfl, -⟩ := writeOut_spec out
    rw [reckoned_slipped (by rw [settles, at_]) hslips]
    rfl
  | closeWaits at_ ready close | closed at_ ready close =>
    exact (reckoned_quiet (by rw [settles, at_]) (by rw [slips, at_]; simp [close])).symm
  | closeFails at_ ready close =>
    rw [reckoned_slipped (l := .close) (by rw [settles, at_]) (by rw [slips, at_]; simp [close])]
    rfl

theorem Work.counts (w : Work r r') : Counts r.intake.tally r'.intake.tally r.settles r.slips := by
  have hcounts := (counts_settles (r.phase.size?.getD 0) r.settles r.intake.tally).trans
    (counts_lapses r.slips _)
  rw [List.append_nil, List.nil_append] at hcounts
  rw [w.tally]
  exact hcounts

theorem lapses_concat (run : Run r₀ ms es r) (m : Move α) :
    lapses r₀ (ms ++ [m]) = lapses r₀ ms ++ r.lapse m :=
  Trail.along_concat run.foldlM_move m

theorem fate_of_call {m : Move α} (call : m ≠ .work) : r.fate m = [] := by
  cases m with
  | work => exact absurd rfl call
  | _ => rfl

theorem lapse_of_call {m : Move α} (call : m ≠ .work) : r.lapse m = [] := by
  cases m with
  | work => exact absurd rfl call
  | _ => rfl

/-- What a caller, or time, leaves as it was. -/
structure Untouched (r r' : Recorder α) : Prop where
  encoder : r'.encoder = r.encoder
  output : r'.output = r.output
  held : r'.held = r.held
  phase : r'.phase = r.phase
  counts : counts r'.intake.tally = counts r.intake.tally

theorem untouched_of_call {m : Move α} (h : r.move m = some r') (call : m ≠ .work) :
    Untouched r r' := by
  cases m with
  | work => exact absurd rfl call
  | trace e =>
    cases h
    refine ⟨rfl, rfl, rfl, rfl, ?_⟩
    rw [trace_eq]
    cases hclosed : r.intake.buffer.closed with
    | true => rw [Intake.trace_of_closed hclosed]; rfl
    | false => rw [Intake.trace_of_open hclosed]; rfl
  | close => cases h; exact ⟨rfl, rfl, rfl, rfl, congrArg _ (Intake.tally_close _)⟩
  | abandon => cases h; exact ⟨rfl, rfl, rfl, rfl, rfl⟩
  | advance t =>
    rw [Recorder.move, Option.ite_none_right_eq_some] at h
    obtain ⟨-, ⟨⟩⟩ := h
    exact ⟨rfl, rfl, rfl, rfl, rfl⟩

/-- A move is a step of its own, or it leaves all this as it was. -/
theorem own_or_call {m : Move α} (h : r.move m = some r') :
    m = .work ∧ Work r r' ∨ m ≠ .work ∧ Untouched r r' := by
  by_cases hwork : m = .work
  · subst hwork
    exact .inl ⟨rfl, work_cases h⟩
  · exact .inr ⟨hwork, untouched_of_call h hwork⟩

theorem Untouched.outcomes (h : Untouched r r') :
    outcomes r'.intake.tally = outcomes r.intake.tally := by
  have hcounts := h.counts
  simp only [Recorder.counts, Recorder.outcomes, List.cons.injEq, and_true] at hcounts ⊢
  exact ⟨hcounts.1, hcounts.2.2⟩

/-- **The counters are counts of fates and lapses** at every moment of every run. -/
theorem Run.outcomes (run : Run r₀ ms es r) (fresh : r₀.Fresh encoder plan) :
    Recorder.outcomes r.intake.tally = outcomesOf (fates r₀ ms) (lapses r₀ ms) := by
  induction run with
  | start => rw [fresh.tally]; rfl
  | @move ms es r r' m run h ih =>
    rw [fates_concat run, lapses_concat run]
    rcases own_or_call h with ⟨rfl, w⟩ | ⟨call, same⟩
    · exact w.counts _ _ ih
    · exact counts_same same.outcomes (fate_of_call call) (lapse_of_call call) _ _ ih

/-! ## The end -/

/-- A buffer that is taken for the last time is closed, and empty from then on. -/
structure Sealed (r : Recorder α) : Prop where
  closed : r.phase.isLast = true → r.intake.buffer.closed = true
  empty : r.phase.isEmptied = true → r.intake.buffer.events = #[]

/-- A step in which the buffer is not taken. -/
theorem Sealed.turn {p q : Phase α} (h : Sealed r) (w : Work r r') (at_ : r.phase = p)
    (now : r'.phase = q) (events : r'.intake.buffer.events = r.intake.buffer.events)
    (last : q.isLast = true → p.isLast = true)
    (emptied : q.isEmptied = true → p.isEmptied = true) : Sealed r' where
  closed := by
    rw [now, w.same.2]
    exact fun hq => h.closed (at_ ▸ last hq)
  empty := by
    rw [now, events]
    exact fun hq => h.empty (at_ ▸ emptied hq)

theorem Sealed.work (h : Sealed r) (w : Work r r') : Sealed r' := by
  have hwait : r.intake.wait.1.buffer.events = r.intake.buffer.events := Intake.events_wait _
  cases hw : w with
  | start at_ => exact h.turn w at_ rfl rfl nofun nofun
  | wake at_ wait => exact h.turn w at_ rfl hwait nofun nofun
  | close at_ wait =>
    exact ⟨fun _ => (Intake.closed_wait _).trans (Intake.closed_of_wait wait), nofun⟩
  | @takeNothing last at_ events =>
    refine ⟨fun hlast => ?_, fun _ => Intake.events_swap _ _⟩
    have hclosed := h.closed
    rw [at_] at hclosed
    cases last with
    | true => exact hclosed rfl
    | false => cases hlast
  | @take last at_ events =>
    refine ⟨fun hlast => ?_, fun _ => Intake.events_swap _ _⟩
    have hclosed := h.closed
    rw [at_] at hclosed
    exact hclosed hlast
  | encoded at_ | encode at_ | written at_ | wait at_ | hold at_ | throughPart at_ | flushed at_
  | finished at_ | closed at_ | closeFails at_ => exact h.turn w at_ rfl rfl id id
  | encodeFails at_ => exact h.turn w at_ rfl (congrArg _ (buffer_encodeFailed ..)) id id
  | throughWaits at_ | closeWaits at_ => exact h.turn w at_ at_ rfl id id
  | throughFails at_ => exact h.turn w at_ rfl (congrArg _ (buffer_writeFailed ..)) id id
  | roomWaits at_ ready out | flushPart at_ ready some_held out | finishPart at_ ready some_held out =>
    obtain ⟨output, held, rfl, -⟩ := writeOut_spec out
    exact h.turn w at_ at_ rfl id id
  | roomMade at_ ready out | finishFails at_ ready some_held out =>
    obtain ⟨output, held, rfl, -⟩ := writeOut_spec out
    exact h.turn w at_ rfl rfl id id
  | roomFails at_ ready out =>
    obtain ⟨output, held, rfl, -⟩ := writeOut_spec out
    exact h.turn w at_ rfl (congrArg _ (buffer_writeFailed ..)) id id
  -- the last round leads to the end, every other one back to waiting
  | @flushFails last r' f at_ ready some_held out =>
    obtain ⟨output, held, rfl, -⟩ := writeOut_spec out
    have hevents := congrArg Buffer.events (buffer_flushFailed { r with output, held } f)
    cases last with
    | true => exact h.turn w at_ rfl hevents id id
    | false => exact h.turn w at_ rfl hevents nofun nofun
  | @outputFlushed last output at_ =>
    cases last with
    | true => exact h.turn w at_ rfl rfl id id
    | false => exact h.turn w at_ rfl rfl nofun nofun
  | @outputFlushFails last output f at_ =>
    have hevents := congrArg Buffer.events (buffer_flushFailed { r with output } f)
    cases last with
    | true => exact h.turn w at_ rfl hevents id id
    | false => exact h.turn w at_ rfl hevents nofun nofun

theorem Sealed.step (h : Sealed r) (st : Step r new r') : Sealed r' := by
  cases st with
  | accept e open_ =>
    rw [trace_eq, Intake.trace_of_open open_]
    have hlast : r.phase.isLast ≠ true := fun hlast => by rw [h.closed hlast] at open_; cases open_
    exact ⟨fun hnow => absurd hnow hlast,
      fun hnow => absurd (Phase.isLast_of_isEmptied hnow) hlast⟩
  | refuse e closed =>
    rw [trace_eq, Intake.trace_of_closed closed]
    exact ⟨h.closed, h.empty⟩
  | close =>
    exact ⟨fun _ => Intake.closed_close _, fun hnow => (Intake.events_close _).trans (h.empty hnow)⟩
  | abandon => exact ⟨fun _ => rfl, h.empty⟩
  | advance => exact ⟨h.closed, h.empty⟩
  | work w => exact h.work w

theorem Fresh.sealed (h : r.Fresh encoder plan) : Sealed r := by
  constructor
  · rw [h.phase]; nofun
  · rw [h.phase]; nofun

theorem Run.sealed (run : Run r₀ ms es r) (start : Sealed r₀) : Sealed r :=
  run.induct (P := fun _ r => Sealed r) start Sealed.step

/-- Nothing is held any more when the output is closed. -/
structure Shut (r : Recorder α) : Prop where
  live : r.phase ≠ .ended → r.output.outcome = .live
  empty : r.phase = .closingOutput → r.held.held = []
  closed : r.output.outcome = .closed → r.held.held = []

/-- The output is closed at the very end. -/
theorem Shut.ended (h : Shut r) (closed : r.output.outcome = .closed) : r.phase = .ended := by
  by_contra hgoing
  rw [h.live hgoing] at closed
  cases closed

/-- A step in which the output is not closed. -/
theorem Shut.onward {p : Phase α} (h : Shut r) (at_ : r.phase = p) (going : p ≠ .ended)
    (outcome : r'.output.outcome = r.output.outcome)
    (empty : r'.phase = .closingOutput → r'.held.held = []) : Shut r' := by
  have hlive : r'.output.outcome = .live := outcome.trans (h.live (at_ ▸ going))
  refine ⟨fun _ => hlive, empty, fun hclosed => ?_⟩
  rw [hlive] at hclosed
  cases hclosed

theorem Shut.work (h : Shut r) (w : Work r r') : Shut r' := by
  cases w with
  | start at_ | wake at_ | close at_ | take at_ | encoded at_ | encode at_ | encodeFails at_
  | written at_ | wait at_ | hold at_ | flushed at_ => exact h.onward at_ nofun rfl nofun
  | @takeNothing last at_ => cases last <;> exact h.onward at_ nofun rfl nofun
  | @throughWaits size rest left last output at_ ready some_ way write =>
    have houtcome := (r.output.write_spec r.clock rest).2.2
    rw [write] at houtcome
    exact h.onward at_ nofun houtcome fun hp => by cases at_.symm.trans hp
  | @throughFails size rest left last output result f at_ ready some_ way write failure
  | @throughPart size n rest left last output at_ ready some_ way write took =>
    have houtcome := (r.output.write_spec r.clock rest).2.2
    rw [write] at houtcome
    exact h.onward at_ nofun houtcome nofun
  | roomWaits at_ ready out | flushPart at_ ready some_held out | finishPart at_ ready some_held out =>
    obtain ⟨output, held, rfl, -, houtcome, -⟩ := writeOut_spec out
    exact h.onward at_ nofun houtcome fun hp => by cases at_.symm.trans hp
  | roomMade at_ ready out | roomFails at_ ready out | finishFails at_ ready some_held out =>
    obtain ⟨output, held, rfl, -, houtcome, -⟩ := writeOut_spec out
    exact h.onward at_ nofun houtcome nofun
  | @flushFails last r' f at_ ready some_held out =>
    obtain ⟨output, held, rfl, -, houtcome, -⟩ := writeOut_spec out
    cases last <;> exact h.onward at_ nofun houtcome nofun
  | @outputFlushed last output at_ ready flush | @outputFlushFails last output f at_ ready flush =>
    have houtcome := r.output.flush_spec.2
    rw [flush] at houtcome
    cases last <;> exact h.onward at_ nofun houtcome nofun
  | finished at_ ready none_held => exact h.onward at_ nofun rfl fun _ => none_held
  | closeWaits at_ ready close =>
    have houtcome := (r.output.close_spec r.clock).2
    rw [close] at houtcome
    exact h.onward at_ nofun houtcome fun _ => h.empty at_
  | closed at_ ready close => exact ⟨fun hp => absurd rfl hp, nofun, fun _ => h.empty at_⟩
  | closeFails at_ ready close => exact ⟨fun hp => absurd rfl hp, nofun, fun _ => h.empty at_⟩

theorem Run.shut (run : Run r₀ ms es r) (fresh : r₀.Fresh encoder plan) : Shut r := by
  induction run with
  | start =>
    refine ⟨fun _ => ?_, fun _ => ?_, fun _ => ?_⟩
    · rw [fresh.output]; rfl
    · rw [fresh.held]; rfl
    · rw [fresh.held]; rfl
  | @move ms es r r' m run h ih =>
    rcases own_or_call h with ⟨-, w⟩ | ⟨-, same⟩
    · exact ih.work w
    · constructor
      · rw [same.phase, same.output]; exact ih.live
      · rw [same.phase, same.held]; exact ih.empty
      · rw [same.output, same.held]; exact ih.closed

/-- **A recorder that has ended is done with every event that it accepted**: each has its fate, and what
the output was given are their shares in turn. -/
theorem Booked.ended (h : Booked es fs r) (sealed_ : Sealed r) (ended : r.phase = .ended) :
    fs.length = es.length ∧ r.output.accepted ++ r.held.held = shares r.encoder es fs ∧
      ∀ d ∈ es.zip fs, d.2.Fits r.encoder d.1 := by
  obtain ⟨done, hand?, part, hbook⟩ := h
  obtain ⟨rfl, rfl⟩ := hbook.idle_of_size (by rw [ended]; rfl)
  have hempty := sealed_.empty (by rw [ended]; rfl)
  have hdone : es = done := by
    rw [hbook.split, ended, hempty]
    simp [Phase.left]
  subst hdone
  exact ⟨hbook.length, hbook.bytes.trans (List.append_nil _), hbook.fits⟩

end TraceRelay.Recorder
