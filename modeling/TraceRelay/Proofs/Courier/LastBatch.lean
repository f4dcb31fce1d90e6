import TraceRelay.Proofs.Courier.Stranded

/-!
# A batch that is lost when nothing can follow it

When the buffer is closed and empty there will be no further batch (`Run.exhausted`). Should the one on
its way be lost then, its stream is reset; what comes after it depends on what the courier has seen
(`lost_when_exhausted`):

* if the batch was sent as the last one, or the courier was cancelled, it asks no more of its host and
  comes to its end;
* otherwise it does not know that the buffer is closed, and connects once more, for nothing.

`connects_for_nothing` is a run of the second kind: the close comes while events gather.
-/

namespace TraceRelay.Courier

variable {α : Type} {c c' : Courier α} {ds new : Deeds α}

/-! ## Nothing to come -/

/-- No event is queued, and none will be. -/
structure Exhausted (c : Courier α) : Prop where
  closed : c.intake.buffer.closed = true
  empty : c.intake.buffer.events = #[]

/-- Whether the events are about to be taken for the last time. -/
def Phase.takesLast : Phase → Bool
  | .collecting _ last => last
  | _ => false

/-- Whether the batch on its way is sent as the last one. -/
def Phase.sendsLast : Phase → Bool
  | .writing _ last _ _ | .flushing _ last _ => last
  | _ => false

def takesLast (c : Courier α) : Bool := c.phase.takesLast

def sendsLast (c : Courier α) : Bool := c.phase.sendsLast

theorem stranded_lost {s : Session} {last : Bool} {parcel : Parcel} {f : Fault}
    (cancelled : c.cancelled = true) : Stranded (c.lost s last parcel f) := by
  cases last with
  | true => exact .leaving rfl
  | false => exact .opening rfl cancelled nofun

variable [Message α]

theorem Exhausted.work (h : Exhausted c) (w : Work c new c') :
    Exhausted c' ∧ new.accepted = [] ∧ new.taken = [] := by
  have hquiet := w.quiet
  cases w with
  | take at_ events => exact absurd h.empty events
  | discard at_ events => exact absurd h.empty events
  | writeFails | flushFails => exact ⟨⟨h.closed, h.empty⟩, rfl, rfl⟩
  | @flush s last parcel net at_ =>
    refine ⟨⟨?_, ?_⟩, rfl, rfl⟩
    · rw [sent, intake_endBatch]
      exact h.closed
    · rw [sent, intake_endBatch]
      exact h.empty
  | _ => exact ⟨⟨(hquiet rfl).closed h.closed, (hquiet rfl).events.trans h.empty⟩, rfl, rfl⟩

theorem Exhausted.step (h : Exhausted c) (st : Step c new c') :
    Exhausted c' ∧ new.accepted = [] ∧ new.taken = [] := by
  cases st with
  | accept e open_ =>
    rw [h.closed] at open_
    cases open_
  | refuse e closed =>
    refine ⟨⟨?_, ?_⟩, rfl, rfl⟩
    · rw [trace_eq, Intake.trace_of_closed closed]
      exact closed
    · rw [trace_eq, Intake.trace_of_closed closed]
      exact h.empty
  | close => exact ⟨⟨Intake.closed_close _, (Intake.events_close _).trans h.empty⟩, rfl, rfl⟩
  | abandon => exact ⟨⟨rfl, h.empty⟩, rfl, rfl⟩
  | cancel | advance => exact ⟨⟨h.closed, h.empty⟩, rfl, rfl⟩
  | work w => exact h.work w

/-- **Nothing comes into a buffer that is closed, or out of it if it is empty.** -/
theorem Run.exhausted {ms : List (Move α)} (r : Run c ms ds c') (h : Exhausted c) :
    Exhausted c' ∧ ds.accepted = [] ∧ ds.taken = [] := by
  refine r.induct (P := fun ds c' => Exhausted c' ∧ ds.accepted = [] ∧ ds.taken = [])
    ⟨h, rfl, rfl⟩ ?_
  rintro ds c₁ new c₂ ⟨hexhausted, haccepted, htaken⟩ st
  obtain ⟨hexhausted', haccepted', htaken'⟩ := hexhausted.step st
  refine ⟨hexhausted', ?_, ?_⟩
  · rw [Deeds.accepted_append, haccepted, haccepted', List.append_nil]
  · rw [Deeds.taken_append, htaken, htaken', List.append_nil]

/-! ## What a courier knows of a close -/

/-- While events are queued their wake has not been forgotten, so that only a cancellation makes a
courier send a batch as the last. -/
structure Told (c : Courier α) : Prop where
  woken : c.intake.buffer.events ≠ #[] →
    c.intake.buffer.token = true ∨ c.pendingWake = true ∨ c.isRoused = true
  taking : c.takesLast = false ∨ c.cancelled = true ∨ Exhausted c
  sending : c.sendsLast = false ∨ c.cancelled = true

omit [Message α] in
/-- While a courier has seen nothing, it is still to hear of what is queued. -/
theorem Told.unheard (h : Told c) (resting : c.isRoused = false)
    (queued : c.intake.buffer.events ≠ #[]) :
    c.intake.buffer.token = true ∨ c.pendingWake = true := by
  rcases h.woken queued with htoken | hnoted | hroused
  · exact .inl htoken
  · exact .inr hnoted
  · rw [resting] at hroused
    cases hroused

omit [Message α] in
/-- A step that neither sees nor takes anything. -/
theorem Told.keep (h : Told c) (resting : c.isRoused = false)
    (buffer : c'.intake.buffer = c.intake.buffer) (noted : c'.pendingWake = c.pendingWake)
    (taking : c'.takesLast = false) (sending : c'.sendsLast = false ∨ c'.cancelled = true) :
    Told c' := by
  refine ⟨?_, .inl taking, sending⟩
  intro queued
  rw [buffer] at queued
  rw [buffer, noted]
  exact (h.unheard resting queued).imp_right .inl

omit [Message α] in
/-- If nothing tells of events, none are queued. -/
theorem Told.empty (h : Told c) (token : c.intake.buffer.token = false)
    (noted : c.pendingWake = false) (resting : c.isRoused = false) :
    c.intake.buffer.events = #[] := by
  by_cases queued : c.intake.buffer.events = #[]
  · exact queued
  · rcases h.unheard resting queued with htoken | hnoted
    · rw [token] at htoken
      cases htoken
    · rw [noted] at hnoted
      cases hnoted

omit [Message α] in
theorem lasts_at {p : Phase} (at_ : c.phase = p) :
    c.takesLast = p.takesLast ∧ c.sendsLast = p.sendsLast := by
  rw [takesLast, sendsLast, at_]
  exact ⟨rfl, rfl⟩

theorem Told.work (h : Told c) (w : Work c new c') : Told c' := by
  cases w with
  | start at_ => exact h.keep (isRoused_at at_) rfl rfl rfl (.inl rfl)
  | opened at_ =>
    exact h.keep (isRoused_at at_) (buffer_endOpening ..) (pendingWake_endOpening ..) rfl (.inl rfl)
  | @gaveUp o closing again e at_ =>
    obtain ⟨htakes, hsends⟩ := lasts_at (c.asksNothing_giveUp again e).2
    exact h.keep (isRoused_at at_) (buffer_endOpening ..) (pendingWake_endOpening ..) htakes
      (.inl hsends)
  | @connect o closing again turn at_ =>
    refine h.keep (isRoused_at at_) ?_ rfl rfl (.inl rfl)
    show (Intake.logAll _ _).buffer = _
    rw [Intake.buffer_logAll]
    split <;> rfl
  | noteWake at_ =>
    obtain ⟨htakes, hsends⟩ := lasts_at at_
    exact ⟨fun _ => .inr (.inl rfl), .inl htakes, .inl hsends⟩
  | noteClose at_ wait =>
    refine ⟨?_, .inl rfl, .inl rfl⟩
    intro queued
    rw [Intake.events_wait] at queued
    rcases h.unheard (isRoused_at at_) queued with htoken | hnoted
    · rw [(Intake.token_of_closed wait).1] at htoken
      cases htoken
    · exact .inr (.inl hnoted)
  | heedNoted => exact ⟨fun _ => .inr (.inr rfl), .inl rfl, .inl rfl⟩
  | @heed s signal at_ noted wait =>
    have hroused : ({ c with intake := c.intake.wait.1 }.heed s signal).isRoused = true :=
      isRoused_heed ..
    cases signal with
    | wake => exact ⟨fun _ => .inr (.inr hroused), .inl rfl, .inl rfl⟩
    | closed =>
      -- a close is only seen once no wake is left, and then nothing is queued
      refine ⟨fun _ => .inr (.inr hroused), .inr (.inr ⟨?_, ?_⟩), .inl rfl⟩
      · exact (Intake.closed_wait _).trans (Intake.closed_of_wait wait)
      · rw [intake_heed, Intake.events_wait]
        exact h.empty (Intake.token_of_closed wait).1 noted (isRoused_at at_)
  | heedCancel at_ noted cancelled =>
    exact ⟨fun _ => .inr (.inr rfl), .inr (.inl cancelled), .inl rfl⟩
  | gathered => exact ⟨fun _ => .inr (.inr rfl), .inl rfl, .inl rfl⟩
  | @takeNothing s last at_ events =>
    refine ⟨fun queued => absurd ?_ queued, ?_, ?_⟩
    · rw [intake_endBatch, Intake.events_swap]
    · cases last <;> exact .inl rfl
    · cases last <;> exact .inl rfl
  | @take s last at_ events =>
    refine ⟨fun queued => absurd (Intake.events_swap ..) queued, .inl rfl, ?_⟩
    cases last with
    | false => exact .inl rfl
    | true =>
      rcases h.taking with htakes | hcancelled | hexhausted
      · rw [(lasts_at at_).1] at htakes
        cases htakes
      · exact .inr hcancelled
      · exact absurd hexhausted.empty events
  -- what is on its way is done with before the queue is looked at again
  | writeWaits at_ => exact h.keep (isRoused_at at_) rfl rfl (lasts_at at_).1 h.sending
  | writePart at_ | writeAll at_ =>
    have hsending := h.sending
    rw [(lasts_at at_).2] at hsending
    exact h.keep (isRoused_at at_) rfl rfl rfl hsending
  | @writeFails s last _ _ _ _ _ at_ | @flushFails s last _ _ _ at_ =>
    refine h.keep (isRoused_at at_) rfl rfl ?_ ?_
    · cases last <;> rfl
    · cases last <;> exact .inl rfl
  | @flush s last parcel net at_ =>
    refine h.keep (isRoused_at at_) ?_ (pendingWake_endBatch ..) ?_ ?_
    · rw [sent, intake_endBatch]
      rfl
    · cases last <;> rfl
    · cases last <;> exact .inl rfl
  | completeWaits at_ | closeWaits at_ =>
    exact h.keep (isRoused_at at_) rfl rfl (lasts_at at_).1 h.sending
  | completeFails at_ | completePart at_ | completeAll at_ | flushEnd at_ | flushEndFails at_
  | closed at_ | closeFails at_ =>
    exact h.keep (isRoused_at at_) rfl rfl rfl (.inl rfl)
  | leave at_ =>
    exact ⟨fun queued => (h.unheard (isRoused_at at_) queued).imp_right .inl, .inl rfl, .inl rfl⟩
  | discardNothing | discard =>
    exact ⟨fun queued => absurd (events_discard c) queued, .inl rfl, .inl rfl⟩

theorem Told.step (h : Told c) (st : Step c new c') : Told c' := by
  cases st with
  | accept e open_ =>
    refine ⟨?_, ?_, h.sending⟩
    · intro _
      rw [trace_eq, Intake.trace_of_open open_]
      exact .inl rfl
    · rcases h.taking with htakes | hcancelled | hexhausted
      · exact .inl htakes
      · exact .inr (.inl hcancelled)
      · rw [hexhausted.closed] at open_
        cases open_
  | refuse e closed =>
    have hbuffer : (c.trace e).intake.buffer = c.intake.buffer := by
      rw [trace_eq, Intake.trace_of_closed closed]
    refine ⟨?_, ?_, h.sending⟩
    · rw [hbuffer]
      exact h.woken
    · exact h.taking.imp_right (Or.imp_right fun hexhausted => (hexhausted.step (.refuse e closed)).1)
  | close =>
    have htoken : c.close.intake.buffer.token = c.intake.buffer.token := by
      unfold close Intake.close Buffer.close
      cases c.intake.buffer.closed <;> rfl
    refine ⟨?_, ?_, h.sending⟩
    · intro queued
      rw [htoken]
      exact h.woken fun hempty => queued ((Intake.events_close _).trans hempty)
    · exact h.taking.imp_right (Or.imp_right fun hexhausted => (hexhausted.step .close).1)
  | abandon =>
    refine ⟨h.woken, ?_, h.sending⟩
    exact h.taking.imp_right (Or.imp_right fun hexhausted => ⟨rfl, hexhausted.empty⟩)
  | cancel => exact ⟨h.woken, .inr (.inl rfl), .inr rfl⟩
  | advance =>
    refine ⟨h.woken, ?_, h.sending⟩
    exact h.taking.imp_right (Or.imp_right fun hexhausted => ⟨hexhausted.closed, hexhausted.empty⟩)
  | work w => exact h.work w

/-! ## A batch is lost -/

/-- A batch is lost by a write or a flush that fails. -/
theorem Work.lost {events : List α} {i : Nat} (w : Work c [.settled events (.lost i)] c') :
    ∃ s parcel net f, s.stream = i ∧ net.calls = c.net.calls ∧
      c' = { c with net }.lost s c.sendsLast parcel f := by
  cases w with
  | @writeFails s last parcel rest net result f at_ ready write =>
    refine ⟨s, parcel, net, f, rfl, Net.calls_write write, ?_⟩
    rw [(lasts_at at_).2]
    rfl
  | @flushFails s last parcel net f at_ ready flush =>
    refine ⟨s, parcel, net, f, rfl, Net.calls_flush flush, ?_⟩
    rw [(lasts_at at_).2]
    rfl

/-- An opening begins with a connect. -/
theorem dials_first (at_ : c.phase = .opening .start false true) (going : c.cancelled = false) :
    ∃ c', c.work .former = some c' ∧
      c'.net.dials = c.net.dials ++ [.connect c.net.clock c.connector.target] := by
  have hstep : c.connector.step c.cancelled c.stopped c.net .start = some
      ⟨(c.connector.call c.net .connect).2, (c.connector.call c.net .connect).1, false, []⟩ := by
    rw [going]
    rfl
  have hwork : ∃ c', c.workOpening .start false true = some c' ∧
      c'.net = (c.connector.call c.net .connect).1 := by
    unfold workOpening
    rw [hstep]
    exact ⟨_, rfl, rfl⟩
  obtain ⟨c', hc', hnet⟩ := hwork
  refine ⟨c', ?_, ?_⟩
  · rw [Courier.work, at_]
    show Pick.choose .former (c.workOpening .start false true) _ = _
    rw [hc']
    rfl
  · have hcalls : (c.connector.call c.net .connect).1.calls =
        c.net.calls.push (.connect c.net.clock c.connector.target) := rfl
    rw [hnet, Net.dials, hcalls]
    simp [Net.dials, Call.isDial]

theorem Run.told {connector : Connector} {window : Duration} {method : Gzip.Method} {level : Nat}
    {net : Net} {cancelled : Bool} {ms : List (Move α)}
    (r : Run (.start connector window method level net cancelled) ms ds c) : Told c :=
  r.induct (P := fun _ c => Told c) ⟨fun queued => absurd rfl queued, .inl rfl, .inl rfl⟩ Told.step

/-- What comes of a batch that is lost on stream `i`, when nothing can follow it. -/
structure LostForGood (c c' : Courier α) (i : Nat) : Prop where
  reset : c'.net.calls = c.net.calls.push (.reset i)
  nothing_more : ∀ {ms ds c''}, Run c' ms ds c'' → ds.accepted = [] ∧ ds.taken = []
  /-- Cancelled, the courier makes no further call to its host. -/
  asks_nothing : c.cancelled = true → ∀ {ms ds c''}, Run c' ms ds c'' →
    c''.net.calls = c'.net.calls ∧ c''.intake.tally.reconnects = c.intake.tally.reconnects
  ends : c.cancelled = true → ∀ pick, ∃ own ds c'', (∀ m ∈ own, m = .work pick) ∧
    c'.moves own = some (ds, c'') ∧ c''.phase = .ended
  /-- Otherwise it connects again. -/
  connects : c.cancelled = false → ∃ c'', c'.work .former = some c'' ∧
    c''.net.dials = c'.net.dials ++ [.connect c'.net.clock c'.connector.target]

/-- **A batch that is lost when nothing can follow it**, in every run: its stream is reset, and no event
goes out any more. A courier that has been cancelled makes no further call to its host, counts no
reconnect and ends by itself; any other connects again, whatever it was told of the close. -/
theorem lost_when_exhausted {connector : Connector} {window : Duration} {method : Gzip.Method}
    {level : Nat} {net : Net} {cancelled : Bool} {ms : List (Move α)} {pick : Pick} {events : List α}
    {i : Nat} (r : Run (.start connector window method level net cancelled) ms ds c)
    (closed : c.intake.buffer.closed = true) (empty : c.intake.buffer.events = #[])
    (lost : c.deeds (.work pick) = [.settled events (.lost i)]) (work : c.work pick = some c') :
    LostForGood c c' i := by
  have w := work_cases work
  rw [lost] at w
  have hexhausted : Exhausted c' := (Exhausted.work ⟨closed, empty⟩ w).1
  obtain ⟨s, parcel, net, f, rfl, hcalls, rfl⟩ := w.lost
  constructor
  case reset =>
    show net.calls.push _ = _
    rw [hcalls]
  case nothing_more => exact fun r' => (r'.exhausted hexhausted).2
  case asks_nothing =>
    intro hcancelled ms' ds' c'' r'
    obtain ⟨-, hnothing⟩ := r'.asks_nothing (stranded_lost hcancelled)
    exact ⟨hnothing.calls, hnothing.reconnects⟩
  case ends =>
    intro hcancelled pick'
    have hstranded : Stranded ({ c with net }.lost s c.sendsLast parcel f) :=
      stranded_lost hcancelled
    obtain ⟨own, ds', c'', hown, -, hmoves, hended⟩ := hstranded.ends pick'
    exact ⟨own, ds', c'', hown, hmoves, hended⟩
  case connects =>
    intro going
    have hunknown : c.sendsLast = false := by
      rcases r.told.sending with hunknown | hcancelled
      · exact hunknown
      · rw [hcancelled] at going
        cases going
    rw [hunknown]
    exact dials_first rfl going

/-! ### A close that comes while events gather -/

/-- One event is traced; before its batch is taken the tracer is closed, and perhaps given another
order. No write will succeed. -/
def closedWhileGathering (orders : List (Move Event)) : List (Move Event) :=
  List.flatten [[.trace ⟨"a", 1⟩], List.replicate 7 (.work .former), [.close], orders,
    List.replicate 2 (.work .former)]

/-- What is seen of a courier here. -/
def view (c : Courier Event) : Bool × Bool × Bool × UInt64 :=
  (c.intake.buffer.closed, c.intake.buffer.events.isEmpty, c.cancelled, c.intake.tally.reconnects)

theorem lost_when_exhausted_cancelled :
    ∃ ds c c', Run unheardStart (closedWhileGathering [.cancel]) ds c ∧
      c.intake.buffer.closed = true ∧ c.intake.buffer.events = #[] ∧ c.cancelled = true ∧
      c.deeds (.work .former) = [.settled [⟨"a", 1⟩] (.lost 0)] ∧ c.work .former = some c' ∧
      LostForGood c c' 0 := by
  have hmoves : (unheardStart.moves (closedWhileGathering [.cancel])).map (fun (_, c) =>
      (view c, c.deeds (.work .former), (c.work .former).isSome)) =
      some ((true, true, true, 0), [.settled [⟨"a", 1⟩] (.lost 0)], true) := by decide +kernel
  obtain ⟨ds, c, hrun, hstate⟩ := Run.seen hmoves
  simp only [view, Prod.mk.injEq, Array.isEmpty_iff, Option.isSome_iff_exists] at hstate
  obtain ⟨⟨hclosed, hempty, hcancelled, -⟩, hdeeds, c', hwork⟩ := hstate
  exact ⟨ds, c, c', hrun, hclosed, hempty, hcancelled, hdeeds, hwork,
    lost_when_exhausted hrun hclosed hempty hdeeds hwork⟩

/-- **Closed and with nothing left to send, a courier connects once more**: its last batch is lost, and
it opens another stream and counts a reconnect. -/
theorem connects_for_nothing :
    ∃ ds c c' ds' c'', Run unheardStart (closedWhileGathering []) ds c ∧
      c.intake.buffer.closed = true ∧ c.intake.buffer.events = #[] ∧
      c.deeds (.work .former) = [.settled [⟨"a", 1⟩] (.lost 0)] ∧ c.work .former = some c' ∧
      Run c' (List.replicate 5 (.work .former)) ds' c'' ∧
      c'.net.dials.length = 2 ∧ c''.net.dials.length = 4 ∧
      c'.intake.tally.reconnects = 0 ∧ c''.intake.tally.reconnects = 1 := by
  have hmoves : ((unheardStart.moves (closedWhileGathering [])).bind fun (_, c) =>
      (c.work .former).bind fun c' => (c'.moves (List.replicate 5 (.work .former))).map fun (_, c'') =>
        (view c, c.deeds (.work .former), [c'.net.dials.length, c''.net.dials.length],
          [c'.intake.tally.reconnects, c''.intake.tally.reconnects])) =
      some ((true, true, false, 0), [.settled [⟨"a", 1⟩] (.lost 0)], [2, 4], [0, 1]) := by
    decide +kernel
  simp only [Option.bind_eq_some_iff, Option.map_eq_some_iff, Prod.exists] at hmoves
  obtain ⟨ds, c, hmoves, c', hwork, ds', c'', hmore, hstate⟩ := hmoves
  simp only [view, Prod.mk.injEq, Array.isEmpty_iff, List.cons.injEq, and_true] at hstate
  obtain ⟨⟨hclosed, hempty, -, -⟩, hdeeds, ⟨hdials, hdials'⟩, hreconnects, hreconnects'⟩ := hstate
  exact ⟨ds, c, c', ds', c'', Run.start.moves hmoves, hclosed, hempty, hdeeds, hwork,
    Run.start.moves hmore, hdials, hdials', hreconnects, hreconnects'⟩

end TraceRelay.Courier
