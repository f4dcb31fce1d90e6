import TraceRelay.Proofs.Courier.Reports
import TraceRelay.Proofs.Courier.Stranded

/-!
# How a cancelled courier winds up its stream

A courier that waits on an open stream and notices that it has been cancelled closes the buffer. What
is queued then goes out as one last batch, and the stream is finished; if the batch is lost, the stream
is reset.

1. `LastStage`: where the courier is in this, with the batches it has taken since, what has become of
   them, and the calls it has made. `DoneWith` is how it may end.
2. `WindingUp.step`: every step leads to a stage; `Run.windingUp`: so does every run.
3. `WindingUp.works`: only the stream may keep the courier waiting. `WindingUp.ends`: unless the stream
   does, the courier comes to its end by itself.
-/

namespace TraceRelay.Courier

variable {α : Type} {c c₁ c' : Courier α} {ds new : Deeds α} {i : Nat} {queued : Array α}

/-! ## Stages -/

/-- The last batch has been sent on stream `i`, unless nothing was queued: the batches taken, and what
became of them. -/
inductive AllSent (i : Nat) : Array α → List (List α) → List (List α × Fate) → Prop where
  | nothing : AllSent i #[] [] []
  | batch {queued : Array α} (some_ : queued ≠ #[]) :
      AllSent i queued [queued.toList] [(queued.toList, .sent i)]

/-- How stream `i` may be done with when `queued` was left to send: the batches taken, what became of
them, and the calls made. -/
inductive DoneWith (i : Nat) (queued : Array α) (warned : Prop) :
    List (List α) → List (List α × Fate) → List Call → Prop where
  /-- The stream was finished, and closed. -/
  | closed {taken : List (List α)} {settled : List (List α × Fate)}
      (all_sent : AllSent i queued taken settled) : DoneWith i queued warned taken settled [.close i]
  /-- The compressed stream could not be finished. -/
  | spoiled {taken : List (List α)} {settled : List (List α × Fate)}
      (all_sent : AllSent i queued taken settled) (told : warned) :
      DoneWith i queued warned taken settled [.reset i]
  /-- The last batch was lost. -/
  | lost (some_ : queued ≠ #[]) :
      DoneWith i queued warned [queued.toList] [(queued.toList, .lost i)] [.reset i]

/-- Where a courier is that has `queued` left to send on stream `i`: its phase, the events of the buffer
and of the scratch vector, the batches taken, what became of them, and the calls made. -/
inductive LastStage (i : Nat) (queued : Array α) (warned : Prop) : Phase → Array α → Array α →
    List (List α) → List (List α × Fate) → List Call → Prop where
  | collecting {s : Session} {scratch : Array α} (on : s.stream = i) :
      LastStage i queued warned (.collecting s true) queued scratch [] [] []
  | writing {s : Session} {parcel : Parcel} {rest : Bytes} (on : s.stream = i)
      (some_ : queued ≠ #[]) :
      LastStage i queued warned (.writing s true parcel rest) #[] queued [queued.toList] [] []
  | flushing {s : Session} {parcel : Parcel} (on : s.stream = i) (some_ : queued ≠ #[]) :
      LastStage i queued warned (.flushing s true parcel) #[] queued [queued.toList] [] []
  | completing {rest : Bytes} {scratch : Array α} {taken : List (List α)}
      {settled : List (List α × Fate)} (all_sent : AllSent i queued taken settled) :
      LastStage i queued warned (.completing i rest) #[] scratch taken settled []
  | flushingEnd {scratch : Array α} {taken : List (List α)} {settled : List (List α × Fate)}
      (all_sent : AllSent i queued taken settled) :
      LastStage i queued warned (.flushingEnd i) #[] scratch taken settled []
  | closing {scratch : Array α} {taken : List (List α)} {settled : List (List α × Fate)}
      (all_sent : AllSent i queued taken settled) :
      LastStage i queued warned (.closing i) #[] scratch taken settled [.close i]
  | leaving {scratch : Array α} {taken : List (List α)} {settled : List (List α × Fate)}
      {calls : List Call} (done : DoneWith i queued warned taken settled calls) :
      LastStage i queued warned .leaving #[] scratch taken settled calls
  | discarding {scratch : Array α} {taken : List (List α)} {settled : List (List α × Fate)}
      {calls : List Call} (done : DoneWith i queued warned taken settled calls) :
      LastStage i queued warned .discarding #[] scratch taken settled calls
  | ended {scratch : Array α} {taken : List (List α)} {settled : List (List α × Fate)}
      {calls : List Call} (done : DoneWith i queued warned taken settled calls) :
      LastStage i queued warned .ended #[] scratch taken settled calls

theorem DoneWith.mono {warned warned' : Prop} {taken : List (List α)}
    {settled : List (List α × Fate)} {calls : List Call}
    (h : DoneWith i queued warned taken settled calls) (still : warned → warned') :
    DoneWith i queued warned' taken settled calls := by
  cases h with
  | closed all_sent => exact .closed all_sent
  | spoiled all_sent told => exact .spoiled all_sent (still told)
  | lost some_ => exact .lost some_

theorem LastStage.mono {warned warned' : Prop} {p : Phase} {events scratch : Array α}
    {taken : List (List α)} {settled : List (List α × Fate)} {calls : List Call}
    (h : LastStage i queued warned p events scratch taken settled calls) (still : warned → warned') :
    LastStage i queued warned' p events scratch taken settled calls := by
  cases h with
  | collecting on => exact .collecting on
  | writing on some_ => exact .writing on some_
  | flushing on some_ => exact .flushing on some_
  | completing all_sent => exact .completing all_sent
  | flushingEnd all_sent => exact .flushingEnd all_sent
  | closing all_sent => exact .closing all_sent
  | leaving done => exact .leaving (done.mono still)
  | discarding done => exact .discarding (done.mono still)
  | ended done => exact .ended (done.mono still)

/-- That the stream could not be finished. -/
def Warned (c c' : Courier α) : Prop :=
  ∃ f : Fault, Reported c "failed to close trace stream" [errorField f.text] c'

theorem Warned.mono {c'' : Courier α} (h : Warned c c') (later : c'.intake.Extends c''.intake) :
    Warned c c'' := by
  obtain ⟨f, hreported⟩ := h
  exact ⟨f, hreported.mono later⟩

/-! ## Steps -/

section

variable [Message α]

/-- Only an opening counts reconnects, and failures to connect. -/
theorem Work.uncounted (w : Work c new c')
    (streaming : ∀ o closing again, c.phase ≠ .opening o closing again) :
    c'.intake.tally.reconnects = c.intake.tally.reconnects ∧
      c'.intake.tally.connectFailures = c.intake.tally.connectFailures := by
  cases w with
  | opened at_ | gaveUp at_ | connect at_ => exact absurd at_ (streaming _ _ _)
  | heedNoted | heed | heedCancel =>
    rw [intake_heed]
    exact ⟨rfl, rfl⟩
  | takeNothing =>
    rw [intake_endBatch]
    exact ⟨rfl, rfl⟩
  | flush =>
    rw [sent, intake_endBatch]
    exact ⟨rfl, rfl⟩
  | discardNothing | discard => exact ⟨c.asksNothing_discard.reconnects, c.asksNothing_discard.failures⟩
  | _ => exact ⟨rfl, rfl⟩

theorem Work.stays_closed (w : Work c new c') (closed : c.intake.buffer.closed = true) :
    c'.intake.buffer.closed = true := by
  have hquiet := w.quiet
  cases w with
  | take | writeFails | flushFails => exact closed
  | flush =>
    rw [sent, intake_endBatch]
    exact closed
  | discard =>
    rw [closed_discard]
    exact closed
  | _ => exact (hquiet rfl).closed closed

end

variable {warned : Prop} {taken : List (List α)} {settled : List (List α × Fate)} {calls : List Call}

/-- A step without deeds and calls. -/
theorem LastStage.still {p : Phase} {events scratch : Array α}
    (h : LastStage i queued warned p events scratch taken settled calls)
    (same : c'.net.calls = c.net.calls) :
    ∃ more, c'.net.calls.toList = c.net.calls.toList ++ more ∧
      LastStage i queued warned p events scratch (taken ++ Deeds.taken [])
        (settled ++ Deeds.settled []) (calls ++ more) := by
  refine ⟨[], ?_, ?_⟩
  · rw [same, List.append_nil]
  · show LastStage i queued warned p events scratch (taken ++ []) (settled ++ []) (calls ++ [])
    rw [List.append_nil, List.append_nil, List.append_nil]
    exact h

variable [Message α]

omit [Message α] in
/-- The last batch is lost. -/
theorem lost_last {s : Session} {parcel : Parcel} {f : Fault} {net : Net} (on : s.stream = i)
    (some_ : queued ≠ #[]) (events : c.intake.buffer.events = #[]) (same : net.calls = c.net.calls) :
    let c' := { c with net }.lost s true parcel f
    ∃ more, c'.net.calls.toList = c.net.calls.toList ++ more ∧
      LastStage i queued warned c'.phase c'.intake.buffer.events c'.scratch [queued.toList]
        [(queued.toList, .lost s.stream)] more := by
  subst on
  refine ⟨[.reset s.stream], ?_, ?_⟩
  · show (net.calls.push _).toList = _
    rw [same, Array.toList_push]
  · show LastStage _ queued _ _ c.intake.buffer.events #[] _ _ _
    rw [events]
    exact .leaving (.lost some_)

omit [Message α] in
/-- The compressed stream cannot be finished. -/
theorem spoiled_last {f : Fault} {net : Net} (all_sent : AllSent i queued taken settled)
    (since : c₁.intake.Extends c.intake) (events : c.intake.buffer.events = #[])
    (same : net.calls = c.net.calls) :
    let c' := { c with net }.spoiled i f
    ∃ more, c'.net.calls.toList = c.net.calls.toList ++ more ∧
      LastStage i queued (Warned c₁ c') c'.phase c'.intake.buffer.events c'.scratch
        (taken ++ Deeds.taken []) (settled ++ Deeds.settled []) more := by
  refine ⟨[.reset i], ?_, ?_⟩
  · show (net.calls.push _).toList = _
    rw [same, Array.toList_push]
  · show LastStage i queued _ _ c.intake.buffer.events c.scratch (taken ++ []) (settled ++ []) _
    rw [events, List.append_nil, List.append_nil]
    exact .leaving (.spoiled all_sent ⟨f, reported_now since rfl⟩)

/-- Each step leads from stage to stage. -/
theorem LastStage.work (since : c₁.intake.Extends c.intake)
    (h : LastStage i queued (Warned c₁ c) c.phase c.intake.buffer.events c.scratch taken settled calls)
    (w : Work c new c') : ∃ more, c'.net.calls.toList = c.net.calls.toList ++ more ∧
      LastStage i queued (Warned c₁ c') c'.phase c'.intake.buffer.events c'.scratch
        (taken ++ new.taken) (settled ++ new.settled) (calls ++ more) := by
  replace h := h.mono fun hwarned => hwarned.mono w.journal
  generalize hevents : c.intake.buffer.events = events at h
  generalize hscratch : c.scratch = scratch at h
  cases w with
  -- the last batch is taken, if there is one, and sent or lost
  | @takeNothing s last at_ empty =>
    rw [at_] at h
    cases h with
    | collecting on =>
      rw [empty] at hevents
      subst on hevents
      refine LastStage.still ?_ rfl
      rw [intake_endBatch, Intake.events_swap]
      exact .completing .nothing
  | @take s last at_ some_ =>
    rw [at_] at h
    cases h with
    | collecting on =>
      rw [hevents] at some_
      refine ⟨[], (List.append_nil _).symm, ?_⟩
      show LastStage i queued _ _ (c.intake.swap c.scratch).1.buffer.events c.intake.buffer.events
        [c.intake.buffer.events.toList] [] []
      rw [Intake.events_swap, hevents]
      exact .writing on some_
  | writeWaits at_ ready write =>
    rw [at_] at h
    cases h with
    | writing on some_ =>
      refine LastStage.still ?_ (Net.calls_write write)
      show LastStage i queued _ c.phase c.intake.buffer.events c.scratch _ _ _
      rw [at_, hevents, hscratch]
      exact .writing on some_
  | writePart at_ ready write =>
    rw [at_] at h
    cases h with
    | writing on some_ =>
      refine LastStage.still ?_ (Net.calls_write write)
      rw [hevents, hscratch]
      exact .writing on some_
  | writeAll at_ ready write =>
    rw [at_] at h
    cases h with
    | writing on some_ =>
      refine LastStage.still ?_ (Net.calls_write write)
      rw [hevents, hscratch]
      exact .flushing on some_
  | @writeFails s last parcel rest net result f at_ ready write =>
    rw [at_] at h
    cases h with
    | writing on some_ =>
      rw [hscratch]
      exact lost_last on some_ hevents (Net.calls_write write)
  | @flushFails s last parcel net f at_ ready flush =>
    rw [at_] at h
    cases h with
    | flushing on some_ =>
      rw [hscratch]
      exact lost_last on some_ hevents (Net.calls_flush flush)
  | flush at_ ready flush =>
    rw [at_] at h
    cases h with
    | flushing on some_ =>
      subst on
      refine ⟨[], ?_, ?_⟩
      · rw [sent, net_endBatch, List.append_nil]
        exact congrArg Array.toList (Net.calls_flush flush)
      · show LastStage _ queued _ _ c.intake.buffer.events #[] _ [(c.scratch.toList, _)] _
        rw [hevents, hscratch]
        exact .completing (.batch some_)
  -- the stream is finished and closed
  | completeWaits at_ ready write =>
    rw [at_] at h
    cases h with
    | completing all_sent =>
      refine LastStage.still ?_ (Net.calls_write write)
      show LastStage i queued _ c.phase c.intake.buffer.events c.scratch _ _ _
      rw [at_, hevents, hscratch]
      exact .completing all_sent
  | completePart at_ ready write =>
    rw [at_] at h
    cases h with
    | completing all_sent =>
      refine LastStage.still ?_ (Net.calls_write write)
      rw [hevents]
      exact .completing all_sent
  | completeAll at_ ready write =>
    rw [at_] at h
    cases h with
    | completing all_sent =>
      refine LastStage.still ?_ (Net.calls_write write)
      rw [hevents]
      exact .flushingEnd all_sent
  | completeFails at_ ready write =>
    rw [at_] at h
    cases h with
    | completing all_sent => exact spoiled_last all_sent since hevents (Net.calls_write write)
  | flushEndFails at_ ready flush =>
    rw [at_] at h
    cases h with
    | flushingEnd all_sent => exact spoiled_last all_sent since hevents (Net.calls_flush flush)
  | @flushEnd j net at_ ready flush =>
    rw [at_] at h
    cases h with
    | flushingEnd all_sent =>
      refine ⟨[.close i], ?_, ?_⟩
      · show (net.calls.push _).toList = _
        rw [Net.calls_flush flush, Array.toList_push]
      · show LastStage i queued _ _ c.intake.buffer.events c.scratch (taken ++ []) (settled ++ []) _
        rw [hevents, List.append_nil, List.append_nil]
        exact .closing all_sent
  | closeWaits at_ ready close =>
    rw [at_] at h
    cases h with
    | closing all_sent =>
      refine LastStage.still ?_ (Net.calls_close close)
      show LastStage i queued _ c.phase c.intake.buffer.events c.scratch _ _ _
      rw [at_, hevents]
      exact .closing all_sent
  | closed at_ ready close | closeFails at_ ready close =>
    rw [at_] at h
    cases h with
    | closing all_sent =>
      refine LastStage.still ?_ (Net.calls_close close)
      show LastStage i queued _ _ c.intake.buffer.events c.scratch _ _ _
      rw [hevents]
      exact .leaving (.closed all_sent)
  -- nothing is queued, so nothing is discarded
  | leave at_ =>
    rw [at_] at h
    cases h with
    | leaving done =>
      refine LastStage.still ?_ rfl
      rw [Intake.events_abandon, hevents]
      exact .discarding done
  | discardNothing at_ =>
    rw [at_] at h
    cases h with
    | discarding done =>
      refine LastStage.still ?_ rfl
      rw [events_discard]
      exact .ended done
  | discard at_ some_ =>
    rw [at_] at h
    cases h with
    | discarding done => exact absurd hevents some_
  -- all this comes before the last stage
  | start at_ | opened at_ | gaveUp at_ | connect at_ | noteWake at_ | noteClose at_ | heedNoted at_
    | heed at_ | heedCancel at_ | gathered at_ =>
    rw [at_] at h
    cases h

/-! ## Runs -/

omit [Message α] in
theorem LastStage.streaming {events scratch : Array α}
    (h : LastStage i queued warned c.phase events scratch taken settled calls) :
    ∀ o closing again, c.phase ≠ .opening o closing again := by
  intro o closing again at_
  rw [at_] at h
  cases h

/-- What has happened since a courier, in state `c₀`, noticed that it had been cancelled and began to
wind up stream `i`. -/
structure WindingUp (c₀ : Courier α) (i : Nat) (ds : Deeds α) (c : Courier α) : Prop where
  stage : ∃ calls, c.net.calls.toList = c₀.net.calls.toList ++ calls ∧
    LastStage i c₀.intake.buffer.events (Warned c₀ c) c.phase c.intake.buffer.events c.scratch
      ds.taken ds.settled calls
  closed : c.intake.buffer.closed = true
  accepted : ds.accepted = []
  journal : c₀.intake.Extends c.intake
  reconnects : c.intake.tally.reconnects = c₀.intake.tally.reconnects
  failures : c.intake.tally.connectFailures = c₀.intake.tally.connectFailures

omit [Message α] in
/-- A cancellation that is noticed closes the buffer. -/
theorem windingUp_start {s : Session} (notice : c.noticeCancel s = some c') :
    WindingUp c s.stream [] c' := by
  unfold noticeCancel at notice
  split at notice
  · cases notice
    exact ⟨⟨[], (List.append_nil _).symm, .collecting rfl⟩, rfl, rfl, .refl _, rfl, rfl⟩
  · cases notice

theorem WindingUp.work {c₀ : Courier α} (h : WindingUp c₀ i ds c) (w : Work c new c') :
    WindingUp c₀ i (ds ++ new) c' := by
  obtain ⟨calls, hcalls, hstage⟩ := h.stage
  obtain ⟨more, hmore, hstage'⟩ := hstage.work h.journal w
  obtain ⟨hreconnects, hfailures⟩ := w.uncounted hstage.streaming
  constructor
  case stage =>
    refine ⟨calls ++ more, ?_, ?_⟩
    · rw [hmore, hcalls, List.append_assoc]
    · rw [Deeds.taken_append, Deeds.settled_append]
      exact hstage'
  case closed => exact w.stays_closed h.closed
  case accepted => rw [Deeds.accepted_append, h.accepted, w.no_call.1, List.append_nil]
  case journal => exact h.journal.trans w.journal
  case reconnects => exact hreconnects.trans h.reconnects
  case failures => exact hfailures.trans h.failures

omit [Message α] in
/-- A call finds the buffer closed and leaves the courier at its stage. -/
theorem WindingUp.call {c₀ : Courier α} (h : WindingUp c₀ i ds c) (phase : c'.phase = c.phase)
    (calls : c'.net.calls = c.net.calls) (scratch : c'.scratch = c.scratch)
    (events : c'.intake.buffer.events = c.intake.buffer.events)
    (closed : c'.intake.buffer.closed = true) (journal : c.intake.Extends c'.intake)
    (reconnects : c'.intake.tally.reconnects = c.intake.tally.reconnects)
    (failures : c'.intake.tally.connectFailures = c.intake.tally.connectFailures)
    (accepted : new.accepted = []) (taken : new.taken = []) (settled : new.settled = []) :
    WindingUp c₀ i (ds ++ new) c' := by
  obtain ⟨made, hmade, hstage⟩ := h.stage
  constructor
  case stage =>
    refine ⟨made, ?_, ?_⟩
    · rw [calls, hmade]
    · rw [phase, events, scratch, Deeds.taken_append, Deeds.settled_append, taken, settled,
        List.append_nil, List.append_nil]
      exact hstage.mono fun hwarned => hwarned.mono journal
  case closed => exact closed
  case accepted => rw [Deeds.accepted_append, h.accepted, accepted, List.append_nil]
  case journal => exact h.journal.trans journal
  case reconnects => exact reconnects.trans h.reconnects
  case failures => exact failures.trans h.failures

theorem WindingUp.step {c₀ : Courier α} (h : WindingUp c₀ i ds c) (st : Step c new c') :
    WindingUp c₀ i (ds ++ new) c' := by
  have hjournal := st.journal
  cases st with
  | accept e open_ =>
    rw [h.closed] at open_
    cases open_
  | refuse e closed =>
    rw [trace_eq] at hjournal ⊢
    rw [Intake.trace_of_closed closed] at hjournal ⊢
    exact h.call rfl rfl rfl rfl closed hjournal rfl rfl rfl rfl rfl
  | close =>
    refine h.call rfl rfl rfl (Intake.events_close _) (Intake.closed_close _) hjournal ?_ ?_ rfl rfl rfl
    · exact congrArg Tally.reconnects (Intake.tally_close _)
    · exact congrArg Tally.connectFailures (Intake.tally_close _)
  | abandon | cancel | advance =>
    exact h.call rfl rfl rfl rfl (by first | rfl | exact h.closed) hjournal rfl rfl rfl rfl rfl
  | work w => exact h.work w

omit [Message α] in
theorem windingUp_closed {s : Session} (wait : c.intake.wait.2 = some .closed) :
    WindingUp c s.stream [] ({ c with intake := c.intake.wait.1 }.heed s .closed) := by
  constructor
  case stage =>
    refine ⟨[], (List.append_nil _).symm, ?_⟩
    rw [intake_heed, Intake.events_wait]
    exact .collecting rfl
  case closed =>
    rw [intake_heed, Intake.closed_wait]
    exact Intake.closed_of_wait wait
  case accepted | journal | reconnects | failures => first | rfl | exact .refl _

/-- A cancelled courier does not wait on: unless a wake has come, it winds up its stream. -/
theorem goes_on {s : Session} (at_ : c.phase = .waiting s) (cancelled : c.cancelled = true)
    (pick : Pick) :
    ∃ c', c.work pick = some c' ∧
      (WindingUp c s.stream [] c' ∨
        (c.pendingWake = true ∨ c.intake.wait.2 = some .wake) ∧
          ∃ deadline, c'.phase = .gathering s deadline) := by
  rw [Courier.work, at_]
  dsimp only
  split
  · next noted => exact ⟨_, rfl, .inr ⟨.inl noted, _, rfl⟩⟩
  · refine Pick.choose_of_latter pick ⟨_, if_pos cancelled⟩ ?_
    rintro c' (hsignal | hcancel)
    · obtain ⟨signal, hwait, rfl⟩ := noticeSignal_eq_some.mp hsignal
      cases signal with
      | wake => exact .inr ⟨.inr hwait, _, rfl⟩
      | closed => exact .inl (windingUp_closed hwait)
    · exact .inl (windingUp_start hcancel)

/-- Only the stream may keep the courier waiting. -/
theorem LastStage.works {events scratch : Array α}
    (h : LastStage i queued warned c.phase events scratch taken settled calls)
    (going : c.phase ≠ .ended) (ready : c.net.isReady i = true) (pick : Pick) :
    ∃ c', c.work pick = some c' := by
  generalize hp : c.phase = p at h
  rw [Courier.work, hp]
  cases h with
  | collecting | leaving | discarding => exact ⟨_, rfl⟩
  | writing on | flushing on =>
    subst on
    exact ⟨_, onStream_eq_some.mpr ⟨ready, rfl⟩⟩
  | completing | flushingEnd | closing => exact ⟨_, onStream_eq_some.mpr ⟨ready, rfl⟩⟩
  | ended => exact absurd hp going

/-- How much is ahead of a courier that winds up its stream. -/
def Phase.ahead : Phase → Nat × Nat
  | .collecting _ _ => (8, 0)
  | .writing _ _ _ rest => (7, rest.length)
  | .flushing _ _ _ => (6, 0)
  | .completing _ rest => (5, rest.length)
  | .flushingEnd _ => (4, 0)
  | .closing _ => (3, 0)
  | .leaving => (2, 0)
  | .discarding => (1, 0)
  | _ => (0, 0)

theorem length_drop_lt {rest : Bytes} {n : Nat} (some_ : n ≠ 0) (left : rest.drop n ≠ []) :
    (rest.drop n).length < rest.length := by
  have hlt : n < rest.length := Nat.lt_of_not_le fun hle => left (List.drop_of_length_le hle)
  rw [List.length_drop]
  omega

/-- A step leads on, unless the stream has answered that the courier has to wait. -/
theorem LastStage.closer {events scratch : Array α}
    (h : LastStage i queued warned c.phase events scratch taken settled calls) (w : Work c new c') :
    c'.phase = c.phase ∨ Prod.Lex (· < ·) (· < ·) c'.phase.ahead c.phase.ahead := by
  cases w with
  | writeWaits | completeWaits | closeWaits => exact .inl rfl
  | writePart at_ ready write some_ left =>
    rw [at_]
    exact .inr (.right _ (length_drop_lt some_ left))
  | completePart at_ ready write some_ left =>
    rw [at_]
    exact .inr (.right _ (length_drop_lt some_ left))
  | @takeNothing s last at_ | take at_ | writeAll at_ | @writeFails s last parcel rest net result f at_
    | @flush s last parcel net at_ | @flushFails s last parcel net f at_ | completeAll at_
    | completeFails at_ | flushEnd at_ | flushEndFails at_ | closed at_ | closeFails at_ | leave at_
    | discardNothing at_ | discard at_ =>
    rw [at_] at h ⊢
    cases h
    exact .inr (.left _ _ (by decide))
  | start at_ | opened at_ | gaveUp at_ | connect at_ | noteWake at_ | noteClose at_ | heedNoted at_
    | heed at_ | heedCancel at_ | gathered at_ =>
    rw [at_] at h
    cases h

/-- The stream makes the courier wait: it does not answer, or the answer is to wait. -/
def HeldUp (c : Courier α) (i : Nat) (pick : Pick) : Prop :=
  c.net.isReady i = false ∨ ∃ c', c.work pick = some c' ∧ c'.phase = c.phase

/-- **Unless its stream makes it wait, the courier comes to its end by itself.** -/
theorem WindingUp.ends {c₀ c : Courier α} {ds : Deeds α} (h : WindingUp c₀ i ds c) (pick : Pick) :
    ∃ own new c', (∀ m ∈ own, m = .work pick) ∧ c.moves own = some (new, c') ∧
      (c'.phase = .ended ∨ c'.HeldUp i pick) := by
  by_cases hended : c.phase = .ended
  · exact ⟨[], [], c, nofun, rfl, .inl hended⟩
  · cases hready : c.net.isReady i with
    | false => exact ⟨[], [], c, nofun, rfl, .inr (.inl hready)⟩
    | true =>
      obtain ⟨calls, -, hstage⟩ := h.stage
      obtain ⟨c₁, hwork⟩ := hstage.works hended hready pick
      have w := work_cases hwork
      rcases hstage.closer w with hsame | hcloser
      · exact ⟨[], [], c, nofun, rfl, .inr (.inr ⟨c₁, hwork, hsame⟩)⟩
      · obtain ⟨own, new, c', hown, hmoves, hc'⟩ := (h.work w).ends pick
        refine ⟨.work pick :: own, c.deeds (.work pick) ++ new, c', ?_, ?_, hc'⟩
        · rintro m (_ | ⟨_, hm⟩)
          · rfl
          · exact hown m hm
        · rw [moves_cons (show c.move (.work pick) = some c₁ from hwork), hmoves]
          rfl
termination_by c.phase.ahead
decreasing_by exact hcloser

omit [Message α] in
/-- **How it ends**: the stream has been done with, the buffer is empty, and there has been no other
call. -/
theorem WindingUp.done {c₀ : Courier α} (h : WindingUp c₀ i ds c) (ended : c.phase = .ended) :
    c.intake.buffer.events = #[] ∧ ∃ calls, c.net.calls.toList = c₀.net.calls.toList ++ calls ∧
      DoneWith i c₀.intake.buffer.events (Warned c₀ c) ds.taken ds.settled calls := by
  obtain ⟨calls, hcalls, hstage⟩ := h.stage
  rw [ended] at hstage
  generalize c.intake.buffer.events = events at hstage
  generalize ds.taken = taken at hstage
  generalize ds.settled = settled at hstage
  cases hstage with
  | ended done => exact ⟨rfl, calls, hcalls, done⟩

end TraceRelay.Courier
