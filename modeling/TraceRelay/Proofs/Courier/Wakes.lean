import TraceRelay.Proofs.Courier.Run

/-!
# No wake is lost

The token of the buffer is used up in two places: while the courier waits, and while a stream is
being opened. In the second it is only noted down, for the wait that comes after.

1. `Alert`: while events are queued, the token is pending, or the buffer closed, or a wake noted
   down, or the signal has been seen and the events are about to be taken. Every step keeps it.
2. `Alert.works`: a courier that waits with events queued has a step to make, whichever of two
   signals it looks at first.
3. `Alert.takes_alone`: from there the courier comes to take the events, and needs no other call.
-/

namespace TraceRelay.Courier

variable {α : Type}

/-- A signal has been seen, and the events not taken yet. -/
def Phase.isRoused : Phase → Bool
  | .gathering _ _ | .collecting _ _ => true
  | _ => false

def isRoused (c : Courier α) : Bool := c.phase.isRoused

theorem isRoused_at {c : Courier α} {p : Phase} (at_ : c.phase = p) : c.isRoused = p.isRoused := by
  rw [isRoused, at_]

/-- Something tells the courier of the events that are queued. -/
def Alert (c : Courier α) : Prop :=
  c.intake.buffer.events ≠ #[] →
    c.intake.buffer.token = true ∨ c.intake.buffer.closed = true ∨ c.pendingWake = true ∨
      c.isRoused = true

/-! ## Steps -/

theorem Alert.of_empty {c : Courier α} (h : c.intake.buffer.events = #[]) : Alert c :=
  fun queued => absurd h queued

theorem Alert.of_closed {c : Courier α} (h : c.intake.buffer.closed = true) : Alert c :=
  fun _ => .inr (.inl h)

/-- A step that neither sees nor takes anything. -/
theorem Alert.keep {c c' : Courier α} (h : Alert c) (resting : c.isRoused = false)
    (buffer : c'.intake.buffer = c.intake.buffer) (noted : c'.pendingWake = c.pendingWake) :
    Alert c' := by
  intro queued
  rw [buffer] at queued
  rw [buffer, noted]
  rcases h queued with htoken | hclosed | hnoted | hroused
  · exact .inl htoken
  · exact .inr (.inl hclosed)
  · exact .inr (.inr (.inl hnoted))
  · rw [resting] at hroused; cases hroused

theorem buffer_endOpening (c : Courier α) (again : Bool) (result : Except OpenFailure Nat) :
    (c.endOpening again result).intake.buffer = c.intake.buffer := by
  cases result with
  | ok i => cases again <;> rfl
  | error e => cases e <;> rfl

theorem pendingWake_endOpening (c : Courier α) (again : Bool) (result : Except OpenFailure Nat) :
    (c.endOpening again result).pendingWake = c.pendingWake := by
  cases result with
  | ok i => rfl
  | error e => cases e <;> rfl

theorem pendingWake_endBatch (c : Courier α) (s : Session) (last : Bool) :
    (c.endBatch s last).pendingWake = c.pendingWake := by cases last <;> rfl

theorem isRoused_heed (c : Courier α) (s : Session) (signal : Signal) :
    (c.heed s signal).isRoused = true := by cases signal <;> rfl

theorem Alert.work [Message α] {c c' : Courier α} {new : Deeds α} (h : Alert c)
    (w : Work c new c') : Alert c' := by
  cases w with
  | start at_ => exact h.keep (isRoused_at at_) rfl rfl
  | opened at_ | gaveUp at_ =>
    exact h.keep (isRoused_at at_) (buffer_endOpening ..) (pendingWake_endOpening ..)
  | @connect o closing again turn at_ =>
    refine h.keep (isRoused_at at_) ?_ rfl
    show (Intake.logAll _ _).buffer = _
    rw [Intake.buffer_logAll]
    split <;> rfl
  -- the token is used up: the note takes its place
  | noteWake at_ => exact fun _ => .inr (.inr (.inl rfl))
  | noteClose at_ wait =>
    exact .of_closed ((Intake.closed_wait _).trans (Intake.closed_of_wait wait))
  -- the token, or the note, is used up: the events are about to be taken
  | heedNoted | heed | heedCancel => exact fun _ => .inr (.inr (.inr (isRoused_heed ..)))
  | gathered => exact fun _ => .inr (.inr (.inr rfl))
  | takeNothing => exact .of_empty (by rw [intake_endBatch, Intake.events_swap])
  | take => exact .of_empty (Intake.events_swap ..)
  | writeWaits at_ | writePart at_ | writeAll at_ | writeFails at_ | flushFails at_
  | completeWaits at_ | completeFails at_ | completePart at_ | completeAll at_
  | flushEnd at_ | flushEndFails at_ | closeWaits at_ | closed at_ | closeFails at_ =>
    exact h.keep (isRoused_at at_) rfl rfl
  | @flush s last parcel net at_ =>
    exact h.keep (isRoused_at at_) (by rw [sent, intake_endBatch]; rfl) (pendingWake_endBatch ..)
  | leave => exact .of_closed rfl
  | discardNothing | discard => exact .of_empty (events_discard c)

theorem Alert.step [Message α] {c c' : Courier α} {new : Deeds α} (h : Alert c)
    (st : Step c new c') : Alert c' := by
  cases st with
  | accept e open_ =>
    intro _
    rw [trace_eq, Intake.trace_of_open open_]
    exact .inl rfl
  | refuse e closed =>
    refine .of_closed ?_
    rw [trace_eq, Intake.trace_of_closed closed]
    exact closed
  | close => exact .of_closed (Intake.closed_close _)
  | abandon => exact .of_closed (Intake.closed_abandon _)
  | cancel | advance => exact h
  | work w => exact h.work w

theorem Run.alert [Message α] {connector : Connector} {window : Duration} {method : Gzip.Method}
    {level : Nat} {net : Net} {cancelled : Bool} {ms : List (Move α)} {ds : Deeds α} {c : Courier α}
    (r : Run (.start connector window method level net cancelled) ms ds c) : Alert c :=
  r.induct (P := fun _ c => Alert c) (.of_empty rfl) Alert.step

/-! ## Taking the events -/

/-- Waiting for a signal, with none to be seen. -/
def IsParked [Message α] (c : Courier α) : Prop :=
  (∃ s, c.phase = .waiting s) ∧ ∀ pick, c.work pick = none

/-- Time, or the courier's own work by one rule of choice: no caller makes it. -/
def Move.IsOwn (pick : Pick) : Move α → Prop
  | .advance _ => True
  | .work p => p = pick
  | _ => False

/-- The next thing to come is that the events are taken, after a while perhaps. -/
structure Heeds (c c' : Courier α) : Prop where
  events : c'.intake.buffer.events = c.intake.buffer.events
  roused : c'.isRoused = true

theorem Heeds.heed (c : Courier α) (k : Intake α) (events : k.buffer.events = c.intake.buffer.events)
    (noted : Bool) (s : Session) (signal : Signal) :
    Heeds c ({ c with intake := k, pendingWake := noted }.heed s signal) :=
  ⟨by rw [intake_heed]; exact events, isRoused_heed ..⟩

theorem Pick.choose_of_former {β : Type} {P : β → Prop} {a b : Option β} (pick : Pick)
    (former : ∃ x, a = some x) (either : ∀ x, a = some x ∨ b = some x → P x) :
    ∃ x, pick.choose a b = some x ∧ P x := by
  obtain ⟨x, rfl⟩ := former
  cases pick with
  | former => exact ⟨x, rfl, either x (.inl rfl)⟩
  | latter =>
    cases b with
    | none => exact ⟨x, rfl, either x (.inl rfl)⟩
    | some y => exact ⟨y, rfl, either y (.inr rfl)⟩

theorem Pick.choose_of_latter {β : Type} {P : β → Prop} {a b : Option β} (pick : Pick)
    (latter : ∃ x, b = some x) (either : ∀ x, a = some x ∨ b = some x → P x) :
    ∃ x, pick.choose a b = some x ∧ P x := by
  obtain ⟨x, rfl⟩ := latter
  cases pick with
  | latter => exact ⟨x, rfl, either x (.inr rfl)⟩
  | former =>
    cases a with
    | none => exact ⟨x, rfl, either x (.inr rfl)⟩
    | some y => exact ⟨y, rfl, either y (.inl rfl)⟩

theorem noticeSignal_eq_some {c c' : Courier α} {s : Session} :
    c.noticeSignal s = some c' ↔
      ∃ signal, c.intake.wait.2 = some signal ∧ 
        { c with intake := c.intake.wait.1 }.heed s signal = c' := by
  unfold noticeSignal
  rcases c.intake.wait with ⟨k, _ | signal⟩
  · simp
  · simp

/-- A courier that waits while events are queued has a step to make. -/
theorem Alert.works [Message α] {c : Courier α} {s : Session} (h : Alert c)
    (at_ : c.phase = .waiting s) (queued : c.intake.buffer.events ≠ #[]) (pick : Pick) :
    ∃ c', c.work pick = some c' ∧ Heeds c c' := by
  rw [Courier.work, at_]
  dsimp only
  cases hnoted : c.pendingWake with
  | true => exact ⟨_, rfl, .heed c c.intake rfl false s .wake⟩
  | false =>
    have hsignal : ∃ signal, c.intake.wait.2 = some signal := by
      rcases h queued with htoken | hclosed | hpending | hroused
      · exact ⟨.wake, Intake.wait_of_token htoken⟩
      · exact Intake.wait_of_closed hclosed
      · rw [hnoted] at hpending; cases hpending
      · rw [isRoused_at at_] at hroused; cases hroused
    obtain ⟨signal, hsignal⟩ := hsignal
    refine Pick.choose_of_former pick ⟨_, noticeSignal_eq_some.mpr ⟨signal, hsignal, rfl⟩⟩ ?_
    rintro c' (hnotice | hcancel)
    · obtain ⟨signal, -, rfl⟩ := noticeSignal_eq_some.mp hnotice
      exact .heed c _ (Intake.events_wait _) c.pendingWake s signal
    · unfold noticeCancel at hcancel
      split at hcancel
      · cases hcancel
        exact .heed c _ (Intake.events_abandon _) c.pendingWake s .closed
      · cases hcancel

theorem takes_of_collecting [Message α] {c : Courier α} {s : Session} {last : Bool}
    (at_ : c.phase = .collecting s last) (queued : c.intake.buffer.events ≠ #[]) (pick : Pick) :
    ∃ c', c.moves [.work pick] = some ([.took c.intake.buffer.events.toList], c') := by
  have hmove : c.move (.work pick) = some (c.collect s last) := by
    rw [move, Courier.work, at_]
  have hdeeds : c.deeds (.work pick) = [.took c.intake.buffer.events.toList] := by
    rw [deeds, at_]
    exact if_neg fun hempty => queued (Array.isEmpty_iff.mp hempty)
  exact ⟨c.collect s last, by rw [moves_cons hmove, hdeeds]; rfl⟩

/-- Once the deadline has come, the events are about to be taken. -/
theorem collects_of_gathering [Message α] {c : Courier α} {s : Session} {deadline : Nat}
    (at_ : c.phase = .gathering s deadline) (pick : Pick) :
    c.moves [.advance (max c.net.clock deadline), .work pick] = some ([],
      { c.advance (max c.net.clock deadline) with phase := .collecting s false }) := by
  have hadvance : c.move (.advance (max c.net.clock deadline)) =
      some (c.advance (max c.net.clock deadline)) := if_pos (Nat.le_max_left ..)
  have hdue : deadline ≤ (c.advance (max c.net.clock deadline)).net.clock := Nat.le_max_right ..
  have hphase : (c.advance (max c.net.clock deadline)).phase = .gathering s deadline := at_
  generalize c.advance (max c.net.clock deadline) = c₁ at hadvance hdue hphase
  have hgathered : c₁.move (.work pick) = some { c₁ with phase := .collecting s false } := by
    rw [move, Courier.work, hphase]
    exact if_pos hdue
  have hdeeds : c₁.deeds (.work pick) = [] := by rw [deeds, hphase]
  rw [moves_cons hadvance, moves_cons hgathered, hdeeds]
  rfl

theorem takes_of_gathering [Message α] {c : Courier α} {s : Session} {deadline : Nat}
    (at_ : c.phase = .gathering s deadline) (queued : c.intake.buffer.events ≠ #[]) (pick : Pick) :
    ∃ c', c.moves [.advance (max c.net.clock deadline), .work pick, .work pick] =
      some ([.took c.intake.buffer.events.toList], c') := by
  obtain ⟨c', htakes⟩ := takes_of_collecting
    (c := { c.advance (max c.net.clock deadline) with phase := .collecting s false }) rfl queued pick
  exact ⟨c', moves_append (collects_of_gathering at_ pick) htakes⟩

/-- Once the signal has been seen, the events are taken. -/
theorem takes_of_roused [Message α] {c : Courier α} (roused : c.isRoused = true)
    (queued : c.intake.buffer.events ≠ #[]) (pick : Pick) :
    ∃ own c', (∀ m ∈ own, Move.IsOwn pick m) ∧
      c.moves own = some ([.took c.intake.buffer.events.toList], c') := by
  cases hp : c.phase with
  | gathering s deadline =>
    obtain ⟨c', htakes⟩ := takes_of_gathering hp queued pick
    exact ⟨_, c', by simp [Move.IsOwn], htakes⟩
  | collecting s last =>
    obtain ⟨c', htakes⟩ := takes_of_collecting hp queued pick
    exact ⟨_, c', by simp [Move.IsOwn], htakes⟩
  | _ => rw [isRoused_at hp] at roused; cases roused

/-- **What is queued is taken without a further call**, as soon as the courier waits. -/
theorem Alert.takes_alone [Message α] {c : Courier α} (h : Alert c)
    (queued : c.intake.buffer.events ≠ #[]) (pick : Pick)
    (on : (∃ s, c.phase = .waiting s) ∨ c.isRoused = true) :
    ∃ own c', (∀ m ∈ own, Move.IsOwn pick m) ∧
      c.moves own = some ([.took c.intake.buffer.events.toList], c') := by
  rcases on with ⟨s, at_⟩ | roused
  · obtain ⟨c₁, hwork, hheeds⟩ := h.works at_ queued pick
    rw [← hheeds.events] at queued ⊢
    obtain ⟨own, c', hown, hmoves⟩ := takes_of_roused hheeds.roused queued pick
    have hmove : c.move (.work pick) = some c₁ := hwork
    have hdeeds : c.deeds (.work pick) = [] := by rw [deeds, at_]
    refine ⟨.work pick :: own, c', ?_, ?_⟩
    · rintro m (_ | ⟨_, hm⟩)
      · rfl
      · exact hown m hm
    · rw [moves_cons hmove, hmoves, hdeeds]
      rfl
  · exact takes_of_roused roused queued pick

theorem Alert.not_parked [Message α] {c : Courier α} (h : Alert c)
    (queued : c.intake.buffer.events ≠ #[]) : ¬ c.IsParked := by
  rintro ⟨⟨s, at_⟩, hidle⟩
  obtain ⟨c', hwork, -⟩ := h.works at_ queued .former
  rw [hidle] at hwork
  cases hwork

/-- **No wake is lost**, in every run and at every moment of it: while events are queued something
tells the courier of them, so that it is never parked, and it comes to take them by itself from
wherever it does not wait for a stream. -/
theorem wakes_not_lost [Message α] {connector : Connector} {window : Duration}
    {method : Gzip.Method} {level : Nat} {net : Net} {cancelled : Bool} {ms : List (Move α)}
    {ds : Deeds α} {c : Courier α}
    (r : Run (.start connector window method level net cancelled) ms ds c)
    (queued : c.intake.buffer.events ≠ #[]) :
    (c.intake.buffer.token = true ∨ c.intake.buffer.closed = true ∨ c.pendingWake = true ∨
      c.isRoused = true) ∧
    ¬ c.IsParked ∧
    ((∃ s, c.phase = .waiting s) ∨ c.isRoused = true → ∀ pick, ∃ own c',
      (∀ m ∈ own, Move.IsOwn pick m) ∧
      c.moves own = some ([.took c.intake.buffer.events.toList], c')) :=
  ⟨r.alert queued, r.alert.not_parked queued, fun on pick => r.alert.takes_alone queued pick on⟩

/-- A courier none of whose writes succeeds. -/
def unheardStart : Courier Event :=
  .start ⟨"remote", ⟨"peer", []⟩, "p", .ofSeconds 1, .ofSeconds 1⟩ (.ofSeconds 0)
    ⟨fun _ _ _ => [0], fun _ _ => [0]⟩ 0
    (.start (.always ⟨0, some (.ok ())⟩)
      (.always ⟨0, some (.ok { writes := .always (.fails .writeZero) })⟩)) false

/-- An event that comes while a batch is being lost. Its wake is seen while the next stream is being
opened. -/
def wakeBetweenStreams : List (Move Event) :=
  List.flatten [[.trace ⟨"a", 1⟩], List.replicate 9 (.work .former),
    [.trace ⟨"b", 2⟩, .work .former, .work .latter], List.replicate 5 (.work .former)]

theorem wakes_not_lost_betweenStreams :
    ∃ ds c, Run unheardStart wakeBetweenStreams ds c ∧
      c.intake.buffer.events = #[⟨"b", 2⟩] ∧ (∃ s, c.phase = .waiting s) ∧
      c.intake.buffer.token = false ∧ c.intake.buffer.closed = false ∧
      ((c.intake.buffer.token = true ∨ c.intake.buffer.closed = true ∨ c.pendingWake = true ∨
        c.isRoused = true) ∧
      ¬ c.IsParked ∧
      ((∃ s, c.phase = .waiting s) ∨ c.isRoused = true → ∀ pick, ∃ own c',
        (∀ m ∈ own, Move.IsOwn pick m) ∧
        c.moves own = some ([.took c.intake.buffer.events.toList], c'))) := by
  have hmoves : (unheardStart.moves wakeBetweenStreams).map (fun (_, c) => (c.phase matches .waiting _,
      c.intake.buffer.events, c.intake.buffer.token, c.intake.buffer.closed)) =
      some (true, #[⟨"b", 2⟩], false, false) := by decide +kernel
  rw [Option.map_eq_some_iff] at hmoves
  obtain ⟨⟨ds, c⟩, hmoves, hstate⟩ := hmoves
  simp only [Prod.mk.injEq] at hstate
  obtain ⟨hwaiting, hevents, htoken, hclosed⟩ := hstate
  have hphase : ∃ s, c.phase = .waiting s := by
    split at hwaiting
    · next s hp => exact ⟨s, hp⟩
    · cases hwaiting
  have hrun : Run unheardStart wakeBetweenStreams ds c := Run.start.moves hmoves
  have hqueued : c.intake.buffer.events ≠ #[] := by rw [hevents]; nofun
  exact ⟨ds, c, hrun, hevents, hphase, htoken, hclosed, wakes_not_lost hrun hqueued⟩

end TraceRelay.Courier
