import TraceRelay.Proofs.Courier.Closed

/-!
# How often a closed courier still goes round

A courier has two loops: the one that sends takes a signal in each round, and the one that watches an opening
takes a signal, or the end of the opening, in each lap.

1. `Work.batches`: nothing is put back. So a closed courier takes one more batch at most, and loses two at
   most, the other being the one on its way (`Run.batches`).
2. `lapsLeft`: the laps that there may still be, by the wake that is pending, the one that was noted, the
   batches whose loss leads to another opening, and the phase. `Work.laps`: no step leads to more.
3. `Run.laps`: so there are three rounds at most (`roundsLeft_le`), and five laps around openings
   (`watchesLeft_le`), whatever the courier has in hand and whatever others do.
-/

namespace TraceRelay.Courier

variable {α : Type} {c c' : Courier α} {ds new : Deeds α} {ms : List (Move α)}

/-! ## Batches -/

/-- Whether there are events to be taken, as a number. -/
def queued (c : Courier α) : Nat := (!c.intake.buffer.events.isEmpty).toNat

/-- How many batches may still be lost: the one on its way, and what is to be taken. -/
def atStake (c : Courier α) : Nat := c.onItsWay.length + c.queued

theorem queued_eq_zero (h : c.intake.buffer.events = #[]) : c.queued = 0 := by
  rw [queued, h]
  rfl

theorem queued_eq_one (h : c.intake.buffer.events ≠ #[]) : c.queued = 1 := by
  have hsome : c.intake.buffer.events.isEmpty = false :=
    Bool.not_eq_true _ ▸ fun hempty => h (Array.isEmpty_iff.mp hempty)
  rw [queued, hsome]
  rfl

theorem queued_congr (h : c'.intake.buffer.events = c.intake.buffer.events) : c'.queued = c.queued := by
  rw [queued, queued, h]

theorem queued_le_one (c : Courier α) : c.queued ≤ 1 := Bool.toNat_le _

theorem length_onItsWay_le (c : Courier α) : c.onItsWay.length ≤ 1 := by
  unfold onItsWay
  split
  · exact Nat.le_refl 1
  · exact Nat.le_refl 1
  · exact Nat.zero_le 1

theorem atStake_le_two (c : Courier α) : c.atStake ≤ 2 :=
  Nat.add_le_add c.length_onItsWay_le c.queued_le_one

/-- The batch on its way is done with. -/
theorem atStake_of_settled {events : List α} (before : c.onItsWay = [events]) (after : c'.onItsWay = [])
    (same : c'.intake.buffer.events = c.intake.buffer.events) :
    c'.queued = c.queued ∧ 1 + c'.atStake = c.atStake := by
  refine ⟨queued_congr same, ?_⟩
  rw [atStake, atStake, before, after, queued_congr same, List.length_nil, List.length_singleton]
  omega

variable [Message α]

/-- **Nothing is put back.** What is taken is not queued any more, and what is lost is not at stake. -/
theorem Work.batches (w : Work c new c') :
    new.taken.length + c'.queued ≤ c.queued ∧ new.lost.length + c'.atStake ≤ c.atStake := by
  have hquiet := w.quiet
  cases w with
  | @take s last at_ events =>
    have hbefore : c.onItsWay = [] := by rw [onItsWay, at_]
    have hafter : ∀ d : Courier α, d.intake = (c.intake.swap c.scratch).1 → d.queued = 0 :=
      fun d hd => queued_eq_zero (by rw [hd]; exact Intake.events_swap _ _)
    rw [atStake, atStake, hafter _ rfl, hbefore, queued_eq_one events]
    exact ⟨Nat.le_refl 1, Nat.le_refl 1⟩
  | @writeFails s last parcel _ net _ f at_ | @flushFails s last parcel net f at_ =>
    obtain ⟨hqueued, hstake⟩ := @atStake_of_settled α c ({ c with net }.lost s last parcel f) _
      (by rw [onItsWay, at_]) (by cases last <;> rfl) rfl
    rw [hqueued, ← hstake]
    exact ⟨Nat.le_of_eq (Nat.zero_add _), Nat.le_refl _⟩
  | @flush s last parcel net at_ =>
    obtain ⟨hqueued, hstake⟩ := @atStake_of_settled α c ({ c with net }.sent s last parcel) _
      (by rw [onItsWay, at_]) (by cases last <;> rfl) (by cases last <;> rfl)
    rw [hqueued, ← hstake]
    exact ⟨Nat.le_of_eq (Nat.zero_add _), Nat.add_le_add_right (Nat.zero_le 1) _⟩
  | discard at_ events =>
    have hbefore : c.onItsWay = [] := by rw [onItsWay, at_]
    rw [atStake, atStake, queued_eq_zero (events_discard c), hbefore, queued_eq_one events]
    exact ⟨Nat.le_refl 1, Nat.zero_le 1⟩
  | _ =>
    have q := hquiet rfl
    rw [atStake, atStake, q.way, queued_congr q.events]
    exact ⟨Nat.le_of_eq (Nat.zero_add _), Nat.le_of_eq (Nat.zero_add _)⟩

/-! ## Others -/

/-- What others do to a closed courier: it keeps all that it goes by but the time. -/
structure Undisturbing (c c' : Courier α) : Prop where
  phase : c'.phase = c.phase
  buffer : c'.intake.buffer = c.intake.buffer
  scratch : c'.scratch = c.scratch
  pendingWake : c'.pendingWake = c.pendingWake
  channels : c'.net.channels = c.net.channels
  later : c.net.clock ≤ c'.net.clock

omit [Message α] in
theorem Undisturbing.queued (h : Undisturbing c c') : c'.queued = c.queued :=
  queued_congr (by rw [h.buffer])

omit [Message α] in
theorem Undisturbing.atStake (h : Undisturbing c c') : c'.atStake = c.atStake := by
  rw [Courier.atStake, Courier.atStake, h.queued, onItsWay, onItsWay, h.phase, h.scratch]

/-- What others do to a closed courier does not disturb it. -/
theorem undisturbing_of_closed {m : Move α} (h : c.move m = some c')
    (closed : c.intake.buffer.closed = true) (others : ∀ pick, m ≠ .work pick) :
    Undisturbing c c' ∧ Deeds.taken (c.deeds m) = [] ∧ Deeds.lost (c.deeds m) = [] := by
  cases m with
  | work pick => exact absurd rfl (others pick)
  | trace e =>
    cases h
    have hdeeds : c.deeds (.trace e) = [.refused e] := if_pos closed
    rw [hdeeds]
    refine ⟨⟨rfl, ?_, rfl, rfl, rfl, Nat.le_refl _⟩, rfl, rfl⟩
    rw [trace_eq, Intake.trace_of_closed closed]
  | close =>
    cases h
    refine ⟨⟨rfl, ?_, rfl, rfl, rfl, Nat.le_refl _⟩, rfl, rfl⟩
    show c.intake.close.buffer = c.intake.buffer
    rw [Intake.close_of_closed closed]
  | abandon =>
    cases h
    refine ⟨⟨rfl, ?_, rfl, rfl, rfl, Nat.le_refl _⟩, rfl, rfl⟩
    show { c.intake.buffer with closed := true } = c.intake.buffer
    rw [← closed]
  | cancel =>
    cases h
    exact ⟨⟨rfl, rfl, rfl, rfl, rfl, Nat.le_refl _⟩, rfl, rfl⟩
  | advance t =>
    simp only [move] at h
    split at h
    · next later =>
      cases h
      exact ⟨⟨rfl, rfl, rfl, rfl, rfl, later⟩, rfl, rfl⟩
    · cases h

/-- The steps of the courier's own, and what others do. -/
theorem Run.induct_of_closed {P : List (Move α) → Deeds α → Courier α → Prop} (r : Run c ms ds c')
    (closed : c.intake.buffer.closed = true) (start : P [] [] c)
    (work : ∀ {ms ds c₁ new c₂ pick}, Run c ms ds c₁ → P ms ds c₁ → c₁.work pick = some c₂ → Work c₁ new c₂ →
      P (ms ++ [.work pick]) (ds ++ new) c₂)
    (still : ∀ {ms ds c₁ new c₂ m}, Run c ms ds c₁ → P ms ds c₁ → (∀ pick, m ≠ .work pick) →
      Undisturbing c₁ c₂ → Deeds.taken new = [] → Deeds.lost new = [] → P (ms ++ [m]) (ds ++ new) c₂) :
    P ms ds c' := by
  induction r with
  | start => exact start
  | @move ms ds c₁ c₂ m r h ih =>
    by_cases hwork : ∃ pick, m = .work pick
    · obtain ⟨pick, rfl⟩ := hwork
      exact work r ih h (work_cases h)
    · have hothers : ∀ pick, m ≠ .work pick := fun pick hm => hwork ⟨pick, hm⟩
      obtain ⟨hstill, htaken, hlost⟩ := undisturbing_of_closed h (r.none_accepted closed).1 hothers
      exact still r ih hothers hstill htaken hlost

/-- **A closed courier takes one more batch at most**, and two are all that it may still lose. -/
theorem Run.batches (r : Run c ms ds c') (closed : c.intake.buffer.closed = true) :
    ds.taken.length + c'.queued ≤ c.queued ∧ ds.lost.length + c'.atStake ≤ c.atStake := by
  refine r.induct_of_closed
    (P := fun _ ds c' => ds.taken.length + c'.queued ≤ c.queued ∧ ds.lost.length + c'.atStake ≤ c.atStake)
    closed ⟨Nat.le_of_eq (Nat.zero_add _), Nat.le_of_eq (Nat.zero_add _)⟩ ?_ ?_
  · intro ms ds c₁ new c₂ pick _ ih _ w
    have hstep := w.batches
    rw [Deeds.taken_append, Deeds.lost_append, List.length_append, List.length_append]
    omega
  · intro ms ds c₁ new c₂ m _ ih _ hstill htaken hlost
    rw [Deeds.taken_append, Deeds.lost_append, htaken, hlost, hstill.queued, hstill.atStake, List.append_nil,
      List.append_nil]
    exact ih

/-! ## Laps -/

/-- The loops of a courier: the one that sends, and the one that watches an opening. -/
inductive Lap where
  | round
  | watch
  deriving DecidableEq, Repr

/-- The lap that a step of work completes. In an opening this is any step but one of the connector's. -/
def lap? (c c' : Courier α) : Option Lap :=
  match c.phase with
  | .waiting _ => some .round
  | .opening _ closing _ =>
    match c'.phase with
    | .opening _ closing' _ =>
      if closing' = closing ∧ c'.intake.buffer.token = c.intake.buffer.token then none else some .watch
    | _ => some .watch
  | _ => none

/-- The lap that a move completes. -/
def lapsOf (c : Courier α) : Move α → List Lap
  | .work pick => ((c.work pick).bind c.lap?).toList
  | _ => []

/-- All the laps along some moves. -/
def laps (c : Courier α) (ms : List (Move α)) : List Lap := Trail.along move lapsOf c ms

/-- How many laps of a loop a phase leads to, besides those of the wakes. -/
def Phase.lapsLeft : Lap → Phase → Nat
  | .round, .starting | .round, .opening _ _ _ | .round, .waiting _ | .round, .gathering _ _ => 1
  | .round, .collecting _ last | .round, .writing _ last _ _ | .round, .flushing _ last _ => (!last).toNat
  | .watch, .starting => 2
  | .watch, .opening _ seen _ => 1 + (!seen).toNat
  | _, _ => 0

/-- The wakes that lead to another lap. One that was noted is heeded by the loop that sends. -/
def wakesFor (l : Lap) (c : Courier α) : Nat :=
  c.intake.buffer.token.toNat + if l = .round then c.pendingWake.toNat else 0

/-- How many laps of a loop there may still be. A batch that is lost leads to another opening. -/
def lapsLeft (l : Lap) (c : Courier α) : Nat :=
  c.wakesFor l + (if l = .watch then 2 * c.atStake else 0) + c.phase.lapsLeft l

omit [Message α] in
theorem roundsLeft_le (c : Courier α) : c.lapsLeft .round ≤ 3 := by
  have hphase : c.phase.lapsLeft .round ≤ 1 := by
    cases c.phase with
    | collecting s last | writing s last | flushing s last => exact Bool.toNat_le _
    | _ => simp [Phase.lapsLeft]
  have htoken := Bool.toNat_le c.intake.buffer.token
  have hnoted := Bool.toNat_le c.pendingWake
  show c.intake.buffer.token.toNat + c.pendingWake.toNat + 0 + c.phase.lapsLeft .round ≤ 3
  omega

omit [Message α] in
theorem watchesLeft_le (c : Courier α) : c.lapsLeft .watch ≤ 5 := by
  -- there is no batch on its way while a stream is being opened
  have hphase : 2 * c.onItsWay.length + c.phase.lapsLeft .watch ≤ 2 := by
    cases hp : c.phase with
    | opening o seen again => cases seen <;> simp [onItsWay, hp, Phase.lapsLeft]
    | _ => simp [onItsWay, hp, Phase.lapsLeft]
  have htoken := Bool.toNat_le c.intake.buffer.token
  have hqueued := c.queued_le_one
  show c.intake.buffer.token.toNat + 0 + 2 * (_ + _) + _ ≤ 5
  omega

omit [Message α] in
theorem laps_of_parts {p : Phase} {l : Lap} (at_ : c.phase = p) (stake : c'.atStake ≤ c.atStake)
    (parts : (c.lap? c').toList.count l + (c'.wakesFor l + c'.phase.lapsLeft l) ≤
      c.wakesFor l + p.lapsLeft l) :
    (c.lap? c').toList.count l + c'.lapsLeft l ≤ c.lapsLeft l := by
  unfold lapsLeft
  rw [at_]
  split <;> omega

omit [Message α] in
/-- A step that uses up no wake. -/
theorem laps_of_steady {p : Phase} {l : Lap} (at_ : c.phase = p) (stake : c'.atStake ≤ c.atStake)
    (token : c'.intake.buffer.token = c.intake.buffer.token) (noted : c'.pendingWake = c.pendingWake)
    (phase : (c.lap? c').toList.count l + c'.phase.lapsLeft l ≤ p.lapsLeft l) :
    (c.lap? c').toList.count l + c'.lapsLeft l ≤ c.lapsLeft l := by
  refine laps_of_parts at_ stake ?_
  rw [wakesFor, wakesFor, token, noted]
  omega

omit [Message α] in
/-- A step within a round, or at the end. -/
theorem laps_of_within {p : Phase} {l : Lap} (at_ : c.phase = p) (stake : c'.atStake ≤ c.atStake)
    (token : c'.intake.buffer.token = c.intake.buffer.token) (noted : c'.pendingWake = c.pendingWake)
    (within : c.lap? c' = none) (phase : c'.phase.lapsLeft l ≤ p.lapsLeft l) :
    (c.lap? c').toList.count l + c'.lapsLeft l ≤ c.lapsLeft l := by
  refine laps_of_steady at_ stake token noted ?_
  rw [within]
  exact Nat.le_trans (Nat.le_of_eq (Nat.zero_add _)) phase

omit [Message α] in
/-- A batch is lost, and is at stake no more. -/
theorem laps_of_lost {p : Phase} (l : Lap) {last : Bool} (at_ : c.phase = p)
    (stake : 1 + c'.atStake ≤ c.atStake) (wakes : c'.wakesFor l = c.wakesFor l) (within : c.lap? c' = none)
    (before : p.lapsLeft .round = (!last).toNat)
    (after : c'.phase = if last then .leaving else .opening .start false true) :
    (c.lap? c').toList.count l + c'.lapsLeft l ≤ c.lapsLeft l := by
  have hround : c'.phase.lapsLeft .round = (!last).toNat := by
    rw [after]
    cases last <;> rfl
  have hwatch : c'.phase.lapsLeft .watch ≤ 2 := by
    rw [after]
    cases last <;> simp [Phase.lapsLeft]
  rw [within, lapsLeft, lapsLeft, wakes, at_]
  cases l with
  | round => simp [hround, before]
  | watch =>
    simp only [Option.toList_none, List.count_nil, if_true]
    omega

/-- **No step leads to more laps** than there may still be. -/
theorem Work.laps (w : Work c new c') (l : Lap) :
    (c.lap? c').toList.count l + c'.lapsLeft l ≤ c.lapsLeft l := by
  have hbatches := w.batches.2
  have hstake : c'.atStake ≤ c.atStake := Nat.le_trans (Nat.le_add_left ..) hbatches
  cases w with
  | start at_ =>
    exact laps_of_within at_ hstake rfl rfl (by rw [lap?, at_]) (by cases l <;> simp [Phase.lapsLeft])
  | @opened o seen again i at_ =>
    refine laps_of_steady at_ hstake (by rw [buffer_endOpening]) (pendingWake_endOpening ..) ?_
    cases l <;> cases seen <;> simp [lap?, at_, endOpening, Phase.lapsLeft]
  | @gaveUp o seen again e at_ =>
    refine laps_of_steady at_ hstake (by rw [buffer_endOpening]) (pendingWake_endOpening ..) ?_
    have hphase := (c.asksNothing_giveUp again e).2
    cases l <;> cases seen <;> simp [lap?, at_, hphase, Phase.lapsLeft]
  | @connect o seen again turn at_ =>
    have htoken : ((if turn.counted then c.intake.count .connectFailure else c.intake).logAll
        turn.records).buffer.token = c.intake.buffer.token := by
      rw [Intake.buffer_logAll]
      split <;> rfl
    refine laps_of_within at_ hstake htoken rfl ?_ (by cases l <;> simp [Phase.lapsLeft])
    rw [lap?, at_]
    exact if_pos ⟨rfl, htoken⟩
  | @noteWake o again at_ wait =>
    obtain ⟨htoken, hused⟩ := Intake.token_of_wake wait
    refine laps_of_parts at_ hstake ?_
    cases l <;> simp [lap?, at_, htoken, hused, wakesFor]
  | @noteClose o again at_ wait =>
    obtain ⟨htoken, hused⟩ := Intake.token_of_closed wait
    refine laps_of_steady at_ hstake (hused.trans htoken.symm) rfl ?_
    cases l <;> simp [lap?, at_, Phase.lapsLeft]
  | heedNoted at_ noted =>
    refine laps_of_parts at_ hstake ?_
    cases l with
    | round =>
      simp only [lap?, at_, noted, wakesFor, Courier.heed, Phase.lapsLeft, Option.toList_some,
        List.count_singleton_self, if_true, Bool.toNat_true, Bool.toNat_false]
      omega
    | watch => simp [lap?, at_, wakesFor, Courier.heed, Phase.lapsLeft]
  | @heed s signal at_ noted wait =>
    cases signal with
    | wake =>
      obtain ⟨htoken, hused⟩ := Intake.token_of_wake wait
      refine laps_of_parts at_ hstake ?_
      cases l <;> simp [lap?, at_, htoken, hused, noted, wakesFor, Courier.heed, Phase.lapsLeft]
    | closed =>
      obtain ⟨htoken, hused⟩ := Intake.token_of_closed wait
      refine laps_of_steady at_ hstake (hused.trans htoken.symm) rfl ?_
      cases l <;> simp [lap?, at_, Courier.heed, Phase.lapsLeft]
  | heedCancel at_ =>
    refine laps_of_steady at_ hstake rfl rfl ?_
    cases l <;> simp [lap?, at_, Courier.heed, Phase.lapsLeft]
  | @takeNothing s last at_ =>
    refine laps_of_within at_ hstake (by rw [intake_endBatch]; rfl) (by cases last <;> rfl) ?_ ?_
    · rw [lap?, at_]
    · cases l <;> cases last <;> simp [endBatch, Phase.lapsLeft]
  | @take s last at_ =>
    refine laps_of_within at_ hstake rfl rfl (by rw [lap?, at_]) ?_
    cases l <;> simp [Phase.lapsLeft]
  | writeWaits at_ | completeWaits at_ | closeWaits at_ =>
    refine laps_of_within at_ hstake rfl rfl (by rw [lap?, at_]) ?_
    exact Nat.le_of_eq (congrArg (Phase.lapsLeft l) at_)
  | writeFails at_ => exact laps_of_lost l at_ hbatches rfl (by rw [lap?, at_]) rfl rfl
  | @writePart s last parcel rest net n at_ | @writeAll s last parcel rest net n at_ =>
    refine laps_of_within at_ hstake rfl rfl (by rw [lap?, at_]) ?_
    cases l <;> exact Nat.le_refl _
  | @flush s last parcel net at_ =>
    refine laps_of_within at_ hstake (by cases last <;> rfl) (by cases last <;> rfl) (by rw [lap?, at_]) ?_
    cases l <;> cases last <;> simp [sent, endBatch, Phase.lapsLeft]
  | flushFails at_ => exact laps_of_lost l at_ hbatches rfl (by rw [lap?, at_]) rfl rfl
  | gathered at_ | completePart at_ | completeAll at_ | completeFails at_ | flushEnd at_ | flushEndFails at_
  | closed at_ | closeFails at_ | leave at_ =>
    refine laps_of_within at_ hstake rfl rfl (by rw [lap?, at_]) ?_
    cases l <;> simp [Phase.lapsLeft, spoiled]
  | discardNothing at_ | discard at_ =>
    refine laps_of_within at_ hstake (token_discard c) rfl (by rw [lap?, at_]) ?_
    cases l <;> simp [Phase.lapsLeft]

omit [Message α] in
theorem Undisturbing.lapsLeft (h : Undisturbing c c') (l : Lap) : c'.lapsLeft l = c.lapsLeft l := by
  rw [Courier.lapsLeft, Courier.lapsLeft, wakesFor, wakesFor, h.buffer, h.pendingWake, h.phase, h.atStake]

/-- **The laps of a closed courier are those that were left**, in every run. -/
theorem Run.laps (r : Run c ms ds c') (closed : c.intake.buffer.closed = true) (l : Lap) :
    (c.laps ms).count l + c'.lapsLeft l ≤ c.lapsLeft l := by
  refine r.induct_of_closed (P := fun ms _ c' => (c.laps ms).count l + c'.lapsLeft l ≤ c.lapsLeft l) closed
    (Nat.le_of_eq (Nat.zero_add _)) ?_ ?_
  · intro ms ds c₁ new c₂ pick r ih hwork w
    have hlaps : c.laps (ms ++ [.work pick]) = c.laps ms ++ (c₁.lap? c₂).toList := by
      rw [Courier.laps, Trail.along_concat r.foldlM_move, lapsOf, hwork]
      rfl
    have hstep := w.laps l
    rw [hlaps, List.count_append]
    omega
  · intro ms ds c₁ new c₂ m r ih hothers hstill _ _
    have hnone : c₁.lapsOf m = [] := by
      cases m with
      | work pick => exact absurd rfl (hothers pick)
      | _ => rfl
    rw [Courier.laps, Trail.along_concat r.foldlM_move, hnone, List.append_nil, hstill.lapsLeft]
    exact ih

end TraceRelay.Courier
