import TraceRelay.Proofs.Connector
import TraceRelay.Proofs.Courier.Accounting
import TraceRelay.Proofs.Courier.Wakes

/-!
# A courier without a stream and without hope of one

A courier is stranded when it is on its way out, or opens a stream although it has been cancelled. It
stays so (`Stranded.step`), asks nothing more of the host and counts neither a reconnect nor a failure
to connect (`Run.asks_nothing`). And it comes to its end within a few steps of its own, whatever it
looks at first (`Stranded.ends`).

Of a courier that is cancelled it is in any case true that it makes no further call to get a stream
(`Run.dials`).
-/

namespace TraceRelay

/-- A call that is made to get a stream. -/
def Call.isDial : Call → Bool
  | .connect _ _ | .newStream _ _ _ => true
  | .close _ | .reset _ => false

/-- The calls that were made to get a stream. -/
def Net.dials (n : Net) : List Call := n.calls.toList.filter Call.isDial

namespace Net

variable {n n' : Net} {i : Nat}

theorem calls_write {data : Bytes} {result : Option (Except Fault Nat)}
    (h : n.write i data = (n', result)) : n'.calls = n.calls := by
  cases h
  rfl

theorem calls_flush {result : Except Fault Unit} (h : n.flush i = (n', result)) :
    n'.calls = n.calls := by
  cases h
  rfl

theorem calls_close {result : Option (Except Fault Unit)} (h : n.close i = (n', result)) :
    n'.calls = n.calls := by
  cases h
  rfl

theorem dials_of_calls (h : n'.calls = n.calls) : n'.dials = n.dials := by rw [dials, dials, h]

@[simp] theorem dials_reset (n : Net) (i : Nat) : (n.reset i).dials = n.dials := by
  simp [dials, reset, setChannel, Call.isDial]

@[simp] theorem dials_startClose (n : Net) (i : Nat) : (n.startClose i).dials = n.dials := by
  simp [dials, startClose, Call.isDial]

end Net

namespace Courier

variable {α : Type} {c c' : Courier α} {ds new : Deeds α}

/-! ## Stranded -/

/-- There is no stream, and none will come. -/
inductive Stranded (c : Courier α) : Prop where
  | opening {o : Opening} {closing again : Bool} (at_ : c.phase = .opening o closing again)
      (cancelled : c.cancelled = true) (unopened : ∀ i, o ≠ .opened i)
  | leaving (at_ : c.phase = .leaving)
  | discarding (at_ : c.phase = .discarding)
  | ended (at_ : c.phase = .ended)

/-- Nothing has been asked of the host since, and nothing counted of what it is asked for. -/
structure AsksNothing (c c' : Courier α) : Prop where
  calls : c'.net.calls = c.net.calls
  reconnects : c'.intake.tally.reconnects = c.intake.tally.reconnects
  failures : c'.intake.tally.connectFailures = c.intake.tally.connectFailures

theorem AsksNothing.refl (c : Courier α) : AsksNothing c c := ⟨rfl, rfl, rfl⟩

theorem AsksNothing.trans {c'' : Courier α} (h : AsksNothing c c') (h' : AsksNothing c' c'') :
    AsksNothing c c'' :=
  ⟨h'.calls.trans h.calls, h'.reconnects.trans h.reconnects, h'.failures.trans h.failures⟩

theorem asksNothing_discard (c : Courier α) : AsksNothing c c.discard := by
  refine ⟨rfl, ?_, ?_⟩
  · rw [tally_discard]
    split <;> rfl
  · rw [tally_discard]
    split <;> rfl

theorem asksNothing_giveUp (c : Courier α) (again : Bool) (e : OpenFailure) :
    AsksNothing c (c.endOpening again (.error e)) ∧
      (c.endOpening again (.error e)).phase = .leaving := by
  cases e <;> exact ⟨⟨rfl, rfl, rfl⟩, rfl⟩

/-- A call leaves a courier where it is. -/
theorem Stranded.same (h : Stranded c) (phase : c'.phase = c.phase)
    (cancelled : c.cancelled = true → c'.cancelled = true) : Stranded c' := by
  cases h with
  | opening at_ isCancelled unopened =>
    exact .opening (phase.trans at_) (cancelled isCancelled) unopened
  | leaving at_ => exact .leaving (phase.trans at_)
  | discarding at_ => exact .discarding (phase.trans at_)
  | ended at_ => exact .ended (phase.trans at_)

/-! ## After a cancellation -/

theorem net_endOpening (c : Courier α) (again : Bool) (result : Except OpenFailure Nat) :
    (c.endOpening again result).net = c.net := by
  cases result with
  | ok i => rfl
  | error e => cases e <;> rfl

theorem cancelled_endOpening (c : Courier α) (again : Bool) (result : Except OpenFailure Nat) :
    (c.endOpening again result).cancelled = c.cancelled := by
  cases result with
  | ok i => rfl
  | error e => cases e <;> rfl

theorem cancelled_heed (c : Courier α) (s : Session) (signal : Signal) :
    (c.heed s signal).cancelled = c.cancelled := by cases signal <;> rfl

theorem cancelled_endBatch (c : Courier α) (s : Session) (last : Bool) :
    (c.endBatch s last).cancelled = c.cancelled := by cases last <;> rfl

variable [Message α]

theorem Work.cancelled (w : Work c new c') : c'.cancelled = c.cancelled := by
  cases w with
  | opened | gaveUp => rw [cancelled_endOpening]
  | heedNoted | heed | heedCancel => rw [cancelled_heed]
  | takeNothing => rw [cancelled_endBatch]
  | flush => rw [sent, cancelled_endBatch]
  | _ => rfl

theorem Step.cancelled (st : Step c new c') (h : c.cancelled = true) : c'.cancelled = true := by
  cases st with
  | cancel => rfl
  | work w => rw [w.cancelled, h]
  | _ => exact h

/-- A courier calls to get a stream only while it has none. -/
theorem Work.dials_or_connect (w : Work c new c') : c'.net.dials = c.net.dials ∨
    ∃ o closing again turn, c.phase = .opening o closing again ∧ o.result? = none ∧
      c.connector.step c.cancelled c.stopped c.net o = some turn ∧ c'.net = turn.net := by
  cases w with
  | connect at_ result step => exact .inr ⟨_, _, _, _, at_, result, step, rfl⟩
  | opened | gaveUp => exact .inl (by rw [net_endOpening])
  | heedNoted | heed | heedCancel => exact .inl (by rw [net_heed])
  | takeNothing => exact .inl (by rw [net_endBatch])
  | writeWaits _ _ write | writePart _ _ write | writeAll _ _ write | completeWaits _ _ write
  | completePart _ _ write | completeAll _ _ write =>
    exact .inl (Net.dials_of_calls (Net.calls_write write))
  | writeFails _ _ write | completeFails _ _ write =>
    exact .inl ((Net.dials_reset _ _).trans (Net.dials_of_calls (Net.calls_write write)))
  | flush _ _ flush =>
    rw [sent, net_endBatch]
    exact .inl (Net.dials_of_calls (Net.calls_flush flush))
  | flushFails _ _ flush | flushEndFails _ _ flush =>
    exact .inl ((Net.dials_reset _ _).trans (Net.dials_of_calls (Net.calls_flush flush)))
  | flushEnd _ _ flush =>
    exact .inl ((Net.dials_startClose _ _).trans (Net.dials_of_calls (Net.calls_flush flush)))
  | closeWaits _ _ close | closed _ _ close | closeFails _ _ close =>
    exact .inl (Net.dials_of_calls (Net.calls_close close))
  | discardNothing | discard => exact .inl (by rw [net_discard])
  | _ => exact .inl rfl

theorem Work.dials (cancelled : c.cancelled = true) (w : Work c new c') :
    c'.net.dials = c.net.dials := by
  rcases w.dials_or_connect with hsame | ⟨o, closing, again, turn, -, result, step, hnet⟩
  · exact hsame
  · rw [cancelled, Connector.step_of_cancelled _ _ _ result] at step
    cases step
    rw [hnet]

/-- **No call to get a stream is made after a cancellation.** -/
theorem Run.dials {ms : List (Move α)} (r : Run c ms ds c') (cancelled : c.cancelled = true) :
    c'.cancelled = true ∧ c'.net.dials = c.net.dials := by
  refine r.induct (P := fun _ c' => c'.cancelled = true ∧ c'.net.dials = c.net.dials)
    ⟨cancelled, rfl⟩ ?_
  intro _ c₁ _ c₂ h st
  refine ⟨st.cancelled h.1, ?_⟩
  rw [← h.2]
  cases st with
  | work w => exact w.dials h.1
  | _ => rfl

/-! ## An opening -/

/-- What a step comes to while a stream is being opened. -/
theorem Work.at_opening {o : Opening} {closing again : Bool} (w : Work c new c')
    (at_ : c.phase = .opening o closing again) :
    (∃ result, o.result? = some result ∧ c' = c.endOpening again result) ∨
    (∃ turn, o.result? = none ∧ c.connector.step c.cancelled c.stopped c.net o = some turn ∧
      c' = { c with
        intake := (if turn.counted then c.intake.count .connectFailure else c.intake).logAll
          turn.records
        net := turn.net
        phase := .opening turn.opening closing again }) ∨
    (closing = false ∧ c.intake.wait.2 = some .wake ∧
      c' = { c with intake := c.intake.wait.1, pendingWake := true }) ∨
    (closing = false ∧ c.intake.wait.2 = some .closed ∧
      c' = { c with intake := c.intake.wait.1, stopped := true, phase := .opening o true again }) := by
  cases w with
  | opened at' result | gaveUp at' result =>
    cases at_.symm.trans at'
    exact .inl ⟨_, result, rfl⟩
  | connect at' result step =>
    cases at_.symm.trans at'
    exact .inr (.inl ⟨_, result, step, rfl⟩)
  | noteWake at' wait =>
    cases at_.symm.trans at'
    exact .inr (.inr (.inl ⟨rfl, wait, rfl⟩))
  | noteClose at' wait =>
    cases at_.symm.trans at'
    exact .inr (.inr (.inr ⟨rfl, wait, rfl⟩))
  | _ => simp_all only [reduceCtorEq]

theorem Work.at_leaving (w : Work c new c') (at_ : c.phase = .leaving) :
    c' = { c with intake := c.intake.abandon, phase := .discarding } := by
  cases w with
  | leave => rfl
  | _ => simp_all only [reduceCtorEq]

theorem Work.at_discarding (w : Work c new c') (at_ : c.phase = .discarding) : c' = c.discard := by
  cases w with
  | discardNothing | discard => rfl
  | _ => simp_all only [reduceCtorEq]

/-! ## Steps of a stranded courier -/

theorem Stranded.work (h : Stranded c) (w : Work c new c') : Stranded c' ∧ AsksNothing c c' := by
  cases h with
  | @opening o closing again at_ cancelled unopened =>
    rcases w.at_opening at_ with ⟨result, hresult, rfl⟩ | ⟨turn, hnone, hstep, rfl⟩ | ⟨-, -, rfl⟩ |
      ⟨-, -, rfl⟩
    · cases result with
      | ok i =>
        cases o with
        | opened j => exact absurd rfl (unopened j)
        | _ => cases hresult
      | error e =>
        obtain ⟨hnothing, hphase⟩ := c.asksNothing_giveUp again e
        exact ⟨.leaving hphase, hnothing⟩
    · rw [cancelled, Connector.step_of_cancelled _ _ _ hnone] at hstep
      cases hstep
      exact ⟨.opening rfl cancelled nofun, rfl, rfl, rfl⟩
    · exact ⟨.opening at_ cancelled unopened, rfl, rfl, rfl⟩
    · exact ⟨.opening rfl cancelled unopened, rfl, rfl, rfl⟩
  | leaving at_ =>
    rw [w.at_leaving at_]
    exact ⟨.discarding rfl, rfl, rfl, rfl⟩
  | discarding at_ =>
    rw [w.at_discarding at_]
    exact ⟨.ended rfl, c.asksNothing_discard⟩
  | ended at_ => exact absurd at_ w.running

theorem Stranded.step (h : Stranded c) (st : Step c new c') : Stranded c' ∧ AsksNothing c c' := by
  have hcancelled := st.cancelled
  cases st with
  | accept e open_ =>
    refine ⟨h.same rfl hcancelled, ?_⟩
    rw [trace_eq, Intake.trace_of_open open_]
    exact ⟨rfl, rfl, rfl⟩
  | refuse e closed =>
    refine ⟨h.same rfl hcancelled, ?_⟩
    rw [trace_eq, Intake.trace_of_closed closed]
    exact ⟨rfl, rfl, rfl⟩
  | close =>
    refine ⟨h.same rfl hcancelled, rfl, ?_, ?_⟩
    · exact congrArg Tally.reconnects (Intake.tally_close _)
    · exact congrArg Tally.connectFailures (Intake.tally_close _)
  | abandon | cancel | advance => exact ⟨h.same rfl hcancelled, rfl, rfl, rfl⟩
  | work w => exact h.work w

/-- **A stranded courier asks nothing more of its host.** -/
theorem Run.asks_nothing {ms : List (Move α)} (r : Run c ms ds c') (h : Stranded c) :
    Stranded c' ∧ AsksNothing c c' := by
  refine r.induct (P := fun _ c' => Stranded c' ∧ AsksNothing c c') ⟨h, .refl c⟩ ?_
  intro _ c₁ _ c₂ ih st
  obtain ⟨hstranded, hnothing⟩ := ih.1.step st
  exact ⟨hstranded, ih.2.trans hnothing⟩

/-! ### The way to the end -/

/-- How many steps a stranded courier may still make, at most: while a stream is being opened a token
that is pending is noted, and a close. -/
def Phase.stepsLeft (token : Bool) : Phase → Nat
  | .opening o seen _ => 3 + o.result?.isNone.toNat + token.toNat + (!seen).toNat
  | .leaving => 2
  | .discarding => 1
  | _ => 0

def stepsLeft (c : Courier α) : Nat := c.phase.stepsLeft c.intake.buffer.token

omit [Message α] in
theorem stepsLeft_at {p : Phase} (at_ : c.phase = p) :
    c.stepsLeft = p.stepsLeft c.intake.buffer.token := by rw [stepsLeft, at_]

theorem Stranded.closer (h : Stranded c) (w : Work c new c') : c'.stepsLeft < c.stepsLeft := by
  cases h with
  | @opening o closing again at_ cancelled unopened =>
    rw [stepsLeft_at at_]
    rcases w.at_opening at_ with ⟨result, hresult, rfl⟩ | ⟨turn, hnone, hstep, rfl⟩ |
      ⟨rfl, hwait, rfl⟩ | ⟨rfl, hwait, rfl⟩
    · cases result with
      | ok i =>
        cases o with
        | opened j => exact absurd rfl (unopened j)
        | _ => cases hresult
      | error e =>
        rw [stepsLeft_at (c.asksNothing_giveUp again e).2, Phase.stepsLeft, Phase.stepsLeft]
        omega
    · rw [cancelled, Connector.step_of_cancelled _ _ _ hnone] at hstep
      cases hstep
      have hover : (Opening.gaveUp .cancelled).result? = some (.error .cancelled) := rfl
      show Phase.stepsLeft c.intake.buffer.token (.opening (.gaveUp .cancelled) closing again) < _
      simp [Phase.stepsLeft, hover, hnone]
    -- a wake uses the token up, a close is noted only once
    · obtain ⟨htoken, hused⟩ := Intake.token_of_wake hwait
      rw [stepsLeft, htoken]
      show Phase.stepsLeft c.intake.wait.1.buffer.token c.phase < _
      simp [at_, hused, Phase.stepsLeft]
    · show Phase.stepsLeft c.intake.wait.1.buffer.token (.opening o true again) < _
      simp [Intake.token_of_closed hwait, Phase.stepsLeft]
  | leaving at_ =>
    rw [w.at_leaving at_, stepsLeft_at at_]
    exact Nat.lt_succ_self 1
  | discarding at_ =>
    rw [w.at_discarding at_, stepsLeft_at at_, stepsLeft_at c.phase_discard]
    exact Nat.one_pos
  | ended at_ => exact absurd at_ w.running

/-- A stranded courier waits for nothing. -/
theorem Stranded.works (h : Stranded c) (running : c.phase ≠ .ended) (pick : Pick) :
    ∃ c', c.work pick = some c' := by
  rw [Courier.work]
  cases h with
  | @opening o closing again at_ cancelled unopened =>
    rw [at_]
    have hwork : ∃ c', c.workOpening o closing again = some c' := by
      unfold workOpening
      cases hresult : o.result? with
      | some result => exact ⟨_, rfl⟩
      | none =>
        rw [cancelled, Connector.step_of_cancelled _ _ _ hresult]
        exact ⟨_, rfl⟩
    obtain ⟨c', hc', -⟩ := Pick.choose_of_former (P := fun _ => True) pick hwork fun _ _ => trivial
    exact ⟨c', hc'⟩
  | leaving at_ => rw [at_]; exact ⟨_, rfl⟩
  | discarding at_ => rw [at_]; exact ⟨_, rfl⟩
  | ended at_ => exact absurd at_ running

/-- **A stranded courier comes to its end by itself**, within a few steps. -/
theorem Stranded.ends (h : Stranded c) (pick : Pick) : ∃ own ds c', (∀ m ∈ own, m = .work pick) ∧
    own.length ≤ c.stepsLeft ∧ c.moves own = some (ds, c') ∧ c'.phase = .ended := by
  induction hleft : c.stepsLeft using Nat.strongRecOn generalizing c with
  | ind n ih =>
    by_cases hended : c.phase = .ended
    · exact ⟨[], [], c, nofun, Nat.zero_le _, rfl, hended⟩
    · obtain ⟨c₁, hwork⟩ := h.works hended pick
      have w := work_cases hwork
      have hcloser := h.closer w
      rw [hleft] at hcloser
      obtain ⟨own, ds, c', hown, hlength, hmoves, hc'⟩ := ih _ hcloser (h.work w).1 rfl
      refine ⟨.work pick :: own, c.deeds (.work pick) ++ ds, c', ?_, ?_, ?_, hc'⟩
      · rintro m (_ | ⟨_, hm⟩)
        · rfl
        · exact hown m hm
      · rw [List.length_cons]
        omega
      · rw [moves_cons (show c.move (.work pick) = some c₁ from hwork), hmoves]
        rfl

end Courier

end TraceRelay
