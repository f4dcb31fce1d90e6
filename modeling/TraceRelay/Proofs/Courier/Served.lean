import TraceRelay.Proofs.Courier.FirstOpening

/-!
# A courier whose host gives it a stream

A host is willing if it grants every request within some time (`Net.Willing`). With such a host no attempt
to open a stream fails or runs out of time, and a courier that is not cancelled comes to its stream
(`Run.served`): whatever is closed, and whenever, it does not end without one.
-/

namespace TraceRelay

/-- A request is granted within `limit`. -/
def Reaction.Grants {α : Type} (limit : Nat) (r : Reaction α) : Prop :=
  r.delay ≤ limit ∧ ∃ a, r.answer? = some (.ok a)

/-- Every request for a connection or a stream is granted within `limit`. -/
structure Net.Willing (limit : Nat) (n : Net) : Prop where
  connects : ∀ r, n.connects.Gives r → r.Grants limit
  streams : ∀ r, n.streams.Gives r → r.Grants limit

/-- No attempt has failed, and the one that is under way will be answered in time. -/
def Opening.Hopeful : Opening → Prop
  | .ready _ | .opened _ => True
  | .calling _ deadline (some (t, answer)) => t ≤ deadline ∧ ∀ f, answer ≠ .refused f
  | _ => False

namespace Connector

variable {c : Connector} {net : Net} {o : Opening} {turn : Opening.Turn}

theorem hopeful_answerAt {α : Type} {r : Reaction α} {limit : Nat} (grants : r.Grants limit)
    (errand : Errand) (t : Nat) (given : α → Answer) (gives : ∀ a f, given a ≠ .refused f) :
    Opening.Hopeful (.calling errand (t + limit) (answerAt t r given)) := by
  obtain ⟨hdelay, a, hanswer⟩ := grants
  rw [answerAt, hanswer]
  exact ⟨Nat.add_le_add_left hdelay t, gives a⟩

theorem call_willing (c : Connector) (errand : Errand) (h : net.Willing c.attemptTimeout.ticks) :
    (c.call net errand).1.Willing c.attemptTimeout.ticks ∧ (c.call net errand).2.Hopeful := by
  cases errand with
  | connect =>
    exact ⟨⟨fun r hr => h.connects r hr.of_next, h.streams⟩,
      hopeful_answerAt (h.connects _ (Plan.gives_next _)) _ _ _ fun _ _ => nofun⟩
  | stream =>
    exact ⟨⟨h.connects, fun r hr => h.streams r hr.of_next⟩,
      hopeful_answerAt (h.streams _ (Plan.gives_next _)) _ _ _ fun _ _ => nofun⟩

/-- **No attempt at a willing host fails.** -/
theorem Step.hopeful {stopped : Bool} (h : Step c false stopped net o turn) (hopeful : o.Hopeful)
    (willing : net.Willing c.attemptTimeout.ticks) :
    turn.net.Willing c.attemptTimeout.ticks ∧ turn.opening.Hopeful := by
  cases h with
  | cancel isCancelled => cases isCancelled
  | call => exact c.call_willing _ willing
  | @answer errand deadline t answer =>
    cases answer with
    | connected => exact ⟨willing, trivial⟩
    | stream plan => exact ⟨⟨willing.connects, willing.streams⟩, trivial⟩
    | refused f => exact absurd rfl (hopeful.2 f)
  | @timeout errand deadline answer? _ unanswered due =>
    -- the answer comes no later than the deadline, so it has come
    cases answer? with
    | none => exact hopeful.elim
    | some answer =>
      have hcome : answer.1 ≤ net.clock := Nat.le_trans hopeful.1 due
      rw [Option.filter_some, if_pos (decide_eq_true hcome)] at unanswered
      cases unanswered
  | fail | stop | retry => exact hopeful.elim

end Connector

namespace Courier

variable {α : Type} [Message α] {c c' : Courier α} {ds new : Deeds α} {ms : List (Move α)}

/-- A courier has had a stream, or is on the way to its first and nothing stands against it. -/
inductive Served (c : Courier α) : Prop where
  | starting (at_ : c.phase = .starting) (willing : c.net.Willing c.connector.attemptTimeout.ticks)
  | opening {o : Opening} {closing again : Bool} (at_ : c.phase = .opening o closing again)
      (under_way : o.result? = none) (hopeful : o.Hopeful)
      (willing : c.net.Willing c.connector.attemptTimeout.ticks)
  | streamed (some_ : c.net.channels.size ≠ 0)

theorem Served.work (h : Served c) (going : c.cancelled = false) (w : Work c new c') : Served c' := by
  cases h with
  | starting at_ willing =>
    cases w with
    | start => exact .opening rfl rfl trivial willing
    | _ => simp_all only [reduceCtorEq]
  | @opening o closing again at_ under_way hopeful willing =>
    rcases w.at_opening at_ with ⟨result, hresult, -⟩ | ⟨turn, -, hstep, rfl⟩ | ⟨-, -, rfl⟩ | ⟨-, -, rfl⟩
    · rw [under_way] at hresult
      cases hresult
    · rw [going] at hstep
      have st := Connector.step_cases hstep
      obtain ⟨hwilling, hhopeful⟩ := st.hopeful hopeful willing
      cases hresult : turn.opening.result? with
      | none => exact .opening rfl hresult hhopeful hwilling
      | some result =>
        -- a hopeful opening is over only if there is a stream
        rcases st.channels with ⟨-, hnone⟩ | ⟨plan, -, hnet⟩
        · cases hopening : turn.opening with
          | opened i => exact absurd hopening (hnone i)
          | gaveUp e => rw [hopening] at hhopeful; exact hhopeful.elim
          | ready | calling | failed | resting => rw [hopening] at hresult; cases hresult
        · refine .streamed ?_
          show turn.net.channels.size ≠ 0
          rw [hnet, Net.addChannel, Array.size_push]
          exact Nat.succ_ne_zero _
    · exact .opening at_ under_way hopeful willing
    · exact .opening rfl under_way hopeful willing
  | streamed some_ =>
    refine .streamed fun hzero => some_ ?_
    have hle := w.size_le
    omega

theorem Served.step (h : Served c) (going : c'.cancelled = false) (st : Step c new c') :
    Served c' := by
  have hgoing := st.going going
  cases st with
  | work w => exact h.work hgoing w
  | accept | refuse | close | abandon | cancel =>
    cases h with
    | starting at_ willing => exact .starting at_ willing
    | opening at_ under_way hopeful willing => exact .opening at_ under_way hopeful willing
    | streamed some_ => exact .streamed some_
  | advance =>
    cases h with
    | starting at_ willing => exact .starting at_ ⟨willing.connects, willing.streams⟩
    | opening at_ under_way hopeful willing =>
      exact .opening at_ under_way hopeful ⟨willing.connects, willing.streams⟩
    | streamed some_ => exact .streamed some_

section

variable {connector : Connector} {window : Duration} {method : Gzip.Method} {level : Nat} {net : Net}
  {cancelled : Bool}

theorem Run.is_served (r : Run (.start connector window method level net cancelled) ms ds c)
    (willing : net.Willing connector.attemptTimeout.ticks) (going : c.cancelled = false) : Served c := by
  refine r.induct (P := fun _ c => c.cancelled = false → Served c) (fun _ => .starting rfl willing) ?_
    going
  intro _ _ _ _ ih st going
  exact (ih (st.going going)).step going st

/-- **A courier with a willing host comes to its stream**, unless it is cancelled. -/
theorem Run.served (r : Run (.start connector window method level net cancelled) ms ds c)
    (willing : net.Willing connector.attemptTimeout.ticks) (going : c.cancelled = false)
    (ended : c.phase = .ended) : c.net.channels.size ≠ 0 := by
  cases r.is_served willing going with
  | starting at_ => cases at_.symm.trans ended
  | opening at_ => cases at_.symm.trans ended
  | streamed some_ => exact some_

/-- Such a courier does not close its buffer by itself, if no stream fails: it leaves its stream when it
has been closed. -/
theorem Run.closed_of_work (r : Run (.start connector window method level net cancelled) ms ds c)
    (willing : net.Willing connector.attemptTimeout.ticks) (sound : method.Sound level)
    (fresh : net.channels = #[]) (faultless : net.Faultless) (going : c.cancelled = false)
    (w : Work c new c') : c'.intake.buffer.closed = c.intake.buffer.closed := by
  cases w with
  | @opened o closing again => cases again <;> rfl
  | @gaveUp o closing again e => cases e <;> rfl
  | @connect o closing again turn =>
    show ((if turn.counted then _ else _ : Intake α).logAll _).buffer.closed = _
    rw [Intake.buffer_logAll]
    cases turn.counted <;> rfl
  | noteWake | noteClose => exact Intake.closed_wait _
  | heedNoted => rw [intake_heed]
  | heed => rw [intake_heed]; exact Intake.closed_wait _
  | takeNothing => rw [intake_endBatch]; rfl
  | flush => rw [sent, intake_endBatch]; rfl
  | discardNothing | discard => exact c.closed_discard
  | heedCancel at_ noted isCancelled =>
    rw [going] at isCancelled
    cases isCancelled
  | leave at_ =>
    have hstage := (r.unbroken sound fresh faultless).stage
    rw [Stage, at_] at hstage
    have hsome : c.net.channels.size ≠ 0 := by
      cases r.is_served willing going with
      | starting at' => cases at'.symm.trans at_
      | opening at' => cases at'.symm.trans at_
      | streamed some_ => exact some_
    exact (hstage.resolve_left hsome).2.1.closed.symm
  | _ => rfl

end

end Courier

end TraceRelay
