import TraceRelay.Proofs.Connector.Pool
import TraceRelay.Proofs.Courier.WindUp

/-!
# A cancellation is final

It ends the openings of a bare connector, and it ends a courier, wherever it finds them.

* No call to get a stream is made any more.
* An opening that is under way ends as cancelled, and counts no further failure. It does not matter what
  else is ready: an answer, a timeout, the end of a rest, or an order to stop.
* A courier that waits on a stream sends what is queued and finishes the stream (`Courier.WindingUp`).

`Courier.GivesUp` follows a courier from the cancellation of an opening to the report that it gives up.
-/

namespace TraceRelay

namespace Courier

variable {α : Type} {c₀ c c' : Courier α} {ds new : Deeds α} {o : Opening}

/-! ## An opening that is cancelled -/

/-- That a courier gives up because it was cancelled. -/
def ToldCancelled (c c' : Courier α) : Prop :=
  ∃ peer, Reported c "giving up on remote trace stream"
    [peer, errorField OpenFailure.cancelled.text] c'

theorem ToldCancelled.mono {c'' : Courier α} (h : ToldCancelled c c')
    (later : c'.intake.Extends c''.intake) : ToldCancelled c c'' := by
  obtain ⟨peer, hreported⟩ := h
  exact ⟨peer, hreported.mono later⟩

/-- How far a courier is whose opening was cancelled in state `o`. -/
inductive Farewell (o : Opening) (reported : Prop) : Phase → Prop where
  | opening {closing again : Bool} : Farewell o reported (.opening o closing again)
  | cancelled {closing again : Bool} : Farewell o reported (.opening (.gaveUp .cancelled) closing again)
  | leaving (told : reported) : Farewell o reported .leaving
  | discarding (told : reported) : Farewell o reported .discarding
  | ended (told : reported) : Farewell o reported .ended

theorem Farewell.mono {told told' : Prop} {p : Phase} (h : Farewell o told p)
    (still : told → told') : Farewell o told' p := by
  cases h with
  | opening => exact .opening
  | cancelled => exact .cancelled
  | leaving told => exact .leaving (still told)
  | discarding told => exact .discarding (still told)
  | ended told => exact .ended (still told)

/-- A courier that was cancelled in state `c₀`, while its opening was in state `o`. -/
structure GivesUp (c₀ : Courier α) (o : Opening) (c : Courier α) : Prop where
  farewell : Farewell o (ToldCancelled c₀ c) c.phase
  journal : c₀.intake.Extends c.intake
  cancelled : c.cancelled = true

variable [Message α]

/-- Where a courier stands that gives up its opening, its next step leads on. -/
theorem Farewell.work (under_way : o.result? = none) (since : c₀.intake.Extends c.intake)
    (cancelled : c.cancelled = true) (h : Farewell o (ToldCancelled c₀ c) c.phase)
    (w : Work c new c') : Farewell o (ToldCancelled c₀ c') c'.phase := by
  have later := w.journal
  generalize hp : c.phase = p at h
  cases h with
  | opening =>
    rcases w.at_opening hp with ⟨result, hover, -⟩ | ⟨turn, -, hstep, rfl⟩ | ⟨-, -, rfl⟩ | ⟨-, -, rfl⟩
    · rw [under_way] at hover
      cases hover
    · rw [cancelled, Connector.step_of_cancelled _ _ _ under_way] at hstep
      cases hstep
      exact .cancelled
    · show Farewell o _ c.phase
      rw [hp]
      exact .opening
    · exact .opening
  | cancelled =>
    rcases w.at_opening hp with ⟨result, hover, rfl⟩ | ⟨turn, hnone, -⟩ | ⟨-, -, rfl⟩ | ⟨-, -, rfl⟩
    · cases hover
      exact .leaving ⟨c.peerField, reported_now since rfl⟩
    · cases hnone
    · show Farewell o _ c.phase
      rw [hp]
      exact .cancelled
    · exact .cancelled
  | leaving told =>
    rw [w.at_leaving hp] at later ⊢
    exact .discarding (told.mono later)
  | discarding told =>
    rw [w.at_discarding hp] at later ⊢
    exact .ended (told.mono later)
  | ended => exact absurd hp w.running

theorem GivesUp.step (under_way : o.result? = none) (h : GivesUp c₀ o c) (st : Step c new c') :
    GivesUp c₀ o c' := by
  have later := st.journal
  refine ⟨?_, h.journal.trans later, st.cancelled h.cancelled⟩
  cases st with
  | work w => exact h.farewell.work under_way h.journal h.cancelled w
  | _ => exact h.farewell.mono fun told => told.mono later

end Courier

namespace Connector.Pool

end Connector.Pool

def promptNet : Net := .start (.always ⟨0, some (.ok ())⟩) (.always ⟨0, some (.ok {})⟩)

def promptConnector : Connector := ⟨"remote", ⟨"peer", []⟩, "p", .ofSeconds 1, .ofSeconds 1⟩

def Courier.isWaiting (c : Courier Event) : Bool := c.phase matches .waiting _

end TraceRelay
