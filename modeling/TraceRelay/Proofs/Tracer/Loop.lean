import TraceRelay.Proofs.Courier.WindUp
import TraceRelay.Proofs.Recorder.Run
import TraceRelay.Tracer.Configured

/-!
# What every write loop keeps to

A handle knows nothing of the loop behind it but what `WriteLoop` says. `WriteLoop.Lawful` is what it can
rely on: a loop that refuses events does so for good and counts them as dropped, and a loop that has
ended does nothing more. It holds of a recorder, of a courier, and of every configured tracer.
-/

namespace TraceRelay

namespace Tally

/-- The counters after `n` more events were dropped. -/
def droppedBy (t : Tally) (n : Nat) : Tally :=
  { t with eventsDropped := t.eventsDropped + .ofNat n }

@[simp] theorem droppedBy_zero (t : Tally) : t.droppedBy 0 = t := by
  rw [droppedBy, show UInt64.ofNat 0 = 0 from rfl, UInt64.add_zero]

theorem droppedBy_add (t : Tally) (m n : Nat) : t.droppedBy (m + n) = (t.droppedBy m).droppedBy n := by
  simp only [droppedBy, UInt64.ofNat_add, UInt64.add_assoc]

/-- What two drops lead to was the same before. -/
theorem droppedBy_inj {t t' : Tally} {n : Nat} (h : t.droppedBy n = t'.droppedBy n) : t = t' := by
  obtain ⟨⟩ := t
  obtain ⟨⟩ := t'
  simpa [droppedBy] using h

end Tally

namespace WriteLoop

/-! ## What others do -/

/-- What a write loop meets with from without. -/
inductive Touch (α : Type) where
  | trace (e : α)
  | close
  | cancel
  | advance (t : Nat)

variable {σ α : Type}

/-- Trace calls. -/
def Touch.traces : Touch α → Nat
  | .trace _ => 1
  | _ => 0

variable [WriteLoop σ α]

def touch (s : σ) : Touch α → σ
  | .trace e => trace s e
  | .close => close s
  | .cancel => cancel s
  | .advance t => Clocked.advance s t

/-- What holds of every write loop. -/
class Lawful (σ : Type) (α : outParam Type) [WriteLoop σ α] where
  /-- The loop goes on by a step of its own. Of two things that are ready at once it may see either. -/
  Goes : σ → σ → Prop
  goes_step {s s' : σ} : Clocked.step s = some s' → Goes s s'
  /-- A loop that has ended goes on no more. -/
  running {s s' : σ} : Goes s s' → isEnded s = false
  ended_touch (s : σ) (t : Touch α) : isEnded (touch s t) = isEnded s
  closed_close (s : σ) : isClosed (close s) = true
  closed_goes {s s' : σ} : Goes s s' → isClosed s = true → isClosed s' = true
  closed_touch {s : σ} (t : Touch α) : isClosed s = true → isClosed (touch s t) = true
  /-- Once events are refused, callers change nothing that is counted but the events dropped. -/
  tally_touch {s : σ} (t : Touch α) : isClosed s = true → tally (touch s t) = (tally s).droppedBy t.traces

end WriteLoop

/-! ## The two kinds -/

open WriteLoop (Touch touch Lawful)

variable {α : Type}

namespace Intake

/-- What callers can do to a buffer that refuses events. -/
theorem tally_trace_of_closed {k : Intake α} (h : k.buffer.closed = true) (e : α) :
    (k.trace e).tally = k.tally.droppedBy 1 := by
  rw [trace_of_closed h]
  rfl

theorem closed_trace (k : Intake α) (e : α) : (k.trace e).buffer.closed = k.buffer.closed := by
  cases h : k.buffer.closed with
  | true => rw [trace_of_closed h]; exact h
  | false => rw [trace_of_open h]; exact h

end Intake

instance : Lawful (Recorder α) α where
  Goes r r' := r.work = some r'
  goes_step := id
  running {r r'} h := by
    show r.isEnded = false
    cases hended : r.isEnded with
    | false => rfl
    | true =>
      rw [Recorder.work, Recorder.isEnded_iff.mp hended] at h
      cases h
  ended_touch r t := by cases t <;> rfl
  closed_close r := r.intake.closed_close
  closed_goes {r r'} h closed := (Recorder.work_cases h).same.2.trans closed
  closed_touch {r} t closed := by
    cases t with
    | trace e => exact (r.intake.closed_trace e).trans closed
    | close => exact r.intake.closed_close
    | cancel | advance t => exact closed
  tally_touch {r} t closed := by
    cases t with
    | trace e => exact Intake.tally_trace_of_closed closed e
    | close => exact r.intake.tally_close.trans (Tally.droppedBy_zero _).symm
    | cancel | advance t => exact (Tally.droppedBy_zero _).symm

instance [Message α] : Lawful (Courier α) α where
  Goes c c' := ∃ pick, c.work pick = some c'
  goes_step h := ⟨.former, h⟩
  running {c c'} h := by
    obtain ⟨pick, h⟩ := h
    show c.isEnded = false
    cases hended : c.isEnded with
    | false => rfl
    | true => exact absurd (Courier.isEnded_iff.mp hended) (Courier.work_cases h).running
  ended_touch c t := by cases t <;> rfl
  closed_close c := c.intake.closed_close
  closed_goes {c c'} h closed := by
    obtain ⟨pick, h⟩ := h
    exact (Courier.work_cases h).stays_closed closed
  closed_touch {c} t closed := by
    cases t with
    | trace e => exact (c.intake.closed_trace e).trans closed
    | close => exact c.intake.closed_close
    | cancel | advance t => exact closed
  tally_touch {c} t closed := by
    cases t with
    | trace e => exact Intake.tally_trace_of_closed closed e
    | close => exact c.intake.tally_close.trans (Tally.droppedBy_zero _).symm
    | cancel | advance t => exact (Tally.droppedBy_zero _).symm

namespace Tracer.Member

/-- A configured tracer goes on as the loop does that is there. -/
inductive Goes : Member → Member → Prop where
  | file {r : FileRecorder Event} {recorder : Recorder Event} (h : Lawful.Goes r.recorder recorder) :
      Goes (.file r) (.file { r with recorder })
  | remote {c c' : Courier Event} (h : Lawful.Goes c c') : Goes (.remote c) (.remote c')

theorem goes_step {m m' : Member} (h : m.step = some m') : Goes m m' := by
  cases m with
  | file r =>
    obtain ⟨recorder, hstep, rfl⟩ := Option.map_eq_some_iff.mp h
    exact .file (Lawful.goes_step hstep)
  | remote c =>
    obtain ⟨c', hstep, rfl⟩ := Option.map_eq_some_iff.mp h
    exact .remote (Lawful.goes_step hstep)

theorem touch_eq (m : Member) (t : Touch Event) : touch m t = m.onLoop (touch · t) (touch · t) := by
  cases m <;> cases t <;> rfl

instance : Lawful Member Event where
  Goes := Goes
  goes_step := goes_step
  running h := by
    cases h with
    | @file r recorder h => exact Lawful.running (s := r.recorder) h
    | @remote c c' h => exact Lawful.running (s := c) h
  ended_touch m t := by
    rw [touch_eq]
    cases m with
    | file r => exact Lawful.ended_touch r.recorder t
    | remote c => exact Lawful.ended_touch c t
  closed_close m := by
    cases m with
    | file r => exact Lawful.closed_close r.recorder
    | remote c => exact Lawful.closed_close c
  closed_goes h closed := by
    cases h with
    | @file r recorder h => exact Lawful.closed_goes (s := r.recorder) h closed
    | @remote c c' h => exact Lawful.closed_goes (s := c) h closed
  closed_touch {m} t closed := by
    rw [touch_eq]
    cases m with
    | file r => exact Lawful.closed_touch (s := r.recorder) t closed
    | remote c => exact Lawful.closed_touch (s := c) t closed
  tally_touch {m} t closed := by
    rw [touch_eq]
    cases m with
    | file r => exact Lawful.tally_touch (s := r.recorder) t closed
    | remote c => exact Lawful.tally_touch (s := c) t closed

end Tracer.Member

end TraceRelay
