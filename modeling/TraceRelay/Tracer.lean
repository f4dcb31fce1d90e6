import TraceRelay.Clocked
import TraceRelay.Courier
import TraceRelay.Recorder

/-!
# Tracers

A tracer is a write loop and the handle that callers hold. The handle takes events, closes the
buffer, and can wait for the loop to end. Only one shutdown waits: whichever comes first takes what
there is to wait for, and any other returns at once.
-/

namespace TraceRelay

/-- A write loop, as its handle sees it. -/
class WriteLoop (σ : Type) (α : outParam Type) extends Clocked σ where
  trace : σ → α → σ
  close : σ → σ
  /-- The handle is gone. -/
  abandon : σ → σ
  /-- The parts of the program that may be cancelled are. -/
  cancel : σ → σ
  isEnded : σ → Bool
  name : σ → String
  tally : σ → Tally
  /-- Whether events are refused. -/
  isClosed : σ → Bool

instance {α : Type} : WriteLoop (Recorder α) α where
  now r := r.clock
  advance := Recorder.advance
  step := Recorder.work
  due := Recorder.due
  trace := Recorder.trace
  close := Recorder.close
  abandon := Recorder.abandon
  cancel := id
  isEnded := Recorder.isEnded
  name r := r.intake.name
  tally r := r.intake.tally
  isClosed r := r.intake.buffer.closed

instance {α : Type} [Message α] : WriteLoop (Courier α) α where
  now c := c.net.clock
  advance := Courier.advance
  step := Courier.work .former
  due := Courier.due
  trace := Courier.trace
  close := Courier.close
  abandon := Courier.abandon
  cancel := Courier.cancel
  isEnded := Courier.isEnded
  name c := c.intake.name
  tally c := c.intake.tally
  isClosed c := c.intake.buffer.closed

/-- The handle of a write loop. -/
structure Tracer (σ : Type) where
  loop : σ
  /-- Whether the end of the loop can still be waited for. -/
  joinable : Bool
  deriving Inhabited

namespace Tracer

variable {σ α : Type} [WriteLoop σ α]

/-- A loop that has just been started. -/
def start (loop : σ) : Tracer σ := ⟨loop, true⟩

/-- A shutdown begins: the tracer is closed, and the end of the loop is no longer for others to
wait for. Says whether this shutdown waits for it. -/
def beginShutdown (t : Tracer σ) : Tracer σ × Bool := (⟨WriteLoop.close t.loop, false⟩, t.joinable)

/-- What a shutdown returns. -/
def report (t : Tracer σ) : String × Tally := (WriteLoop.name t.loop, WriteLoop.tally t.loop)

end Tracer

end TraceRelay
