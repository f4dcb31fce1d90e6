import TraceRelay.Channel
import TraceRelay.Encoding
import TraceRelay.Intake
import TraceRelay.RateLimit
import TraceRelay.WriteBuffer

/-!
# Recording to a file

A recorder is the write loop of a file tracer. At a wake it takes the events of the buffer, encodes
and writes one after the other, and flushes. What fails is counted and reported, not more often than
a rate limit allows, and the next event has its turn. At the close it does so one last time and then
closes the output.

`Recorder.work` is one step, with at most one call of the output.
-/

namespace TraceRelay

namespace Recorder

inductive Phase (α : Type) where
  | starting
  | waiting
  /-- The events are about to be taken, `last` for the last time. -/
  | collecting (last : Bool)
  /-- The next of the events is about to be encoded. -/
  | encoding (left : List α) (last : Bool)
  /-- The rest of a record of `size` bytes is about to be written. -/
  | writing (size : Nat) (rest : Bytes) (left : List α) (last : Bool)
  /-- What is held is written out to make room for the rest of a record. -/
  | makingRoom (size : Nat) (rest : Bytes) (left : List α) (last : Bool)
  /-- What is held is written out before the output is flushed. -/
  | flushing (last : Bool)
  | flushingOutput (last : Bool)
  /-- What is held is written out before the output is closed. -/
  | finishing
  | closingOutput
  | ended
  deriving Inhabited

end Recorder

structure Recorder (α : Type) where
  encoder : Encoder α
  intake : Intake α
  output : Channel
  held : WriteBuffer
  errors : RateLimit
  /-- The encoding of the current event, or as much of it as there was when it failed. -/
  encoded : Bytes
  /-- The time that the output waits by, in milliseconds. -/
  clock : Nat
  /-- The time that the rate limit goes by, in milliseconds. -/
  wallClock : Nat
  phase : Recorder.Phase α

namespace Recorder

variable {α : Type}

def start (name : String) (encoder : Encoder α) (plan : ChannelPlan) : Recorder α :=
  ⟨encoder, .start name .file, .start "" plan, .empty, .start name RateLimit.defaultInterval, [],
    0, 0, .starting⟩

/-! ## Callers -/

def trace (r : Recorder α) (e : α) : Recorder α :=
  match r with
  | ⟨encoder, intake, output, held, errors, encoded, clock, wallClock, phase⟩ =>
    ⟨encoder, intake.trace e, output, held, errors, encoded, clock, wallClock, phase⟩

def close (r : Recorder α) : Recorder α := { r with intake := r.intake.close }

/-- The tracer is let go of. -/
def abandon (r : Recorder α) : Recorder α := { r with intake := r.intake.abandon }

/-- Time goes on to `t`. -/
def advance (r : Recorder α) (t : Nat) : Recorder α := { r with clock := t }

def isEnded (r : Recorder α) : Bool := r.phase matches .ended

/-! ## Failures -/

/-- Reports a failure, unless there was one just before. -/
def complain (r : Recorder α) (message error : String) : Recorder α :=
  let (errors, record?) := r.errors.error r.wallClock message error
  { r with errors, intake := r.intake.logAll record?.toList }

def encodeFailed (r : Recorder α) (f : EncodeFailure) : Recorder α :=
  { r with intake := r.intake.count .encodeError }.complain "failed to encode trace event" f.message

def writeFailed (r : Recorder α) (f : Fault) : Recorder α :=
  { r with intake := r.intake.count .writeError }.complain "failed to write trace event" f.text

def flushFailed (r : Recorder α) (f : Fault) : Recorder α :=
  { r with intake := r.intake.count .writeError }.complain "failed to flush trace output" f.text

/-- A failed close is always reported. -/
def closeFailed (r : Recorder α) (f : Fault) : Recorder α :=
  { r with
    intake := (r.intake.count .writeError).report .error "failed to close trace output"
      [("error", .text f.text)] }

/-! ## Writing -/

/-- One call that writes out what is held: the recorder after it, and whether all is out. -/
def writeOut (r : Recorder α) : Recorder α × Option (Except Fault Bool) :=
  match r.output.write r.clock r.held.held with
  | (output, none) => ({ r with output }, none)
  | (output, some (.error f)) => ({ r with output }, some (.error f))
  | (output, some (.ok 0)) => ({ r with output }, some (.error .bufferedData))
  | (output, some (.ok n)) =>
    let held := r.held.drop n
    ({ r with output, held }, some (.ok held.isEmpty))

/-- The rest of the events has its turn. -/
def proceed (r : Recorder α) (left : List α) (last : Bool) : Recorder α :=
  { r with phase := .encoding left last }

/-- A record is written as far as the tracer can tell. -/
def recorded (r : Recorder α) (size : Nat) (left : List α) (last : Bool) : Recorder α :=
  { r with intake := r.intake.count (·.written 1 size) }.proceed left last

/-- Clears the buffer and has the event encoded into it: the recorder, and why the encoder failed if it
did. -/
def encode (r : Recorder α) (e : α) : Recorder α × Option EncodeFailure :=
  let r := { r with encoded := [] }
  let encoding := r.encoder e
  ({ r with encoded := r.encoded ++ encoding.appended }, encoding.failure?)

def encodeNext (r : Recorder α) (left : List α) (last : Bool) : Recorder α :=
  match left with
  | [] => { r with phase := .flushing last }
  | e :: left =>
    match r.encode e with
    | (r, some f) => (r.encodeFailed f).proceed left last
    | (r, none) => { r with phase := .writing r.encoded.length r.encoded left last }

/-- Writes the rest of a record: into the room before the output, or past it. -/
def write (r : Recorder α) (size : Nat) (rest : Bytes) (left : List α) (last : Bool) : Recorder α :=
  if rest.isEmpty then r.recorded size left last
  else match r.held.way rest with
  | .waits => { r with phase := .makingRoom size rest left last }
  | .held => { r with held := r.held.hold rest }.recorded size left last
  | .through =>
    match r.output.write r.clock rest with
    | (output, none) => { r with output }
    | (output, some (.error f)) => ({ r with output }.writeFailed f).proceed left last
    | (output, some (.ok 0)) => ({ r with output }.writeFailed .writeZero).proceed left last
    | (output, some (.ok n)) => { r with output, phase := .writing size (rest.drop n) left last }

def makeRoom (r : Recorder α) (size : Nat) (rest : Bytes) (left : List α) (last : Bool) :
    Recorder α :=
  match r.writeOut with
  | (r, none) | (r, some (.ok false)) => r
  | (r, some (.ok true)) => { r with phase := .writing size rest left last }
  | (r, some (.error f)) => (r.writeFailed f).proceed left last

/-! ## Flushing and closing -/

/-- The events that were taken are done with. -/
def endRound (r : Recorder α) (last : Bool) : Recorder α :=
  { r with phase := if last then .finishing else .waiting }

def flush (r : Recorder α) (last : Bool) : Recorder α :=
  if r.held.isEmpty then { r with phase := .flushingOutput last }
  else match r.writeOut with
  | (r, none) | (r, some (.ok _)) => r
  | (r, some (.error f)) => (r.flushFailed f).endRound last

def flushOutput (r : Recorder α) (last : Bool) : Recorder α :=
  match r.output.flush with
  | (output, .ok ()) => { r with output }.endRound last
  | (output, .error f) => ({ r with output }.flushFailed f).endRound last

/-- Reports what was done. -/
def leave (r : Recorder α) : Recorder α :=
  let t := r.intake.tally
  let number (n : UInt64) : Log.Value := .number n.toNat
  { r with
    intake := r.intake.report .info "file tracer shutting down"
      [("events_traced", number t.eventsTraced), ("events_written", number t.eventsWritten),
        ("bytes_written", number t.bytesWritten), ("encode_errors", number t.encodeErrors),
        ("write_errors", number t.writeErrors)]
    phase := .ended }

def finish (r : Recorder α) : Recorder α :=
  if r.held.isEmpty then { r with phase := .closingOutput }
  else match r.writeOut with
  | (r, none) | (r, some (.ok _)) => r
  | (r, some (.error f)) => (r.closeFailed f).leave

def closeOutput (r : Recorder α) : Recorder α :=
  match r.output.close r.clock with
  | (output, none) => { r with output }
  | (output, some (.ok ())) => { r with output }.leave
  | (output, some (.error f)) => ({ r with output }.closeFailed f).leave

/-! ## Steps -/

/-- Takes what is queued. -/
def collect (r : Recorder α) (last : Bool) : Recorder α :=
  let (intake, taken) := r.intake.swap #[]
  let r := { r with intake }
  if taken.isEmpty then r.endRound last else { r with phase := .encoding taken.toList last }

/-- A step with the output, once the output answers. -/
def onOutput (r : Recorder α) (next : Recorder α) : Option (Recorder α) :=
  if r.output.isReady r.clock then some next else none

/-- One step; none while the recorder has to wait, or has ended. -/
def work (r : Recorder α) : Option (Recorder α) :=
  match r.phase with
  | .starting =>
    some { r with intake := r.intake.report .info "file tracer starting" [], phase := .waiting }
  | .waiting =>
    match r.intake.wait with
    | (_, none) => none
    | (intake, some signal) =>
      some { r with intake, phase := .collecting (signal matches .closed) }
  | .collecting last => some (r.collect last)
  | .encoding left last => some (r.encodeNext left last)
  | .writing size rest left last => r.onOutput (r.write size rest left last)
  | .makingRoom size rest left last => r.onOutput (r.makeRoom size rest left last)
  | .flushing last => r.onOutput (r.flush last)
  | .flushingOutput last => r.onOutput (r.flushOutput last)
  | .finishing => r.onOutput r.finish
  | .closingOutput => r.onOutput r.closeOutput
  | .ended => none

/-- When the recorder goes on by itself. -/
def due (r : Recorder α) : Option Nat := r.output.due

end Recorder

end TraceRelay
