import TraceRelay.Buffer
import TraceRelay.Log
import TraceRelay.Tally

/-!
# The side of a tracer that faces its callers

An event is put into the buffer and counted, or, after the close, only counted as dropped. No call
waits. The write loop behind the buffer counts and reports through the same intake.
-/

namespace TraceRelay

structure Intake (α : Type) where
  name : String
  /-- The part of the relay whose write loop this is. -/
  part : Log.Part
  buffer : Buffer α
  tally : Tally
  journal : Array Log.Record
  deriving Inhabited

namespace Intake

variable {α : Type}

def start (name : String) (part : Log.Part) : Intake α := ⟨name, part, .empty, .zero, #[]⟩

def log (k : Intake α) (r : Log.Record) : Intake α := { k with journal := k.journal.push r }

def logAll (k : Intake α) (rs : List Log.Record) : Intake α := rs.foldl log k

/-- Reports by the write loop, under the name of the tracer. -/
def report (k : Intake α) (level : Log.Level) (message : String)
    (fields : List (String × Log.Value)) : Intake α :=
  k.log ⟨level, k.part, message, ("sink", .text k.name) :: fields⟩

def count (k : Intake α) (f : Tally → Tally) : Intake α := { k with tally := f k.tally }

def trace (k : Intake α) (e : α) : Intake α :=
  match k with
  | ⟨name, part, buffer, tally, journal⟩ =>
    match buffer.push e with
    | (buffer, true) => ⟨name, part, buffer, tally.traced, journal⟩
    | (buffer, false) =>
      ⟨name, part, buffer, tally.dropped,
        journal.push ⟨.trace, .handle, "dropped event traced after close", [("sink", .text name)]⟩⟩

/-- Refuses events from now on. The first close is reported. -/
def close (k : Intake α) : Intake α :=
  match k.buffer.close with
  | (buffer, true) =>
    { k with buffer }.log ⟨.debug, .handle, "tracer closed", [("sink", .text k.name)]⟩
  | (buffer, false) => { k with buffer }

/-- Refuses events from now on, without a report. -/
def abandon (k : Intake α) : Intake α := { k with buffer := k.buffer.close.1 }

/-- What the write loop sees when it waits. -/
def wait (k : Intake α) : Intake α × Option Signal :=
  let (buffer, signal?) := k.buffer.wait
  ({ k with buffer }, signal?)

/-- Takes every event of the buffer, in exchange for a used vector. -/
def swap (k : Intake α) (scratch : Array α) : Intake α × Array α :=
  let (buffer, taken) := k.buffer.swap scratch
  ({ k with buffer }, taken)

end Intake

end TraceRelay
