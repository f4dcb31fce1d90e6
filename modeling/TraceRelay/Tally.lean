/-!
# Counters

What a tracer, and a collector, count. Counters are words and wrap.
-/

namespace TraceRelay

/-- The counters of one tracer. -/
structure Tally where
  eventsTraced : UInt64
  eventsDropped : UInt64
  eventsWritten : UInt64
  bytesWritten : UInt64
  encodeErrors : UInt64
  writeErrors : UInt64
  batchesSent : UInt64
  batchesFailed : UInt64
  reconnects : UInt64
  connectFailures : UInt64
  deriving DecidableEq, Repr

namespace Tally

def zero : Tally := ⟨0, 0, 0, 0, 0, 0, 0, 0, 0, 0⟩

instance : Inhabited Tally := ⟨zero⟩

def traced (t : Tally) : Tally := { t with eventsTraced := t.eventsTraced + 1 }

def dropped (t : Tally) : Tally := { t with eventsDropped := t.eventsDropped + 1 }

/-- Queued events that will never be delivered. -/
def abandoned (t : Tally) (events : Nat) : Tally :=
  { t with eventsDropped := t.eventsDropped + events.toUInt64 }

def written (t : Tally) (events bytes : Nat) : Tally :=
  { t with
    eventsWritten := t.eventsWritten + events.toUInt64
    bytesWritten := t.bytesWritten + bytes.toUInt64 }

def encodeError (t : Tally) : Tally := { t with encodeErrors := t.encodeErrors + 1 }

def writeError (t : Tally) : Tally := { t with writeErrors := t.writeErrors + 1 }

def batchSent (t : Tally) (events bytes : Nat) : Tally :=
  { t.written events bytes with batchesSent := t.batchesSent + 1 }

def batchFailed (t : Tally) : Tally := { t with batchesFailed := t.batchesFailed + 1 }

def reconnect (t : Tally) : Tally := { t with reconnects := t.reconnects + 1 }

def connectFailure (t : Tally) : Tally := { t with connectFailures := t.connectFailures + 1 }

end Tally

/-- The counters of a collector that are its own; those of its output are a `Tally`. -/
structure Census where
  opened : UInt64
  active : UInt64
  rejected : UInt64
  errors : UInt64
  batches : UInt64
  events : UInt64
  deriving DecidableEq, Repr

namespace Census

def zero : Census := ⟨0, 0, 0, 0, 0, 0⟩

instance : Inhabited Census := ⟨zero⟩

def connectionOpened (c : Census) : Census :=
  { c with opened := c.opened + 1, active := c.active + 1 }

def connectionClosed (c : Census) : Census := { c with active := c.active - 1 }

def streamRejected (c : Census) : Census := { c with rejected := c.rejected + 1 }

def streamError (c : Census) : Census := { c with errors := c.errors + 1 }

def batchReceived (c : Census) (events : Nat) : Census :=
  { c with batches := c.batches + 1, events := c.events + events.toUInt64 }

end Census

end TraceRelay
