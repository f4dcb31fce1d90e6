import TraceRelay.Config
import TraceRelay.Courier

/-!
# Settings of a remote tracer

How a remote tracer delivers its events, apart from the peer it delivers them to.
-/

namespace TraceRelay

structure Delivery where
  name : String := "remote"
  protocol : String := traceProtocol
  compressionLevel : Nat := 6
  batchWindow : Duration := .ofSeconds 1
  attemptTimeout : Duration := .ofSeconds 60
  retryInterval : Duration := .ofSeconds 60
  deriving DecidableEq, Repr, Inhabited

namespace Delivery

/-- The connector of a tracer. -/
def connector (d : Delivery) (target : Target) : Connector :=
  ⟨d.name, target, d.protocol, d.attemptTimeout, d.retryInterval⟩

/-- The write loop of a tracer, before its first step. -/
def courier {α : Type} (d : Delivery) (target : Target) (net : Net) (cancelled : Bool) : Courier α :=
  .start (d.connector target) d.batchWindow .stored d.compressionLevel net cancelled

end Delivery

namespace Config.RemoteTracer

/-- The settings that a configuration gives. -/
def delivery (t : RemoteTracer) : Delivery :=
  { compressionLevel := t.compressionLevel
    batchWindow := t.batchWindow
    attemptTimeout := t.attemptTimeout
    retryInterval := t.retryInterval }

def target (t : RemoteTracer) : Target := ⟨t.peer, t.addresses⟩

end Config.RemoteTracer

end TraceRelay
