import TraceRelay.Frame
import TraceRelay.Peer
import TraceRelay.Tracer.Failure

/-!
# What goes wrong in a collector

A collector that does not start has no address or no output. A stream that fails has a header that
cannot be read, is of another protocol, or carries what cannot be decoded.
-/

namespace TraceRelay.Collector

inductive Failure where
  | unbound (address : String) (f : Fault)
  | output (f : Tracer.Failure)
  | unsupportedProtocol (protocol : String)
  | header (f : HostFailure)
  | decode (f : DecodeFailure)
  | io (f : Fault)
  deriving DecidableEq, Repr

namespace Failure

def text : Failure → String
  | unbound address f => s!"failed to bind {address}: {f.text}"
  | output f => f.text
  | unsupportedProtocol protocol => s!"unsupported protocol '{protocol}'"
  | header f => f.text
  | decode f => f.text
  | io f => s!"I/O error: {f.text}"

/-- The kind of a failure to start. -/
def kind : Failure → String
  | output f => f.kind
  | _ => "Bind"

end Failure

end TraceRelay.Collector
