import TraceRelay.Duration
import TraceRelay.Fault

/-!
# Peers

A tracer reaches a peer over a host, which connects to it and then opens a stream to it. What can
go wrong on the way is told apart by its cause.
-/

namespace TraceRelay

/-- A peer and the addresses it can be reached at. -/
structure Target where
  peer : String
  addresses : List String
  deriving DecidableEq, Repr, Inhabited

/-- The protocol of a trace stream. -/
def traceProtocol : String := "/libp2p/pubsub/tracer/1.0.0"

/-- Why a host did not do what it was asked. -/
inductive HostFailure where
  | noAddresses (peer : String)
  | dial (address : String) (f : Fault)
  | notConnected (peer : String)
  | protocol (reason : String)
  | io (f : Fault)
  deriving DecidableEq, Repr, Inhabited

namespace HostFailure

def kind : HostFailure → String
  | noAddresses _ => "NoAddresses"
  | dial _ _ => "Dial"
  | notConnected _ => "NotConnected"
  | protocol _ => "Protocol"
  | io f => s!"Io:{f.kind.name}"

def text : HostFailure → String
  | noAddresses peer => s!"peer {peer} has no addresses"
  | dial address f => s!"failed to dial {address}: {f.text}"
  | notConnected peer => s!"not connected to peer {peer}"
  | protocol reason => s!"protocol negotiation failed: {reason}"
  | io f => s!"I/O error: {f.text}"

end HostFailure

/-- Why there is no stream to a peer. -/
inductive OpenFailure where
  | host (f : HostFailure)
  /-- An attempt took longer than it may. -/
  | timeout (limit : Duration)
  | cancelled
  /-- No further attempt is made after a close. -/
  | closed
  deriving DecidableEq, Repr, Inhabited

namespace OpenFailure

def text : OpenFailure → String
  | host f => f.text
  | timeout limit => s!"attempt timed out after {limit.text}"
  | cancelled => "cancelled"
  | closed => "closed while connecting"

def isCancelled : OpenFailure → Bool
  | cancelled => true
  | _ => false

end OpenFailure

end TraceRelay
