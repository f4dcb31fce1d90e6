import TraceRelay.Channel
import TraceRelay.Peer

/-!
# The net around a tracer

What a tracer finds on the other side of its host, on a clock of milliseconds: how each call is
answered and when, the streams that were opened, and a record of all calls.
-/

namespace TraceRelay

/-- An answer to a call: how long it takes, and what it is; a call without one hangs. -/
structure Reaction (α : Type) where
  delay : Nat
  answer? : Option (Except HostFailure α)
  deriving Inhabited

inductive Call where
  | connect (t : Nat) (target : Target)
  | newStream (t : Nat) (peer protocol : String)
  /-- A stream, by its number, is closed. -/
  | close (stream : Nat)
  | reset (stream : Nat)
  deriving DecidableEq, Repr

structure Net where
  clock : Nat
  connects : Plan (Reaction Unit)
  streams : Plan (Reaction ChannelPlan)
  calls : Array Call
  channels : Array Channel
  deriving Inhabited

namespace Net

/-- A net in which nothing has happened. -/
def start (connects : Plan (Reaction Unit)) (streams : Plan (Reaction ChannelPlan)) : Net :=
  ⟨0, connects, streams, #[], #[]⟩

/-- A connect begins. -/
def connect (n : Net) (target : Target) : Net × Reaction Unit :=
  let (reaction, connects) := n.connects.next
  ({ n with connects, calls := n.calls.push (.connect n.clock target) }, reaction)

/-- The opening of a stream begins. -/
def newStream (n : Net) (peer protocol : String) : Net × Reaction ChannelPlan :=
  let (reaction, streams) := n.streams.next
  ({ n with streams, calls := n.calls.push (.newStream n.clock peer protocol) }, reaction)

/-- A stream has been opened. -/
def addChannel (n : Net) (protocol : String) (plan : ChannelPlan) : Net × Nat :=
  ({ n with channels := n.channels.push (.start protocol plan) }, n.channels.size)

/-- Stream number `i`; one that was never opened has no use. -/
def channel (n : Net) (i : Nat) : Channel := n.channels.getD i default

def setChannel (n : Net) (i : Nat) (c : Channel) : Net :=
  { n with channels := n.channels.setIfInBounds i c }

/-- Whether stream `i` answers now. -/
def isReady (n : Net) (i : Nat) : Bool := (n.channel i).isReady n.clock

def write (n : Net) (i : Nat) (data : Bytes) : Net × Option (Except Fault Nat) :=
  let (c, result) := (n.channel i).write n.clock data
  (n.setChannel i c, result)

def flush (n : Net) (i : Nat) : Net × Except Fault Unit :=
  let (c, result) := (n.channel i).flush
  (n.setChannel i c, result)

/-- Notes that a stream is closed from now on. -/
def startClose (n : Net) (i : Nat) : Net := { n with calls := n.calls.push (.close i) }

def close (n : Net) (i : Nat) : Net × Option (Except Fault Unit) :=
  let (c, result) := (n.channel i).close n.clock
  (n.setChannel i c, result)

def reset (n : Net) (i : Nat) : Net :=
  let n := n.setChannel i (n.channel i).reset
  { n with calls := n.calls.push (.reset i) }

end Net

end TraceRelay
