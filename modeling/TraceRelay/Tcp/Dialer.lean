import TraceRelay.Log
import TraceRelay.Peer
import TraceRelay.Tcp
import TraceRelay.Tcp.Network

/-!
# Streams over TCP

A dialer connects to the first of a peer's addresses that can be reached, and parks the connection.
Opening a stream to the peer takes the parked connection away, so that each stream has one of its
own. A peer with a parked connection is not dialed again.
-/

namespace TraceRelay.Tcp

structure Dialer where
  settings : Settings
  /-- Peers with a connection that waits for its stream, and the number of that connection. -/
  parked : List (String × Nat)
  /-- Connections made so far. -/
  dialed : Nat
  deriving Repr, Inhabited

namespace Dialer

def start (settings : Settings) : Dialer := ⟨settings, [], 0⟩

/-- An address of a peer was reached. -/
def reached (peer address : String) : Log.Record :=
  ⟨.debug, .tcp, "connected to peer", [("peer", .text peer), ("addr", .text address)]⟩

/-- An address of a peer could not be reached. -/
def missed (peer address : String) (f : Fault) : Log.Record :=
  ⟨.debug, .tcp, "dial failed",
    [("peer", .text peer), ("addr", .text address), ("error", .text f.text)]⟩

/-- Dials addresses in turn until one is reached, and reports each. The failure of the last counts. -/
def dialAny (network : Network) (resolve : String → Except Fault Address) (peer : String)
    (failure : HostFailure) : List String → Except HostFailure Unit × List Log.Record
  | [] => (.error failure, [])
  | address :: rest =>
    match resolve address >>= network.dial with
    | .ok () => (.ok (), [reached peer address])
    | .error f =>
      let (result, records) := dialAny network resolve peer (.dial address f) rest
      (result, missed peer address f :: records)

/-- What is parked for a peer. -/
def heldFor (d : Dialer) (peer : String) : List (String × Nat) := d.parked.filter (·.1 = peer)

/-- What is parked for other peers. -/
def heldBeside (d : Dialer) (peer : String) : List (String × Nat) := d.parked.filter (·.1 ≠ peer)

/-- Parks a new connection to a peer. -/
def park (d : Dialer) (peer : String) : Dialer :=
  { d with parked := (peer, d.dialed) :: d.heldBeside peer, dialed := d.dialed + 1 }

/-- Sees to it that a connection to a peer is parked. -/
def connect (d : Dialer) (network : Network) (resolve : String → Except Fault Address)
    (target : Target) : Except HostFailure Unit × Dialer × List Log.Record :=
  if (d.parked.lookup target.peer).isSome then (.ok (), d, [])
  else
    match dialAny network resolve target.peer (.noAddresses target.peer) target.addresses with
    | (.ok (), records) => (.ok (), d.park target.peer, records)
    | (.error f, records) => (.error f, d, records)

/-- The connection for a stream to a peer. -/
def newStream (d : Dialer) (peer : String) : Except HostFailure Nat × Dialer :=
  match d.parked.lookup peer with
  | none => (.error (.notConnected peer), d)
  | some i => (.ok i, { d with parked := d.heldBeside peer })

end Dialer

end TraceRelay.Tcp
