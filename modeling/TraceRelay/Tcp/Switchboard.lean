import TraceRelay.Tcp.Dialer

/-!
# Callers of one dialer

A dialer may have several callers. Each asks it for a connection to its target and, once it is told that
there is one, for a stream. While a caller waits, for an address to be reached or for the header of its
stream to be taken, the others go on; what it does in between is one step.
-/

namespace TraceRelay.Tcp

/-- How far a caller has got. -/
inductive Stage where
  /-- It is about to ask for a connection. -/
  | asking
  /-- It dials: the addresses that are left, and what has failed if none of them is reached. -/
  | dialing (left : List String) (failure : HostFailure)
  /-- It has been told that there is a connection, and is about to ask for a stream. -/
  | connected
  /-- It has taken a connection, and writes the header of its stream. -/
  | greeting
  | streaming
  | failed (f : HostFailure)
  deriving DecidableEq, Repr, Inhabited

structure Caller where
  target : Target
  stage : Stage
  /-- Whether a connection to its peer was parked already when it asked for one. -/
  found : Bool
  /-- The connection that it has made and parked. -/
  made? : Option Nat
  /-- The connection that it has taken. -/
  taken? : Option Nat
  deriving DecidableEq, Repr, Inhabited

/-- What a caller that waits gets to know. -/
structure Answer where
  /-- Whether an address is reached. -/
  reach : String → Except Fault Unit
  /-- Whether a header is taken. -/
  greet : Except Fault Unit

namespace Caller

def start (target : Target) : Caller := ⟨target, .asking, false, none, none⟩

/-- What has become of a caller, and of the dialer, after a step. -/
structure Turn where
  caller : Caller
  dialer : Dialer
  /-- Connections, with their peer, that are closed unused, as another is parked. -/
  dropped : List (String × Nat)
  records : List Log.Record

/-- One step of a caller; none if nothing is left to do. -/
def step (c : Caller) (d : Dialer) (a : Answer) : Option Turn :=
  let peer := c.target.peer
  match c.stage with
  | .asking =>
    if (d.parked.lookup peer).isSome then some ⟨{ c with stage := .connected, found := true }, d, [], []⟩
    else some ⟨{ c with stage := .dialing c.target.addresses (.noAddresses peer) }, d, [], []⟩
  | .dialing [] failure => some ⟨{ c with stage := .failed failure }, d, [], []⟩
  | .dialing (address :: left) _ =>
    match a.reach address with
    | .ok () =>
      some ⟨{ c with stage := .connected, made? := some d.dialed }, d.park peer,
        d.heldFor peer, [Dialer.reached peer address]⟩
    | .error f =>
      some ⟨{ c with stage := .dialing left (.dial address f) }, d, [], [Dialer.missed peer address f]⟩
  | .connected =>
    match d.newStream peer with
    | (.ok i, d) => some ⟨{ c with stage := .greeting, taken? := some i }, d, [], []⟩
    | (.error f, d) => some ⟨{ c with stage := .failed f }, d, [], []⟩
  | .greeting =>
    match a.greet with
    | .ok () => some ⟨{ c with stage := .streaming }, d, [], []⟩
    | .error f => some ⟨{ c with stage := .failed (.io f) }, d, [], []⟩
  | .streaming | .failed _ => none

end Caller

/-- A dialer and its callers. -/
structure Switchboard where
  dialer : Dialer
  callers : List Caller
  /-- Connections, with their peer, that were closed unused. -/
  dropped : List (String × Nat)
  journal : List Log.Record

namespace Switchboard

def start (settings : Settings) (targets : List Target) : Switchboard :=
  ⟨.start settings, targets.map .start, [], []⟩

/-- A step of caller `k`, with the answer to what it waits for. -/
def move (s : Switchboard) (k : Nat) (a : Answer) : Option Switchboard := do
  let c ← s.callers[k]?
  let turn ← c.step s.dialer a
  return {
    dialer := turn.dialer
    callers := s.callers.set k turn.caller
    dropped := s.dropped ++ turn.dropped
    journal := s.journal ++ turn.records }

end Switchboard

end TraceRelay.Tcp
