import TraceRelay.Bytes
import TraceRelay.Fault
import TraceRelay.Plan

/-!
# Channels

A channel takes bytes from a write loop and keeps those that it accepted. What it does with each
call is set by a plan: a write may be taken whole, in part or not at all, may fail, wait or hang.
While a channel waits, its writer waits with it.
-/

namespace TraceRelay

inductive WriteTurn where
  | takes
  /-- Takes at most `n` bytes. -/
  | upTo (n : Nat)
  | fails (f : Fault)
  /-- Makes the writer wait, and goes on with the next turn. -/
  | waits (ms : Nat)
  | hangs
  deriving DecidableEq, Repr, Inhabited

inductive EndTurn where
  | succeeds
  | fails (f : Fault)
  /-- Succeeds after a wait. -/
  | waits (ms : Nat)
  deriving DecidableEq, Repr, Inhabited

structure ChannelPlan where
  writes : Plan WriteTurn := .always .takes
  flushes : Plan (Option Fault) := .always none
  closes : Plan EndTurn := .always .succeeds
  deriving DecidableEq, Repr, Inhabited

/-- How a channel ended, if it has. -/
inductive Outcome where
  | live
  | closed
  | closeFailed
  | reset
  deriving DecidableEq, Repr, Inhabited

/-- Until when a channel does nothing. -/
inductive Pause where
  | ready
  | until (t : Nat)
  | forever
  deriving DecidableEq, Repr, Inhabited

structure Channel where
  protocol : String
  plan : ChannelPlan
  pause : Pause
  accepted : Bytes
  /-- Writes that came to an end, and flushes. -/
  writes : Nat
  flushes : Nat
  outcome : Outcome
  deriving Repr, Inhabited

namespace Channel

def start (protocol : String) (plan : ChannelPlan) : Channel :=
  ⟨protocol, plan, .ready, [], 0, 0, .live⟩

/-- Whether a channel answers at `now`. -/
def isReady (c : Channel) (now : Nat) : Bool :=
  match c.pause with
  | .ready => true
  | .until t => t ≤ now
  | .forever => false

/-- When a channel that waits goes on. -/
def due (c : Channel) : Option Nat :=
  match c.pause with
  | .until t => some t
  | _ => none

/-- Accepts the first `n` bytes of a write. -/
def accept (c : Channel) (data : Bytes) (n : Nat) : Channel :=
  { c with accepted := c.accepted ++ data.take n, writes := c.writes + 1 }

/-- One turn of a write at `now`: how many bytes were accepted, or none if the writer has to
wait. -/
def write (c : Channel) (now : Nat) (data : Bytes) : Channel × Option (Except Fault Nat) :=
  let (turn, writes) := c.plan.writes.next
  let c := { c with plan := { c.plan with writes }, pause := .ready }
  match turn with
  | .takes => (c.accept data data.length, some (.ok data.length))
  | .upTo n => (c.accept data (min n data.length), some (.ok (min n data.length)))
  | .fails f => (c.accept data 0, some (.error f))
  | .waits ms => ({ c with pause := .until (now + ms) }, none)
  | .hangs => ({ c with pause := .forever }, none)

def flush (c : Channel) : Channel × Except Fault Unit :=
  let (fault?, flushes) := c.plan.flushes.next
  let c := { c with plan := { c.plan with flushes }, flushes := c.flushes + 1, pause := .ready }
  match fault? with
  | none => (c, .ok ())
  | some f => (c, .error f)

/-- One turn of a close at `now`, or none if the closer has to wait. -/
def close (c : Channel) (now : Nat) : Channel × Option (Except Fault Unit) :=
  let (turn, closes) := c.plan.closes.next
  let c := { c with plan := { c.plan with closes }, pause := .ready }
  match turn with
  | .succeeds => ({ c with outcome := .closed }, some (.ok ()))
  | .fails f => ({ c with outcome := .closeFailed }, some (.error f))
  | .waits ms =>
    ({ c with plan := { c.plan with closes := closes.first .succeeds }, pause := .until (now + ms) },
      none)

def reset (c : Channel) : Channel := { c with outcome := .reset }

end Channel

end TraceRelay
