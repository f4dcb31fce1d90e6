import TraceRelay.Log
import TraceRelay.Net

/-!
# Opening a stream

A connector connects to a peer and opens a stream to it, again and again until it has one. After a
failed attempt it rests, and at the end of the rest starts over with a connect. An attempt that takes too
long has failed.

* A cancellation ends the opening, whatever else is ready.
* Once told to stop, it makes no rest: an attempt under way may still succeed, a failed one is the
  last.

`Connector.step` does one step of one opening. Steps of several openings may be mixed.
-/

namespace TraceRelay

structure Connector where
  name : String
  target : Target
  protocol : String
  attemptTimeout : Duration
  retryInterval : Duration
  deriving DecidableEq, Repr, Inhabited

/-- What an attempt is for. -/
inductive Errand where
  | connect
  | stream
  deriving DecidableEq, Repr

/-- What a host gives in the end. -/
inductive Answer where
  | connected
  | stream (plan : ChannelPlan)
  | refused (f : HostFailure)
  deriving Inhabited

/-- Where an opening has got to. -/
inductive Opening where
  /-- The next attempt is about to be made: the very first one, or a stream once connected. -/
  | ready (errand : Errand)
  /-- An attempt is under way, until `deadline`; the answer comes at a time, or never. -/
  | calling (errand : Errand) (deadline : Nat) (answer? : Option (Nat × Answer))
  | failed (errand : Errand) (e : OpenFailure)
  | resting (deadline : Nat)
  | opened (stream : Nat)
  | gaveUp (e : OpenFailure)
  deriving Inhabited

/-- What one step of an opening leads to. -/
structure Opening.Turn where
  opening : Opening
  net : Net
  /-- Whether a failed attempt was counted. -/
  counted : Bool
  records : List Log.Record

namespace Opening

def start : Opening := .ready .connect

/-- When an opening goes on by itself. -/
def due : Opening → Option Nat
  | calling _ deadline (some (t, _)) => some (min deadline t)
  | calling _ deadline none => some deadline
  | resting deadline => some deadline
  | _ => none

/-- How an opening has ended. -/
def result? : Opening → Option (Except OpenFailure Nat)
  | opened i => some (.ok i)
  | gaveUp e => some (.error e)
  | _ => none

end Opening

namespace Connector

def errandText : Errand → String
  | .connect => "connect to peer"
  | .stream => "open trace stream"

def record (c : Connector) (level : Log.Level) (message : String)
    (fields : List (String × Log.Value)) : Log.Record :=
  ⟨level, .connect, message,
    [("sink", .text c.name), ("peer", .text c.target.peer)] ++ fields⟩

/-- The answer of a reaction, from the time at which the call was made. -/
def answerAt {α : Type} (t : Nat) (r : Reaction α) (given : α → Answer) : Option (Nat × Answer) :=
  r.answer?.map fun answer =>
    (t + r.delay, match answer with
      | .ok a => given a
      | .error f => .refused f)

/-- Makes a call. -/
def call (c : Connector) (net : Net) (errand : Errand) : Net × Opening :=
  let deadline := net.clock + c.attemptTimeout.ticks
  match errand with
  | .connect =>
    let (after, reaction) := net.connect c.target
    (after, .calling errand deadline (answerAt net.clock reaction fun _ => .connected))
  | .stream =>
    let (after, reaction) := net.newStream c.target.peer c.protocol
    (after, .calling errand deadline (answerAt net.clock reaction .stream))

/-- What an answer leads to. -/
def settle (c : Connector) (net : Net) (errand : Errand) : Answer → Opening.Turn
  | .connected => ⟨.ready .stream, net, false, []⟩
  | .stream plan =>
    let (net, i) := net.addChannel c.protocol plan
    ⟨.opened i, net, false, [c.record .debug "opened trace stream" [("protocol", .text c.protocol)]]⟩
  | .refused f => ⟨.failed errand (.host f), net, false, []⟩

/-- After a failed attempt: a rest, or the end if told to stop. -/
def retreat (c : Connector) (stopped : Bool) (net : Net) (errand : Errand) (e : OpenFailure) :
    Opening.Turn :=
  if stopped then
    ⟨.gaveUp .closed, net, true,
      [c.record .warn s!"failed to {errandText errand}, not retrying after close"
        [("error", .text e.text)]]⟩
  else
    ⟨.resting (net.clock + c.retryInterval.ticks), net, true,
      [c.record .warn s!"failed to {errandText errand}, will retry"
        [("error", .text e.text), ("retry_in_ms", .number (c.retryInterval.millis % UInt64.size))]]⟩

/-- One step of an opening; none while it has to wait, or is over. -/
def step (c : Connector) (cancelled stopped : Bool) (net : Net) (o : Opening) :
    Option Opening.Turn :=
  match o with
  | .opened _ | .gaveUp _ => none
  | o =>
    if cancelled then some ⟨.gaveUp .cancelled, net, false, []⟩
    else match o with
    | .ready errand =>
      let (net, o) := c.call net errand
      some ⟨o, net, false, []⟩
    | .calling errand deadline answer? =>
      match answer?.filter (·.1 ≤ net.clock) with
      | some (_, answer) => some (c.settle net errand answer)
      | none =>
        if deadline ≤ net.clock then
          some ⟨.failed errand (.timeout c.attemptTimeout), net, false, []⟩
        else none
    | .failed errand e => some (c.retreat stopped net errand e)
    | .resting deadline =>
      if stopped then some ⟨.gaveUp .closed, net, false, []⟩
      else if deadline ≤ net.clock then
        -- the end of the rest and the call are one step: no order is looked at in between
        let (net, o) := c.call net .connect
        some ⟨o, net, false, []⟩
      else none
    | _ => none

end Connector

end TraceRelay
