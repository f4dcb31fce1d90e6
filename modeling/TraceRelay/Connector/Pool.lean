import TraceRelay.Clocked
import TraceRelay.Connector

/-!
# Several openings of one connector

Openings that are under way share the connector, its cancellation and its order to stop. Those that
go on at the same instant do so in the order in which they began to wait.
-/

namespace TraceRelay.Connector

/-- An opening that is over: its number, the time, and how it ended. -/
structure Ended where
  number : Nat
  time : Nat
  result : Except OpenFailure Nat

structure Pool where
  connector : Connector
  net : Net
  cancelled : Bool
  stopped : Bool
  /-- Failed attempts. -/
  failures : Nat
  /-- How many openings there have been. -/
  begun : Nat
  /-- Those under way, by number, in the order in which they go on. -/
  openings : List (Nat × Opening)
  ended : Array Ended
  journal : Array Log.Record

namespace Pool

def start (connector : Connector) (net : Net) : Pool :=
  ⟨connector, net, false, false, 0, 0, [], #[], #[]⟩

/-- An opening begins. -/
def begin (p : Pool) : Pool :=
  { p with begun := p.begun + 1, openings := p.openings ++ [(p.begun, .start)] }

def cancel (p : Pool) : Pool := { p with cancelled := true }

def stop (p : Pool) : Pool := { p with stopped := true }

def stepOf (p : Pool) (o : Opening) : Option Opening.Turn :=
  p.connector.step p.cancelled p.stopped p.net o

/-- The step of opening `number`, which stood between others, has been made. -/
def accept (p : Pool) (before : List (Nat × Opening)) (number : Nat) (turn : Opening.Turn)
    (after : List (Nat × Opening)) : Pool :=
  let p := { p with
    net := turn.net
    failures := if turn.counted then p.failures + 1 else p.failures
    journal := p.journal ++ turn.records.toArray }
  match turn.opening.result? with
  | some result =>
    { p with openings := before ++ after, ended := p.ended.push ⟨number, p.net.clock, result⟩ }
  | none =>
    if (p.stepOf turn.opening).isSome then
      { p with openings := before ++ (number, turn.opening) :: after }
    else { p with openings := before ++ after ++ [(number, turn.opening)] }

/-- One step of the first opening that can make one; those in `before` cannot. -/
def stepFrom (p : Pool) (before : List (Nat × Opening)) : List (Nat × Opening) → Option Pool
  | [] => none
  | (number, o) :: after =>
    match p.stepOf o with
    | some turn => some (p.accept before number turn after)
    | none => p.stepFrom (before ++ [(number, o)]) after

instance : Clocked Pool where
  now p := p.net.clock
  advance p t := { p with net := { p.net with clock := t } }
  step p := p.stepFrom [] p.openings
  due p := (p.openings.filterMap (·.2.due)).min?

end Pool

end TraceRelay.Connector
