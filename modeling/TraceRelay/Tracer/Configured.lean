import TraceRelay.Delivery
import TraceRelay.Recorder.File
import TraceRelay.Text.Quoted
import TraceRelay.Tracer.Group

/-!
# Tracers of a configuration

The tracers that a configuration enables: a file of JSON lines, a file of messages, and a remote
one, in this order. If one of them cannot be started, the rest is not.
-/

namespace TraceRelay.Tracer

/-- The write loop of a configured tracer. -/
inductive Member where
  | file (r : FileRecorder Event)
  | remote (c : Courier Event)

namespace Member

/-- Changes the loop that is there. -/
def onLoop (onFile : Recorder Event → Recorder Event) (onRemote : Courier Event → Courier Event) :
    Member → Member
  | file r => file { r with recorder := onFile r.recorder }
  | remote c => remote (onRemote c)

/-- Looks at the loop that is there. -/
def view {β : Type} (ofFile : Recorder Event → β) (ofRemote : Courier Event → β) : Member → β
  | file r => ofFile r.recorder
  | remote c => ofRemote c

def step : Member → Option Member
  | file r => (Clocked.step r.recorder).map fun recorder => file { r with recorder }
  | remote c => (Clocked.step c).map remote

instance : WriteLoop Member Event where
  now := view Clocked.now Clocked.now
  advance m t := m.onLoop (Clocked.advance · t) (Clocked.advance · t)
  step := step
  due := view Clocked.due Clocked.due
  trace m e := m.onLoop (WriteLoop.trace · e) (WriteLoop.trace · e)
  close := onLoop WriteLoop.close WriteLoop.close
  abandon := onLoop WriteLoop.abandon WriteLoop.abandon
  cancel := onLoop WriteLoop.cancel WriteLoop.cancel
  isEnded := view WriteLoop.isEnded WriteLoop.isEnded
  name := view WriteLoop.name WriteLoop.name
  tally := view WriteLoop.tally WriteLoop.tally
  isClosed := view WriteLoop.isClosed WriteLoop.isClosed

def journal : Member → Array Log.Record := view (·.intake.journal) (·.intake.journal)

/-- The net that a remote tracer has found. -/
def net? : Member → Option Net
  | file _ => none
  | remote c => some c.net

/-- The storage with all that a file tracer has written. -/
def store (s : Storage) : Member → Storage
  | file r => r.store s
  | remote _ => s

end Member

/-- What came of the attempt to start some tracers. -/
structure Start where
  storage : Storage
  /-- Those that were started, in order. -/
  members : List Member
  failure? : Option Failure

namespace Start

/-- One file tracer more, unless the attempt has failed. -/
def file (s : Start) (t? : Option Config.FileTracer) (encoder : Encoder Event) : Start :=
  match s.failure?, t?.filter (·.enabled) with
  | none, some t =>
    match FileRecorder.start true s.storage t.path t.append encoder with
    | .error f => { s with failure? := some f }
    | .ok (r, storage) => { s with storage, members := s.members ++ [.file r] }
  | _, _ => s

/-- A remote tracer more, unless the attempt has failed. -/
def remote (s : Start) (t? : Option Config.RemoteTracer) (net : Net) (cancelled : Bool) : Start :=
  match s.failure?, t?.filter (·.enabled) with
  | none, some t =>
    if t.addresses = [] then
      { s with
        failure? := some (.settings s!"remote tracer for peer '{t.peer}' has no addresses") }
    else { s with members := s.members ++ [.remote (t.delivery.courier t.target net cancelled)] }
  | _, _ => s

/-- Starts the tracers of a configuration; `runtime` says whether anything would run them. -/
def ofConfig (runtime : Bool) (c : Config.Tracers) (storage : Storage) (net : Net)
    (cancelled : Bool) : Start :=
  if !runtime then ⟨storage, [], some .noRuntime⟩
  else
    (((Start.mk storage [] none).file c.json? .jsonLines).file c.protobuf? .delimited).remote
      c.remote? net cancelled

/-- The report of a start that has not failed. -/
def report (s : Start) (c : Config.Tracers) : List Log.Record :=
  if s.failure?.isSome then []
  else [⟨.info, .set, "tracers started", [("tracers", .text (Text.Quoted.list c.enabled))]⟩]

end Start

end TraceRelay.Tracer
