import TraceRelay.Recorder
import TraceRelay.Storage
import TraceRelay.Tracer.Failure
import TraceRelay.Tracer.Group

/-!
# Recorders on files

A recorder that writes to a file in a storage. Files take whatever is written to them, unless a plan
says otherwise.
-/

namespace TraceRelay

/-- A recorder and the file it writes to. -/
structure FileRecorder (α : Type) where
  file : Storage.File
  recorder : Recorder α

namespace FileRecorder

variable {α : Type}

/-- A recorder on a file that has just been opened. -/
def ofFile (path : String) (file : Storage.File) (encoder : Encoder α) (plan : ChannelPlan := {}) :
    FileRecorder α :=
  let recorder := Recorder.start path encoder plan
  let opened : Log.Record := ⟨.debug, .file, "opened trace file", [("path", .text path)]⟩
  ⟨file, { recorder with intake := recorder.intake.log opened }⟩

/-- Opens a file and starts a recorder on it. Where nothing would run the recorder, no file is
touched. -/
def start (runtime : Bool) (s : Storage) (path : String) (append : Bool) (encoder : Encoder α)
    (plan : ChannelPlan := {}) : Except Tracer.Failure (FileRecorder α × Storage) :=
  if !runtime then .error .noRuntime
  else match s.openFile path append with
  | .error f => .error (.unopened path f)
  | .ok (file, s) => .ok (ofFile path file encoder plan, s)

/-- The storage with all that the recorder has written. -/
def store (r : FileRecorder α) (s : Storage) : Storage :=
  (s.write r.file r.recorder.output.accepted).1

/-- A whole life: events, a close if asked for, more events, and a shutdown. -/
def session (r : FileRecorder α) (events : List α) (close : Bool) (late : List α) : FileRecorder α :=
  let orders := [.trace events] ++ (if close then [.close] else []) ++ [.trace late, .shutdown]
  let (g, _) := (Tracer.Group.ofLoops [r.recorder]).followAll orders
  { r with recorder := (g.members.head?.map (·.loop)).getD r.recorder }

end FileRecorder

end TraceRelay
