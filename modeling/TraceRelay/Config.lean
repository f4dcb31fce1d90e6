import TraceRelay.Duration
import TraceRelay.Frame
import TraceRelay.Log

/-!
# Configuration

What a user can set: the log of the program, the tracers of the traced engine, and the collector.
Everything has a default; a tracer is configured if its section is there, and enabled unless the
section says otherwise.
-/

namespace TraceRelay

namespace Config

inductive LogFormat where
  /-- Lines for people. -/
  | console
  /-- One JSON object a record. -/
  | json
  deriving DecidableEq, Repr, Inhabited

inductive LogOutput where
  | stdout
  | stderr
  /-- Appended to a file. -/
  | file (path : String)
  deriving DecidableEq, Repr, Inhabited

structure Logging where
  level : Log.Level := .info
  format : LogFormat := .console
  output : LogOutput := .stdout
  deriving DecidableEq, Repr, Inhabited

/-- A tracer that writes a file. -/
structure FileTracer where
  enabled : Bool := true
  path : String := ""
  append : Bool := false
  deriving DecidableEq, Repr, Inhabited

/-- A tracer that sends to a collector. -/
structure RemoteTracer where
  enabled : Bool := true
  peer : String := ""
  addresses : List String := []
  /-- How long events gather after a wake before they are sent. -/
  batchWindow : Duration := .ofSeconds 1
  attemptTimeout : Duration := .ofSeconds 60
  retryInterval : Duration := .ofSeconds 60
  compressionLevel : Nat := 6
  deriving DecidableEq, Repr, Inhabited

structure Tracers where
  json? : Option FileTracer := none
  protobuf? : Option FileTracer := none
  remote? : Option RemoteTracer := none
  deriving DecidableEq, Repr, Inhabited

structure Collector where
  listen : String := "0.0.0.0:4001"
  output : String := "traces.pb"
  append : Bool := false
  maxFrameSize : Nat := Frame.defaultLimit
  /-- How long open connections may take to finish at the end. -/
  shutdownTimeout : Duration := .ofSeconds 5
  deriving DecidableEq, Repr, Inhabited

/-- The names of the tracers to start, in order. -/
def Tracers.enabled (t : Tracers) : List String :=
  (if t.json?.any (·.enabled) then ["json"] else []) ++
    (if t.protobuf?.any (·.enabled) then ["protobuf"] else []) ++
    if t.remote?.any (·.enabled) then ["remote"] else []

/-- A level as a filter names it. -/
def levelName : Log.Level → String
  | .trace => "trace"
  | .debug => "debug"
  | .info => "info"
  | .warn => "warn"
  | .error => "error"

/-- The filter of the log: the one asked for, or else the level. -/
def Logging.directive (l : Logging) (asked? : Option String) : String :=
  asked?.getD (levelName l.level)

def LogFormat.name : LogFormat → String
  | console => "console"
  | json => "json"

end Config

structure Config where
  log : Config.Logging := {}
  tracers : Config.Tracers := {}
  collector : Config.Collector := {}
  deriving DecidableEq, Repr, Inhabited

end TraceRelay
