import TraceRelay.Collector.Server
import TraceRelay.CommandLine
import TraceRelay.Config.Load
import TraceRelay.Log.Filter
import TraceRelay.Log.Text

/-!
# The program

From the arguments to a collector that serves: the configuration is loaded and overridden by the
command line, the log is set up, and the collector started. Anything that goes wrong on the way ends
the program with a message and a code.
-/

namespace TraceRelay.Program

/-- How the program ends before it serves. -/
structure Exit where
  code : Nat
  stdout : String
  stderr : String
  deriving DecidableEq, Repr

namespace Exit

/-- What lies behind a failure, one cause a line. A single cause has no number. -/
def causeLines : List String → String
  | [] => ""
  | [cause] => s!"\n\nCaused by:\n    {cause}"
  | causes =>
    "\n\nCaused by:" ++
      String.join (causes.mapIdx fun i cause => s!"\n    {i}: {cause}")

def failure (text : String) (causes : List String) : Exit :=
  ⟨1, "", s!"Error: {text}{causeLines causes}\n"⟩

end Exit

/-! ## Causes -/

/-- A failure to load, and what lies behind it. -/
def loadCauses (f : Config.Failure) : List String :=
  f.text :: match f with
    | .unreadable _ fault => [fault.text]
    | .misfit _ | .illFormed => [f.text]
    | _ => []

/-- A failure to start, and what lies behind it. -/
def startCauses (f : Collector.Failure) : List String :=
  f.text :: match f with
    | .unbound _ fault | .output (.unopened _ fault) => [fault.text]
    | _ => []

/-! ## Setting up -/

/-- The configuration with what the command line sets. -/
def override (c : Config) (given : CommandLine) : Config :=
  { c with collector := { c.collector with
      listen := given.listen?.getD c.collector.listen
      output := given.output?.getD c.collector.output
      append := given.append || c.collector.append } }

/-- The configuration of a run; `content` is what reading a file gives. -/
def configure (given : CommandLine) (content : String → Except Fault Bytes) :
    Except Exit Config :=
  match given.config? with
  | none => .ok (override {} given)
  | some path =>
    match Config.ofFile path (content path) with
    | .error f => .error (.failure s!"failed to load config from {path}" (loadCauses f))
    | .ok c => .ok (override c given)

/-- The filter of the log. One that is not understood lets what is of interest pass. -/
def filterOf (c : Config) (given : CommandLine) : Log.Filter :=
  (Log.Filter.parse? (c.log.directive given.filter?)).getD [⟨"", Log.Level.info.detail⟩]

def logFailure (path : String) (f : Fault) : Exit :=
  .failure s!"failed to open log file {path}" [f.text]

def startFailure (f : Collector.Failure) : Exit := .failure "failed to start collector" (startCauses f)

/-- Opens the file of the log, if it has one. -/
def openLog (c : Config) (storage : Storage) : Except Exit Storage :=
  match c.log.output with
  | .file path =>
    match storage.openFile path true with
    | .error f => .error (logFailure path f)
    | .ok (_, storage) => .ok storage
  | _ => .ok storage

/-- The answer to a request for help or the version, or to a misuse. -/
def requested (arguments : List String) : Except Exit CommandLine :=
  match CommandLine.parse arguments with
  | .error misuse => .error ⟨2, "", misuse.text⟩
  | .ok .help => .error ⟨0, CommandLine.helpText, ""⟩
  | .ok .version => .error ⟨0, CommandLine.versionText, ""⟩
  | .ok (.run given) => .ok given

/-- A collector that serves, and how it logs. -/
structure Running where
  log : Config.Logging
  filter : Log.Filter
  server : Collector.Server
  storage : Storage

/-- Runs the program up to the point where it serves. -/
def start (network : Network) (storage : Storage) (arguments : List String) :
    Except Exit Running := do
  let given ← requested arguments
  let c ← configure given storage.read
  let storage ← openLog c storage
  match Collector.Server.start network c.collector storage with
  | .error f => .error (startFailure f)
  | .ok (server, storage) => .ok ⟨c.log, filterOf c given, server, storage⟩

/-- What is logged when an interrupt is received. -/
def interrupted : Log.Record := ⟨.info, .collector, "received Ctrl-C, shutting down", []⟩

/-- The program is interrupted: the collector is stopped, and its output stored. -/
def Running.interrupt (r : Running) : Running :=
  let server := r.server.stop
  { r with server, storage := server.store r.storage }

/-- The records of a run that pass the filter. -/
def Running.records (r : Running) : List Log.Record :=
  (interrupted :: r.server.records).filter r.filter.passes

/-- A record in the form of the log. -/
def Running.render (r : Running) (record : Log.Record) : String :=
  match r.log.format with
  | .console => record.line
  | .json => record.json.render

end TraceRelay.Program
