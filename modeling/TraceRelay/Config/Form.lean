import TraceRelay.Config
import TraceRelay.Toml.Decode

/-!
# Configuration from a document

The names of the settings in a document, and the form of each.
-/

namespace TraceRelay.Config.Form

open Toml (Decode Value Mismatch)
open Toml.Decode (Setter)

/-- A field that a decoder reads and `set` stores. -/
def field {σ α : Type} (name : String) (decode : Decode α) (set : σ → α → σ) : Setter σ :=
  (name, fun s v => (decode v).map (set s))

def path : Decode String := .text "path string"

def string : Decode String := .text "a string"

def level : Decode Log.Level :=
  .choice ([.trace, .debug, .info, .warn, .error].map fun l => (levelName l, l))

def logFormat : Decode LogFormat := .choice ([.console, .json].map fun f => (f.name, f))

/-- The name of a standard stream, or else a path. -/
def logOutput : Decode LogOutput
  | .text "stdout" => .ok .stdout
  | .text "stderr" => .ok .stderr
  | .text s => .ok (.file s)
  | _ => .error (.noVariant "LogOutput")

def logging : Decode Logging :=
  .record "LogConfig"
    [field "level" level fun l x => { l with level := x },
      field "format" logFormat fun l x => { l with format := x },
      field "output" logOutput fun l x => { l with output := x }] {}

def fileTracer : Decode FileTracer :=
  .record "FileTracerConfig"
    [field "enabled" .boolean fun t x => { t with enabled := x },
      field "path" path fun t x => { t with path := x },
      field "append" .boolean fun t x => { t with append := x }] {}

def remoteTracer : Decode RemoteTracer :=
  .record "RemoteTracerConfig"
    [field "enabled" .boolean fun t x => { t with enabled := x },
      field "peer_id" string fun t x => { t with peer := x },
      field "addrs" (.list string) fun t x => { t with addresses := x },
      field "batch_window" .duration fun t x => { t with batchWindow := x },
      field "attempt_timeout" .duration fun t x => { t with attemptTimeout := x },
      field "retry_interval" .duration fun t x => { t with retryInterval := x },
      field "compression_level" (.natural "u32" (UInt32.size - 1)) fun t x =>
        { t with compressionLevel := x }] {}

def tracers : Decode Tracers :=
  .record "TracersConfig"
    [field "json" fileTracer fun t x => { t with json? := some x },
      field "protobuf" fileTracer fun t x => { t with protobuf? := some x },
      field "remote" remoteTracer fun t x => { t with remote? := some x }] {}

def collector : Decode Collector :=
  .record "CollectorConfig"
    [field "listen" string fun c x => { c with listen := x },
      field "output" path fun c x => { c with output := x },
      field "append" .boolean fun c x => { c with append := x },
      field "max_frame_size" (.natural "usize" (UInt64.size - 1)) fun c x => { c with maxFrameSize := x },
      field "shutdown_timeout" .duration fun c x => { c with shutdownTimeout := x }] {}

def config : Decode Config :=
  .record "Config"
    [field "log" logging fun c x => { c with log := x },
      field "tracers" tracers fun c x => { c with tracers := x },
      field "collector" collector fun c x => { c with collector := x }] {}

end TraceRelay.Config.Form
