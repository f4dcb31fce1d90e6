/-!
# Log records

What a part of the relay reports about its own activity: a level, the reporting part, a message
and named values.
-/

namespace TraceRelay.Log

inductive Level where
  | trace
  | debug
  | info
  | warn
  | error
  deriving DecidableEq, Repr, Inhabited

def Level.name : Level → String
  | trace => "TRACE"
  | debug => "DEBUG"
  | info => "INFO"
  | warn => "WARN"
  | error => "ERROR"

/-- More detailed levels rank higher. -/
def Level.detail : Level → Nat
  | error => 1
  | warn => 2
  | info => 3
  | debug => 4
  | trace => 5

inductive Value where
  | text (s : String)
  | number (n : Nat)
  | flag (b : Bool)
  deriving DecidableEq, Repr, Inhabited

/-- The part of the relay that reports. -/
inductive Part where
  | connect
  | remote
  | file
  | handle
  | set
  | tcp
  | rateLimit
  | server
  | collector
  deriving DecidableEq, Repr, Inhabited

/-- The name of a part, by which a filter selects its records. -/
def Part.target : Part → String
  | connect => "pstrace_sinks::connect"
  | remote => "pstrace_sinks::remote"
  | file => "pstrace_sinks::file"
  | handle => "pstrace_sinks::handle"
  | set => "pstrace_sinks::set"
  | tcp => "pstrace_sinks::host::tcp"
  | rateLimit => "pstrace_sinks::util::rate_limited_logger"
  | server => "pstrace_collector::server"
  | collector => "pstrace_collector"

structure Record where
  level : Level
  part : Part
  message : String
  fields : List (String × Value)
  deriving DecidableEq, Repr, Inhabited

end TraceRelay.Log
