/-!
# Faults

What a file, a stream or a socket reports when an operation fails: the kind of the failure, which
callers tell apart, and the text that is shown.
-/

namespace TraceRelay

/-- The kinds of failure that an answer can name. -/
inductive Fault.Kind where
  | notFound
  | permissionDenied
  | connectionRefused
  | connectionReset
  | brokenPipe
  | alreadyExists
  | notADirectory
  | isADirectory
  | addrInUse
  | addrNotAvailable
  | networkUnreachable
  | invalidInput
  | invalidData
  | invalidFilename
  | timedOut
  | writeZero
  | interrupted
  | unexpectedEof
  | uncategorized
  | other
  deriving DecidableEq, Repr, Inhabited

namespace Fault.Kind

/-- The name under which a kind is shown. -/
def name : Kind → String
  | notFound => "NotFound"
  | permissionDenied => "PermissionDenied"
  | connectionRefused => "ConnectionRefused"
  | connectionReset => "ConnectionReset"
  | brokenPipe => "BrokenPipe"
  | alreadyExists => "AlreadyExists"
  | notADirectory => "NotADirectory"
  | isADirectory => "IsADirectory"
  | addrInUse => "AddrInUse"
  | addrNotAvailable => "AddrNotAvailable"
  | networkUnreachable => "NetworkUnreachable"
  | invalidInput => "InvalidInput"
  | invalidData => "InvalidData"
  | invalidFilename => "InvalidFilename"
  | timedOut => "TimedOut"
  | writeZero => "WriteZero"
  | interrupted => "Interrupted"
  | unexpectedEof => "UnexpectedEof"
  | uncategorized => "Uncategorized"
  | other => "Other"

end Fault.Kind

/-- A failed operation. -/
structure Fault where
  kind : Fault.Kind
  text : String
  deriving DecidableEq, Repr, Inhabited

namespace Fault

/-- The input ended before the operation had all it needs. -/
def unexpectedEof : Fault := ⟨.unexpectedEof, "unexpected end of file"⟩

/-- An exact read met the end of its input. -/
def earlyEof : Fault := ⟨.unexpectedEof, "early eof"⟩

/-- The far side accepted no byte of a record. -/
def writeZero : Fault := ⟨.writeZero, "write zero"⟩

/-- A signal came before the operation had done anything: it can be tried again. -/
def interrupted : Fault := ⟨.interrupted, "operation interrupted"⟩

/-- A decoder took no further byte. -/
def wholeBuffer : Fault := ⟨.writeZero, "failed to write whole buffer"⟩

/-- The far side accepted no byte of what was held back for it. -/
def bufferedData : Fault := ⟨.writeZero, "failed to write the buffered data"⟩

def broken : Fault := ⟨.brokenPipe, "stream broken"⟩

/-- Whether the operation can just be tried again. -/
def isInterrupted (f : Fault) : Bool := f.kind == .interrupted

end Fault

end TraceRelay
