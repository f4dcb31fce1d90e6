import TraceRelay.Address
import TraceRelay.Fault

/-!
# Networks

What a machine's network answers: the address of a host name, whether an address can be reached, and
whether one can be listened on. An endpoint is written as an address in figures, or as a name and a
port behind its last colon.
-/

namespace TraceRelay

structure Network where
  lookUp : (name : String) → Except Fault Host
  dial : Address → Except Fault Unit
  listen : Address → Except Fault Unit

namespace Network

def noAddress : Fault := ⟨.invalidInput, "invalid socket address"⟩

def noPort : Fault := ⟨.invalidInput, "invalid port value"⟩

def unreachable : Fault := ⟨.networkUnreachable, "Network is unreachable (os error 101)"⟩

def lookUpFailed (reason : String) : Fault :=
  ⟨.uncategorized, s!"failed to lookup address information: {reason}"⟩

/-- The parts of a text around its last colon. -/
def aroundColon (s : String) : Option (String × String) :=
  let (port, rest) := s.toList.reverse.span (· != ':')
  match rest with
  | [] => none
  | _ :: name => some (String.ofList name.reverse, String.ofList port.reverse)

/-- A port: digits, and a plus before them if need be. -/
def port? (s : String) : Option Nat :=
  let digits := match s.toList with
    | '+' :: rest => rest
    | cs => cs
  match Address.atMost 10 65535 digits with
  | some (n, []) => some n
  | _ => none

/-- The address of an endpoint. -/
def resolve (n : Network) (endpoint : String) : Except Fault Address :=
  match Address.parse? endpoint with
  | some a => .ok a
  | none =>
    match aroundColon endpoint with
    | none => .error noAddress
    | some (name, port) =>
      match port? port with
      | none => .error noPort
      | some port => (n.lookUp name).map fun host => ⟨host, port⟩

/-! ## A machine on its own -/

def loopback : Host := .v4 [127, 0, 0, 1]

/-- The name of a host, if it is one in figures. -/
def inFigures? (name : String) : Option Host :=
  match Address.parse? s!"{name}:0", Address.parse? s!"[{name}]:0" with
  | some a, _ | none, some a => some a.host
  | none, none => none

/-- Whether a name is one that a name server could know. -/
def isPlainName (name : String) : Bool :=
  name ≠ "" ∧ name.toList.all fun c => c.isAlphanum || c == '-' || c == '.' || c == '_'

/-- A machine that can listen but reaches nothing, not even a name server. -/
def isolated : Network where
  lookUp name :=
    match inFigures? name with
    | some host => .ok host
    | none =>
      if name = "localhost" then .ok loopback
      else if isPlainName name then .error (lookUpFailed "Temporary failure in name resolution")
      else .error (lookUpFailed "Name or service not known")
  dial _ := .error unreachable
  listen _ := .ok ()

end Network

end TraceRelay
