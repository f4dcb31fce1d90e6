/-!
# The command line

Options have a long name, some a short one too, and a value or none. A value is the next argument or
stands in the same one (`--output=t.pb`, `-ot.pb`); what begins with a dash is an option, not a
value. No option may be given twice. Help and version are answered as soon as they are met.
-/

namespace TraceRelay

/-- What the command line sets. -/
structure CommandLine where
  config? : Option String := none
  listen? : Option String := none
  output? : Option String := none
  append : Bool := false
  filter? : Option String := none
  deriving DecidableEq, Repr, Inhabited

namespace CommandLine

inductive Switch where
  | config
  | listen
  | output
  | append
  | logLevel
  | help
  | version
  deriving DecidableEq, Repr

namespace Switch

def all : List Switch := [config, listen, output, append, logLevel, help, version]

def long : Switch → String
  | config => "config"
  | listen => "listen"
  | output => "output"
  | append => "append"
  | logLevel => "log-level"
  | help => "help"
  | version => "version"

def short? : Switch → Option Char
  | config => some 'c'
  | listen => some 'l'
  | output => some 'o'
  | help => some 'h'
  | version => some 'V'
  | append | logLevel => none

/-- What the value of an option is called, if it has one. -/
def value? : Switch → Option String
  | config => some "CONFIG"
  | listen => some "LISTEN"
  | output => some "OUTPUT"
  | logLevel => some "LOG_LEVEL"
  | append | help | version => none

/-- Options whose value is a path, which has at least one character. -/
def takesPath : Switch → Bool
  | config | output => true
  | _ => false

/-- An option with its value, as a complaint shows it. -/
def shown (s : Switch) : String :=
  "--" ++ s.long ++ (s.value?.map fun v => s!" <{v}>").getD ""

def about : Switch → String
  | config => "Path to configuration file"
  | listen => "Address to listen on (overrides config)"
  | output => "Output trace file (overrides config)"
  | append => "Append to the output file instead of truncating it"
  | logLevel =>
    "Log filter, e.g. \"debug\" or \"pstrace_collector=trace\" (overrides config)"
  | help => "Print help"
  | version => "Print version"

end Switch

/-- Why a command line is not understood. -/
inductive Misuse where
  | unexpected (argument : String)
  | missingValue (s : Switch)
  | surplusValue (s : Switch) (value : String)
  | repeated (s : Switch)
  deriving DecidableEq, Repr

def Misuse.text : Misuse → String
  | unexpected argument => s!"error: unexpected argument '{argument}' found"
  | missingValue s => s!"error: a value is required for '{s.shown}' but none was supplied"
  | surplusValue s value =>
    s!"error: unexpected value '{value}' for '{s.shown}' found; no more were expected"
  | repeated s => s!"error: the argument '{s.shown}' cannot be used multiple times"

/-- What a command line asks for. -/
inductive Request where
  | help
  | version
  | run (c : CommandLine)
  deriving DecidableEq, Repr

/-! ## Reading -/

/-- How far the arguments have been read. The last option is settled when the next one is met. -/
structure Reading where
  given : CommandLine
  seen : List Switch
  /-- The last option with a value, and the value, if it is there. -/
  last? : Option (Switch × Option String)
  /-- Whether a lone double dash has been met: no option comes after it. -/
  plain : Bool

def start : Reading := ⟨{}, [], none, false⟩

/-- Stores what an option sets. -/
def set (c : CommandLine) (s : Switch) (value : String) : CommandLine :=
  match s with
  | .config => { c with config? := some value }
  | .listen => { c with listen? := some value }
  | .output => { c with output? := some value }
  | .append => { c with append := true }
  | .logLevel => { c with filter? := some value }
  | .help | .version => c

/-- An option is complete. -/
def Reading.take (r : Reading) (s : Switch) (value : String) : Except Misuse Reading :=
  if s ∈ r.seen then .error (.repeated s)
  else if s.takesPath ∧ value = "" then .error (.missingValue s)
  else .ok { r with given := set r.given s value, seen := s :: r.seen, last? := none }

/-- Settles the last option. -/
def Reading.settle (r : Reading) : Except Misuse Reading :=
  match r.last? with
  | none => .ok r
  | some (s, some value) => r.take s value
  | some (s, none) => .error (.missingValue s)

/-- An option is met, with a value in the same argument or none. -/
def Reading.meet (r : Reading) (s : Switch) (attached? : Option String) :
    Except Misuse (Reading ⊕ Request) := do
  match s with
  | .help => do let _ ← r.settle; return .inr .help
  | .version => do let _ ← r.settle; return .inr .version
  | s =>
    let r ← r.settle
    if s.value?.isSome then return .inl { r with last? := some (s, attached?) }
    else return .inl (← r.take s "")

/-- The text in front of the first equals sign, and that behind it. -/
def split (cs : List Char) : String × Option String :=
  let (name, rest) := cs.span (· != '=')
  (String.ofList name, match rest with
    | [] => none
    | _ :: value => some (String.ofList value))

/-- An argument that begins with two dashes, which are left out. -/
def readLong (r : Reading) (cs : List Char) : Except Misuse (Reading ⊕ Request) :=
  let (name, attached?) := split cs
  match Switch.all.find? (·.long == name), attached? with
  | none, _ => .error (.unexpected ("--" ++ name))
  | some s, some value =>
    if s.value?.isSome then r.meet s attached? else .error (.surplusValue s value)
  | some s, none => r.meet s none

/-- An argument that begins with one dash, which is left out. -/
def readShort (r : Reading) : List Char → Except Misuse (Reading ⊕ Request)
  | [] => .ok (.inl r)
  | c :: rest =>
    match Switch.all.find? (·.short? == some c) with
    | none => .error (.unexpected (String.ofList ['-', c]))
    | some s =>
      if s.value?.isSome then
        r.meet s (match rest with
          | [] => none
          | '=' :: value => some (String.ofList value)
          | value => some (String.ofList value))
      else do
        match ← r.meet s none with
        | .inl r => readShort r rest
        | .inr request => return .inr request

/-- Any other argument: a value that is waited for, or nothing that is expected. -/
def readPlain (r : Reading) (argument : String) : Except Misuse Reading :=
  match r.last?, r.plain with
  | some (s, none), false => .ok { r with last? := some (s, some argument) }
  | _, _ => .error (.unexpected argument)

def readAll (r : Reading) : List String → Except Misuse Request
  | [] => do return .run (← r.settle).given
  | argument :: rest => do
    let next ← match r.plain, argument.toList with
      | false, ['-', '-'] => pure (.inl { r with plain := true })
      | false, '-' :: '-' :: cs => readLong r cs
      | false, '-' :: c :: cs => readShort r (c :: cs)
      | _, _ => do pure (.inl (← readPlain r argument))
    match next with
    | .inl r => readAll r rest
    | .inr request => return request

/-- What the arguments ask for. -/
def parse (arguments : List String) : Except Misuse Request := readAll start arguments

/-! ## Help -/

def versionText : String := "pstrace-collector 0.1.0\n"

/-- One option of the help, its description at a fixed column. -/
def helpLine (s : Switch) : String :=
  let short := match s.short? with
    | some c => String.ofList ['-', c, ',', ' ']
    | none => "    "
  let front := "  " ++ short ++ s.shown
  front ++ String.ofList (List.replicate (31 - front.length) ' ') ++ s.about ++ "\n"

def helpText : String :=
  "Receives remote tracer streams and stores the events in a trace file\n\n" ++
    "Usage: pstrace-collector [OPTIONS]\n\nOptions:\n" ++ String.join (Switch.all.map helpLine)

end CommandLine

end TraceRelay
