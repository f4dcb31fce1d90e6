import TraceRelay.Config
import TraceRelay.Fault
import TraceRelay.Text.Quoted
import TraceRelay.Toml.Decode

/-!
# What is wrong with a configuration
-/

namespace TraceRelay.Config

inductive Failure where
  | unreadable (path : String) (f : Fault)
  /-- The text is not a document. -/
  | illFormed
  | misfit (m : Toml.Mismatch)
  | missingField (component name field : String)
  | invalidValue (component name field message : String)
  deriving DecidableEq, Repr

namespace Failure

def kind : Failure → String
  | unreadable _ _ => "IoError"
  | illFormed | misfit _ => "ParseError"
  | missingField _ _ _ => "MissingField"
  | invalidValue _ _ _ _ => "InvalidValue"

def text : Failure → String
  | unreadable path f => s!"failed to read config file '{path}': {f.text}"
  | illFormed => "failed to parse config: TOML parse error"
  | misfit m => s!"failed to parse config: {m.text}"
  | missingField component name field => s!"{component} '{name}' is missing required field '{field}'"
  | invalidValue component name field message =>
    s!"{component} '{name}' has invalid {field}: {message}"

/-- A name and the quoted values under it. -/
def spelled (name : String) (parts : List (String × String)) : String :=
  let shown := parts.map fun part => part.1 ++ ": " ++ Text.Quoted.text part.2
  name ++ " \x7b " ++ ", ".intercalate shown ++ " \x7d"

/-- A failure of a check with its parts spelled out. -/
def spelledOut? : Failure → Option String
  | f@(missingField component name field) =>
    some (spelled f.kind [("component", component), ("name", name), ("field", field)])
  | f@(invalidValue component name field message) =>
    some (spelled f.kind
      [("component", component), ("name", name), ("field", field), ("message", message)])
  | _ => none

end Failure

end TraceRelay.Config
