import TraceRelay.Bytes
import TraceRelay.Config.Check
import TraceRelay.Config.Form
import TraceRelay.Toml.Parse

/-!
# Loading a configuration
-/

namespace TraceRelay.Config

/-- A section of its own, not checked. -/
def ofSection {α : Type} (decode : Toml.Decode α) (text : String) : Except Failure α :=
  match Toml.parse? text with
  | none => .error .illFormed
  | some entries => (decode (.table entries)).mapError .misfit

/-- The configuration that a text gives. -/
def ofText (text : String) : Except Failure Config := do
  let c ← ofSection Form.config text
  c.check
  return c

def notText : Fault := ⟨.invalidData, "stream did not contain valid UTF-8"⟩

/-- The configuration in a file, given what reading the file at `path` gave. -/
def ofFile (path : String) (content : Except Fault Bytes) : Except Failure Config :=
  match content with
  | .error f => .error (.unreadable path f)
  | .ok data =>
    match Bytes.text? data with
    | none => .error (.unreadable path notText)
    | some text => ofText text

end TraceRelay.Config
