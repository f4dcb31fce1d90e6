import TraceRelay.Json
import TraceRelay.Log

/-!
# Log records as text

A record is a line for people, or a JSON object.
-/

namespace TraceRelay.Log

def Value.shown : Value → String
  | text s => s
  | number n => toString n
  | flag b => if b then "true" else "false"

def Value.json : Value → Json
  | text s => .text s
  | number n => .number n
  | flag b => .bool b

namespace Record

/-- The line: level, part, message, and the values by name. -/
def line (r : Record) : String :=
  r.level.name ++ " " ++ r.part.target ++ ": " ++
    " ".intercalate (r.message :: r.fields.map fun f => f.1 ++ "=" ++ f.2.shown)

/-- The values by name, the message among them. -/
def members (r : Record) : List (String × Json) :=
  ("message", .text r.message) :: r.fields.map fun f => (f.1, f.2.json)

/-- The object: level, values and part. -/
def json (r : Record) : Json :=
  .object [("level", .text r.level.name), ("fields", .object r.members),
    ("target", .text r.part.target)]

/-- The object with the time in front. -/
def timed (r : Record) (time : String) : Json :=
  .object [("timestamp", .text time), ("level", .text r.level.name), ("fields", .object r.members),
    ("target", .text r.part.target)]

end Record

end TraceRelay.Log
