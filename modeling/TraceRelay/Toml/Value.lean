import TraceRelay.Real
import TraceRelay.Text.Quoted

/-!
# Values of a document

A document is a table. Its tables keep their entries in the order of their first mention.
-/

namespace TraceRelay.Toml

inductive Value where
  | text (s : String)
  | integer (n : Int)
  | real (r : Real)
  | boolean (b : Bool)
  /-- A date, a time of day or both. -/
  | moment
  | list (items : List Value)
  | table (entries : List (String × Value))
  deriving Inhabited

abbrev Entries := List (String × Value)

/-- A value as a complaint names it. -/
def Value.described : Value → String
  | text s => s!"string {Text.Quoted.text s}"
  | integer n => s!"integer `{n}`"
  | real r => s!"floating point `{r.text}`"
  | boolean b => s!"boolean `{b}`"
  | list _ => "sequence"
  | moment | table _ => "map"

end TraceRelay.Toml
