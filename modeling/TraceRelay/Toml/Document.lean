import TraceRelay.Toml.Text
import TraceRelay.Toml.Value

/-!
# Building a document

A table comes about in three ways: by a header of its own, by headers of tables within it, or by a
key with points. What may be added to it depends on which.

* A header may name a table that only headers within it have mentioned, and no other; the table then
  moves behind the entries of its parent.
* A key with points leads through tables without a header, and ends in one made by such keys.
* A header in double brackets adds a table to a list of its name.

No entry is ever replaced.
-/

namespace TraceRelay.Toml

/-- How a table came about. -/
inductive Origin where
  | header
  | mentioned
  | pointed
  deriving DecidableEq, Repr

inductive Node where
  | value (v : Value)
  | table (origin : Origin) (entries : List (String × Node))
  /-- Tables with headers in double brackets, the last one first. -/
  | tables (elements : List (List (String × Node)))

abbrev Nodes := List (String × Node)

namespace Nodes

/-- Puts a node in the place of the one of that name. -/
def replace (name : String) (node : Node) (entries : Nodes) : Nodes :=
  entries.map fun entry => if entry.1 == name then (name, node) else entry

/-- Changes a table. -/
abbrev Edit := Origin → Nodes → Option Nodes

/-- Carries out an edit at the end of a path. Missing tables are made, of origin `new`; through
`points` the path leads past no table with a header. -/
def within (new : Origin) (edit : Edit) : List String → Edit
  | [], origin, entries => edit origin entries
  | name :: path, _, entries =>
    match entries.lookup name with
    | none => do
      let inner ← within new edit path new []
      return entries ++ [(name, .table new inner)]
    | some (.value _) => none
    | some (.tables []) => none
    | some (.tables (last :: elements)) => do
      let inner ← within new edit path .header last
      return replace name (.tables (inner :: elements)) entries
    | some (.table origin inner) => do
      if new = .pointed ∧ origin = .header then none
      let inner ← within new edit path origin inner
      return replace name (.table origin inner) entries

/-- Adds a value under a name that is free. A key with points must end in a table made so. -/
def add (pointed : Bool) (name : String) (v : Value) : Edit := fun origin entries =>
  if pointed = (origin == .pointed) ∧ (entries.lookup name).isNone then
    some (entries ++ [(name, .value v)])
  else none

/-- Adds a value under a key. -/
def put (key : Key) (v : Value) : Edit :=
  within .pointed (add (!key.path.isEmpty) key.name v) key.path

/-- Opens a table with a header. -/
def openTable (name : String) : Edit := fun _ entries =>
  match entries.lookup name with
  | none => some (entries ++ [(name, .table .header [])])
  | some (.table .mentioned inner) =>
    some (entries.filter (·.1 != name) ++ [(name, .table .header inner)])
  | some _ => none

/-- Opens the next table of a list. -/
def openElement (name : String) : Edit := fun _ entries =>
  match entries.lookup name with
  | none => some (entries ++ [(name, .tables [[]])])
  | some (.tables elements) => some (replace name (.tables ([] :: elements)) entries)
  | some _ => none

end Nodes

mutual

/-- The value that a node stands for. -/
def Node.toValue : Node → Value
  | .value v => v
  | .table _ entries => .table (entriesOf entries)
  | .tables elements => .list (tablesOf elements).reverse

def entriesOf : List (String × Node) → Entries
  | [] => []
  | (name, node) :: rest => (name, node.toValue) :: entriesOf rest

def tablesOf : List (List (String × Node)) → List Value
  | [] => []
  | entries :: rest => .table (entriesOf entries) :: tablesOf rest

end

end TraceRelay.Toml
