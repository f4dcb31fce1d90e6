import TraceRelay.Toml.Document
import TraceRelay.Toml.Number

/-!
# Reading a document

`Toml.parse?` gives the entries of a document, or none if its text is not well formed. Lists and
tables on a line nest less deep than `depthLimit`.
-/

namespace TraceRelay.Toml

/-- Takes blanks, line ends and comments that end with one. -/
def skipLines : Nat → List Char → List Char
  | 0, cs => cs
  | fuel + 1, cs =>
    match newline? (skipComment (skipBlanks cs)) with
    | some rest => skipLines fuel rest
    | none => skipBlanks cs

/-- The gap between the elements of a list. -/
def skipSpace (cs : List Char) : List Char := skipLines cs.length cs

/-- A word that stands for a value. -/
def word (name : String) (v : Value) : Reader Value := fun cs =>
  if name.toList.isPrefixOf cs then some (v, cs.drop name.length) else none

mutual

/-- A value that may hold lists and tables `depth` deep. -/
def value : (fuel depth : Nat) → Reader Value
  | 0, _, _ => none
  | fuel + 1, depth, cs =>
    match cs with
    | '[' :: rest =>
      if depth = 0 then none
      else (elements fuel (depth - 1) (skipSpace rest)).map fun (vs, rest) => (.list vs, rest)
    | '\x7b' :: rest =>
      if depth = 0 then none
      else match skipBlanks rest with
        | '\x7d' :: rest => some (.table [], rest)
        | rest => (members fuel (depth - 1) [] rest).map fun (es, rest) => (.table (entriesOf es), rest)
    | '"' :: _ | '\'' :: _ => (string cs).map fun (s, rest) => (.text s, rest)
    | 't' :: _ => word "true" (.boolean true) cs
    | 'f' :: _ => word "false" (.boolean false) cs
    | cs => number cs

/-- The rest of a list, after blanks and line ends. -/
def elements : (fuel depth : Nat) → Reader (List Value)
  | 0, _, _ => none
  | fuel + 1, depth, cs =>
    match cs with
    | ']' :: rest => some ([], rest)
    | cs => do
      let (v, rest) ← value fuel depth cs
      match skipSpace rest with
      | ']' :: rest => some ([v], rest)
      | ',' :: rest => do
        let (vs, rest) ← elements fuel depth (skipSpace rest)
        return (v :: vs, rest)
      | _ => none

/-- The rest of a table on a line, with its entries so far. -/
def members : (fuel depth : Nat) → Nodes → Reader Nodes
  | 0, _, _, _ => none
  | fuel + 1, depth, entries, cs => do
    let (k, rest) ← key cs
    let ((), rest) ← char '=' rest
    let (v, rest) ← value fuel depth (skipBlanks rest)
    let entries ← Nodes.put k v .header entries
    match skipBlanks rest with
    | '\x7d' :: rest => some (entries, rest)
    | ',' :: rest => members fuel depth entries rest
    | _ => none

end

/-- A value and the end of its line. -/
def lineValue (cs : List Char) : Option (Value × List Char) := do
  let (v, rest) ← value (2 * cs.length + 2) (depthLimit - 1) cs
  return (v, ← endLine? rest)

/-- A header after its opening bracket, up to the end of the line. -/
def header (brackets : List Char) : Reader Key := fun cs => do
  let (k, rest) ← key cs
  if brackets.isPrefixOf rest then return (k, ← endLine? (rest.drop brackets.length)) else none

/-- Reads lines; `path` leads to the table that plain lines add to. -/
def lines : Nat → List String → Nodes → List Char → Option Nodes
  | 0, _, _, _ => none
  | fuel + 1, path, doc, cs =>
    match skipBlanks cs with
    | [] => some doc
    | '[' :: '[' :: rest => do
      let (k, rest) ← header [']', ']'] rest
      let doc ← Nodes.within .mentioned (Nodes.openElement k.name) k.path .header doc
      lines fuel (k.path ++ [k.name]) doc rest
    | '[' :: rest => do
      let (k, rest) ← header [']'] rest
      let doc ← Nodes.within .mentioned (Nodes.openTable k.name) k.path .header doc
      lines fuel (k.path ++ [k.name]) doc rest
    | cs =>
      match endLine? cs with
      | some rest => lines fuel path doc rest
      | none => do
        let (k, rest) ← key cs
        let ((), rest) ← char '=' rest
        let (v, rest) ← lineValue (skipBlanks rest)
        let doc ← Nodes.within .mentioned (Nodes.put k v) path .header doc
        lines fuel path doc rest

/-- Without the mark that some writers put at the start of a text. -/
def dropMark : List Char → List Char
  | '\ufeff' :: rest => rest
  | cs => cs

/-- The entries of a document. -/
def parse? (s : String) : Option Entries :=
  let cs := dropMark s.toList
  (lines (cs.length + 2) [] [] cs).map entriesOf

end TraceRelay.Toml
