import TraceRelay.Duration.Spans
import TraceRelay.Toml.Value

/-!
# Values of a given form

A decoder reads a value as what a program expects, or says in which way it is something else.

A record is read from a table, by the names of its fields, or from a list, by their order. What is
not mentioned keeps its default; unknown names and surplus elements are passed over. Fields are read
in the order in which the document has them, so the first of two misfits is the one reported.
-/

namespace TraceRelay.Toml

/-- In which way a value is not what was expected. -/
inductive Mismatch where
  | type (found expected : String)
  | value (found expected : String)
  | unknownVariant (name : String) (known : List String)
  /-- None of the forms of a choice. -/
  | noVariant (choice : String)
  | notVariant
  | variantCount
  | surplusVariants
  | variantContent (kind : String)
  | notEmptyList
  | notEmptyTable
  deriving DecidableEq, Repr

namespace Mismatch

def tick (name : String) : String := "`" ++ name ++ "`"

/-- The names of a choice, as a complaint lists them. -/
def listed : List String → String
  | [] => "no variants"
  | [a] => tick a
  | [a, b] => s!"{tick a} or {tick b}"
  | names => "one of " ++ ", ".intercalate (names.map tick)

def text : Mismatch → String
  | type found expected => s!"invalid type: {found}, expected {expected}"
  | value found expected => s!"invalid value: {found}, expected {expected}"
  | unknownVariant name known => s!"unknown variant {tick name}, expected {listed known}"
  | noVariant choice => s!"data did not match any variant of untagged enum {choice}"
  | notVariant => "wanted string or table"
  | variantCount => "wanted exactly 1 element, found 0 elements"
  | surplusVariants => "wanted exactly 1 element, more than 1 element"
  | variantContent kind => s!"expected table, found {kind}"
  | notEmptyList => "expected empty array"
  | notEmptyTable => "expected empty table"

end Mismatch

/-- Reads a value as something. -/
abbrev Decode (α : Type) := Value → Except Mismatch α

namespace Decode

def mismatch {α : Type} (expected : String) (v : Value) : Except Mismatch α :=
  .error (.type v.described expected)

def boolean : Decode Bool
  | .boolean b => .ok b
  | v => mismatch "a boolean" v

/-- Text, called by what it is for. -/
def text (expected : String) : Decode String
  | .text s => .ok s
  | v => mismatch expected v

/-- A number from 0 to `high`, called by its range. -/
def natural (range : String) (high : Nat) : Decode Nat
  | .integer n =>
    if 0 ≤ n ∧ n ≤ high then .ok n.toNat
    else .error (.value (Value.integer n).described range)
  | v => mismatch range v

def duration : Decode Duration
  | .text s =>
    match Duration.parse? s with
    | some d => .ok d
    | none => .error (.value (Value.text s).described "a duration")
  | v => mismatch "a duration" v

def list {α : Type} (element : Decode α) : Decode (List α)
  | .list items => items.mapM element
  | v => mismatch "a sequence" v

/-- The kind of a value that has no parts. -/
def kindOf : Value → String
  | .text _ => "string"
  | .integer _ => "integer"
  | .real _ => "float"
  | .boolean _ => "boolean"
  | .moment => "datetime"
  | .list _ => "array"
  | .table _ => "table"

/-- What a variant without content may be given. -/
def noContent (v : Value) : Except Mismatch Unit :=
  match v with
  | .list [] | .table [] => .ok ()
  | .list _ => .error .notEmptyList
  | .table _ => .error .notEmptyTable
  | v => .error (.variantContent (kindOf v))

/-- The variant of a name. -/
def variant {α : Type} (variants : List (String × α)) (name : String) : Except Mismatch α :=
  match variants.lookup name with
  | some a => .ok a
  | none => .error (.unknownVariant name (variants.map (·.1)))

/-- One of some variants without content: its name, or a table of its name alone. -/
def choice {α : Type} (variants : List (String × α)) : Decode α
  | .text s => variant variants s
  | .table [] => .error .variantCount
  | .table [(name, content)] => do
    let a ← variant variants name
    noContent content
    return a
  | .table _ => .error .surplusVariants
  | _ => .error .notVariant

/-- How one field of a record is set: its name, and what a value makes of the record. -/
abbrev Setter (σ : Type) := String × (σ → Value → Except Mismatch σ)

/-- A record called `name`, from its defaults. -/
def record {σ : Type} (name : String) (fields : List (Setter σ)) (default : σ) : Decode σ
  | .table entries => entries.foldlM (fun s entry =>
      match fields.lookup entry.1 with
      | some set => set s entry.2
      | none => .ok s) default
  | .list items => (fields.zip items).foldlM (fun s (field, v) => field.2 s v) default
  | .moment => .ok default
  | v => mismatch s!"struct {name}" v

end Decode

end TraceRelay.Toml
