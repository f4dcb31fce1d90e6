import TraceRelay.Batch
import TraceRelay.Json

/-!
# Records of a trace file

One event makes one record, in one of three forms:

* a JSON object and a newline,
* the length of the event's message and the message,
* the same for an event that is already encoded.

An encoder appends to an output. It may fail half way; whoever calls it discards what it appended.
-/

namespace TraceRelay

/-- An event could not be put into JSON. -/
inductive EncodeFailure where
  | json (reason : String)
  deriving DecidableEq, Repr

def EncodeFailure.message : EncodeFailure → String
  | json reason => s!"json encoding failed: {reason}"

/-- What an encoder appends for an event, and whether it then failed. -/
structure Encoding where
  appended : Bytes
  failure? : Option EncodeFailure

/-- A record form for events of one kind. -/
abbrev Encoder (α : Type) := α → Encoding

/-- Text written by an event about itself: how far it came, and why it stopped. -/
structure JsonText where
  text : String
  refusal? : Option String

/-- Events that can be put into JSON. -/
class ToJsonText (α : Type) where
  jsonText : α → JsonText

def Event.json (e : Event) : Json :=
  .object [("name", .text e.name), ("seq", .number e.seq.toNat)]

instance : ToJsonText Event := ⟨fun e => ⟨e.json.render, none⟩⟩

namespace Encoder

/-- One JSON text a line. -/
def jsonLines {α : Type} [ToJsonText α] : Encoder α := fun e =>
  let written := ToJsonText.jsonText e
  match written.refusal? with
  | some reason => ⟨Bytes.ofText written.text, some (.json reason)⟩
  | none => ⟨Bytes.ofText written.text ++ [10], none⟩

/-- A length and the event's message. -/
def delimited {α : Type} [Message α] : Encoder α := fun e =>
  ⟨Wire.block (Message.encode e), none⟩

/-- A length and bytes that are a message already. -/
def rawDelimited : Encoder Bytes := fun b => ⟨Wire.block b, none⟩

/-- Appends an event to `out`; a failed event leaves `out` as it was. -/
def append {α : Type} (encoder : Encoder α) (out : Bytes) (e : α) :
    Bytes × Except EncodeFailure Nat :=
  let encoding := encoder e
  match encoding.failure? with
  | some failure => (out, .error failure)
  | none => (out ++ encoding.appended, .ok encoding.appended.length)

/-- Appends events in turn: the output, and the bytes that each took or its failure. -/
def appendAll {α : Type} (encoder : Encoder α) (out : Bytes) :
    List α → Bytes × List (Except EncodeFailure Nat)
  | [] => (out, [])
  | e :: events =>
    let (out, took) := encoder.append out e
    let (out, more) := encoder.appendAll out events
    (out, took :: more)

end Encoder

/-- An event given to a JSON encoder by a caller of its own: any value, or a refusal at once or
after the first member. -/
inductive JsonItem where
  | event (e : Event)
  | value (j : Json)
  | refusing (reason : String)
  | refusingMidway (reason : String)

instance : ToJsonText JsonItem where
  jsonText
    | .event e => ToJsonText.jsonText e
    | .value j => ⟨j.render, none⟩
    | .refusing reason => ⟨"", some reason⟩
    | .refusingMidway reason => ⟨"\x7b\"name\":\"partial\"", some reason⟩

end TraceRelay
