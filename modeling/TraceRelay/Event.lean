import TraceRelay.Wire

/-!
# Events

An event has a name and a sequence number. `Message` is what a tracer asks of the events it is
given: an encoding and a way back.
-/

namespace TraceRelay

/-- A kind of event that has an encoded form. -/
class Message (α : Type) where
  encode : α → Bytes
  decode : Bytes → Except Wire.Failure α

structure Event where
  name : String
  seq : UInt64
  deriving DecidableEq, Repr, Inhabited

namespace Event

def schema : Wire.Schema where
  name := "Event"
  slot
    | 1 => some ⟨"name", .text⟩
    | 2 => some ⟨"seq", .number⟩
    | _ => none

/-- A later field replaces an earlier one of its number. -/
def set (e : Event) (field : Wire.Field) : Event :=
  match field with
  | ⟨1, .text s⟩ => { e with name := s }
  | ⟨2, .number n⟩ => { e with seq := n.toUInt64 }
  | _ => e

def encode (e : Event) : Bytes := Wire.textField 1 e.name ++ Wire.numberField 2 e.seq.toNat

def decode (data : Bytes) : Except Wire.Failure Event :=
  (schema.fields data).map (·.foldl set ⟨"", 0⟩)

instance : Message Event := ⟨encode, decode⟩

end Event

/-- Events that are passed on as they came. -/
instance : Message Bytes := ⟨id, .ok⟩

end TraceRelay
