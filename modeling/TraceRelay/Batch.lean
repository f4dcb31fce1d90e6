import TraceRelay.Event

/-!
# Batches

A batch is a message whose field 1 holds its events, encoded, in order. On a stream it travels as
one frame: its length, then the message.
-/

namespace TraceRelay

/-- A batch whose events are left encoded. -/
structure Batch where
  entries : List Bytes
  deriving DecidableEq, Repr, Inhabited

namespace Batch

def schema : Wire.Schema where
  name := "RawBatch"
  slot
    | 1 => some ⟨"batch", .bytes⟩
    | _ => none

def ofFields (fields : List Wire.Field) : Batch :=
  ⟨fields.filterMap fun
    | ⟨1, .bytes b⟩ => some b
    | _ => none⟩

def decode (data : Bytes) : Except Wire.Failure Batch := (schema.fields data).map ofFields

/-- The message. -/
def encode (b : Batch) : Bytes := b.entries.flatMap (Wire.bytesField 1)

/-- The batch of some events. -/
def ofEvents {α : Type} [Message α] (events : List α) : Batch := ⟨events.map Message.encode⟩

/-- Every event of the batch, up to the first that cannot be read. -/
def events {α : Type} [Message α] (b : Batch) : Except Wire.Failure (List α) :=
  b.entries.mapM Message.decode

/-- Length of one entry within the message. -/
def entrySize (body : Nat) : Nat := 1 + Varint.size body + body

/-- Appends the frame that carries some events: the length is computed from the sizes alone, ahead of
the body. -/
def append {α : Type} [Message α] (out : Bytes) (events : List α) : Bytes :=
  let encoded := events.map Message.encode
  let size := encoded.foldl (fun total b => total + entrySize b.length) 0
  out ++ Varint.encode size ++ encoded.flatMap (Wire.bytesField 1)

/-- The frame alone. -/
def frame {α : Type} [Message α] (events : List α) : Bytes := append [] events

end Batch

end TraceRelay
