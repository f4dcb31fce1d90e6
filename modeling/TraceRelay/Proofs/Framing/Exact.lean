import TraceRelay.Proofs.Framing.Prefix
import TraceRelay.Proofs.Framing.Written

/-!
# Batches are written as they are read

The frame of some events is appended to whatever was written before it: a length, which is that of the
message behind it, and the message of the batch. From this message the batch is read back, and from the
batch its events (`append_exact`).

What is read of any message can be written again: a number is below `2 ^ 64`, and so is the length of a
text or of bytes (`Schema.fields_fit`). So a batch that was read, from however odd a message, is read from
its own message, and from there on nothing changes any more (`decode_settles`).
-/

namespace TraceRelay

theorem Varint.lt_of_take? {data rest : Bytes} {n : Nat} (h : take? data = some (n, rest)) :
    n < UInt64.size := by
  rw [take?_eq] at h
  split at h
  · next len size hpeek =>
    obtain ⟨q, -, -, -, -, -, rfl⟩ := Frame.peek_eq_found.mp hpeek
    split at h
    · cases h
      exact Nat.mod_lt _ (by decide)
    · cases h
  · cases h
  · cases h

namespace Wire

/-! ## What is read can be written -/

/-- A value whose number, or whose length, is below `2 ^ 64`. -/
def Value.Fits : Value → Prop
  | .number n => n < UInt64.size
  | .text s => s.utf8ByteSize < UInt64.size
  | .bytes b => b.length < UInt64.size

variable {data rest : Bytes}

theorem takeBlock_fits {b : Bytes} (h : takeBlock data = .ok (b, rest)) : b.length < UInt64.size := by
  unfold takeBlock takeVarint at h
  cases htake : Varint.take? data with
  | none => rw [htake] at h; cases h
  | some found =>
    obtain ⟨n, more⟩ := found
    rw [htake] at h
    have hn := Varint.lt_of_take? htake
    have hexact : takeExactly n more = .ok (b, rest) := h
    unfold takeExactly at hexact
    split at hexact
    · next hle =>
      cases hexact
      rw [List.length_take]
      omega
    · cases hexact

theorem takeValue_fits {kind : Kind} {found : WireType} {value : Value}
    (h : takeValue kind found data = .ok (value, rest)) : value.Fits := by
  unfold takeValue at h
  split at h
  · cases h
  cases kind with
  | number =>
    unfold takeVarint at h
    cases htake : Varint.take? data with
    | none => rw [htake] at h; cases h
    | some taken =>
      rw [htake] at h
      cases h
      exact Varint.lt_of_take? htake
  | bytes =>
    cases hblock : takeBlock data with
    | error e => rw [hblock] at h; cases h
    | ok block =>
      rw [hblock] at h
      cases h
      exact takeBlock_fits hblock
  | text =>
    cases hblock : takeBlock data with
    | error e => rw [hblock] at h; cases h
    | ok block =>
      obtain ⟨b, more⟩ := block
      have hb := takeBlock_fits hblock
      rw [hblock] at h
      dsimp only [bind, Except.bind] at h
      cases htext : Bytes.text? b with
      | none => rw [htext] at h; cases h
      | some s =>
        rw [htext] at h
        cases h
        rw [Bytes.text?_eq_some.mp htext, Bytes.length_ofText] at hb
        exact hb

namespace Schema

variable {schema : Schema} {field : Field} {fields : List Field}

theorem takeField_fits (h : schema.takeField data = .ok (some field, rest)) : field.value.Fits := by
  unfold takeField at h
  split at h
  · cases h
  · split at h
    · split at h <;> cases h
    · split at h
      · cases h
      · next hvalue =>
        cases h
        exact takeValue_fits hvalue

/-- **Every field that is read of a message can be written again.** -/
theorem fields_fit (h : schema.fields data = .ok fields) : ∀ field ∈ fields, field.value.Fits := by
  fun_induction Schema.fields schema data generalizing fields with
  | case1 => cases h; nofun
  | case2 => cases h
  | case3 => cases h
  | case4 data hne field? rest hfield found hrest ih =>
    cases h
    intro field hmem
    rcases List.mem_append.mp hmem with hfirst | hlater
    · rw [Option.mem_toList] at hfirst
      subst hfirst
      exact takeField_fits hfield
    · exact ih hrest field hlater

end Schema

end Wire

namespace Batch

variable {α : Type} [Message α]

theorem length_entry_lt {data : Bytes} {b : Batch} (h : decode data = .ok b) {entry : Bytes}
    (hentry : entry ∈ b.entries) : entry.length < UInt64.size := by
  unfold decode at h
  cases hfields : schema.fields data with
  | error e => rw [hfields] at h; cases h
  | ok fields =>
    rw [hfields] at h
    cases h
    obtain ⟨field, hmem, hfield⟩ := List.mem_filterMap.mp hentry
    have hfits := Wire.Schema.fields_fit hfields field hmem
    split at hfield
    · cases hfield
      exact hfits
    · cases hfield

/-- **A batch that was read is read from its own message**, whatever message it came from, and that
message is its own from then on. -/
theorem decode_settles {data : Bytes} {b : Batch} (h : decode data = .ok b) :
    decode b.encode = .ok b ∧ (decode b.encode).map encode = .ok b.encode := by
  have hsame := decode_encode b fun entry hentry => length_entry_lt h hentry
  exact ⟨hsame, by rw [hsame]; rfl⟩

/-- **The frame of some events is exact.** It is appended to what was written before and leaves that alone;
it announces the length of the message that follows; this message is read as the batch of the encoded
events, in order, and the batch as the events. A batch read from any other message is read in the same way
once it has been written. -/
theorem append_exact (out : Bytes) (events : List α)
    (fits : ∀ e ∈ events, (Message.encode e).length < UInt64.size)
    (lawful : ∀ e ∈ events, Message.decode (Message.encode e) = .ok e) :
    append out events =
      out ++ (Varint.encode (ofEvents events).encode.length ++ (ofEvents events).encode) ∧
    decode (ofEvents events).encode = .ok ⟨events.map Message.encode⟩ ∧
    (Batch.mk (events.map Message.encode)).events = .ok events ∧
    ∀ data b, decode data = .ok b →
      decode b.encode = .ok b ∧ (decode b.encode).map encode = .ok b.encode := by
  refine ⟨append_eq out events, decode_encode _ ?_, events_ofEvents lawful, fun _ _ => decode_settles⟩
  exact List.forall_mem_map.mpr fits

/-- An empty event, one whose message has a length of one byte and one with a length of two, behind a byte
that was there before. Of a message with an unknown field, and with a length in more bytes than it needs, the
entry is kept. -/
theorem append_exact_widths :
    let long := String.ofList (List.replicate 130 'x')
    let events : List Event := [⟨"", 0⟩, ⟨"a", 1⟩, ⟨long, 2⟩]
    let odd : Bytes := [0x10, 0x05, 0x0A, 0x81, 0x00, 0x61]
    (∀ e ∈ events, (Message.encode e).length < UInt64.size) ∧
    (∀ e ∈ events, Message.decode (Message.encode e) = .ok e) ∧
    (ofEvents events).encode.length = 147 ∧
    append [7] events = [7] ++ ([0x93, 0x01] ++ (ofEvents events).encode) ∧
    decode (ofEvents events).encode = .ok ⟨events.map Message.encode⟩ ∧
    (Batch.mk (events.map Message.encode)).events = .ok events ∧
    decode odd = .ok ⟨[[0x61]]⟩ ∧ (Batch.mk [[0x61]]).encode = [0x0A, 0x01, 0x61] ∧
    decode [0x0A, 0x01, 0x61] = .ok ⟨[[0x61]]⟩ := by
  intro long events odd
  have hfits : ∀ e ∈ events, (Message.encode e).length < UInt64.size := by decide +kernel
  have hlawful : ∀ e ∈ events, Message.decode (Message.encode e) = .ok e :=
    fun e he => Event.decode_of_length (hfits e he)
  have hlength : (ofEvents events).encode.length = 147 := by decide +kernel
  obtain ⟨happend, hdecode, hevents, hsettles⟩ := append_exact [7] events hfits hlawful
  have hodd : decode odd = .ok ⟨[[0x61]]⟩ := by decide +kernel
  have hencode : (Batch.mk [[0x61]]).encode = [0x0A, 0x01, 0x61] := by decide +kernel
  refine ⟨hfits, hlawful, hlength, ?_, hdecode, hevents, hodd, hencode, ?_⟩
  · rw [happend, hlength]
    congr 2
    decide +kernel
  · rw [← hencode]
    exact (hsettles odd _ hodd).1

end Batch

end TraceRelay
