/-!
# Byte strings

Everything that crosses a file or a stream is a list of bytes. Text is its UTF-8 form:
`text?_ofText` says that a text is read back from its bytes.
-/

namespace TraceRelay

abbrev Bytes := List UInt8

namespace Bytes

/-- The UTF-8 bytes of a text. -/
def ofText (s : String) : Bytes := s.toByteArray.data.toList

/-- The text whose UTF-8 bytes are `b`; none if `b` is not UTF-8. -/
def text? (b : Bytes) : Option String := String.fromUTF8? ⟨b.toArray⟩

@[simp] theorem text?_ofText (s : String) : text? (ofText s) = some s := by
  simp [text?, ofText, String.fromUTF8?, String.fromUTF8, s.isValidUTF8]

theorem text?_eq_some {b : Bytes} {s : String} : text? b = some s ↔ b = ofText s := by
  constructor
  · intro h
    rw [text?, String.fromUTF8?] at h
    split at h
    · cases h
      rfl
    · cases h
  · rintro rfl
    exact text?_ofText s

@[simp] theorem length_ofText (s : String) : (ofText s).length = s.utf8ByteSize := rfl

/-- Cuts bytes into pieces of `n`; all of them in one, if `n` is 0. -/
def pieces (n : Nat) (b : Bytes) : List Bytes :=
  if b = [] then [] else if n = 0 then [b] else b.take n :: pieces n (b.drop n)
termination_by b.length
decreasing_by
  have : 0 < b.length := List.length_pos_iff.2 (by assumption)
  simp only [List.length_drop]
  omega

/-- `width` bytes of `n`, least first. -/
def littleEndian : Nat → Nat → Bytes
  | 0, _ => []
  | width + 1, n => (n % 256).toUInt8 :: littleEndian width (n / 256)

/-- The number whose bytes are `b`, least first. -/
def ofLittleEndian : Bytes → Nat
  | [] => 0
  | b :: rest => b.toNat + 256 * ofLittleEndian rest

@[simp] theorem flatten_pieces (n : Nat) (b : Bytes) : (pieces n b).flatten = b := by
  fun_induction pieces n b <;> simp_all

@[simp] theorem length_littleEndian (width n : Nat) : (littleEndian width n).length = width := by
  induction width generalizing n with
  | zero => rfl
  | succ width ih => simp [littleEndian, ih]

end Bytes

end TraceRelay
