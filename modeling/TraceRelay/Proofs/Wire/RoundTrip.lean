import TraceRelay.Batch
import TraceRelay.Frame

/-!
# What is written is read back

1. A key, a block and each kind of field (`Schema.takeField_bytesField` and its like).
2. A whole message, field by field (`Schema.fields_cons`).
3. Batches, events (`Batch.decode_encode`, `Event.decode_encode`).
4. The length of a frame (`Frame.peek_encode`).
-/

namespace TraceRelay

namespace Wire

/-! ## Fields -/

theorem takeKey_encode {tag : Nat} {type : WireType} {n : Nat} (rest : Bytes)
    (hn : WireType.ofNat? n = some type) (h8 : n < 8) (hpos : 0 < tag)
    (hlt : tag * 8 + n < UInt32.size) :
    takeKey (Varint.encode (tag * 8 + n) ++ rest) = .ok (⟨tag, type⟩, rest) := by
  have h32 : UInt32.size = 4294967296 := rfl
  have h64 : UInt64.size = 18446744073709551616 := rfl
  rw [takeKey, Varint.take?_encode rest (by omega)]
  dsimp only
  rw [if_neg (by omega), show (tag * 8 + n) % 8 = n by omega, hn]
  dsimp only
  rw [if_neg (by omega), show (tag * 8 + n) / 8 = tag by omega]

theorem takeBlock_encode {b : Bytes} (rest : Bytes) (h : b.length < UInt64.size) :
    takeBlock (Varint.encode b.length ++ b ++ rest) = .ok (b, rest) := by
  rw [takeBlock, takeVarint, List.append_assoc, Varint.take?_encode _ h]
  show takeExactly b.length (b ++ rest) = _
  rw [takeExactly, if_pos (by rw [List.length_append]; omega), List.take_left, List.drop_left]

theorem takeValue_bytes {b : Bytes} (rest : Bytes) (h : b.length < UInt64.size) :
    takeValue .bytes .lengthDelimited (Varint.encode b.length ++ b ++ rest) =
      .ok (.bytes b, rest) := by
  rw [takeValue, if_neg (fun h => h rfl), takeBlock_encode rest h]
  rfl

theorem takeValue_text {s : String} (rest : Bytes) (h : s.utf8ByteSize < UInt64.size) :
    takeValue .text .lengthDelimited
      (Varint.encode (Bytes.ofText s).length ++ Bytes.ofText s ++ rest) = .ok (.text s, rest) := by
  rw [takeValue, if_neg (fun h => h rfl), takeBlock_encode rest (by rwa [Bytes.length_ofText])]
  dsimp only [bind, Except.bind]
  rw [Bytes.text?_ofText]
  rfl

theorem takeValue_number {n : Nat} (rest : Bytes) (h : n < UInt64.size) :
    takeValue .number .varint (Varint.encode n ++ rest) = .ok (.number n, rest) := by
  rw [takeValue, if_neg (fun h => h rfl), takeVarint, Varint.take?_encode rest h]
  rfl

namespace Schema

variable {schema : Schema} {tag : Nat} {name : String}

/-- A known field is read by its key and its kind. -/
theorem takeField_of_value {slot : Slot} {n : Nat} {value : Value} {body rest : Bytes}
    (hslot : schema.slot tag = some slot) (htype : WireType.ofNat? n = some slot.kind.wireType)
    (h8 : n < 8) (hpos : 0 < tag) (hlt : tag * 8 + n < UInt32.size)
    (hvalue : takeValue slot.kind slot.kind.wireType body = .ok (value, rest)) :
    schema.takeField (Varint.encode (tag * 8 + n) ++ body) = .ok (some ⟨tag, value⟩, rest) := by
  rw [takeField, takeKey_encode body htype h8 hpos hlt]
  dsimp only
  rw [hslot]
  dsimp only
  rw [hvalue]

theorem takeField_bytesField (hslot : schema.slot tag = some ⟨name, .bytes⟩) (hpos : 0 < tag)
    (hlt : tag * 8 + 2 < UInt32.size) {b : Bytes} (rest : Bytes) (h : b.length < UInt64.size) :
    schema.takeField (bytesField tag b ++ rest) = .ok (some ⟨tag, .bytes b⟩, rest) := by
  rw [bytesField, List.append_assoc, List.append_assoc, ← List.append_assoc (Varint.encode b.length)]
  exact takeField_of_value hslot rfl (by omega) hpos hlt (takeValue_bytes rest h)

theorem takeField_text (hslot : schema.slot tag = some ⟨name, .text⟩) (hpos : 0 < tag)
    (hlt : tag * 8 + 2 < UInt32.size) {s : String} (rest : Bytes)
    (h : s.utf8ByteSize < UInt64.size) :
    schema.takeField (bytesField tag (Bytes.ofText s) ++ rest) =
      .ok (some ⟨tag, .text s⟩, rest) := by
  rw [bytesField, List.append_assoc, List.append_assoc,
    ← List.append_assoc (Varint.encode (Bytes.ofText s).length)]
  exact takeField_of_value hslot rfl (by omega) hpos hlt (takeValue_text rest h)

theorem takeField_number (hslot : schema.slot tag = some ⟨name, .number⟩) (hpos : 0 < tag)
    (hlt : tag * 8 < UInt32.size) {n : Nat} (rest : Bytes) (h : n < UInt64.size) :
    schema.takeField (Varint.encode (tag * 8) ++ Varint.encode n ++ rest) =
      .ok (some ⟨tag, .number n⟩, rest) := by
  rw [List.append_assoc]
  exact takeField_of_value (n := 0) hslot rfl (by omega) hpos hlt (takeValue_number rest h)

theorem fields_nil (schema : Schema) : schema.fields [] = .ok [] := by rw [fields, if_pos rfl]

/-- A message is read field by field. -/
theorem fields_cons {data rest : Bytes} {field : Option Field}
    (h : schema.takeField data = .ok (field, rest)) :
    schema.fields data = (schema.fields rest).map (field.toList ++ ·) := by
  have hne : data ≠ [] := by
    rintro rfl
    have := length_takeField h
    exact absurd this (Nat.not_lt_zero _)
  rw [fields, if_neg hne]
  split
  · next hf => rw [h] at hf; cases hf
  · next hf =>
    rw [h] at hf
    cases hf
    cases schema.fields rest <;> rfl

end Schema

end Wire

/-! ## Batches -/

namespace Batch

/-- **A batch is read back** from the message that carries it. -/
theorem decode_encode (b : Batch) (h : ∀ entry ∈ b.entries, entry.length < UInt64.size) :
    decode b.encode = .ok b := by
  obtain ⟨entries⟩ := b
  have hslot : schema.slot 1 = some ⟨"batch", .bytes⟩ := rfl
  have hfields : schema.fields (entries.flatMap (Wire.bytesField 1)) =
      .ok (entries.map fun entry => ⟨1, .bytes entry⟩) := by
    induction entries with
    | nil => exact Wire.Schema.fields_nil _
    | cons entry entries ih =>
      rw [List.flatMap_cons, Wire.Schema.fields_cons (Wire.Schema.takeField_bytesField
        hslot (by decide) (by decide) _ (h entry (List.mem_cons_self ..))),
        ih fun entry hmem => h entry (List.mem_cons_of_mem _ hmem)]
      rfl
  rw [decode, encode, hfields]
  simp only [Except.map, ofFields, List.filterMap_map, Function.comp_def, List.filterMap_some]

theorem length_bytesField (b : Bytes) : (Wire.bytesField 1 b).length = entrySize b.length := by
  rw [Wire.bytesField, List.length_append, List.length_append, Varint.length_encode,
    Varint.length_encode, entrySize, Varint.size, if_pos (by decide)]

/-- **The length that a frame announces**, from the sizes alone, is that of its body. -/
theorem append_eq {α : Type} [Message α] (out : Bytes) (events : List α) :
    append out events = out ++ Wire.block (ofEvents events).encode := by
  have hsize (start : Nat) (entries : List Bytes) :
      entries.foldl (fun total b => total + entrySize b.length) start =
        start + (entries.flatMap (Wire.bytesField 1)).length := by
    induction entries generalizing start with
    | nil => rfl
    | cons entry entries ih =>
      rw [List.foldl_cons, ih, List.flatMap_cons, List.length_append, length_bytesField]
      omega
  rw [append, hsize, Nat.zero_add, List.append_assoc]
  rfl

theorem frame_eq {α : Type} [Message α] (events : List α) :
    frame events = Wire.block (ofEvents events).encode := append_eq [] events

end Batch

/-! ## Events -/

namespace Event

theorem fields_name {s : String} (rest : Bytes) (h : s.utf8ByteSize < UInt64.size) :
    schema.fields (Wire.textField 1 s ++ rest) = (schema.fields rest).map fun fields =>
      (if s = "" then [] else [⟨1, .text s⟩]) ++ fields := by
  unfold Wire.textField
  by_cases hs : s = ""
  · simp only [if_pos hs, List.nil_append]
    cases schema.fields rest <;> rfl
  · simp only [if_neg hs]
    have hslot : schema.slot 1 = some ⟨"name", .text⟩ := rfl
    rw [Wire.Schema.fields_cons (Wire.Schema.takeField_text hslot (by decide) (by decide) rest h)]
    rfl

theorem fields_seq {n : Nat} (h : n < UInt64.size) :
    schema.fields (Wire.numberField 2 n) = .ok (if n = 0 then [] else [⟨2, .number n⟩]) := by
  unfold Wire.numberField
  by_cases hn : n = 0
  · rw [if_pos hn, if_pos hn]
    exact Wire.Schema.fields_nil _
  · have hslot : schema.slot 2 = some ⟨"seq", .number⟩ := rfl
    have hfield := Wire.Schema.takeField_number hslot (by decide) (by decide) [] h
    rw [List.append_nil] at hfield
    rw [if_neg hn, if_neg hn, Wire.Schema.fields_cons hfield, Wire.Schema.fields_nil]
    rfl

/-- **An event is read back**; what is not written is the default. -/
theorem decode_encode {e : Event} (h : e.name.utf8ByteSize < UInt64.size) :
    decode e.encode = .ok e := by
  obtain ⟨name, seq⟩ := e
  rw [decode, encode, fields_name _ h, fields_seq seq.toNat_lt]
  by_cases hname : name = ""
  · by_cases hseq : seq.toNat = 0
    · have : seq = 0 := UInt64.toNat_inj.mp hseq
      rw [if_pos hseq]
      simp [Except.map, hname, this]
    · simp [Except.map, hname, hseq, set]
  · by_cases hseq : seq.toNat = 0
    · have : seq = 0 := UInt64.toNat_inj.mp hseq
      rw [if_pos hseq]
      simp [Except.map, hname, this, set]
    · simp [Except.map, hname, hseq, set]

/-- An event whose message is not too long to have a length is read back. -/
theorem decode_of_length {e : Event} (h : (Message.encode e).length < UInt64.size) :
    Message.decode (Message.encode e) = .ok e := by
  apply decode_encode
  refine Nat.lt_of_le_of_lt ?_ h
  show e.name.utf8ByteSize ≤ (Wire.textField 1 e.name ++ Wire.numberField 2 e.seq.toNat).length
  rw [List.length_append]
  unfold Wire.textField
  by_cases hname : e.name = ""
  · rw [hname]
    exact Nat.zero_le _
  · rw [if_neg hname, Wire.bytesField, List.length_append, Bytes.length_ofText]
    omega

end Event

/-! ## Frames -/

namespace Frame

theorem digit_of_lt {place : Nat} {b : UInt8}
    (h : b.toNat % 128 * Nat.pow 128 place < UInt64.size) :
    digit place b = b.toNat % 128 * Nat.pow 128 place := Nat.mod_eq_of_lt h

theorem peekAt_encode (place value : Nat) {n : Nat} (rest : Bytes) (hp : place ≤ 9)
    (hn : n * Nat.pow 128 place < UInt64.size) :
    peekAt place value (Varint.encode n ++ rest) =
      .found (value + n * Nat.pow 128 place) (place + Varint.size n) := by
  rw [Nat.pow_eq] at hn ⊢
  fun_induction Varint.encode n generalizing place value with
  | case1 n h =>
    have hb : n.toUInt8.toNat = n := by simp; omega
    have hlt : ¬ maxPrefix ≤ place := by unfold maxPrefix; omega
    rw [List.cons_append, List.nil_append, peekAt, if_neg hlt, if_pos (by rw [hb]; exact h),
      digit_of_lt (by rw [hb, Nat.mod_eq_of_lt h]; exact hn), hb, Nat.mod_eq_of_lt h, Varint.size,
      if_pos h, Nat.pow_eq]
  | case2 n h ih =>
    have hb : (n % 128 + 128).toUInt8.toNat = n % 128 + 128 := by simp; omega
    have hpow : 0 < 128 ^ place := Nat.pow_pos (by decide)
    have hsplit : n % 128 * 128 ^ place + n / 128 * 128 ^ (place + 1) = n * 128 ^ place := by
      rw [Nat.pow_succ, Nat.mul_comm (128 ^ place) 128, ← Nat.mul_assoc, ← Nat.add_mul,
        Nat.mul_comm (n / 128), Nat.mod_add_div]
    have h8 : place ≤ 8 := by
      by_cases hp9 : place = 9
      · subst hp9
        have : 128 * 128 ^ 9 ≤ n * 128 ^ 9 := Nat.mul_le_mul_right _ (by omega)
        have hbig : UInt64.size ≤ 128 * 128 ^ 9 := by decide
        omega
      · omega
    have hlt : ¬ maxPrefix ≤ place := by unfold maxPrefix; omega
    rw [List.cons_append, peekAt, if_neg hlt, if_neg (by rw [hb]; omega), digit_of_lt, hb,
      ih _ _ (by omega) (by omega), Nat.pow_eq]
    · have hsize : Varint.size n = Varint.size (n / 128) + 1 := by
        conv => lhs; rw [Varint.size, if_neg h]
      rw [hsize]
      congr 1
      · rw [show (n % 128 + 128) % 128 = n % 128 by omega]; omega
      · omega
    · rw [hb, show (n % 128 + 128) % 128 = n % 128 by omega, Nat.pow_eq]; omega

/-- **A length is read back**, whatever follows. -/
theorem peek_encode {n : Nat} (rest : Bytes) (hn : n < UInt64.size) :
    peek (Varint.encode n ++ rest) = .found n (Varint.size n) := by
  have := peekAt_encode 0 0 rest (by omega) (n := n) (by rw [Nat.pow_eq]; omega)
  rw [Nat.pow_eq, Nat.pow_zero, Nat.mul_one, Nat.zero_add, Nat.zero_add] at this
  exact this

end Frame

end TraceRelay
