import TraceRelay.Varint

/-!
# Messages as tagged fields

A message is a run of fields. A field is a key, which packs its number and its wire type, and a
value whose extent the wire type fixes.

* `Schema` says which fields a message knows; every other field is skipped.
* `Schema.fields` reads the known fields in order, up to the first failure.
* `Failure.message` words a failure.
-/

namespace TraceRelay.Wire

inductive WireType where
  | varint
  | sixtyFourBit
  | lengthDelimited
  | startGroup
  | endGroup
  | thirtyTwoBit
  deriving DecidableEq, Repr

namespace WireType

def name : WireType → String
  | varint => "Varint"
  | sixtyFourBit => "SixtyFourBit"
  | lengthDelimited => "LengthDelimited"
  | startGroup => "StartGroup"
  | endGroup => "EndGroup"
  | thirtyTwoBit => "ThirtyTwoBit"

def ofNat? : Nat → Option WireType
  | 0 => some varint
  | 1 => some sixtyFourBit
  | 2 => some lengthDelimited
  | 3 => some startGroup
  | 4 => some endGroup
  | 5 => some thirtyTwoBit
  | _ => none

end WireType

/-! ## Failures -/

/-- Why a message could not be read. -/
inductive Cause where
  | varint
  | keyValue (key : Nat)
  | wireTypeValue (value : Nat)
  | tagZero
  | wireType (found expected : WireType)
  | underflow
  | notUtf8
  | endGroup
  | recursion
  deriving DecidableEq, Repr

def Cause.message : Cause → String
  | varint => "invalid varint"
  | keyValue key => s!"invalid key value: {key}"
  | wireTypeValue value => s!"invalid wire type value: {value}"
  | tagZero => "invalid tag value: 0"
  | wireType found expected => s!"invalid wire type: {found.name} (expected {expected.name})"
  | underflow => "buffer underflow"
  | notUtf8 => "invalid string value: data is not UTF-8 encoded"
  | endGroup => "unexpected end group tag"
  | recursion => "recursion limit reached"

/-- A cause, and the known field in which it arose. -/
structure Failure where
  message? : Option (String × String)
  cause : Cause
  deriving DecidableEq, Repr

def Failure.message (f : Failure) : String :=
  let place := match f.message? with
    | some (message, field) => s!"{message}.{field}: "
    | none => ""
  s!"failed to decode Protobuf message: {place}{f.cause.message}"

/-! ## Keys and extents -/

structure Key where
  tag : Nat
  type : WireType
  deriving DecidableEq, Repr

/-- The key at the front: below `2 ^ 32`, of a known wire type, and not of field 0. -/
def takeKey (data : Bytes) : Except Cause (Key × Bytes) :=
  match Varint.take? data with
  | none => .error .varint
  | some (key, rest) =>
    if UInt32.size ≤ key then .error (.keyValue key)
    else match WireType.ofNat? (key % 8) with
      | none => .error (.wireTypeValue (key % 8))
      | some type => if key / 8 = 0 then .error .tagZero else .ok (⟨key / 8, type⟩, rest)

theorem length_takeKey {data rest : Bytes} {key : Key} (h : takeKey data = .ok (key, rest)) :
    rest.length < data.length := by
  unfold takeKey at h
  split at h
  · simp at h
  · next hv =>
    split at h
    · simp at h
    · split at h
      · simp at h
      · split at h
        · simp at h
        · simp only [Except.ok.injEq, Prod.mk.injEq] at h
          exact h.2 ▸ Varint.length_take? hv

def takeVarint (data : Bytes) : Except Cause (Nat × Bytes) :=
  match Varint.take? data with
  | none => .error .varint
  | some found => .ok found

theorem length_takeVarint {data rest : Bytes} {n : Nat} (h : takeVarint data = .ok (n, rest)) :
    rest.length < data.length := by
  unfold takeVarint at h
  split at h
  · simp at h
  · next hv => simp only [Except.ok.injEq] at h; exact Varint.length_take? (h ▸ hv)

/-- The first `n` bytes and the rest. -/
def takeExactly (n : Nat) (data : Bytes) : Except Cause (Bytes × Bytes) :=
  if n ≤ data.length then .ok (data.take n, data.drop n) else .error .underflow

theorem length_takeExactly {n : Nat} {data body rest : Bytes}
    (h : takeExactly n data = .ok (body, rest)) : rest.length ≤ data.length := by
  unfold takeExactly at h
  split at h
  · simp only [Except.ok.injEq, Prod.mk.injEq] at h; simp [← h.2]
  · simp at h

/-- A length and that many bytes. -/
def takeBlock (data : Bytes) : Except Cause (Bytes × Bytes) := do
  let (n, rest) ← takeVarint data
  takeExactly n rest

theorem length_takeBlock {data body rest : Bytes} (h : takeBlock data = .ok (body, rest)) :
    rest.length < data.length := by
  simp only [takeBlock, bind, Except.bind] at h
  split at h
  · simp at h
  · next found hv => exact Nat.lt_of_le_of_lt (length_takeExactly h) (length_takeVarint hv)

/-! ## Skipping -/

/-- Groups nest to this depth. -/
def maxDepth : Nat := 100

/-- What follows a value that is not a group. -/
def skipScalar (type : WireType) (data : Bytes) : Except Cause Bytes :=
  match type with
  | .varint => do let (_, rest) ← takeVarint data; return rest
  | .sixtyFourBit => do let (_, rest) ← takeExactly 8 data; return rest
  | .thirtyTwoBit => do let (_, rest) ← takeExactly 4 data; return rest
  | .lengthDelimited => do let (_, rest) ← takeBlock data; return rest
  | .startGroup | .endGroup => .error .endGroup

theorem length_skipScalar {type : WireType} {data rest : Bytes}
    (h : skipScalar type data = .ok rest) : rest.length ≤ data.length := by
  unfold skipScalar at h
  cases type <;> simp only [bind, Except.bind, pure, Except.pure] at h <;> try split at h
  all_goals try simp at h
  · next hv => exact Nat.le_of_lt (h ▸ length_takeVarint hv)
  · next hv => exact h ▸ length_takeExactly hv
  · next hv => exact Nat.le_of_lt (h ▸ length_takeBlock hv)
  · next hv => exact h ▸ length_takeExactly hv

/-- Reads up to the end of the outermost of the open groups, innermost first. -/
def closeGroups (opened : List Nat) (data : Bytes) : Except Cause Bytes :=
  match opened with
  | [] => .ok data
  | tag :: outer =>
    match _hk : takeKey data with
    | .error c => .error c
    | .ok (key, rest) =>
      if key.type = .endGroup then
        if key.tag = tag then closeGroups outer rest else .error .endGroup
      else if maxDepth ≤ outer.length + 1 then .error .recursion
      else if key.type = .startGroup then closeGroups (key.tag :: tag :: outer) rest
      else match _hs : skipScalar key.type rest with
        | .error c => .error c
        | .ok rest' => closeGroups (tag :: outer) rest'
termination_by data.length
decreasing_by
  · exact length_takeKey _hk
  · exact length_takeKey _hk
  · exact Nat.lt_of_le_of_lt (length_skipScalar _hs) (length_takeKey _hk)

theorem length_closeGroups {opened : List Nat} {data rest : Bytes}
    (h : closeGroups opened data = .ok rest) : rest.length ≤ data.length := by
  fun_induction closeGroups opened data with
  | case1 => simp at h; simp [h]
  | case2 => simp at h
  | case3 => rename_i hk _ ih; exact Nat.le_trans (ih h) (Nat.le_of_lt (length_takeKey hk))
  | case4 => simp at h
  | case5 => simp at h
  | case6 => rename_i hk _ _ _ ih; exact Nat.le_trans (ih h) (Nat.le_of_lt (length_takeKey hk))
  | case7 => simp at h
  | case8 =>
    rename_i hk _ _ _ _ hs ih
    exact Nat.le_trans (ih h) (Nat.le_trans (length_skipScalar hs) (Nat.le_of_lt (length_takeKey hk)))

/-- What follows a value of any wire type. -/
def skip (key : Key) (data : Bytes) : Except Cause Bytes :=
  if key.type = .startGroup then closeGroups [key.tag] data else skipScalar key.type data

theorem length_skip {key : Key} {data rest : Bytes} (h : skip key data = .ok rest) :
    rest.length ≤ data.length := by
  unfold skip at h
  split at h
  · exact length_closeGroups h
  · exact length_skipScalar h

/-! ## Known fields -/

/-- What a known field holds. -/
inductive Kind where
  | number
  | text
  | bytes
  deriving DecidableEq, Repr

inductive Value where
  | number (n : Nat)
  | text (s : String)
  | bytes (b : Bytes)
  deriving DecidableEq, Repr

structure Slot where
  name : String
  kind : Kind
  deriving DecidableEq, Repr

/-- The fields that a message knows, by number. -/
structure Schema where
  name : String
  slot : Nat → Option Slot

structure Field where
  tag : Nat
  value : Value
  deriving DecidableEq, Repr

def Kind.wireType : Kind → WireType
  | number => .varint
  | text | bytes => .lengthDelimited

/-- A value of kind `kind`, whose key said `found`. The wire type is looked at first. -/
def takeValue (kind : Kind) (found : WireType) (data : Bytes) : Except Cause (Value × Bytes) :=
  if found ≠ kind.wireType then .error (.wireType found kind.wireType)
  else match kind with
    | .number => do let (n, rest) ← takeVarint data; return (.number n, rest)
    | .bytes => do let (b, rest) ← takeBlock data; return (.bytes b, rest)
    | .text => do
      let (b, rest) ← takeBlock data
      match Bytes.text? b with
      | none => .error .notUtf8
      | some s => return (.text s, rest)

theorem length_takeValue {kind : Kind} {found : WireType} {data rest : Bytes} {value : Value}
    (h : takeValue kind found data = .ok (value, rest)) : rest.length ≤ data.length := by
  unfold takeValue at h
  split at h
  · simp at h
  · cases kind <;> simp only [bind, Except.bind, pure, Except.pure] at h <;> split at h
    all_goals try simp at h
    · next hv => exact Nat.le_of_lt (h.2 ▸ length_takeVarint hv)
    · next hv =>
      split at h
      · simp at h
      · simp only [Except.ok.injEq, Prod.mk.injEq] at h
        exact Nat.le_of_lt (h.2 ▸ length_takeBlock hv)
    · next hv => exact Nat.le_of_lt (h.2 ▸ length_takeBlock hv)

/-- The field at the front; none if the message does not know it. -/
def Schema.takeField (schema : Schema) (data : Bytes) : Except Failure (Option Field × Bytes) :=
  match takeKey data with
  | .error c => .error ⟨none, c⟩
  | .ok (key, rest) =>
    match schema.slot key.tag with
    | none =>
      match skip key rest with
      | .error c => .error ⟨none, c⟩
      | .ok rest => .ok (none, rest)
    | some slot =>
      match takeValue slot.kind key.type rest with
      | .error c => .error ⟨some (schema.name, slot.name), c⟩
      | .ok (value, rest) => .ok (some ⟨key.tag, value⟩, rest)

theorem Schema.length_takeField {schema : Schema} {data rest : Bytes} {field : Option Field}
    (h : schema.takeField data = .ok (field, rest)) : rest.length < data.length := by
  unfold takeField at h
  split at h
  · simp at h
  · next hk =>
    have hlt := length_takeKey hk
    split at h <;> split at h <;> simp at h
    · next hs => exact Nat.lt_of_le_of_lt (h.2 ▸ length_skip hs) hlt
    · next hs => exact Nat.lt_of_le_of_lt (h.2 ▸ length_takeValue hs) hlt

/-- The known fields in order; the first failure ends the message. -/
def Schema.fields (schema : Schema) (data : Bytes) : Except Failure (List Field) :=
  if data = [] then .ok []
  else match _h : schema.takeField data with
    | .error f => .error f
    | .ok (field, rest) =>
      match schema.fields rest with
      | .error f => .error f
      | .ok fields => .ok (field.toList ++ fields)
termination_by data.length
decreasing_by exact schema.length_takeField _h

/-! ## Writing -/

/-- A number field; the default is not written. -/
def numberField (tag n : Nat) : Bytes :=
  if n = 0 then [] else Varint.encode (tag * 8) ++ Varint.encode n

/-- A field of bytes, whatever they are. -/
def bytesField (tag : Nat) (b : Bytes) : Bytes :=
  Varint.encode (tag * 8 + 2) ++ Varint.encode b.length ++ b

/-- A text field; the default is not written. -/
def textField (tag : Nat) (s : String) : Bytes :=
  if s = "" then [] else bytesField tag (Bytes.ofText s)

/-- A length and what it measures. -/
def block (b : Bytes) : Bytes := Varint.encode b.length ++ b

end TraceRelay.Wire
