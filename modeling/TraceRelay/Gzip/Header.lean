import TraceRelay.Bytes
import TraceRelay.Checksum
import TraceRelay.Fault

/-!
# The header of a gzip stream

Ten bytes, of which the fourth says which fields follow: extra data with its length, a name, a
comment, each ended by a zero, and a check of the header itself. The ten bytes are judged once all
of them are there.
-/

namespace TraceRelay.Gzip

/-- What a stream can prove to be wrong with it. -/
inductive Defect where
  | badHeader
  | longField
  /-- A check that does not agree with what it covers. -/
  | mismatch
  | corruptData
  /-- Something follows the trailer. -/
  | trailing
  deriving DecidableEq, Repr

namespace Defect

/-- What is reported of a defect. -/
def fault : Defect → Fault
  | badHeader => ⟨.invalidInput, "invalid gzip header"⟩
  | longField => ⟨.invalidInput, "gzip header field too long"⟩
  | mismatch => ⟨.invalidInput, "corrupt gzip stream does not have a matching checksum"⟩
  | corruptData => ⟨.invalidInput, "corrupt deflate stream"⟩
  | trailing => .wholeBuffer

/-- A defect is not taken for an interruption, so nothing is tried again for it. -/
theorem isInterrupted_fault (d : Defect) : d.fault.isInterrupted = false := by
  cases d <;> rfl

end Defect

/-- The part of a header that comes next. -/
inductive Stage where
  | fixed
  | extraLength
  /-- Extra data, of which `left` bytes are to come. -/
  | extra (left : Nat)
  /-- A name of which `size` bytes were read. -/
  | name (size : Nat)
  | comment (size : Nat)
  | check
  | complete
  deriving DecidableEq, Repr, Inhabited

/-- A header being read: its bytes so far, last first, and those of the part being read. -/
structure Header where
  stage : Stage
  flags : Nat
  before : Bytes
  current : Bytes
  deriving Repr, Inhabited

namespace Header

def start : Header := ⟨.fixed, 0, [], []⟩

/-- Fields hold at most this many bytes. -/
def maxField : Nat := 65535

def hasFlag (flags bit : Nat) : Bool := flags.testBit bit

/-- The part that comes at or after the check. -/
def enterCheck (flags : Nat) : Stage := if hasFlag flags 1 then .check else .complete

def enterComment (flags : Nat) : Stage :=
  if hasFlag flags 4 then .comment 0 else enterCheck flags

def enterName (flags : Nat) : Stage := if hasFlag flags 3 then .name 0 else enterComment flags

def enterExtra (flags : Nat) : Stage := if hasFlag flags 2 then .extraLength else enterName flags

/-- Leaves the part being read, whose bytes are `part`, for the next one. -/
def leave (h : Header) (part : Bytes) (stage : Stage) : Header :=
  { h with stage, before := part.reverse ++ h.before, current := [] }

/-- The ten fixed bytes: magic, method, no unknown flag. -/
def judgeFixed (h : Header) (part : Bytes) : Except Defect Header :=
  match part with
  | 0x1f :: 0x8b :: 8 :: flags :: _ =>
    if 32 ≤ flags.toNat then .error .badHeader
    else .ok ({ h with flags := flags.toNat }.leave part (enterExtra flags.toNat))
  | _ => .error .badHeader

/-- A byte of a field that ends at a zero. -/
def feedField (h : Header) (b : UInt8) (size : Nat) (again : Nat → Stage) (next : Stage) :
    Except Defect Header :=
  if b = 0 then .ok { h with stage := next, before := b :: h.before }
  else if size = maxField then .error .longField
  else .ok { h with stage := again (size + 1), before := b :: h.before }

/-- Takes one byte. -/
def feed (h : Header) (b : UInt8) : Except Defect Header :=
  let part := h.current ++ [b]
  match h.stage with
  | .fixed => if part.length < 10 then .ok { h with current := part } else h.judgeFixed part
  | .extraLength =>
    if part.length < 2 then .ok { h with current := part }
    else
      let left := Bytes.ofLittleEndian part
      .ok (h.leave part (if left = 0 then enterName h.flags else .extra left))
  | .extra left => .ok (h.leave [b] (if left ≤ 1 then enterName h.flags else .extra (left - 1)))
  | .name size => h.feedField b size .name (enterComment h.flags)
  | .comment size => h.feedField b size .comment (enterCheck h.flags)
  | .check =>
    if part.length < 2 then .ok { h with current := part }
    else if Bytes.ofLittleEndian part = (Checksum.ofBytes h.before.reverse).toNat % 65536 then
      .ok (h.leave part .complete)
    else .error .mismatch
  | .complete => .ok h

end Header

end TraceRelay.Gzip
