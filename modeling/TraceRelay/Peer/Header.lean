import TraceRelay.Peer
import TraceRelay.Source
import TraceRelay.Varint

/-!
# The header of a stream

Whoever opens a stream names its protocol first: the length of the line, as a base-128 number of
at most three bytes, and the line, which is the name and a newline. The length counts the newline.
A read that fails ends the header, also one that was only interrupted.
-/

namespace TraceRelay.Header

/-- A line is at most this long. -/
def maxLength : Nat := 1024

/-- A length has at most this many bytes. -/
def maxPrefix : Nat := 3

def write (protocol : String) : Bytes :=
  let name := Bytes.ofText protocol
  Varint.encode (name.length + 1) ++ name ++ [10]

variable {σ : Type} [ByteSource σ]

/-- Goes on with a length of which `place` bytes, worth `value`, were read. -/
def readLength (source : σ) (place value : Nat) : Except HostFailure Nat × σ :=
  if place < maxPrefix then
    match ByteSource.read source 1 with
    | (.error f, source) => (.error (.io f), source)
    | (.ok [], source) => (.error (.io .unexpectedEof), source)
    | (.ok (b :: _), source) =>
      let value := value + b.toNat % 128 * Nat.pow 128 place
      if b.toNat < 128 then (.ok value, source) else readLength source (place + 1) value
  else (.error (.protocol "header length prefix too long"), source)
termination_by maxPrefix - place

/-- The name on a line. -/
def nameOf (line : Bytes) : Except HostFailure String :=
  if line.getLast? ≠ some 10 then .error (.protocol "header is not newline-terminated")
  else match Bytes.text? line.dropLast with
    | some name => .ok name
    | none => .error (.protocol "header is not UTF-8")

/-- Reads a header, and nothing beyond it. -/
def read (source : σ) : Except HostFailure String × σ :=
  match readLength source 0 0 with
  | (.error e, source) => (.error e, source)
  | (.ok len, source) =>
    if len = 0 ∨ maxLength < len then (.error (.protocol s!"invalid header length {len}"), source)
    else match ByteSource.readExact ByteSource.read source len [] with
      | (.full line, source) => (nameOf line, source)
      | (.short _, source) => (.error (.io .earlyEof), source)
      | (.failed f, source) => (.error (.io f), source)

end TraceRelay.Header
