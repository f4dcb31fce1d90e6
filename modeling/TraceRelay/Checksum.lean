import TraceRelay.Bytes

/-!
# The cyclic redundancy check of gzip

The remainder of a message over the polynomial `0xEDB88320`, bits least first, started from and
returned with all bits inverted.
-/

namespace TraceRelay.Checksum

/-- The remainder after one more bit. -/
def shift (r : UInt32) : UInt32 :=
  if r &&& 1 = 1 then (r >>> 1) ^^^ 0xEDB88320 else r >>> 1

/-- The remainder after one more byte. -/
def step (r : UInt32) (b : UInt8) : UInt32 :=
  shift (shift (shift (shift (shift (shift (shift (shift (r ^^^ b.toUInt32))))))))

def start : UInt32 := 0xFFFFFFFF

def finish (r : UInt32) : UInt32 := r ^^^ 0xFFFFFFFF

def ofBytes (b : Bytes) : UInt32 := finish (b.foldl step start)

def ofArray (a : Array UInt8) : UInt32 := finish (a.foldl step start)

theorem ofArray_eq (a : Array UInt8) : ofArray a = ofBytes a.toList := by
  simp [ofArray, ofBytes]

end TraceRelay.Checksum
