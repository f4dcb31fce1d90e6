import TraceRelay.Channel

/-!
# Holding back small writes

In front of a channel stand a few kibibytes that collect small writes. A write that does not fit
waits until what is held has been written out; a write as long as the whole room is not held at all
and goes to the channel as it is. What a failed write out leaves is still held.

`WriteBuffer.way` says which of the three a write does. The writing itself is done by whoever owns
the channel, one call at a time.
-/

namespace TraceRelay

structure WriteBuffer where
  held : Bytes
  deriving DecidableEq, Repr, Inhabited

namespace WriteBuffer

/-- Room for held bytes: 8 KiB. -/
def capacity : Nat := 8192

def empty : WriteBuffer := ⟨[]⟩

/-- What becomes of a write. -/
inductive Way where
  /-- It is held. -/
  | held
  /-- It goes to the channel. -/
  | through
  /-- It waits until nothing is held. -/
  | waits
  deriving DecidableEq, Repr

/-- What becomes of a write of `data`. -/
def way (b : WriteBuffer) (data : Bytes) : Way :=
  if b.held ≠ [] ∧ capacity < b.held.length + data.length then .waits
  else if capacity ≤ data.length then .through
  else .held

/-- Holds `data` behind what is held. -/
def hold (b : WriteBuffer) (data : Bytes) : WriteBuffer := ⟨b.held ++ data⟩

/-- The channel took the first `n` bytes. -/
def drop (b : WriteBuffer) (n : Nat) : WriteBuffer := ⟨b.held.drop n⟩

def isEmpty (b : WriteBuffer) : Bool := b.held.isEmpty

/-- What is held never outgrows its room. -/
theorem length_hold {b : WriteBuffer} {data : Bytes} (h : b.way data = .held) :
    (b.hold data).held.length ≤ capacity := by
  unfold way at h
  split at h
  · cases h
  · next fits =>
    split at h
    · cases h
    · next small =>
      simp only [hold, List.length_append]
      by_cases none : b.held = []
      · simp [none]; omega
      · simp only [ne_eq, none, not_false_eq_true, true_and, Nat.not_lt] at fits; omega

end WriteBuffer

end TraceRelay
