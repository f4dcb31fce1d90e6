import TraceRelay.Bytes
import TraceRelay.Fault

/-!
# Sources of bytes

A reader asks a source for at most so many bytes and gets some of them, none at the end, or a
fault. `Source` is bytes in memory behind a schedule: what the next reads do before the source
answers every read in full.

A read that was interrupted has taken nothing. Whether it is tried again is up to the reader:
`ByteSource.readPatiently` does so until the source says something else, `ByteSource.read` hands
the fault on. What reads exactly so many bytes is told in which of the two ways.
-/

namespace TraceRelay

/-- What one read of a scheduled source does. -/
inductive ReadTurn where
  /-- Gives at most `n` bytes; no limit if `n` is 0. -/
  | upTo (n : Nat)
  | fails (f : Fault)
  deriving DecidableEq, Repr

namespace ReadTurn

def interrupted : ReadTurn := .fails .interrupted

def gives : ReadTurn → Bool
  | .upTo _ => true
  | .fails _ => false

def interrupts : ReadTurn → Bool
  | .upTo _ => false
  | .fails f => f.isInterrupted

end ReadTurn

structure Source where
  data : Bytes
  turns : List ReadTurn
  deriving Repr

/-- Whether a read with this answer was interrupted. -/
def isInterrupted {α : Type} : Except Fault α → Bool
  | .error f => f.isInterrupted
  | .ok _ => false

/-- Something that gives bytes on request, and is interrupted only so often. -/
class ByteSource (σ : Type) where
  /-- At most `want` bytes; none of them means the end. -/
  read : σ → (want : Nat) → Except Fault Bytes × σ
  /-- At most so many of the next reads are interrupted. -/
  interruptions : σ → Nat
  interruptions_read : ∀ s want,
    interruptions (read s want).2 + (isInterrupted (read s want).1).toNat ≤ interruptions s

namespace Source

def ofBytes (data : Bytes) : Source := ⟨data, []⟩

/-- Gives at most `want` bytes, by the next turn. -/
def read (s : Source) (want : Nat) : Except Fault Bytes × Source :=
  match s.turns with
  | [] => (.ok (s.data.take want), ⟨s.data.drop want, []⟩)
  | .fails f :: turns => (.error f, ⟨s.data, turns⟩)
  | .upTo 0 :: turns => (.ok (s.data.take want), ⟨s.data.drop want, turns⟩)
  | .upTo (n + 1) :: turns =>
    (.ok (s.data.take (min want (n + 1))), ⟨s.data.drop (min want (n + 1)), turns⟩)

def interruptions (s : Source) : Nat := s.turns.countP ReadTurn.interrupts

theorem interruptions_read (s : Source) (want : Nat) :
    (s.read want).2.interruptions + (isInterrupted (s.read want).1).toNat ≤ s.interruptions := by
  obtain ⟨data, turns⟩ := s
  cases turns with
  | nil => exact Nat.le_refl _
  | cons turn turns =>
    simp only [interruptions, List.countP_cons]
    cases turn with
    | upTo n => cases n <;> exact Nat.le_refl _
    | fails f =>
      cases h : f.isInterrupted <;> simp [read, isInterrupted, ReadTurn.interrupts, h]

instance : ByteSource Source := ⟨read, interruptions, interruptions_read⟩

end Source

/-- How an exact read ends. -/
inductive ExactRead where
  | full (data : Bytes)
  /-- The source ended first. -/
  | short (data : Bytes)
  | failed (f : Fault)
  deriving DecidableEq, Repr

namespace ByteSource

variable {σ : Type}

/-- Reads until `want` bytes are there. -/
def readExact (read : σ → Nat → Except Fault Bytes × σ) (s : σ) (want : Nat) (got : Bytes) :
    ExactRead × σ :=
  if want = 0 then (.full got, s)
  else match read s want with
    | (.error f, s) => (.failed f, s)
    | (.ok [], s) => (.short got, s)
    | (.ok (b :: more), s) => readExact read s (want - (more.length + 1)) (got ++ b :: more)
termination_by want

variable [ByteSource σ]

/-- Reads, and reads again when interrupted. -/
def readPatiently (s : σ) (want : Nat) : Except Fault Bytes × σ :=
  if isInterrupted (read s want).1 then readPatiently (read s want).2 want else read s want
termination_by interruptions s
decreasing_by
  have := interruptions_read s want
  simp_all only [Bool.toNat_true]
  omega

/-- A patient read never says that it was interrupted. -/
theorem isInterrupted_readPatiently (s : σ) (want : Nat) :
    isInterrupted (readPatiently s want).1 = false := by
  fun_induction readPatiently s want with
  | case1 s _ ih => exact ih
  | case2 s h => exact eq_false_of_ne_true h

theorem interruptions_readPatiently (s : σ) (want : Nat) :
    interruptions (readPatiently s want).2 ≤ interruptions s := by
  fun_induction readPatiently s want with
  | case1 s _ ih => exact Nat.le_trans ih (Nat.le_of_add_right_le (interruptions_read s want))
  | case2 s h => exact Nat.le_of_add_right_le (interruptions_read s want)

end ByteSource

end TraceRelay
