/-!
# Event buffer

Producers append to the buffer; one write loop takes everything at once, in exchange for the
emptied vector of its last round. A wake token tells the loop that something may be there. The
token has one place: while it is pending, further pushes add no second one.

Closing refuses further events. The loop then sees the pending token, if any, and after it the
closed signal for good.
-/

namespace TraceRelay

/-- What a write loop sees when it waits. -/
inductive Signal where
  | wake
  | closed
  deriving DecidableEq, Repr

structure Buffer (α : Type) where
  events : Array α
  token : Bool
  closed : Bool
  deriving Repr

namespace Buffer

variable {α : Type}

def empty : Buffer α := ⟨#[], false, false⟩

instance : Inhabited (Buffer α) := ⟨empty⟩

/-- Appends an event and leaves a wake token; refused once closed. -/
def push (b : Buffer α) (e : α) : Buffer α × Bool :=
  if b.closed then (b, false)
  else ({ b with events := b.events.push e, token := true }, true)

/-- Refuses events from now on; says whether it was open. -/
def close (b : Buffer α) : Buffer α × Bool := ({ b with closed := true }, !b.closed)

/-- What a wait sees now; none if it goes on waiting. A token is used up. -/
def wait (b : Buffer α) : Buffer α × Option Signal :=
  if b.token then ({ b with token := false }, some .wake)
  else if b.closed then (b, some .closed)
  else (b, none)

/-- Takes every event, and leaves the scratch vector, cleared, in their place. -/
def swap (b : Buffer α) (scratch : Array α) : Buffer α × Array α :=
  ({ b with events := scratch.take 0 }, b.events)

def size (b : Buffer α) : Nat := b.events.size

def isEmpty (b : Buffer α) : Bool := b.events.size == 0

@[simp] theorem swap_events (b : Buffer α) (scratch : Array α) :
    (b.swap scratch).1.events = #[] := by simp [swap]

@[simp] theorem swap_taken (b : Buffer α) (scratch : Array α) :
    (b.swap scratch).2 = b.events := rfl

@[simp] theorem close_closed (b : Buffer α) : b.close.1.closed = true := rfl

theorem push_accepted (b : Buffer α) (e : α) : (b.push e).2 = !b.closed := by
  unfold push; split <;> simp_all

end Buffer

end TraceRelay
