import TraceRelay.Intake

/-!
# What calls do to the buffer and the counters

Of every operation of an intake: which events are in the buffer after it, whether the buffer is closed,
and what has been counted.
-/

namespace TraceRelay

namespace Buffer

variable {α : Type}

@[simp] theorem events_wait (b : Buffer α) : b.wait.1.events = b.events := by
  unfold wait
  split
  · rfl
  · split <;> rfl

@[simp] theorem closed_wait (b : Buffer α) : b.wait.1.closed = b.closed := by
  unfold wait
  split
  · rfl
  · split <;> rfl

theorem closed_of_wait {b : Buffer α} (h : b.wait.2 = some .closed) : b.closed = true := by
  unfold wait at h
  split at h
  · cases h
  · split at h
    · next hclosed => exact hclosed
    · cases h

theorem wait_of_token {b : Buffer α} (h : b.token = true) : b.wait.2 = some .wake := by
  rw [wait, if_pos h]

theorem wait_of_closed {b : Buffer α} (h : b.closed = true) :
    ∃ signal, b.wait.2 = some signal := by
  unfold wait
  rw [if_pos h]
  split
  · exact ⟨.wake, rfl⟩
  · exact ⟨.closed, rfl⟩

end Buffer

namespace Intake

variable {α : Type}

@[simp] theorem buffer_report (k : Intake α) (level : Log.Level) (message : String)
    (fields : List (String × Log.Value)) : (k.report level message fields).buffer = k.buffer := rfl

@[simp] theorem tally_report (k : Intake α) (level : Log.Level) (message : String)
    (fields : List (String × Log.Value)) : (k.report level message fields).tally = k.tally := rfl

@[simp] theorem buffer_count (k : Intake α) (f : Tally → Tally) :
    (k.count f).buffer = k.buffer := rfl

@[simp] theorem tally_count (k : Intake α) (f : Tally → Tally) :
    (k.count f).tally = f k.tally := rfl

@[simp] theorem buffer_logAll (k : Intake α) (rs : List Log.Record) :
    (k.logAll rs).buffer = k.buffer := by
  induction rs generalizing k with
  | nil => rfl
  | cons r rs ih => exact ih (k.log r)

@[simp] theorem tally_logAll (k : Intake α) (rs : List Log.Record) :
    (k.logAll rs).tally = k.tally := by
  induction rs generalizing k with
  | nil => rfl
  | cons r rs ih => exact ih (k.log r)

@[simp] theorem name_logAll (k : Intake α) (rs : List Log.Record) : (k.logAll rs).name = k.name := by
  induction rs generalizing k with
  | nil => rfl
  | cons r rs ih => exact ih (k.log r)

@[simp] theorem events_wait (k : Intake α) : k.wait.1.buffer.events = k.buffer.events :=
  Buffer.events_wait _

@[simp] theorem closed_wait (k : Intake α) : k.wait.1.buffer.closed = k.buffer.closed :=
  Buffer.closed_wait _

@[simp] theorem tally_wait (k : Intake α) : k.wait.1.tally = k.tally := rfl

theorem wait_of_token {k : Intake α} (h : k.buffer.token = true) : k.wait.2 = some .wake :=
  Buffer.wait_of_token h

/-- After the close no wait goes on. -/
theorem wait_of_closed {k : Intake α} (h : k.buffer.closed = true) :
    ∃ signal, k.wait.2 = some signal := Buffer.wait_of_closed h

/-- A close is only seen if there was one. -/
theorem closed_of_wait {k : Intake α} (h : k.wait.2 = some .closed) : k.buffer.closed = true :=
  Buffer.closed_of_wait h

/-- A wake uses up the token. -/
theorem token_of_wake {k : Intake α} (h : k.wait.2 = some .wake) :
    k.buffer.token = true ∧ k.wait.1.buffer.token = false := by
  unfold wait Buffer.wait at h ⊢
  cases htoken : k.buffer.token with
  | true => exact ⟨rfl, rfl⟩
  | false => cases hclosed : k.buffer.closed <;> simp [htoken, hclosed] at h

/-- A close is only seen when there is no token. -/
theorem token_of_closed {k : Intake α} (h : k.wait.2 = some .closed) :
    k.buffer.token = false ∧ k.wait.1.buffer.token = false := by
  unfold wait Buffer.wait at h ⊢
  cases htoken : k.buffer.token with
  | true => simp [htoken] at h
  | false => cases hclosed : k.buffer.closed <;> simp [htoken]

theorem trace_of_open {k : Intake α} (h : k.buffer.closed = false) (e : α) :
    k.trace e = { k with
      buffer := { k.buffer with events := k.buffer.events.push e, token := true }
      tally := k.tally.traced } := by
  simp [trace, Buffer.push, h]

theorem trace_of_closed {k : Intake α} (h : k.buffer.closed = true) (e : α) :
    k.trace e = { k with
      tally := k.tally.dropped
      journal := k.journal.push
        ⟨.trace, .handle, "dropped event traced after close", [("sink", .text k.name)]⟩ } := by
  simp [trace, Buffer.push, h]

@[simp] theorem name_trace (k : Intake α) (e : α) : (k.trace e).name = k.name := by
  cases h : k.buffer.closed with
  | true => rw [trace_of_closed h]
  | false => rw [trace_of_open h]

@[simp] theorem events_close (k : Intake α) : k.close.buffer.events = k.buffer.events := by
  unfold close Buffer.close
  cases k.buffer.closed <;> rfl

@[simp] theorem closed_close (k : Intake α) : k.close.buffer.closed = true := by
  unfold close Buffer.close
  cases k.buffer.closed <;> rfl

@[simp] theorem tally_close (k : Intake α) : k.close.tally = k.tally := by
  unfold close Buffer.close
  cases k.buffer.closed <;> rfl

@[simp] theorem name_close (k : Intake α) : k.close.name = k.name := by
  unfold close; split <;> rfl

/-- Only the first close changes anything. -/
theorem close_of_closed {k : Intake α} (h : k.buffer.closed = true) : k.close = k := by
  obtain ⟨name, part, ⟨events, token, closed⟩, tally, journal⟩ := k
  cases h
  rfl

@[simp] theorem events_abandon (k : Intake α) : k.abandon.buffer.events = k.buffer.events := rfl

@[simp] theorem closed_abandon (k : Intake α) : k.abandon.buffer.closed = true := rfl

@[simp] theorem tally_abandon (k : Intake α) : k.abandon.tally = k.tally := rfl

@[simp] theorem events_swap (k : Intake α) (scratch : Array α) :
    (k.swap scratch).1.buffer.events = #[] := Buffer.swap_events _ _

@[simp] theorem token_swap (k : Intake α) (scratch : Array α) :
    (k.swap scratch).1.buffer.token = k.buffer.token := rfl

@[simp] theorem closed_swap (k : Intake α) (scratch : Array α) :
    (k.swap scratch).1.buffer.closed = k.buffer.closed := rfl

@[simp] theorem tally_swap (k : Intake α) (scratch : Array α) :
    (k.swap scratch).1.tally = k.tally := rfl

@[simp] theorem swap_taken (k : Intake α) (scratch : Array α) :
    (k.swap scratch).2 = k.buffer.events := rfl

end Intake

end TraceRelay
