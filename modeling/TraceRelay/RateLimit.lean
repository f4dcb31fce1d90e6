import TraceRelay.Log

/-!
# Rate-limited errors

A write loop that fails on every event reports at most one failure per interval. A report says how
many it stands for.
-/

namespace TraceRelay

structure RateLimit where
  sink : String
  interval : Nat
  /-- When the last report was made. -/
  last? : Option Nat
  /-- Errors since the last report. -/
  pending : UInt64
  /-- Errors over the whole life. -/
  total : UInt64
  deriving Repr

namespace RateLimit

/-- The interval of a write loop, in milliseconds. -/
def defaultInterval : Nat := 10000

def start (sink : String) (interval : Nat) : RateLimit := ⟨sink, interval, none, 0, 0⟩

/-- Whether a report may be made at `now`. -/
def due (r : RateLimit) (now : Nat) : Bool :=
  match r.last? with
  | none => true
  | some last => r.interval ≤ now - last

/-- The report of an error that is number `total`, after `suppressed` that were kept back. -/
def report (sink message error : String) (suppressed total : UInt64) : Log.Record :=
  if suppressed = 0 then
    ⟨.error, .rateLimit, message,
      [("sink", .text sink), ("error", .text error), ("total_errors", .number total.toNat)]⟩
  else
    ⟨.error, .rateLimit, message ++ " (rate-limited)",
      [("sink", .text sink), ("error", .text error),
        ("suppressed_count", .number suppressed.toNat), ("total_errors", .number total.toNat)]⟩

/-- An error at `now`: reported if the interval has passed, else counted. -/
def error (r : RateLimit) (now : Nat) (message error : String) : RateLimit × Option Log.Record :=
  let pending := r.pending + 1
  let total := r.total + 1
  if r.due now then
    ({ r with last? := some now, pending := 0, total },
      some (report r.sink message error (if pending = 0 then 0 else pending - 1) total))
  else ({ r with pending, total }, none)

end RateLimit

end TraceRelay
