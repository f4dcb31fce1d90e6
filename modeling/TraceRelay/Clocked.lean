/-!
# Things that run on a clock

A write loop makes steps while it can, and else waits, for a caller or for the clock. `settle` lets
it run until it waits; `passTo` lets time go on, from one thing that is due to the next.
-/

namespace TraceRelay

/-- Something that runs by steps on a clock of milliseconds. -/
class Clocked (σ : Type) where
  now : σ → Nat
  /-- Sets the clock. -/
  advance : σ → Nat → σ
  /-- One step; none if it has to wait. -/
  step : σ → Option σ
  /-- When it goes on by itself, if it waits for the clock. -/
  due : σ → Option Nat

namespace Clocked

variable {σ : Type} [Clocked σ]

/-- More steps than a run makes. -/
def patience : Nat := 1000000000

/-- Steps until none can be made. -/
def settle (fuel : Nat) (s : σ) : σ :=
  match fuel with
  | 0 => s
  | fuel + 1 =>
    match step s with
    | none => s
    | some s => settle fuel s

/-- Runs until `done`, at most up to the time `limit`; says whether `done` holds. -/
def runUntil (done : σ → Bool) (limit : Nat) (fuel : Nat) (s : σ) : Bool × σ :=
  let s := settle patience s
  if done s then (true, s)
  else match fuel with
  | 0 => (false, s)
  | fuel + 1 =>
    match (due s).filter fun t => now s ≤ t ∧ t ≤ limit with
    | some t => runUntil done limit fuel (advance s t)
    | none =>
      let s := settle patience (advance s limit)
      (done s, s)

/-- Lets time go on to `t`, with everything that is due on the way and then. -/
def passTo (t : Nat) (s : σ) : σ := (runUntil (fun _ => false) t patience s).2

end Clocked

end TraceRelay
