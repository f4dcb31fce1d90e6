import TraceRelay.Tracer

/-!
# Groups of tracers

Every event goes to each tracer of a group. They run on one clock, and what is asked of the group is
asked of each in turn.
-/

namespace TraceRelay.Tracer

structure Group (σ : Type) where
  clock : Nat
  /-- Whether the handles are still there. -/
  held : Bool
  members : List (Tracer σ)
  deriving Inhabited

namespace Group

variable {σ α : Type} [WriteLoop σ α]

def ofLoops (loops : List σ) : Group σ := ⟨0, true, loops.map .start⟩

def onLoops (g : Group σ) (f : σ → σ) : Group σ :=
  { g with members := g.members.map fun t => { t with loop := f t.loop } }

/-- One step of the first loop that can make one. -/
def stepFirst : List (Tracer σ) → Option (List (Tracer σ))
  | [] => none
  | t :: rest =>
    match Clocked.step t.loop with
    | some loop => some ({ t with loop } :: rest)
    | none => (stepFirst rest).map (t :: ·)

/-- The earliest of the times at which a loop goes on. -/
def due (g : Group σ) : Option Nat := (g.members.filterMap fun t => Clocked.due t.loop).min?

instance : Clocked (Group σ) where
  now := clock
  advance g t := { g.onLoops (Clocked.advance · t) with clock := t }
  step g := (stepFirst g.members).map fun members => { g with members }
  due := due

def trace (g : Group σ) (e : α) : Group σ := g.onLoops (WriteLoop.trace · e)

def close (g : Group σ) : Group σ := g.onLoops WriteLoop.close

/-- What a shutdown returns: name and counters of each tracer. -/
def reports (g : Group σ) : List (String × Tally) := g.members.map report

/-- Whether the loop of member `i` has ended. -/
def hasEnded (i : Nat) (g : Group σ) : Bool := g.members[i]?.all (WriteLoop.isEnded ·.loop)

/-- Waits for each member from number `i` on in turn, at most up to the time `limit`. -/
def waitFrom (limit : Nat) (members : List (Tracer σ)) (i : Nat) (g : Group σ) : Bool × Group σ :=
  match members with
  | [] => (true, g)
  | _ :: rest =>
    match g.members[i]? with
    | none => (true, g)
    | some t =>
      let (t, waits) := t.beginShutdown
      let g := { g with members := g.members.set i t }
      if waits then
        match Clocked.runUntil (hasEnded i) limit Clocked.patience g with
        | (true, g) => waitFrom limit rest (i + 1) g
        | (false, g) => (false, g)
      else waitFrom limit rest (i + 1) g

/-- Closes every member, then waits for each in turn, at most up to the time `limit`. None if the
time was up. -/
def shutdown (limit : Nat) (g : Group σ) : Option (List (String × Tally)) × Group σ :=
  let g := g.close
  match waitFrom limit g.members 0 g with
  | (true, g) => (some g.reports, g)
  | (false, g) => (none, g)

end Group

/-! ## Rehearsals -/

/-- What is asked of a group. -/
inductive Order (α : Type) where
  | trace (events : List α)
  /-- Time goes on, in milliseconds. -/
  | pass (ms : Nat)
  | close
  | cancel
  | shutdown
  /-- The tracers are let go of. -/
  | letGo
  deriving Inhabited

/-- What comes back. -/
inductive Reply where
  | nothing
  | reports (reports : List (String × Tally))
  /-- A shutdown took too long. -/
  | stuck
  deriving Inhabited

/-- The later of two replies, if it says anything. -/
def Reply.latest : Reply → Reply → Reply
  | earlier, .nothing => earlier
  | _, later => later

namespace Group

variable {σ α : Type} [WriteLoop σ α]

/-- A shutdown is waited for this long: a million seconds. -/
def shutdownLimit : Nat := 1000000000

/-- Follows an order that needs a handle. -/
def followHeld (g : Group σ) : Order α → Group σ × Reply
  | .trace events => (events.foldl trace g, .nothing)
  | .close => (g.close, .nothing)
  | .letGo => ({ g.onLoops WriteLoop.abandon with held := false }, .nothing)
  | .shutdown =>
    match g.shutdown (g.clock + shutdownLimit) with
    | (some reports, g) => (g, .reports reports)
    | (none, g) => (g, .stuck)
  | _ => (g, .nothing)

def follow (g : Group σ) (order : Order α) : Group σ × Reply :=
  match order with
  | .pass ms => (Clocked.passTo (g.clock + ms) g, .nothing)
  | .cancel => (g.onLoops WriteLoop.cancel, .nothing)
  | order => if g.held then g.followHeld order else (g, .nothing)

/-- Several orders at once; only then do the loops run. -/
def followAll (g : Group σ) (orders : List (Order α)) : Group σ × Reply :=
  let (g, reply) := orders.foldl (fun (g, reply) order =>
    let (g, next) := g.follow order
    (g, Reply.latest reply next)) (g, .nothing)
  (Clocked.settle Clocked.patience g, reply)

end Group

end TraceRelay.Tracer
