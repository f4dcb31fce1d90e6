import TraceRelay.Collector.Server

/-!
# Runs of a collector

A collector is moved by connections that are made, by what arrives on them, by its handlers, by the
work of its output, and by its stop. These come in any order. A `Run` is one such order.

A handler that waits is given what arrives; one that has batches to pass on passes them. The output is
closed when all handlers have ended, and from then on no connection is taken.
-/

namespace TraceRelay.Collector.Server

inductive Move where
  | accept (peer : String)
  | arrive (i : Nat) (a : Arrival)
  | drain (i : Nat)
  /-- A step of the output's own. -/
  | work
  | advance (t : Nat)
  | shut

/-- Whether handler `i` waits for what comes next on its connection. -/
def isWaiting (s : Server) (i : Nat) : Bool :=
  s.handlers[i]?.any fun
    | (_, .greeting _) | (_, .reading _) => true
    | _ => false

/-- The collector after a move; none if it cannot be made. Time does not run backwards. -/
def move (s : Server) : Move → Option Server
  | .accept peer => if s.output.joinable then some (s.accept peer) else none
  | .arrive i a => if s.isWaiting i then some (s.arrive i a) else none
  | .drain i => if s.isDraining i then some (s.drain i) else none
  | .work => s.output.loop.work.map fun loop => { s with output.loop := loop }
  | .advance t =>
    if s.output.loop.clock ≤ t then some { s with output.loop := s.output.loop.advance t } else none
  | .shut =>
    if s.output.joinable ∧ s.handlers.all (·.2 matches .ended _) then some s.shut else none

/-- What each move does, and when it can be made. -/
inductive Step (s : Server) : Move → Server → Prop where
  | accept {peer : String} (joinable : s.output.joinable = true) :
      Step s (.accept peer) (s.accept peer)
  | arrive {i : Nat} {a : Arrival} (waits : s.isWaiting i = true) :
      Step s (.arrive i a) (s.arrive i a)
  | drain {i : Nat} (drains : s.isDraining i = true) : Step s (.drain i) (s.drain i)
  | work {loop : Recorder Bytes} (work : s.output.loop.work = some loop) :
      Step s .work { s with output.loop := loop }
  | advance {t : Nat} (later : s.output.loop.clock ≤ t) :
      Step s (.advance t) { s with output.loop := s.output.loop.advance t }
  | shut (joinable : s.output.joinable = true)
      (ended : s.handlers.all (·.2 matches .ended _) = true) : Step s .shut s.shut

theorem move_cases {s s' : Server} {m : Move} (h : s.move m = some s') : Step s m s' := by
  cases m with
  | work =>
    obtain ⟨loop, hwork, rfl⟩ := Option.map_eq_some_iff.mp h
    exact .work hwork
  | accept peer =>
    rw [move, Option.ite_none_right_eq_some] at h
    obtain ⟨hjoinable, ⟨⟩⟩ := h
    exact .accept hjoinable
  | arrive i a =>
    rw [move, Option.ite_none_right_eq_some] at h
    obtain ⟨hwaits, ⟨⟩⟩ := h
    exact .arrive hwaits
  | drain i =>
    rw [move, Option.ite_none_right_eq_some] at h
    obtain ⟨hdrains, ⟨⟩⟩ := h
    exact .drain hdrains
  | advance t =>
    rw [move, Option.ite_none_right_eq_some] at h
    obtain ⟨hlater, ⟨⟩⟩ := h
    exact .advance hlater
  | shut =>
    rw [move, Option.ite_none_right_eq_some] at h
    obtain ⟨⟨hjoinable, hended⟩, ⟨⟩⟩ := h
    exact .shut hjoinable hended

/-- What may have happened to a collector. -/
inductive Run (s₀ : Server) : List Move → Server → Prop where
  | start : Run s₀ [] s₀
  | move {ms : List Move} {s s' : Server} {m : Move} (r : Run s₀ ms s) (h : s.move m = some s') :
      Run s₀ (ms ++ [m]) s'

/-- The connections made. -/
def peers (ms : List Move) : List String :=
  ms.filterMap fun
    | .accept peer => some peer
    | _ => none

/-- What has arrived, on whatever connection. -/
def arrivals (ms : List Move) : List Arrival :=
  ms.filterMap fun
    | .arrive _ a => some a
    | _ => none

theorem peers_append (ms ns : List Move) : peers (ms ++ ns) = peers ms ++ peers ns :=
  List.filterMap_append

theorem arrivals_append (ms ns : List Move) : arrivals (ms ++ ns) = arrivals ms ++ arrivals ns :=
  List.filterMap_append

theorem Run.foldlM_move {s₀ s : Server} {ms : List Move} (r : Run s₀ ms s) :
    ms.foldlM Server.move s₀ = some s := by
  induction r with
  | start => rfl
  | move _ h ih => rw [List.foldlM_append, ih]; simpa using h

/-- Several moves in turn. -/
def moves (s : Server) : List Move → Option Server
  | [] => some s
  | m :: ms =>
    match s.move m with
    | none => none
    | some s' => s'.moves ms

theorem Run.moves {s₀ s s' : Server} {old ms : List Move} (r : Run s₀ old s)
    (h : s.moves ms = some s') : Run s₀ (old ++ ms) s' := by
  induction ms generalizing old s with
  | nil => cases h; rw [List.append_nil]; exact r
  | cons m ms ih =>
    rw [Server.moves] at h
    split at h
    · cases h
    · next s₁ hmove =>
      rw [List.append_cons]
      exact ih (r.move hmove) h

end TraceRelay.Collector.Server
