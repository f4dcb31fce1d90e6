import Mathlib.Logic.Function.Basic
import TraceRelay.Proofs.Collector.Reads

/-!
# Handlers that pass on one event at a time

`Server.drain` passes on a batch at once. Handlers of many connections do so side by side: each counts
its batch and then traces the events one after the other, and others get in between. A `Floor` is a
collector in which the events that a handler still has to trace lie on its desk.

1. `Server.take` and `Server.tell` are the two halves of `Server.drain` (`drain_eq`).
2. `Floor.Run`: any order of the moves of all handlers, of the output, and of time. Along with it go the
   batches that were decoded and the events that were traced, each with the number of its handler.
3. `Server.Run.floor`: whoever passes on a batch at once does what a `Floor` can do.
-/

namespace TraceRelay.Collector

namespace Server

/-- A batch is counted. -/
def count (s : Server) (peer : String) (batch : Batch) : Server :=
  { s with census := s.census.batchReceived batch.entries.length }.report .trace
    "received trace batch" [("peer", .text peer), ("events", .number batch.entries.length)]

/-- Handler `i` decodes and counts the next batch, or goes back to reading. -/
def take (s : Server) (i : Nat) : Server × Option Batch :=
  match s.handlers[i]? with
  | some (peer, .draining d) =>
    match d.next with
    | (.ok (some batch), d) => ((s.setHandler i peer (.draining d)).count peer batch, some batch)
    | (.ok none, d) => (s.setHandler i peer (.reading d), none)
    | (.error e, _) => (s.fail i peer (.decode e), none)
  | _ => (s, none)

/-- An event is traced. -/
def tell (s : Server) (e : Bytes) : Server := { s with output.loop := s.output.loop.trace e }

theorem foldl_tell (s : Server) (es : List Bytes) :
    es.foldl tell s = { s with output.loop := es.foldl Recorder.trace s.output.loop } := by
  induction es generalizing s with
  | nil => rfl
  | cons e es ih => exact ih (s.tell e)

/-- The events of a batch, if there is one. -/
def entriesOf? (batch? : Option Batch) : List Bytes := batch?.elim [] Batch.entries

/-- **To pass on a batch is to decode it and to trace its events.** -/
theorem drain_eq (s : Server) (i : Nat) :
    s.drain i = (entriesOf? (s.take i).2).foldl tell (s.take i).1 := by
  unfold drain take
  cases hget : s.handlers[i]? with
  | none => rfl
  | some x =>
    obtain ⟨peer, h⟩ := x
    cases h with
    | draining d =>
      dsimp only
      rcases hnext : d.next with ⟨_ | _ | batch, d'⟩
      · rfl
      · rfl
      · dsimp only [entriesOf?]
        rw [foldl_tell]
        rfl
    | greeting | reading | ended => rfl

end Server

/-- A collector and, by the number of the handler, the events of a counted batch that it has not traced
yet. -/
structure Floor where
  server : Server
  desk : Nat → List Bytes

namespace Floor

inductive Move where
  /-- Any move but that a handler passes on a batch. -/
  | plain (m : Server.Move)
  /-- Handler `i` decodes the next batch. -/
  | take (i : Nat)
  /-- Handler `i` traces the next event. -/
  | tell (i : Nat)

/-- The floor after a move; none if it cannot be made. -/
def move (f : Floor) : Move → Option Floor
  | .plain (.drain _) => none
  | .plain m => (f.server.move m).map fun server => { f with server }
  | .take i =>
    if f.server.isDraining i ∧ f.desk i = [] then
      some ⟨(f.server.take i).1,
        Function.update f.desk i (Server.entriesOf? (f.server.take i).2)⟩
    else none
  | .tell i =>
    match f.desk i with
    | [] => none
    | e :: rest => some ⟨f.server.tell e, Function.update f.desk i rest⟩

/-- What each move does, and when it can be made. -/
inductive Step (f : Floor) : Move → Floor → Prop where
  | plain {m : Server.Move} {server : Server} (step : Server.Step f.server m server)
      (whole : ∀ i, m ≠ .drain i) : Step f (.plain m) { f with server }
  | take {i : Nat} (drains : f.server.isDraining i = true) (done : f.desk i = []) :
      Step f (.take i) ⟨(f.server.take i).1,
        Function.update f.desk i (Server.entriesOf? (f.server.take i).2)⟩
  | tell {i : Nat} {e : Bytes} {rest : List Bytes} (next : f.desk i = e :: rest) :
      Step f (.tell i) ⟨f.server.tell e, Function.update f.desk i rest⟩

theorem move_plain {f f' : Floor} {m : Server.Move} (whole : ∀ i, m ≠ .drain i) :
    f.move (.plain m) = some f' ↔ ∃ server, f.server.move m = some server ∧ { f with server } = f' := by
  cases m with
  | drain i => exact absurd rfl (whole i)
  | accept | arrive | work | advance | shut => exact Option.map_eq_some_iff

theorem move_cases {f f' : Floor} {m : Move} (h : f.move m = some f') : Step f m f' := by
  cases m with
  | plain m =>
    by_cases hdrain : ∃ i, m = .drain i
    · obtain ⟨i, rfl⟩ := hdrain
      cases h
    · have whole : ∀ i, m ≠ .drain i := fun i hi => hdrain ⟨i, hi⟩
      obtain ⟨server, hmove, rfl⟩ := (move_plain whole).mp h
      exact .plain (Server.move_cases hmove) whole
  | take i =>
    rw [move, Option.ite_none_right_eq_some] at h
    obtain ⟨⟨hdrains, hdone⟩, ⟨⟩⟩ := h
    exact .take hdrains hdone
  | tell i =>
    rw [move] at h
    split at h
    · cases h
    · next e rest hnext =>
      cases h
      exact .tell hnext

/-- The batches decoded in a move. -/
def decodes (f : Floor) : Move → List (Nat × Batch)
  | .take i => (f.server.take i).2.toList.map fun batch => (i, batch)
  | _ => []

/-- The events traced in a move. -/
def tells (f : Floor) : Move → List (Nat × Bytes)
  | .tell i => (f.desk i).head?.toList.map fun e => (i, e)
  | _ => []

/-- A collector at whose desks nothing lies. -/
def ofServer (server : Server) : Floor := ⟨server, fun _ => []⟩

/-- What may have happened to a collector, with the batches that its handlers have decoded and the events
that they have traced. -/
inductive Run (s₀ : Server) : List Move → List (Nat × Batch) → List (Nat × Bytes) → Floor → Prop where
  | start : Run s₀ [] [] [] (ofServer s₀)
  | move {ms : List Move} {bs : List (Nat × Batch)} {ts : List (Nat × Bytes)} {f f' : Floor} {m : Move}
      (run : Run s₀ ms bs ts f) (h : f.move m = some f') :
      Run s₀ (ms ++ [m]) (bs ++ f.decodes m) (ts ++ f.tells m) f'

variable {s₀ s : Server} {ms : List Move} {bs : List (Nat × Batch)} {ts : List (Nat × Bytes)}
  {f f' : Floor}

/-- What belongs to handler `i`. -/
def of {β : Type} (i : Nat) (xs : List (Nat × β)) : List β :=
  xs.filterMap fun x => if x.1 = i then some x.2 else none

section

variable {β : Type} {i j : Nat}

theorem of_append (i : Nat) (xs ys : List (Nat × β)) : of i (xs ++ ys) = of i xs ++ of i ys :=
  List.filterMap_append

theorem of_map_self (i : Nat) (xs : List β) : of i (xs.map fun x => (i, x)) = xs := by
  have hsome : (fun x : Nat × β => if x.1 = i then some x.2 else none) ∘ (fun x => (i, x)) = some :=
    funext fun x => if_pos rfl
  rw [of, List.filterMap_map, hsome, List.filterMap_some]

theorem of_map_of_ne (h : j ≠ i) (xs : List β) : of i (xs.map fun x => (j, x)) = [] := by
  simp [of, h]

theorem count_of [DecidableEq β] (i : Nat) (x : β) (xs : List (Nat × β)) :
    (of i xs).count x = xs.count (i, x) := by
  induction xs with
  | nil => rfl
  | cons y xs ih =>
    obtain ⟨j, y⟩ := y
    rw [List.count_cons, ← ih, of, List.filterMap_cons]
    by_cases hj : j = i <;> simp [hj, of, List.count_cons]

/-- What belongs to each handler is all there is. -/
theorem length_eq_of_of [DecidableEq β] {xs ys : List (Nat × β)} (h : ∀ i, of i xs = of i ys) :
    xs.length = ys.length := by
  refine List.Perm.length_eq (List.perm_iff_count.mpr fun x => ?_)
  rw [← count_of x.1 x.2, ← count_of x.1 x.2, h]

end

/-- The moves of the collector among some moves. -/
def served (ms : List Move) : List Server.Move :=
  ms.filterMap fun
    | .plain m => some m
    | _ => none

theorem served_append (ms ns : List Move) : served (ms ++ ns) = served ms ++ served ns :=
  List.filterMap_append

/-- A handler traces all that lies on its desk. -/
theorem Run.tellAll {i : Nat} {es rest : List Bytes} (run : Run s₀ ms bs ts f)
    (desk : f.desk i = es ++ rest) :
    Run s₀ (ms ++ List.replicate es.length (.tell i)) bs (ts ++ es.map fun e => (i, e))
      ⟨es.foldl Server.tell f.server, Function.update f.desk i rest⟩ := by
  induction es generalizing f ms ts with
  | nil =>
    rw [List.nil_append] at desk
    rw [← desk, Function.update_eq_self]
    simpa using run
  | cons e es ih =>
    rw [List.cons_append] at desk
    have hmove : f.move (.tell i) = some ⟨f.server.tell e, Function.update f.desk i (es ++ rest)⟩ := by
      rw [Floor.move, desk]
    have hdesk : (Function.update f.desk i (es ++ rest)) i = es ++ rest := Function.update_self ..
    have hone := run.move hmove
    rw [show f.tells (.tell i) = [(i, e)] by rw [tells, desk]; rfl,
      show f.decodes (.tell i) = [] from rfl, List.append_nil] at hone
    have hrest := ih hone hdesk
    rw [List.append_assoc, List.append_assoc, Function.update_idem] at hrest
    exact hrest

end Floor

open Floor in
/-- **What a collector does that passes on whole batches, a floor can do.** -/
theorem Server.Run.floor {s₀ s : Server} {ms : List Server.Move} (run : Server.Run s₀ ms s) :
    ∃ ms' bs ts, Floor.Run s₀ ms' bs ts (Floor.ofServer s) ∧
      ∀ i, Server.arrivalsAt i (served ms') = Server.arrivalsAt i ms := by
  induction run with
  | start => exact ⟨[], [], [], .start, fun _ => rfl⟩
  | @move ms s s' m run h ih =>
    obtain ⟨ms', bs, ts, hrun, harrivals⟩ := ih
    by_cases hdrain : ∃ i, m = .drain i
    · obtain ⟨i, rfl⟩ := hdrain
      rw [Server.move, Option.ite_none_right_eq_some] at h
      obtain ⟨hdrains, ⟨⟩⟩ := h
      have htake : (ofServer s).move (.take i) = some ⟨(s.take i).1,
          Function.update (fun _ => []) i (Server.entriesOf? (s.take i).2)⟩ := by
        rw [Floor.move, if_pos ⟨hdrains, rfl⟩]
        rfl
      have hdesk : (Function.update (fun _ => []) i (Server.entriesOf? (s.take i).2) :
          Nat → List Bytes) i = Server.entriesOf? (s.take i).2 ++ [] := by
        rw [Function.update_self, List.append_nil]
      have htaken := hrun.move htake
      have htold := htaken.tellAll hdesk
      have hclear : Function.update (Function.update (fun _ : Nat => ([] : List Bytes)) i
          (Server.entriesOf? (s.take i).2)) i [] = fun _ => [] := by
        rw [Function.update_idem, Function.update_eq_self_iff]
      dsimp only at htold
      rw [← Server.drain_eq, hclear] at htold
      refine ⟨_, _, _, htold, fun j => ?_⟩
      rw [Server.arrivalsAt_append, ← harrivals j, served_append, served_append]
      simp [served, Server.arrivalsAt]
    · have whole : ∀ i, m ≠ .drain i := fun i hi => hdrain ⟨i, hi⟩
      have hmove : (ofServer s).move (.plain m) = some (ofServer s') :=
        (move_plain whole).mpr ⟨s', h, rfl⟩
      refine ⟨_, _, _, hrun.move hmove, fun j => ?_⟩
      rw [Server.arrivalsAt_append, served_append, ← harrivals j]
      exact Server.arrivalsAt_append j (served ms') [m]

end TraceRelay.Collector
