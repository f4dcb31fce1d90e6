import Mathlib.Logic.Relation
import TraceRelay.Proofs.Tracer.Shutdown

/-!
# The shutdown of a rehearsal

A rehearsal shuts down a group of tracers and waits for it, up to a time limit (`Group.shutdown`). For
a group of one tracer this is a run of the moves of `Shared`: the tracer is closed, the shutdown begins,
the loop and the clock go on, and either the shutdown returns or it is let go of
(`rehearsed_shutdown`).
-/

namespace TraceRelay.Tracer.Shared

open WriteLoop (Lawful isEnded)

variable {σ α : Type} [WriteLoop σ α]

/-! ## What goes on while it waits -/

/-- A loop goes on by itself, and by the clock. -/
def Drifts : σ → σ → Prop :=
  Relation.ReflTransGen fun loop loop' =>
    Clocked.step loop = some loop' ∨ ∃ t, loop' = Clocked.advance loop t

theorem Run.drift [Lawful σ α] {s₀ s : Shared σ} {ms : List (Move α)} {loop : σ}
    (run : Run s₀ ms s) (h : Drifts s.tracer.loop loop) :
    ∃ more, Run s₀ (ms ++ more) { s with tracer.loop := loop } := by
  induction h with
  | refl => exact ⟨[], by rwa [List.append_nil]⟩
  | tail _ last ih =>
    obtain ⟨more, hrun⟩ := ih
    rcases last with hstep | ⟨t, rfl⟩
    · exact ⟨more ++ [.work], by
        rw [← List.append_assoc]
        exact hrun.move (.work (Lawful.goes_step hstep))⟩
    · exact ⟨more ++ [.touch (.advance t)], by
        rw [← List.append_assoc]
        exact hrun.move (.touch (.advance t))⟩

variable {g : Group σ} {t : Tracer σ}

theorem step_one (members : g.members = [t]) :
    Clocked.step g = (Clocked.step t.loop).map fun loop =>
      { g with members := [{ t with loop }] } := by
  show (Group.stepFirst g.members).map _ = _
  rw [members, Group.stepFirst]
  cases Clocked.step t.loop <;> rfl

/-- A group of one, and what its tracer has become. -/
structure Became (t : Tracer σ) (g : Group σ) (loop : σ) : Prop where
  drifts : Drifts t.loop loop
  members : g.members = [{ t with loop }]

theorem settle_one (fuel : Nat) {loop : σ} (h : Became t g loop) :
    ∃ loop', Became t (Clocked.settle fuel g) loop' := by
  induction fuel generalizing g loop with
  | zero => exact ⟨loop, h⟩
  | succ fuel ih =>
    rw [Clocked.settle, step_one h.members]
    cases hstep : Clocked.step loop with
    | none => exact ⟨loop, h⟩
    | some loop' => exact ih ⟨h.drifts.tail (.inl hstep), rfl⟩

theorem advance_one {loop : σ} (h : Became t g loop) (u : Nat) :
    Became t (Clocked.advance g u) (Clocked.advance loop u) where
  drifts := h.drifts.tail (.inr ⟨u, rfl⟩)
  members := by
    show g.members.map _ = _
    rw [h.members]
    rfl

theorem runUntil_one (done : Group σ → Bool) (limit fuel : Nat) {loop : σ} (h : Became t g loop) :
    ∃ loop', Became t (Clocked.runUntil done limit fuel g).2 loop' ∧
      (Clocked.runUntil done limit fuel g).1 = done (Clocked.runUntil done limit fuel g).2 := by
  induction fuel generalizing g loop with
  | zero =>
    obtain ⟨loop', hsettled⟩ := settle_one Clocked.patience h
    refine ⟨loop', ?_⟩
    rw [Clocked.runUntil]
    generalize Clocked.settle Clocked.patience g = g' at hsettled ⊢
    cases hdone : done g' with
    | true => exact ⟨hsettled, hdone.symm⟩
    | false => exact ⟨hsettled, hdone.symm⟩
  | succ fuel ih =>
    obtain ⟨loop', hsettled⟩ := settle_one Clocked.patience h
    rw [Clocked.runUntil]
    generalize Clocked.settle Clocked.patience g = g' at hsettled ⊢
    dsimp only
    cases hdone : done g' with
    | true => exact ⟨loop', hsettled, hdone.symm⟩
    | false =>
      rw [if_neg Bool.false_ne_true]
      split
      · next u hdue => exact ih (advance_one hsettled u)
      · obtain ⟨last, hlast⟩ := settle_one Clocked.patience (advance_one hsettled limit)
        exact ⟨last, hlast, rfl⟩

/-- Waiting for the only tracer of a group. -/
theorem await_one (limit : Nat) {loop : σ} (h : Became t g loop) :
    ∃ g' loop', Clocked.runUntil (Group.hasEnded 0) limit Clocked.patience g =
      (isEnded loop', g') ∧ Became t g' loop' := by
  obtain ⟨loop', hbecame, hdone⟩ := runUntil_one (Group.hasEnded 0) limit Clocked.patience h
  refine ⟨_, loop', Prod.ext ?_ rfl, hbecame⟩
  rw [hdone, Group.hasEnded, hbecame.members]
  rfl

/-! ## All of it -/

variable [Lawful σ α] {s₀ s : Shared σ} {ms : List (Move α)}

theorem settle_last (s : Shared σ) {before : List Shutdown} {c : Shutdown}
    (h : s.shutdowns = before ++ [c]) (d : Shutdown) :
    (s.settle before.length d).shutdowns = before ++ [d] := by
  rw [settle, h, List.set_append_right _ _ (Nat.le_refl _), Nat.sub_self, List.set_cons_zero]

omit [Lawful σ α] in
/-- A group of one waits at most once. -/
theorem waitFrom_one (limit : Nat) (members : g.members = [t]) :
    Group.waitFrom limit g.members 0 g =
      if t.joinable then
        Clocked.runUntil (Group.hasEnded 0) limit Clocked.patience
          { g with members := [t.beginShutdown.1] }
      else (true, { g with members := [t.beginShutdown.1] }) := by
  have hset : g.members.set 0 t.beginShutdown.1 = [t.beginShutdown.1] := by rw [members]; rfl
  have hget : g.members[0]? = some t := by rw [members]; rfl
  rw [members, Group.waitFrom, hget]
  dsimp only
  rw [hset, show t.beginShutdown.2 = t.joinable from rfl]
  cases t.joinable with
  | false => rfl
  | true =>
    rw [if_pos rfl, if_pos rfl]
    generalize Clocked.runUntil (Group.hasEnded 0) limit Clocked.patience
      { g with members := [t.beginShutdown.1] } = result
    obtain ⟨ended, g'⟩ := result
    cases ended <;> rfl

/-- A shutdown that has begun last, and can return. -/
theorem Run.finish_last (run : Run s₀ ms s) {before : List Shutdown} {c : Shutdown}
    (last : s.shutdowns = before ++ [c])
    (free : (∃ late, c = .passing late) ∨ c = .waiting ∧ isEnded s.tracer.loop = true) :
    ∃ r, Run s₀ (ms ++ [.finish before.length]) (s.settle before.length (.returned r)) ∧
      r.report = s.tracer.report := by
  have hget : s.shutdowns[before.length]? = some c := by
    rw [last, List.getElem?_append_right (Nat.le_refl _), Nat.sub_self]
    rfl
  rcases free with ⟨late, rfl⟩ | ⟨rfl, ended⟩
  · have hnow : s.return? before.length =
        some ⟨s.tracer.report, isEnded s.tracer.loop, s.traces, late⟩ := by
      rw [return?, hget]
    exact ⟨_, run.move (.finish hnow), rfl⟩
  · have hnow : s.return? before.length =
        some ⟨s.tracer.report, isEnded s.tracer.loop, s.traces, true⟩ := by
      rw [return?, hget]
      dsimp only
      rw [if_pos ended]
    exact ⟨_, run.move (.finish hnow), rfl⟩

/-- **A rehearsed shutdown is a run.** Either it returns what the tracer reports in the end, or the time
is up and it is let go of while it waits. -/
theorem rehearsed_shutdown (run : Run s₀ ms s) (members : g.members = [s.tracer]) (limit : Nat) :
    ∃ more s', Run s₀ (ms ++ more) s' ∧ (g.shutdown limit).2.members = [s'.tracer] ∧
      ((∃ r, (g.shutdown limit).1 = some [r.report] ∧ r.report = s'.tracer.report ∧
          s'.shutdowns = s.shutdowns ++ [.returned r]) ∨
        (g.shutdown limit).1 = none ∧ s'.shutdowns = s.shutdowns ++ [.dropped]) := by
  have hbegun := (run.move (.touch .close)).move .begin
  have hclosed : g.close.members = [(s.touched .close).tracer] := by
    show g.members.map _ = _
    rw [members]
    rfl
  rw [Group.shutdown, waitFrom_one limit hclosed]
  obtain ⟨early, hshutdowns⟩ : ∃ early, (s.touched .close).begin.shutdowns = s.shutdowns ++
      [if s.tracer.joinable then .waiting else .passing early] := ⟨_, rfl⟩
  rw [show (s.touched (.close : WriteLoop.Touch α)).tracer.joinable = s.tracer.joinable from rfl]
  cases hjoinable : s.tracer.joinable with
  | false =>
    rw [hjoinable, if_neg Bool.false_ne_true] at hshutdowns
    obtain ⟨r, hrun, hreport⟩ := hbegun.finish_last hshutdowns (.inl ⟨_, rfl⟩)
    rw [List.append_assoc, List.append_assoc] at hrun
    refine ⟨_, _, hrun, rfl, .inl ⟨r, ?_, hreport, settle_last _ hshutdowns _⟩⟩
    rw [hreport]
    rfl
  | true =>
    rw [hjoinable, if_pos rfl] at hshutdowns
    rw [if_pos rfl]
    have hstart : Became (s.touched .close).begin.tracer
        { g.close with members := [(s.touched .close).tracer.beginShutdown.1] }
        (s.touched .close).begin.tracer.loop := ⟨.refl, rfl⟩
    obtain ⟨g', loop, hwait, hdrifts, hmembers⟩ := await_one limit hstart
    obtain ⟨more, hdrifted⟩ := hbegun.drift hdrifts
    rw [hwait]
    cases hended : isEnded loop with
    | true =>
      obtain ⟨r, hrun, hreport⟩ := hdrifted.finish_last hshutdowns (.inr ⟨rfl, hended⟩)
      rw [List.append_assoc, List.append_assoc, List.append_assoc] at hrun
      refine ⟨_, _, hrun, hmembers, .inl ⟨r, ?_, hreport, settle_last _ hshutdowns _⟩⟩
      show some (g'.members.map report) = _
      rw [hmembers, hreport]
      rfl
    | false =>
      have hwaits : (s.touched .close).begin.shutdowns[s.shutdowns.length]? = some .waiting := by
        rw [hshutdowns, List.getElem?_append_right (Nat.le_refl _), Nat.sub_self]
        rfl
      have hrun := hdrifted.move (.drop hwaits)
      rw [List.append_assoc, List.append_assoc, List.append_assoc] at hrun
      exact ⟨_, _, hrun, hmembers, .inr ⟨rfl, settle_last _ hshutdowns _⟩⟩

end TraceRelay.Tracer.Shared
