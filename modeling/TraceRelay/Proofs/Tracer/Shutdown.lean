import TraceRelay.Proofs.Courier.Delivered
import TraceRelay.Proofs.Tracer.Loop

/-!
# Shutdowns of one tracer that overlap

Any number of shutdowns of a tracer may be under way at once, among the steps of its write loop and
whatever else is asked of it, and one that waits may be let go of. The first takes what there is to
wait for.

1. `Step`: what may come next, and `Step.kept`: what is known of all shutdowns, at every moment.
2. `shutdown_joins`: a shutdown that is the first, or begins after the first has returned, returns only
   after the end of the loop, and all that return after it have seen the same.
3. `shutdown_overtaken`: one that begins while the first waits, or after the first was let go of,
   returns before the end, with counters that are not the last ones.
-/

namespace TraceRelay.Tracer

open WriteLoop (Touch touch Lawful isEnded isClosed tally)

/-! ## Shutdowns -/

/-- What a shutdown has returned, and when. -/
structure Return where
  /-- What it returned: the name and the counters. -/
  report : String × Tally
  /-- Whether the write loop had ended by then. -/
  ended : Bool
  /-- How many trace calls there had been by then. -/
  traces : Nat
  /-- Whether it was the first, or began after the first had returned. -/
  inTurn : Bool
  deriving DecidableEq

/-- How far a shutdown has got. -/
inductive Shutdown where
  /-- It waits for the end of the loop. -/
  | waiting
  /-- It has found nothing to wait for; `late`: the first shutdown had returned by then. -/
  | passing (late : Bool)
  /-- It was let go of while it waited. -/
  | dropped
  | returned (r : Return)
  deriving DecidableEq

/-- A tracer, and its shutdowns in the order in which they began. -/
structure Shared (σ : Type) where
  tracer : Tracer σ
  shutdowns : List Shutdown
  /-- Trace calls so far. -/
  traces : Nat

namespace Shared

variable {σ α : Type} [WriteLoop σ α]

def start (loop : σ) : Shared σ := ⟨.start loop, [], 0⟩

def touched (s : Shared σ) (t : Touch α) : Shared σ :=
  { s with tracer.loop := touch s.tracer.loop t, traces := s.traces + t.traces }

/-- One more shutdown begins. -/
def begin (s : Shared σ) : Shared σ :=
  { s with
    tracer := s.tracer.beginShutdown.1
    shutdowns := s.shutdowns ++
      [if s.tracer.beginShutdown.2 then .waiting
      else .passing (s.shutdowns.head?.any (· matches .returned _))] }

/-- What shutdown `k` returns if it returns now. -/
def return? (s : Shared σ) (k : Nat) : Option Return :=
  let now (inTurn : Bool) : Return := ⟨s.tracer.report, isEnded s.tracer.loop, s.traces, inTurn⟩
  match s.shutdowns[k]? with
  | some .waiting => if isEnded s.tracer.loop then some (now true) else none
  | some (.passing late) => some (now late)
  | _ => none

/-- Shutdown `k` is over. -/
def settle (s : Shared σ) (k : Nat) (c : Shutdown) : Shared σ :=
  { s with shutdowns := s.shutdowns.set k c }

inductive Move (α : Type) where
  | touch (t : Touch α)
  | work
  | begin
  | drop (k : Nat)
  | finish (k : Nat)

variable [Lawful σ α]

/-- What may come next. -/
inductive Step (s : Shared σ) : Move α → Shared σ → Prop where
  | touch (t : Touch α) : Step s (.touch t) (s.touched t)
  | work {loop : σ} (goes : Lawful.Goes s.tracer.loop loop) :
      Step s .work { s with tracer.loop := loop }
  | begin : Step s .begin s.begin
  | drop {k : Nat} (waits : s.shutdowns[k]? = some .waiting) : Step s (.drop k) (s.settle k .dropped)
  | finish {k : Nat} {r : Return} (now : s.return? k = some r) :
      Step s (.finish k) (s.settle k (.returned r))

/-- What may have happened to a tracer and its shutdowns. -/
inductive Run (s₀ : Shared σ) : List (Move α) → Shared σ → Prop where
  | start : Run s₀ [] s₀
  | move {ms : List (Move α)} {m : Move α} {s s' : Shared σ} (run : Run s₀ ms s) (st : Step s m s') :
      Run s₀ (ms ++ [m]) s'

/-! ## What is known of them -/

variable {loop loop' : σ} {traces k : Nat} {r : Return} {c : Shutdown}

/-- A loop that had ended when `r` was returned. Since then nothing has been counted but the events of
trace calls, as dropped; `traces` is how many there have been. -/
structure Since (loop : σ) (traces : Nat) (r : Return) : Prop where
  ended : isEnded loop = true
  traces_le : r.traces ≤ traces
  tally : tally loop = r.report.2.droppedBy (traces - r.traces)

/-- What is known of shutdown number `k`. Only the first finds the end of the loop to wait for. -/
def Tells (loop : σ) (traces k : Nat) : Shutdown → Prop
  | .waiting | .dropped => k = 0
  | .passing late => 0 < k ∧ (late = true → isEnded loop = true)
  | .returned r =>
    (k = 0 → r.inTurn = true) ∧ (r.inTurn = true → r.ended = true) ∧
      (r.ended = true → Since loop traces r)

theorem Since.touch (h : Since loop traces r) (closed : isClosed loop = true) (t : Touch α) :
    Since (touch loop t) (traces + t.traces) r where
  ended := (Lawful.ended_touch loop t).trans h.ended
  traces_le := Nat.le_trans h.traces_le (Nat.le_add_right _ _)
  tally := by
    have hle := h.traces_le
    rw [Lawful.tally_touch t closed, h.tally, ← Tally.droppedBy_add,
      show traces - r.traces + t.traces = traces + t.traces - r.traces by omega]

theorem Tells.touch (h : Tells loop traces k c) (closed : isClosed loop = true) (t : Touch α) :
    Tells (touch loop t) (traces + t.traces) k c := by
  cases c with
  | waiting | dropped => exact h
  | passing late => exact ⟨h.1, fun hlate => (Lawful.ended_touch loop t).trans (h.2 hlate)⟩
  | returned r => exact ⟨h.1, h.2.1, fun ended => (h.2.2 ended).touch closed t⟩

/-- A loop that goes on has not ended, so no shutdown can have seen its end. -/
theorem Tells.work (h : Tells loop traces k c) (goes : Lawful.Goes loop loop') :
    Tells loop' traces k c := by
  have hrunning : ¬ isEnded loop = true := by
    rw [Lawful.running goes]
    nofun
  cases c with
  | waiting | dropped => exact h
  | passing late => exact ⟨h.1, fun hlate => absurd (h.2 hlate) hrunning⟩
  | returned r => exact ⟨h.1, h.2.1, fun ended => absurd (h.2.2 ended).ended hrunning⟩

variable {s s' : Shared σ} {m : Move α}

structure Kept (s : Shared σ) : Prop where
  joinable : s.tracer.joinable = true ↔ s.shutdowns = []
  closed : s.shutdowns ≠ [] → isClosed s.tracer.loop = true
  tells : ∀ (k : Nat) c, s.shutdowns[k]? = some c → Tells s.tracer.loop s.traces k c

omit [Lawful σ α] in
theorem kept_start (loop : σ) : Kept (.start loop) where
  joinable := ⟨fun _ => rfl, fun _ => rfl⟩
  closed h := absurd rfl h
  tells k c at_ := by cases at_

theorem ne_nil (h : s.shutdowns[k]? = some c) : s.shutdowns ≠ [] := by
  intro hnil
  rw [hnil] at h
  cases h

theorem Kept.touch (h : Kept s) (t : Touch α) : Kept (s.touched t) where
  joinable := h.joinable
  closed some_ := Lawful.closed_touch t (h.closed some_)
  tells k c at_ := (h.tells k c at_).touch (h.closed (ne_nil at_)) t

theorem Kept.work (h : Kept s) (goes : Lawful.Goes s.tracer.loop loop) :
    Kept { s with tracer.loop := loop } where
  joinable := h.joinable
  closed some_ := Lawful.closed_goes goes (h.closed some_)
  tells k c at_ := (h.tells k c at_).work goes

omit [Lawful σ α] in
/-- If the first shutdown has returned, the loop has ended. -/
theorem Kept.ended_of_first (h : Kept s)
    (first : s.shutdowns.head?.any (· matches .returned _) = true) :
    isEnded s.tracer.loop = true := by
  cases hshutdowns : s.shutdowns with
  | nil =>
    rw [hshutdowns] at first
    cases first
  | cons c rest =>
    rw [hshutdowns] at first
    have htells := h.tells 0 c (by rw [hshutdowns]; rfl)
    cases c with
    | returned r => exact (htells.2.2 (htells.2.1 (htells.1 rfl))).ended
    | waiting | passing _ | dropped => cases first

/-- A shutdown that begins is the first, and waits, or it has nothing to wait for. -/
theorem Kept.begin (h : Kept s) : Kept s.begin where
  joinable := ⟨nofun, fun hnil => by cases (List.append_eq_nil_iff.mp hnil).2⟩
  closed _ := Lawful.closed_close s.tracer.loop
  tells k c at_ := by
    rw [Shared.begin, List.getElem?_append] at at_
    split at at_
    · exact (h.tells k c at_).touch (h.closed (ne_nil at_)) .close
    · next hlength =>
      rw [List.getElem?_singleton] at at_
      split at at_
      · next hlast =>
        cases at_
        show Tells _ _ k (if s.tracer.joinable = true then _ else _)
        cases hjoinable : s.tracer.joinable with
        | true =>
          rw [if_pos rfl]
          show k = 0
          rw [h.joinable.mp hjoinable, List.length_nil] at hlast
          omega
        | false =>
          have hsome : s.shutdowns ≠ [] := fun hnil => by
            rw [h.joinable.mpr hnil] at hjoinable
            cases hjoinable
          have hpos := List.length_pos_iff.mpr hsome
          rw [if_neg Bool.false_ne_true]
          exact ⟨by omega, fun late =>
            (Lawful.ended_touch s.tracer.loop .close).trans (h.ended_of_first late)⟩
      · cases at_

omit [Lawful σ α] in
/-- One shutdown is over. -/
theorem Kept.settle (h : Kept s) (tells : Tells s.tracer.loop s.traces k c) : Kept (s.settle k c) where
  joinable := by
    show s.tracer.joinable = true ↔ s.shutdowns.set k c = []
    rw [h.joinable, List.set_eq_nil_iff]
  closed some_ := h.closed fun hnil => some_ ((List.set_eq_nil_iff k c).mpr hnil)
  tells j d at_ := by
    rw [Shared.settle, List.getElem?_set] at at_
    split at at_
    · next heq =>
      split at at_
      · cases at_
        rwa [← heq]
      · cases at_
    · exact h.tells j d at_

omit [Lawful σ α] in
/-- What a shutdown returns is right. -/
theorem Kept.return (h : Kept s) (now : s.return? k = some r) :
    Tells s.tracer.loop s.traces k (.returned r) := by
  have hsince : ∀ inTurn, isEnded s.tracer.loop = true → Since s.tracer.loop s.traces
      ⟨s.tracer.report, isEnded s.tracer.loop, s.traces, inTurn⟩ := fun inTurn ended =>
    ⟨ended, Nat.le_refl _, by rw [Nat.sub_self, Tally.droppedBy_zero]; rfl⟩
  unfold return? at now
  dsimp only at now
  split at now
  · split at now
    · next ended =>
      cases now
      exact ⟨fun _ => rfl, fun _ => ended, hsince true⟩
    · cases now
  · next late at_ =>
    cases now
    obtain ⟨hpos, hlate⟩ := h.tells k _ at_
    exact ⟨fun hzero => by omega, hlate, hsince late⟩
  · cases now

theorem Step.kept (h : Kept s) (st : Step s m s') : Kept s' := by
  cases st with
  | touch t => exact h.touch t
  | work goes => exact h.work goes
  | begin => exact h.begin
  | drop waits => exact h.settle (h.tells _ .waiting waits)
  | finish now => exact h.settle (h.return now)

theorem Run.kept {ms : List (Move α)} (run : Run (.start loop) ms s) : Kept s := by
  induction run with
  | start => exact kept_start loop
  | move _ st ih => exact st.kept ih

/-! ## What a shutdown tells its caller -/

/-- What holds of the shutdowns of a tracer. -/
structure Joined (s : Shared σ) : Prop where
  /-- The first, and every one that begins after the first has returned, returns only after the end
  of the loop. -/
  waits : ∀ (k : Nat) r, s.shutdowns[k]? = some (.returned r) → k = 0 ∨ r.inTurn = true →
    r.ended = true
  /-- No other ever waits for it. -/
  others : ∀ k : Nat, s.shutdowns[k]? = some .waiting → k = 0
  /-- Those that return after the end of the loop have seen the same, but for the events dropped:
  these are more by the trace calls in between. -/
  agree : ∀ (j k : Nat) r r', s.shutdowns[j]? = some (.returned r) →
    s.shutdowns[k]? = some (.returned r') →
    r.ended = true → r'.ended = true → r.traces ≤ r'.traces →
    r'.report.2 = r.report.2.droppedBy (r'.traces - r.traces)

omit [Lawful σ α] in
theorem Since.agree {r' : Return} (h : Since loop traces r) (h' : Since loop traces r')
    (hle : r.traces ≤ r'.traces) : r'.report.2 = r.report.2.droppedBy (r'.traces - r.traces) := by
  have hlater := h'.traces_le
  have htally := h.tally
  rw [h'.tally, show traces - r.traces = r'.traces - r.traces + (traces - r'.traces) by omega,
    Tally.droppedBy_add] at htally
  exact Tally.droppedBy_inj htally

/-- **A shutdown waits for the end of the loop if no other is under way**, and so does the first in any
case: whatever callers, the loop and other shutdowns do in between, and whichever of them are let go
of. -/
theorem shutdown_joins {ms : List (Move α)} (run : Run (.start loop) ms s) : Joined s where
  waits k r at_ inTurn := by
    obtain ⟨hfirst, hended, -⟩ := run.kept.tells k _ at_
    exact hended (inTurn.elim hfirst id)
  others k at_ := run.kept.tells k _ at_
  agree j k r r' at_ at_' ended ended' hle :=
    ((run.kept.tells j _ at_).2.2 ended).agree ((run.kept.tells k _ at_').2.2 ended') hle

/-- The move of a tracer whose loop goes on as it does on the clock. -/
def follow (s : Shared σ) : Move α → Option (Shared σ)
  | .touch t => some (s.touched t)
  | .work => (Clocked.step s.tracer.loop).map fun loop => { s with tracer.loop := loop }
  | .begin => some s.begin
  | .drop k => if s.shutdowns[k]? = some .waiting then some (s.settle k .dropped) else none
  | .finish k => (s.return? k).map fun r => s.settle k (.returned r)

theorem step_of_follow (h : s.follow m = some s') : Step s m s' := by
  cases m with
  | touch t => cases h; exact .touch t
  | work =>
    obtain ⟨loop, hstep, rfl⟩ := Option.map_eq_some_iff.mp h
    exact .work (Lawful.goes_step hstep)
  | begin => cases h; exact .begin
  | drop k =>
    rw [follow] at h
    split at h
    · next waits => cases h; exact .drop waits
    · cases h
  | finish k =>
    obtain ⟨r, now, rfl⟩ := Option.map_eq_some_iff.mp h
    exact .finish now

theorem Run.follow {s₀ : Shared σ} {old ms : List (Move α)} (run : Run s₀ old s)
    (h : ms.foldlM Shared.follow s = some s') : Run s₀ (old ++ ms) s' := by
  induction ms generalizing old s with
  | nil => cases h; rwa [List.append_nil]
  | cons m ms ih =>
    rw [List.foldlM_cons] at h
    obtain ⟨s₁, hmove, hrest⟩ := Option.bind_eq_some_iff.mp h
    have hrun := ih (run.move (step_of_follow hmove)) hrest
    rwa [List.append_assoc] at hrun

/-- A courier on a net that disturbs nothing. It takes eighteen steps from the beginning to the end. -/
def calm : Courier Event :=
  .start ⟨"remote", ⟨"peer", []⟩, "p", .ofSeconds 1, .ofSeconds 1⟩ ⟨0⟩ .stored 6
    (Courier.Undisturbed.still #[] #[]) false

/-- A shutdown that waits for the end, then one more event, and one more shutdown. -/
def oneByOne : List (Move Event) :=
  [.touch (.trace ⟨"a", 1⟩), .begin] ++ List.replicate 18 .work ++
    [.finish 0, .touch (.trace ⟨"b", 2⟩), .begin, .finish 1]

theorem shutdown_joins_oneByOne :
    ∃ s r r', Run (.start calm) oneByOne s ∧ s.shutdowns = [.returned r, .returned r'] ∧
      r'.inTurn = true ∧ r.report.2 = ⟨1, 0, 1, 28, 0, 0, 1, 0, 0, 0⟩ ∧
      r'.report.2 = r.report.2.droppedBy 1 ∧ Joined s := by
  have hmoves : (oneByOne.foldlM Shared.follow (start calm)).map (·.shutdowns) =
      some [.returned ⟨("remote", ⟨1, 0, 1, 28, 0, 0, 1, 0, 0, 0⟩), true, 1, true⟩,
        .returned ⟨("remote", ⟨1, 1, 1, 28, 0, 0, 1, 0, 0, 0⟩), true, 2, true⟩] := by
    decide +kernel
  obtain ⟨s, hfollow, hshutdowns⟩ := Option.map_eq_some_iff.mp hmoves
  have hrun : Run (start calm) oneByOne s := Run.start.follow hfollow
  exact ⟨s, _, _, hrun, hshutdowns, rfl, rfl, rfl, shutdown_joins hrun⟩

/-- Two shutdowns at once, of which the second does not wait. -/
def overtaking : List (Move Event) :=
  [.touch (.trace ⟨"a", 1⟩), .begin, .begin, .finish 1] ++ List.replicate 18 .work ++ [.finish 0]

/-- A shutdown that is let go of, and then another. -/
def givenUp : List (Move Event) :=
  [.touch (.trace ⟨"a", 1⟩), .begin, .drop 0, .begin, .finish 1]

/-- **A shutdown that overtakes another returns too early.** It comes back before the end of the loop,
with counters that say nothing of a batch that is sent afterwards, if it begins while the first waits,
and also if it begins after the first was let go of. -/
theorem shutdown_overtaken :
    (∃ s r r', Run (.start calm) overtaking s ∧ s.shutdowns = [.returned r, .returned r'] ∧
      r.ended = true ∧ r'.ended = false ∧
      r.report.2.eventsWritten = 1 ∧ r'.report.2.eventsWritten = 0) ∧
    ∃ s r', Run (.start calm) givenUp s ∧ s.shutdowns = [.dropped, .returned r'] ∧
      r'.ended = false := by
  have hfirst : (overtaking.foldlM Shared.follow (start calm)).map (·.shutdowns) =
      some [.returned ⟨("remote", ⟨1, 0, 1, 28, 0, 0, 1, 0, 0, 0⟩), true, 1, true⟩,
        .returned ⟨("remote", ⟨1, 0, 0, 0, 0, 0, 0, 0, 0, 0⟩), false, 1, false⟩] := by
    decide +kernel
  have hsecond : (givenUp.foldlM Shared.follow (start calm)).map (·.shutdowns) =
      some [.dropped,
        .returned ⟨("remote", ⟨1, 0, 0, 0, 0, 0, 0, 0, 0, 0⟩), false, 1, false⟩] := by
    decide +kernel
  obtain ⟨s, hfollow, hshutdowns⟩ := Option.map_eq_some_iff.mp hfirst
  obtain ⟨s', hfollow', hshutdowns'⟩ := Option.map_eq_some_iff.mp hsecond
  exact ⟨⟨s, _, _, Run.start.follow hfollow, hshutdowns, rfl, rfl, rfl, rfl⟩,
    s', _, Run.start.follow hfollow', hshutdowns', rfl⟩

end Shared

end TraceRelay.Tracer
