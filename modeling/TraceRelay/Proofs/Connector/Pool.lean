import TraceRelay.Connector.Pool
import TraceRelay.Proofs.Connector.Attempts

/-!
# What a pool of openings can do

A pool is moved by whoever begins an opening, cancels or stops it, by time, and by its openings. Of these
one makes a step at a time, the first that can (`move_work`); `Turned` says what has become of the pool
then. Time goes on only while no opening has anything to do, and not past the time at which one has.

Along a `Run` the calls are noted down with the opening that made them, and for each opening its
attempts.
-/

namespace TraceRelay.Connector.Pool

inductive Move where
  | begin
  | cancel
  | stop
  | advance (t : Nat)
  | work

/-- The pool after a move; none if it cannot be made. -/
def move (p : Pool) : Move → Option Pool
  | .begin => some p.begin
  | .cancel => some p.cancel
  | .stop => some p.stop
  | .advance t =>
    if (Clocked.step p).isNone ∧ Clocked.now p ≤ t ∧ (Clocked.due p).all (t ≤ ·) then
      some (Clocked.advance p t)
    else none
  | .work => Clocked.step p

/-- The opening that makes the next step, by its number, and the step. -/
def actor? (p : Pool) : Option (Nat × Opening × Opening.Turn) :=
  p.openings.findSome? fun (k, o) => (p.stepOf o).map fun turn => (k, o, turn)

/-- An opening of the pool by itself. -/
def bid (p : Pool) (o : Opening) : Bid := ⟨p.net, p.cancelled, p.stopped, o, 0⟩

/-- The calls of a move, with the opening that makes them. -/
def made (p : Pool) : Move → List (Nat × Call)
  | .work =>
    match p.actor? with
    | some (k, _, turn) => (turn.net.calls.toList.drop p.net.calls.size).map (k, ·)
    | none => []
  | _ => []

/-- The attempts of each opening so far, with what a move adds. -/
def note (p : Pool) (tried : Nat → List Attempt) : Move → Nat → List Attempt
  | .work =>
    match p.actor? with
    | some (k, o, turn) => fun j => if j = k then noteTurn (p.bid o) turn (tried k) else tried j
    | none => tried
  | _ => tried

/-- What may have happened: the moves, the calls, and the attempts of each opening. -/
inductive Run (p₀ : Pool) : List Move → List (Nat × Call) → (Nat → List Attempt) → Pool → Prop where
  | start : Run p₀ [] [] (fun _ => []) p₀
  | move {ms : List Move} {calls : List (Nat × Call)} {tried : Nat → List Attempt} {p p' : Pool}
      {m : Move} (r : Run p₀ ms calls tried p) (h : p.move m = some p') :
      Run p₀ (ms ++ [m]) (calls ++ p.made m) (p.note tried m) p'

/-- Opening `k`, in state `o`, has made a step. -/
structure Turned (p : Pool) (k : Nat) (o : Opening) (turn : Opening.Turn) (p' : Pool) : Prop where
  actor : p.actor? = some (k, o, turn)
  step : p.stepOf o = some turn
  connector : p'.connector = p.connector
  net : p'.net = turn.net
  cancelled : p'.cancelled = p.cancelled
  stopped : p'.stopped = p.stopped
  begun : p'.begun = p.begun
  failures : p'.failures = p.failures + turn.counted.toNat
  openings : ∃ others, p.openings.Perm ((k, o) :: others) ∧
    p'.openings.Perm (if turn.opening.result?.isNone then (k, turn.opening) :: others else others)
  ended : p'.ended.toList =
    p.ended.toList ++ (turn.opening.result?.map fun result => ⟨k, turn.net.clock, result⟩).toList

variable {p p' : Pool}

/-- The first opening that can make a step makes it. -/
theorem stepFrom_cases {before rest : List (Nat × Opening)} (h : p.stepFrom before rest = some p') :
    ∃ idle k o turn after, rest = idle ++ (k, o) :: after ∧ (∀ x ∈ idle, p.stepOf x.2 = none) ∧
      p.stepOf o = some turn ∧ p' = p.accept (before ++ idle) k turn after := by
  induction rest generalizing before with
  | nil => cases h
  | cons x rest ih =>
    obtain ⟨k, o⟩ := x
    rw [stepFrom] at h
    split at h
    · next turn hturn =>
      cases h
      exact ⟨[], k, o, turn, rest, rfl, List.forall_mem_nil _, hturn, by rw [List.append_nil]⟩
    · next hnone =>
      obtain ⟨idle, k', o', turn, after, rfl, hidle, hturn, rfl⟩ := ih h
      refine ⟨(k, o) :: idle, k', o', turn, after, rfl, ?_, hturn, ?_⟩
      · rintro x (_ | ⟨_, hx⟩)
        · exact hnone
        · exact hidle x hx
      · rw [List.append_assoc, List.singleton_append]

/-- The opening that has made a step is out if it is over, else before or behind the others. -/
theorem accept_eq (p : Pool) (before : List (Nat × Opening)) (k : Nat) (turn : Opening.Turn)
    (after : List (Nat × Opening)) : ∃ openings ended,
      p.accept before k turn after = { p with
        net := turn.net
        failures := p.failures + turn.counted.toNat
        journal := p.journal ++ turn.records.toArray
        openings
        ended } ∧
      openings.Perm (if turn.opening.result?.isNone then (k, turn.opening) :: (before ++ after)
        else before ++ after) ∧
      ended.toList = p.ended.toList ++
        (turn.opening.result?.map fun result => ⟨k, turn.net.clock, result⟩).toList := by
  have hfailures : (if turn.counted then p.failures + 1 else p.failures) =
      p.failures + turn.counted.toNat := by cases turn.counted <;> rfl
  unfold accept
  rw [hfailures]
  cases turn.opening.result? with
  | some result => exact ⟨before ++ after, _, rfl, .refl _, Array.toList_push ..⟩
  | none =>
    dsimp only
    split
    · exact ⟨_, p.ended, rfl, List.perm_middle, (List.append_nil _).symm⟩
    · exact ⟨_, p.ended, rfl, List.perm_append_singleton _ _, (List.append_nil _).symm⟩

theorem turned_accept {idle after : List (Nat × Opening)} {k : Nat} {o : Opening}
    {turn : Opening.Turn} (hopenings : p.openings = idle ++ (k, o) :: after)
    (hidle : ∀ x ∈ idle, p.stepOf x.2 = none) (hturn : p.stepOf o = some turn) :
    Turned p k o turn (p.accept idle k turn after) := by
  have hperm : p.openings.Perm ((k, o) :: (idle ++ after)) := by
    rw [hopenings]
    exact List.perm_middle
  have hactor : p.actor? = some (k, o, turn) := by
    have hnone : (idle.findSome? fun (k, o) => (p.stepOf o).map fun turn => (k, o, turn)) = none := by
      rw [List.findSome?_eq_none_iff]
      intro x hx
      simp [hidle x hx]
    rw [actor?, hopenings, List.findSome?_append, hnone]
    simp [hturn]
  obtain ⟨openings, ended, heq, hopenings', hended⟩ := p.accept_eq idle k turn after
  rw [heq]
  exact ⟨hactor, hturn, rfl, rfl, rfl, rfl, rfl, rfl, ⟨_, hperm, hopenings'⟩, hended⟩

theorem move_work (h : p.move .work = some p') : ∃ k o turn, Turned p k o turn p' := by
  obtain ⟨idle, k, o, turn, after, hopenings, hidle, hturn, rfl⟩ := stepFrom_cases h
  exact ⟨k, o, turn, turned_accept hopenings hidle hturn⟩

/-- Time goes on while nothing can be done, and not past what is due. -/
theorem move_advance {t : Nat} (h : p.move (.advance t) = some p') :
    ((Clocked.step p).isNone ∧ p.net.clock ≤ t ∧ (Clocked.due p).all (t ≤ ·)) ∧
      p' = { p with net := { p.net with clock := t } } := by
  simp only [move] at h
  split at h
  · next can =>
    cases h
    exact ⟨can, rfl⟩
  · cases h

/-- The calls, the attempts and the pool after one more move. -/
def follow (s : List (Nat × Call) × (Nat → List Attempt) × Pool) (m : Move) :
    Option (List (Nat × Call) × (Nat → List Attempt) × Pool) :=
  (s.2.2.move m).map fun p => (s.1 ++ s.2.2.made m, s.2.2.note s.2.1 m, p)

theorem Run.follow {p₀ : Pool} {old ms : List Move} {calls calls' : List (Nat × Call)}
    {tried tried' : Nat → List Attempt} (r : Run p₀ old calls tried p)
    (h : ms.foldlM Pool.follow (calls, tried, p) = some (calls', tried', p')) :
    Run p₀ (old ++ ms) calls' tried' p' := by
  induction ms generalizing old calls tried p with
  | nil =>
    cases h
    rw [List.append_nil]
    exact r
  | cons m ms ih =>
    rw [List.foldlM_cons, Option.bind_eq_bind, Option.bind_eq_some_iff] at h
    obtain ⟨s, hfollow, hrest⟩ := h
    obtain ⟨p₁, hmove, rfl⟩ := Option.map_eq_some_iff.mp hfollow
    rw [List.append_cons]
    exact ih (r.move hmove) hrest

/-- A run is known by what is seen at the end of its moves. -/
theorem Run.seen {β : Type} {p₀ : Pool} {ms : List Move} {b : β}
    {see : List (Nat × Call) × (Nat → List Attempt) × Pool → β}
    (h : (ms.foldlM Pool.follow ([], fun _ => [], p₀)).map see = some b) :
    ∃ calls tried p, Run p₀ ms calls tried p ∧ see (calls, tried, p) = b := by
  obtain ⟨⟨calls, tried, p⟩, hfollow, hseen⟩ := Option.map_eq_some_iff.mp h
  exact ⟨calls, tried, p, Run.start.follow hfollow, hseen⟩

/-! ## After a cancellation -/

/-- All openings of the pool are under way. -/
def UnderWay (p : Pool) : Prop := ∀ x ∈ p.openings, x.2.result? = none

theorem Turned.underWay {k : Nat} {o : Opening} {turn : Opening.Turn} (h : Turned p k o turn p')
    (under_way : UnderWay p) : UnderWay p' := by
  obtain ⟨others, hbefore, hafter⟩ := h.openings
  have hothers : ∀ x ∈ others, x.2.result? = none := fun x hx =>
    under_way x (hbefore.mem_iff.mpr (List.mem_cons_of_mem _ hx))
  intro x hx
  rw [hafter.mem_iff] at hx
  cases hresult : turn.opening.result? with
  | some result =>
    rw [hresult] at hx
    exact hothers x hx
  | none =>
    rw [hresult] at hx
    rcases List.mem_cons.mp hx with rfl | hx
    · exact hresult
    · exact hothers x hx

theorem UnderWay.move {m : Move} (h : UnderWay p) (hmove : p.move m = some p') : UnderWay p' := by
  cases m with
  | begin =>
    cases hmove
    intro x hx
    rcases List.mem_append.mp hx with hx | hx
    · exact h x hx
    · rw [List.mem_singleton.mp hx]
      rfl
  | cancel | stop =>
    cases hmove
    exact h
  | advance t =>
    obtain ⟨-, rfl⟩ := move_advance hmove
    exact h
  | work =>
    obtain ⟨k, o, turn, hturned⟩ := move_work hmove
    exact hturned.underWay h

theorem Run.underWay {ms : List Move} {calls : List (Nat × Call)} {tried : Nat → List Attempt}
    {c : Connector} {net : Net} (r : Run (.start c net) ms calls tried p) : UnderWay p := by
  induction r with
  | start => exact List.forall_mem_nil _
  | move _ h ih => exact ih.move h

/-- What has become of a pool since it was cancelled. -/
structure CalledOff (p p' : Pool) : Prop where
  cancelled : p'.cancelled = true
  calls : p'.net.calls = p.net.calls
  failures : p'.failures = p.failures
  ended : ∃ more, p'.ended.toList = p.ended.toList ++ more ∧
    ∀ e ∈ more, e.result = .error .cancelled

theorem CalledOff.refl (h : p.cancelled = true) : CalledOff p p :=
  ⟨h, rfl, rfl, [], (List.append_nil _).symm, List.forall_mem_nil _⟩

/-- The step of an opening that has been cancelled. -/
theorem Turned.eq_of_cancelled {k : Nat} {o : Opening} {turn : Opening.Turn}
    (h : Turned p k o turn p') (cancelled : p.cancelled = true) :
    turn = ⟨.gaveUp .cancelled, p.net, false, []⟩ := by
  have hstep := h.step
  rw [stepOf, cancelled] at hstep
  rw [step_of_cancelled _ _ _ (result?_of_step hstep)] at hstep
  exact (Option.some.inj hstep).symm

theorem CalledOff.move {p₀ : Pool} {m : Move} (h : CalledOff p₀ p) (hmove : p.move m = some p') :
    CalledOff p₀ p' := by
  cases m with
  | begin | cancel | stop =>
    cases hmove
    exact ⟨by first | rfl | exact h.cancelled, h.calls, h.failures, h.ended⟩
  | advance t =>
    obtain ⟨-, rfl⟩ := move_advance hmove
    exact ⟨h.cancelled, h.calls, h.failures, h.ended⟩
  | work =>
    obtain ⟨k, o, turn, hturned⟩ := move_work hmove
    have hturn := hturned.eq_of_cancelled h.cancelled
    obtain ⟨more, hended, hmore⟩ := h.ended
    refine ⟨hturned.cancelled.trans h.cancelled, ?_, ?_, more ++ [⟨k, p.net.clock, .error .cancelled⟩],
      ?_, ?_⟩
    · rw [hturned.net, hturn]
      exact h.calls
    · rw [hturned.failures, hturn]
      exact h.failures
    · rw [hturned.ended, hturn, hended, List.append_assoc]
      rfl
    · intro e he
      rcases List.mem_append.mp he with he | he
      · exact hmore e he
      · rw [List.mem_singleton.mp he]

end TraceRelay.Connector.Pool
