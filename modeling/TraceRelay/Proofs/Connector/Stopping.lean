import TraceRelay.Proofs.Connector.Openings
import TraceRelay.Proofs.Connector.Progress
import TraceRelay.Proofs.Connector.Tracked

/-!
# An opening that is told to stop

It rests no more, so that it can only go forwards: from a connect to the stream, and from there, or from
a failure, to its end.

1. What it may still ask of the host (`Opening.ahead`) gets shorter with every call (`Step.ahead`), and a
   failure that it counts is its last (`Step.mayFail`).
2. `Onward` is what is kept of the state in which it was told to stop. `Onward.move`: every move keeps it.
3. It comes to its end by itself (`Bid.reaches_over`).
4. `Run.lastTry`: all of it together, for an opening that is told to stop at any moment.
-/

namespace TraceRelay

/-- What a call is for, if it is one that an opening makes. -/
def Call.errand? : Call → Option Errand
  | .connect _ _ => some .connect
  | .newStream _ _ _ => some .stream
  | .close _ | .reset _ => none

namespace Opening

/-- What an opening that was told to stop may still ask of the host, first to last. -/
def ahead : Opening → List Errand
  | ready .connect => [.connect, .stream]
  | ready .stream => [.stream]
  | calling .connect _ _ => [.stream]
  | _ => []

/-- An attempt has failed, and no other has begun. -/
def inBackoff : Opening → Bool
  | failed _ _ | resting _ => true
  | _ => false

/-- The same, or the opening has been given up. -/
def isDown : Opening → Bool
  | failed _ _ | resting _ | gaveUp _ => true
  | _ => false

/-- Whether a failure may still be counted, by an opening that was told to stop. -/
def mayFail : Opening → Bool
  | ready _ | calling _ _ _ | failed _ _ => true
  | _ => false

/-- The answer that is waited for is one to the call that was made. -/
def Suited : Opening → Prop
  | calling errand _ (some (_, answer)) => answer.Suits errand
  | _ => True

/-- How many steps an opening that was told to stop has left at most. -/
def stepsLeft : Opening → Nat
  | ready .connect => 6
  | calling .connect _ _ => 5
  | ready .stream => 4
  | calling .stream _ _ => 3
  | failed _ _ => 2
  | resting _ => 1
  | opened _ | gaveUp _ => 0

theorem stepsLeft_pos {o : Opening} (under_way : o.result? = none) : 0 < o.stepsLeft := by
  cases o with
  | opened | gaveUp => cases under_way
  | ready errand | calling errand => cases errand <;> exact Nat.succ_pos _
  | failed | resting => exact Nat.succ_pos _

theorem ahead_cases (o : Opening) :
    o = .ready .connect ∧ o.ahead = [.connect, .stream] ∨ o.ahead = [.stream] ∨ o.ahead = [] := by
  cases o with
  | ready errand =>
    cases errand with
    | connect => exact .inl ⟨rfl, rfl⟩
    | stream => exact .inr (.inl rfl)
  | calling errand =>
    cases errand with
    | connect => exact .inr (.inl rfl)
    | stream => exact .inr (.inr rfl)
  | _ => exact .inr (.inr rfl)

theorem isDown_eq_false {o : Opening} (under_way : o.result? = none) (not_backoff : o.inBackoff = false) :
    o.isDown = false := by
  cases o with
  | failed | resting => cases not_backoff
  | gaveUp => cases under_way
  | _ => rfl

/-- What is asked for is one stream at most, and a connect only if it comes next. -/
theorem count_of_prefix {o : Opening} {errands : List Errand} (h : errands <+: o.ahead) :
    errands.count .stream ≤ 1 ∧
      (errands.count .connect = 0 ∨ o = .ready .connect ∧ errands.count .connect = 1) := by
  have hconnects := h.sublist.count_le .connect
  have hstreams := h.sublist.count_le .stream
  rcases o.ahead_cases with ⟨hready, hahead⟩ | hahead | hahead
  · rw [hahead] at hconnects hstreams
    rw [show List.count Errand.connect [.connect, .stream] = 1 from rfl, Nat.le_one_iff_eq_zero_or_eq_one]
      at hconnects
    exact ⟨hstreams, hconnects.imp_right fun hone => ⟨hready, hone⟩⟩
  · rw [hahead] at hconnects hstreams
    exact ⟨hstreams, .inl (Nat.le_zero.mp hconnects)⟩
  · rw [hahead] at hconnects hstreams
    exact ⟨hstreams.trans (Nat.zero_le 1), .inl (Nat.le_zero.mp hconnects)⟩

theorem ahead_of_inBackoff {o : Opening} (h : o.inBackoff = true) : o.ahead = [] := by
  cases o with
  | failed | resting => rfl
  | _ => cases h

end Opening

namespace Connector

variable {c : Connector} {stopped : Bool} {net : Net} {o : Opening} {turn : Opening.Turn}

/-! ## Steps -/

theorem call_errand? (c : Connector) (a : Attempt) : (a.call c).errand? = some a.errand := by
  unfold Attempt.call
  cases a.errand <;> rfl

theorem suited_call (c : Connector) (net : Net) (errand : Errand) : (c.call net errand).2.Suited := by
  obtain ⟨answer?, hopening, -, hanswers, -⟩ := c.call_spec net errand
  rw [hopening]
  cases answer? with
  | none => trivial
  | some answered => exact (hanswers answered.1 answered.2 rfl).2

theorem Step.suited (h : Step c false stopped net o turn) : turn.opening.Suited := by
  cases h with
  | @call errand => exact c.suited_call net errand
  | @answer errand deadline t answer => cases answer <;> trivial
  | @fail errand e => cases stopped <;> trivial
  | retry => exact c.suited_call net .connect
  | cancel | timeout | stop => trivial

/-- **What may still be asked of the host gets shorter** with every call that is made. -/
theorem Step.ahead {new : List Call} (h : Step c false true net o turn) (suited : o.Suited)
    (calls : turn.net.calls.toList = net.calls.toList ++ new) :
    new.filterMap Call.errand? ++ turn.opening.ahead <+: o.ahead := by
  have hnone : turn.net.calls = net.calls → new = [] := fun hsame => by simpa [hsame] using calls
  cases h with
  | cancel isCancelled => cases isCancelled
  | retry _ trying => cases trying
  | @call errand =>
    obtain ⟨answer?, hopening, -, -, -, hcalls⟩ := c.call_spec net errand
    have hnew : new = [(Attempt.begin net errand).call c] := by simpa [hcalls] using calls.symm
    show new.filterMap Call.errand? ++ (c.call net errand).2.ahead <+: _
    rw [hnew, hopening, List.filterMap_cons, call_errand?, Attempt.errand_begin]
    cases errand <;> exact List.prefix_rfl
  | @answer errand deadline t answer =>
    cases answer with
    | connected =>
      rw [hnone rfl, show errand = .connect from suited]
      exact List.prefix_rfl
    | stream | refused =>
      rw [hnone rfl]
      exact List.nil_prefix
  | timeout | fail | stop =>
    rw [hnone rfl]
    exact List.nil_prefix

/-- **A failure that is counted is the last.** -/
theorem Step.mayFail (h : Step c false true net o turn) :
    turn.counted.toNat + turn.opening.mayFail.toNat ≤ o.mayFail.toNat := by
  cases h with
  | cancel isCancelled => cases isCancelled
  | retry _ trying => cases trying
  | @call errand => cases errand <;> exact Nat.le_refl _
  | @answer errand deadline t answer => cases answer <;> simp [settle, Opening.mayFail]
  | timeout | fail | stop => exact Nat.le_refl _

/-- Only a failure brings an opening down. -/
theorem Step.isDown (h : Step c false stopped net o turn) :
    o.isFailed.toNat ≤ turn.counted.toNat + turn.opening.isFailed.toNat ∧
      (turn.opening.isDown = true → o.isDown = true ∨
        o.isFailed.toNat < turn.counted.toNat + turn.opening.isFailed.toNat) := by
  cases h with
  | cancel isCancelled => cases isCancelled
  | @call errand => cases errand <;> exact ⟨Nat.zero_le _, fun hdown => by cases hdown⟩
  | @answer errand deadline t answer =>
    refine ⟨Nat.zero_le _, ?_⟩
    cases answer <;> simp [settle, Opening.isDown, Opening.isFailed]
  | timeout => exact ⟨Nat.zero_le _, fun _ => .inr Nat.one_pos⟩
  | fail => cases stopped <;> exact ⟨Nat.le_refl _, fun _ => .inl rfl⟩
  | stop => exact ⟨Nat.zero_le _, fun _ => .inl rfl⟩
  | retry => exact ⟨Nat.zero_le _, fun hdown => by cases hdown⟩

theorem Step.stepsLeft (h : Step c false true net o turn) (suited : o.Suited) :
    turn.opening.stepsLeft < o.stepsLeft := by
  cases h with
  | cancel isCancelled => cases isCancelled
  | retry _ trying => cases trying
  | @call errand => cases errand <;> exact Nat.lt_succ_self _
  | @answer errand deadline t answer =>
    cases answer with
    | connected =>
      rw [show errand = .connect from suited]
      exact Nat.lt_succ_self _
    | stream plan => cases errand <;> exact Nat.succ_pos _
    | refused f => cases errand <;> simp [settle, Opening.stepsLeft]
  | @timeout errand => cases errand <;> simp [Opening.stepsLeft]
  | fail | stop => exact Nat.succ_pos _

theorem suited_of_step {cancelled : Bool} (h : c.step cancelled stopped net o = some turn) :
    turn.opening.Suited := by
  cases cancelled with
  | false => exact (step_cases h).suited
  | true =>
    rw [step_of_cancelled c stopped net (result?_of_step h)] at h
    cases h
    trivial

/-- An opening that was told to stop goes on to its end, cancelled or not. -/
theorem stepsLeft_of_step {cancelled : Bool} (h : c.step cancelled true net o = some turn)
    (suited : o.Suited) : turn.opening.stepsLeft < o.stepsLeft := by
  cases cancelled with
  | false => exact (step_cases h).stepsLeft suited
  | true =>
    have hnone := result?_of_step h
    rw [step_of_cancelled c true net hnone] at h
    cases h
    exact Opening.stepsLeft_pos hnone

/-! ## Moves -/

variable {b₀ b b' : Bid} {m : Move} {calls : List Call}

/-- The attempts that have failed. -/
def Bid.failed (b : Bid) : Nat := b.failures + b.opening.isFailed.toNat

theorem Bid.failures_turned (b : Bid) (turn : Opening.Turn) :
    (b.turned turn).failures = b.failures + turn.counted.toNat := by
  cases hcounted : turn.counted <;> simp [turned, hcounted]

/-- The opening is where it was. Time has passed only if it had nothing to do. -/
structure Bid.Stays (c : Connector) (b : Bid) (m : Move) (b' : Bid) : Prop where
  opening : b'.opening = b.opening
  failures : b'.failures = b.failures
  cancelled : m ≠ .cancel → b'.cancelled = b.cancelled
  stopped : b.stopped = true → b'.stopped = true
  clock : b'.net.clock = b.net.clock ∨ b.step c = none
  made : b.made c m = []

/-- A move is a step of the opening's own, or else the opening stays where it is. -/
theorem Bid.move_cases (h : b.move c m = some b') :
    (m = .work ∧ ∃ turn, b.step c = some turn ∧ b' = b.turned turn) ∨ b.Stays c m b' := by
  cases m with
  | work =>
    obtain ⟨turn, hstep, rfl⟩ := Option.map_eq_some_iff.mp h
    exact .inl ⟨rfl, turn, hstep, rfl⟩
  | advance t =>
    simp only [move] at h
    split at h
    · next hcan =>
      cases h
      exact .inr ⟨rfl, rfl, fun _ => rfl, id, .inr (Option.isNone_iff_eq_none.mp hcan.1), rfl⟩
    · cases h
  | cancel =>
    cases h
    exact .inr ⟨rfl, rfl, fun hne => absurd rfl hne, id, .inl rfl, rfl⟩
  | stop =>
    cases h
    exact .inr ⟨rfl, rfl, fun _ => rfl, fun _ => rfl, .inl rfl, rfl⟩
  | others net =>
    simp only [move] at h
    split at h
    · next hclock =>
      cases h
      exact .inr ⟨rfl, rfl, fun _ => rfl, id, .inl hclock, rfl⟩
    · cases h

/-- Only a failure brings an opening down. -/
theorem Bid.isDown_of_move (h : b.move c m = some b') (going : b.cancelled = false) :
    b.failed ≤ b'.failed ∧
      (b'.opening.isDown = true → b.opening.isDown = true ∨ b.failed < b'.failed) := by
  rcases move_cases h with ⟨-, turn, hstep, rfl⟩ | hstays
  · rw [step, going] at hstep
    obtain ⟨hle, hdown⟩ := (step_cases hstep).isDown
    have hfailed : (b.turned turn).failed =
        b.failures + (turn.counted.toNat + turn.opening.isFailed.toNat) := by
      rw [failed, failures_turned, Nat.add_assoc]
      rfl
    rw [hfailed, failed]
    exact ⟨by omega, fun hd => (hdown hd).imp_right fun hlt => by omega⟩
  · rw [failed, failed, hstays.opening, hstays.failures]
    exact ⟨Nat.le_refl _, .inl⟩

/-- What an opening that was told to stop, in state `b₀`, has done since and may still do. -/
structure Onward (b₀ : Bid) (calls : List Call) (b : Bid) : Prop where
  going : b.cancelled = false
  stopped : b.stopped = true
  suited : b.opening.Suited
  asked : calls.filterMap Call.errand? ++ b.opening.ahead <+: b₀.opening.ahead
  failures : b.failures + b.opening.mayFail.toNat ≤ b₀.failures + b₀.opening.mayFail.toNat
  failed : b₀.failed ≤ b.failed
  down : b.opening.isDown = true → b₀.opening.isDown = true ∨ b₀.failed < b.failed
  at_once : b₀.opening.inBackoff = true →
    (b.opening = b₀.opening ∧ b.net.clock = b₀.net.clock) ∨ b.opening = .gaveUp .closed

theorem onward_start (going : b.cancelled = false) (suited : b.opening.Suited) :
    Onward b [] { b with stopped := true } where
  going := going
  stopped := rfl
  suited := suited
  asked := List.prefix_rfl
  failures := Nat.le_refl _
  failed := Nat.le_refl _
  down := .inl
  at_once := fun _ => .inl ⟨rfl, rfl⟩

/-- In a backoff an opening that was told to stop gives up, and does nothing else first. -/
theorem step_of_inBackoff (c : Connector) (net : Net) (h : o.inBackoff = true) :
    ∃ turn, c.step false true net o = some turn ∧ turn.opening = .gaveUp .closed := by
  cases o with
  | failed errand e => exact ⟨_, rfl, rfl⟩
  | resting deadline => exact ⟨_, rfl, rfl⟩
  | _ => cases h

/-- **Every move but a cancellation leads an opening onwards** that was told to stop. -/
theorem Onward.move (h : Onward b₀ calls b) (hmove : b.move c m = some b') (not_cancel : m ≠ .cancel) :
    Onward b₀ (calls ++ b.made c m) b' := by
  obtain ⟨hle, hdown⟩ := Bid.isDown_of_move hmove h.going
  have hfailed := h.failed.trans hle
  have hisDown : b'.opening.isDown = true → b₀.opening.isDown = true ∨ b₀.failed < b'.failed := by
    intro hd
    rcases hdown hd with hbefore | hlt
    · exact (h.down hbefore).imp_right fun hlt => hlt.trans_le hle
    · exact .inr (h.failed.trans_lt hlt)
  rcases Bid.move_cases hmove with ⟨rfl, turn, hstep, rfl⟩ | hstays
  · have hstep' := hstep
    rw [Bid.step, h.going, h.stopped] at hstep'
    have hcases := step_cases hstep'
    obtain ⟨new, hnew⟩ := hcases.calls
    rw [made_of_step hstep hnew]
    refine ⟨h.going, h.stopped, hcases.suited, ?_, ?_, hfailed, hisDown, ?_⟩
    · rw [List.filterMap_append, List.append_assoc]
      exact ((List.prefix_append_right_inj _).mpr (hcases.ahead h.suited hnew)).trans h.asked
    · have hmay := hcases.mayFail
      have hold := h.failures
      rw [Bid.failures_turned]
      show _ + turn.opening.mayFail.toNat ≤ _
      omega
    · intro hbackoff
      rcases h.at_once hbackoff with ⟨hsame, -⟩ | hover
      · obtain ⟨turn', hturn', hgaveUp⟩ := step_of_inBackoff c b.net (hsame ▸ hbackoff)
        rw [hstep'] at hturn'
        cases hturn'
        exact .inr hgaveUp
      · rw [hover] at hstep'
        cases hstep'
  · rw [hstays.made, List.append_nil]
    have hopening := hstays.opening
    refine ⟨(hstays.cancelled not_cancel).trans h.going, hstays.stopped h.stopped, ?_, ?_, ?_, hfailed,
      hisDown, ?_⟩
    · rw [hopening]; exact h.suited
    · rw [hopening]; exact h.asked
    · rw [hopening, hstays.failures]; exact h.failures
    · intro hbackoff
      rw [hopening]
      refine (h.at_once hbackoff).imp_left fun hwaits => ⟨hwaits.1, ?_⟩
      rcases hstays.clock with hsame | hidle
      · exact hsame.trans hwaits.2
      · obtain ⟨turn, hturn, -⟩ := step_of_inBackoff c b.net (hwaits.1 ▸ hbackoff)
        rw [Bid.step, h.going, h.stopped, hturn] at hidle
        cases hidle

/-! ## Runs -/

variable {ms more : List Move} {tried : List Attempt}

/-- The last move of a run. -/
theorem Run.last (r : Run c b₀ (ms ++ [m]) calls tried b') :
    ∃ before tried₁ b, Run c b₀ ms before tried₁ b ∧ b.move c m = some b' ∧
      calls = before ++ b.made c m := by
  generalize hall : ms ++ [m] = all at r
  cases r with
  | start => simp at hall
  | move r hmove =>
    obtain ⟨rfl, hm⟩ := List.append_inj' hall rfl
    cases hm
    exact ⟨_, _, _, r, hmove, rfl⟩

/-- A run, taken apart at some moment. -/
theorem Run.split (r : Run c b₀ (ms ++ more) calls tried b') :
    ∃ before tried₁ b since tried₂, Run c b₀ ms before tried₁ b ∧ Run c b more since tried₂ b' ∧
      calls = before ++ since := by
  induction more using List.reverseRecOn generalizing calls tried b' with
  | nil =>
    rw [List.append_nil] at r
    exact ⟨calls, tried, b', [], [], r, .start, (List.append_nil _).symm⟩
  | append_singleton more m ih =>
    rw [← List.append_assoc] at r
    obtain ⟨_, _, _, hlast, hmove, rfl⟩ := r.last
    obtain ⟨before, tried₁, b, since, tried₂, hbefore, hsince, rfl⟩ := ih hlast
    exact ⟨before, tried₁, b, _, _, hbefore, hsince.move hmove, List.append_assoc ..⟩

/-- The calls, the attempts and the opening after one more move. -/
def follow (c : Connector) (s : List Call × List Attempt × Bid) (m : Move) :
    Option (List Call × List Attempt × Bid) :=
  (s.2.2.move c m).map fun b => (s.1 ++ s.2.2.made c m, c.note s.2.2 s.2.1 m, b)

theorem Run.follow {tried' : List Attempt} {calls' : List Call} (r : Run c b₀ ms calls tried b)
    (h : more.foldlM (Connector.follow c) (calls, tried, b) = some (calls', tried', b')) :
    Run c b₀ (ms ++ more) calls' tried' b' := by
  induction more generalizing ms calls tried b with
  | nil =>
    cases h
    rw [List.append_nil]
    exact r
  | cons m more ih =>
    rw [List.foldlM_cons, Option.bind_eq_bind, Option.bind_eq_some_iff] at h
    obtain ⟨s, hfollow, hrest⟩ := h
    obtain ⟨b₁, hmove, rfl⟩ := Option.map_eq_some_iff.mp hfollow
    rw [List.append_cons]
    exact ih (r.move hmove) hrest

/-- A run is known by what is seen at the end of its moves. -/
theorem Run.seen {β : Type} {see : List Call × List Attempt × Bid → β} {x : β}
    (h : (ms.foldlM (Connector.follow c) ([], [], b₀)).map see = some x) :
    ∃ calls tried b, Run c b₀ ms calls tried b ∧ see (calls, tried, b) = x := by
  obtain ⟨⟨calls, tried, b⟩, hfollow, hseen⟩ := Option.map_eq_some_iff.mp h
  exact ⟨calls, tried, b, Run.start.follow hfollow, hseen⟩

theorem Run.onward (r : Run c { b with stopped := true } more calls tried b')
    (no_cancel : .cancel ∉ more) (going : b.cancelled = false) (suited : b.opening.Suited) :
    Onward b calls b' := by
  induction r with
  | start => exact onward_start going suited
  | move r hmove ih =>
    rw [List.mem_append, not_or] at no_cancel
    exact (ih no_cancel.1).move hmove fun hm => no_cancel.2 (List.mem_singleton.mpr hm.symm)

/-- Unless it is cancelled, an opening is down only after a failure. -/
theorem Run.failed_of_isDown {net : Net} (r : Run c (.start net) ms calls tried b)
    (no_cancel : .cancel ∉ ms) (down : b.opening.isDown = true) : 0 < b.failed := by
  induction r with
  | start => cases down
  | @move ms calls tried b b' m r hmove ih =>
    rw [List.mem_append, not_or] at no_cancel
    have hgoing : b.cancelled = false := by
      rw [Bool.eq_false_iff, ne_eq, r.tracked.cancelled]
      exact no_cancel.1
    obtain ⟨hle, hdown⟩ := Bid.isDown_of_move hmove hgoing
    rcases hdown down with hbefore | hlt
    · exact (ih no_cancel.1 hbefore).trans_le hle
    · exact Nat.zero_lt_of_lt hlt

theorem Stage.suited {clock : Nat} (h : Stage c clock tried o) : o.Suited := by
  cases h with
  | @calling done a answer? _ _ suits =>
    cases answer? with
    | none => trivial
    | some answered => exact suits answered.1 answered.2 rfl
  | _ => trivial

/-- Only the very first connect is waited for by itself: any other is made as the rest before it ends. -/
theorem Tracked.calls_of_ready {net : Net} (h : Tracked c net ms calls tried b)
    (at_ : b.opening = .ready .connect) : calls = [] := by
  have hstage := h.stage
  rw [at_] at hstage
  cases hstage
  exact h.made

/-- **An opening that was told to stop comes to its end**, by itself. -/
theorem Bid.reaches_over (b : Bid) (going : b.cancelled = false) (stopped : b.stopped = true)
    (suited : b.opening.Suited) : ∃ b', b.Reaches c b' ∧ b'.opening.result?.isSome = true := by
  cases hresult : b.opening.result? with
  | some result => exact ⟨b, .refl, by rw [hresult]; rfl⟩
  | none =>
    -- the moment of the next step is now, or when the opening is due
    obtain ⟨d, hwait, hstep⟩ : ∃ d, b.Reaches c (b.atTime d) ∧ ((b.atTime d).step c).isSome := by
      by_cases hidle : b.step c = none
      · rcases step_or_due c b.cancelled b.stopped b.net hresult with hnow | ⟨d, hdue, hlt, hlater⟩
        · rw [show c.step b.cancelled b.stopped b.net b.opening = none from hidle] at hnow
          cases hnow
        · refine ⟨d, .single ⟨.advance d, trivial, if_pos ⟨?_, hlt.le, ?_⟩⟩, hlater⟩
          · rw [hidle]; rfl
          · rw [hdue]; simp
      · exact ⟨b.net.clock, .refl, Option.isSome_iff_ne_none.mpr hidle⟩
    obtain ⟨turn, hturn⟩ := Option.isSome_iff_exists.mp hstep
    have hcases := hturn
    rw [step, show (b.atTime d).cancelled = false from going,
      show (b.atTime d).stopped = true from stopped] at hcases
    have hless := (step_cases hcases).stepsLeft suited
    obtain ⟨b', hreach, hover⟩ := reaches_over ((b.atTime d).turned turn) going stopped
      (step_cases hcases).suited
    exact ⟨b', (hwait.tail ⟨.work, trivial, congrArg (Option.map _) hturn⟩).trans hreach, hover⟩
termination_by b.opening.stepsLeft
decreasing_by exact hless

/-! ## The last try -/

/-- The calls of an opening, by what they are for. -/
def errands (calls : List Call) : List Errand := calls.filterMap Call.errand?

/-- What an opening may do that is told to stop, with `calls` and `tried` behind it, in state `b`. By now
it has called `since`, tried `tried'` in all, and is in state `b'`. -/
structure LastTry (c : Connector) (calls : List Call) (tried : List Attempt) (b : Bid)
    (since : List Call) (tried' : List Attempt) (b' : Bid) : Prop where
  one_stream : (errands since).count .stream ≤ 1
  /-- It connects only if that is its very first call. -/
  no_connect : (errands since).count .connect = 0 ∨ calls = [] ∧ (errands since).count .connect = 1
  one_failure : b'.failures ≤ b.failures + 1
  /-- In a backoff the host is not called, no time passes, and the next step is to give up. -/
  at_once : b.opening.inBackoff = true → since = [] ∧
    (b'.opening = .gaveUp .closed ∨ b'.net.clock = b.net.clock ∧
      ∃ turn, b'.step c = some turn ∧ turn.opening = .gaveUp .closed)
  failed : b'.opening = .gaveUp .closed → ∃ a ∈ tried', a.isFailure = true
  /-- An opening under way that is not in a backoff opens a stream, unless an attempt fails now. -/
  opened : b.opening.result? = none → b.opening.inBackoff = false →
    tried'.countP Attempt.isFailure = tried.countP Attempt.isFailure →
    ∀ result, b'.opening.result? = some result → ∃ i, result = .ok i
  ends : ∃ b'', b'.Reaches c b'' ∧ b''.opening.result?.isSome = true

/-- **A try that is told to be the last is bounded, and its success is kept**, at whatever moment the
opening is told, if it is not cancelled. -/
theorem Run.lastTry {net : Net} {all : List Call} {tried' : List Attempt}
    (r : Run c (.start net) (ms ++ .stop :: more) all tried' b')
    (no_cancel : .cancel ∉ ms ++ .stop :: more) :
    ∃ calls tried b since, Run c (.start net) ms calls tried b ∧ all = calls ++ since ∧
      LastTry c calls tried b since tried' b' := by
  have hr := r
  rw [List.append_cons] at hr
  obtain ⟨_, _, _, since, _, hstop, hmore, rfl⟩ := hr.split
  obtain ⟨calls, tried, b, hbefore, hmove, rfl⟩ := hstop.last
  cases hmove
  obtain ⟨hno_cancel, hno_cancel'⟩ : .cancel ∉ ms ∧ .cancel ∉ more := by
    rw [List.mem_append, List.mem_cons, not_or, not_or] at no_cancel
    exact ⟨no_cancel.1, no_cancel.2.2⟩
  have htracked := hbefore.tracked
  have hgoing : b.cancelled = false := by
    rw [Bool.eq_false_iff, ne_eq, htracked.cancelled]
    exact hno_cancel
  have honward := hmore.onward hno_cancel' hgoing htracked.stage.suited
  have hasked : errands since <+: b.opening.ahead :=
    (List.prefix_append _ _).trans honward.asked
  refine ⟨calls, tried, b, since, hbefore, by rw [List.append_assoc]; rfl, ?_⟩
  obtain ⟨hone_stream, hno_connect⟩ := Opening.count_of_prefix hasked
  constructor
  case one_stream => exact hone_stream
  case no_connect => exact hno_connect.imp_right fun h => ⟨htracked.calls_of_ready h.1, h.2⟩
  case one_failure =>
    have hfailures := honward.failures
    have := Bool.toNat_le b.opening.mayFail
    omega
  case at_once =>
    intro hbackoff
    rw [Opening.ahead_of_inBackoff hbackoff] at hasked
    refine ⟨?_, ?_⟩
    · refine List.eq_nil_iff_forall_not_mem.mpr fun x hx => ?_
      have hmem : x ∈ calls ++ b.made c .stop ++ since := List.mem_append_right _ hx
      rw [r.tracked.made] at hmem
      obtain ⟨a, -, rfl⟩ := List.mem_map.mp hmem
      have : a.errand ∈ errands since := List.mem_filterMap.mpr ⟨_, hx, call_errand? c a⟩
      rw [List.prefix_nil.mp hasked] at this
      cases this
    · rcases honward.at_once hbackoff with ⟨hsame, hclock⟩ | hover
      · refine .inr ⟨hclock, ?_⟩
        rw [Bid.step, honward.going, honward.stopped]
        exact step_of_inBackoff c b'.net (hsame ▸ hbackoff)
      · exact .inl hover
  case failed =>
    intro hclosed
    have hpos := r.failed_of_isDown no_cancel (by rw [hclosed]; rfl)
    rw [Bid.failed, r.tracked.counted no_cancel] at hpos
    exact List.countP_pos_iff.mp hpos
  case opened =>
    intro hunder_way hbackoff hsame result hresult
    rw [← r.tracked.counted no_cancel, ← htracked.counted hno_cancel] at hsame
    cases result with
    | ok i => exact ⟨i, rfl⟩
    | error e =>
      rw [result?_eq_error] at hresult
      rcases honward.down (by rw [hresult]; rfl) with hdown | hlt
      · rw [Opening.isDown_eq_false hunder_way hbackoff] at hdown
        cases hdown
      · exact absurd hsame hlt.ne'
  case ends => exact b'.reaches_over honward.going honward.stopped honward.suited

end Connector

end TraceRelay
