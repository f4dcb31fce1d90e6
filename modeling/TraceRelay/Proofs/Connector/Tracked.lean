import TraceRelay.Proofs.Connector.Attempts

/-!
# What is known of an opening after any moves

`Tracked` joins the attempts, the state, the counter and the record of calls of an opening. It holds at
the start and every move keeps it (`Tracked.move`), so it holds after every run (`Run.tracked`).

A move of others changes none of it (`Tracked.aside`); of the steps of an opening the one that ends an
attempt is told apart (`Tracked.finish`).
-/

namespace TraceRelay.Connector

variable {c : Connector} {tried done : List Attempt} {a : Attempt}

/-- An attempt that failed. -/
def Attempt.isFailure (a : Attempt) : Bool := a.over? matches some (_, false)

/-- What is known after some moves. -/
structure Tracked (c : Connector) (net₀ : Net) (ms : List Move) (calls : List Call)
    (tried : List Attempt) (b : Bid) : Prop where
  inTurn : InTurn c tried
  stage : Stage c b.net.clock tried b.opening
  judged : ∀ a ∈ tried, ∀ e, a.over? = some e → e = a.verdict c
  cancelled : b.cancelled = true ↔ .cancel ∈ ms
  stopped : b.stopped = true ↔ .stop ∈ ms
  errors : ∀ e, b.opening = .gaveUp e →
    (e = .cancelled ∧ .cancel ∈ ms) ∨ (e = .closed ∧ .stop ∈ ms)
  counted : .cancel ∉ ms → b.failures + b.opening.isFailed.toNat = tried.countP Attempt.isFailure
  made : calls = tried.map (Attempt.call c)
  alone : (∀ net, .others net ∉ ms) → b.net.calls.toList = net₀.calls.toList ++ calls

variable {net₀ : Net} {ms : List Move} {calls : List Call} {b b' : Bid}

theorem tracked_start (c : Connector) (net₀ : Net) : Tracked c net₀ [] [] [] (.start net₀) where
  inTurn := .nil
  stage := .begun
  judged := nofun
  cancelled := by simp [Bid.start]
  stopped := by simp [Bid.start]
  errors := nofun
  counted := fun _ => rfl
  made := rfl
  alone := fun _ => (List.append_nil _).symm

/-- A move that is not the opening's own. -/
theorem Tracked.aside (h : Tracked c net₀ ms calls tried b) (m : Move)
    (stage : Stage c b'.net.clock tried b.opening) (opening : b'.opening = b.opening)
    (failures : b'.failures = b.failures)
    (cancelled : b'.cancelled = true ↔ b.cancelled = true ∨ m = .cancel)
    (stopped : b'.stopped = true ↔ b.stopped = true ∨ m = .stop)
    (same : b'.net.calls = b.net.calls ∨ ∃ net, m = .others net) :
    Tracked c net₀ (ms ++ [m]) calls tried b' where
  inTurn := h.inTurn
  stage := opening ▸ stage
  judged := h.judged
  cancelled := by simp [cancelled, h.cancelled, eq_comm]
  stopped := by simp [stopped, h.stopped, eq_comm]
  errors := by
    intro e he
    rw [opening] at he
    rcases h.errors e he with ⟨rfl, hmem⟩ | ⟨rfl, hmem⟩
    · exact .inl ⟨rfl, List.mem_append_left _ hmem⟩
    · exact .inr ⟨rfl, List.mem_append_left _ hmem⟩
  counted := by
    intro hnot
    rw [failures, opening]
    exact h.counted fun hmem => hnot (List.mem_append_left _ hmem)
  made := h.made
  alone := by
    intro hnot
    have hold : ∀ net, Move.others net ∉ ms := fun net hmem =>
      hnot net (List.mem_append_left _ hmem)
    rcases same with hsame | ⟨net, rfl⟩
    · rw [hsame]
      exact h.alone hold
    · exact absurd (List.mem_append_right ms (List.mem_singleton_self _)) (hnot net)

theorem made_of_step {turn : Opening.Turn} {new : List Call} (step : b.step c = some turn)
    (h : turn.net.calls.toList = b.net.calls.toList ++ new) : b.made c .work = new := by
  have hsize : b.net.calls.size = b.net.calls.toList.length := Array.length_toList.symm
  rw [Bid.made, step]
  show turn.net.calls.toList.drop b.net.calls.size = new
  rw [h, hsize, List.drop_left]

/-- A step of the opening. What it is about is left to be said: the attempts and the state. -/
theorem Tracked.turn {tried' : List Attempt} {turn : Opening.Turn}
    (h : Tracked c net₀ ms calls tried b) (step : b.step c = some turn)
    (inTurn : InTurn c tried') (stage : Stage c turn.net.clock tried' turn.opening)
    (judged : ∀ a ∈ tried', a ∈ tried ∨ ∀ e, a.over? = some e → e = a.verdict c)
    (errors : ∀ e, turn.opening = .gaveUp e →
      (e = .cancelled ∧ b.cancelled = true) ∨ (e = .closed ∧ b.stopped = true))
    (counted : b.cancelled = false → turn.counted.toNat + turn.opening.isFailed.toNat +
      tried.countP Attempt.isFailure = b.opening.isFailed.toNat + tried'.countP Attempt.isFailure)
    (made : ∃ new, turn.net.calls.toList = b.net.calls.toList ++ new ∧
      tried'.map (Attempt.call c) = tried.map (Attempt.call c) ++ new) :
    Tracked c net₀ (ms ++ [.work]) (calls ++ b.made c .work) tried' (b.turned turn) where
  inTurn := inTurn
  stage := stage
  judged := by
    intro a ha
    rcases judged a ha with hold | hnew
    · exact h.judged a hold
    · exact hnew
  cancelled := by
    rw [Bid.turned, h.cancelled]
    simp
  stopped := by
    rw [Bid.turned, h.stopped]
    simp
  errors := by
    intro e he
    rcases errors e he with ⟨rfl, hflag⟩ | ⟨rfl, hflag⟩
    · exact .inl ⟨rfl, List.mem_append_left _ (h.cancelled.mp hflag)⟩
    · exact .inr ⟨rfl, List.mem_append_left _ (h.stopped.mp hflag)⟩
  counted := by
    intro hnot
    have hbefore : Move.cancel ∉ ms := fun hmem => hnot (List.mem_append_left _ hmem)
    have hgoing : b.cancelled = false := by
      rw [Bool.eq_false_iff]
      exact fun hflag => hbefore (h.cancelled.mp hflag)
    have hold := h.counted hbefore
    have hnew := counted hgoing
    have hfailures : (b.turned turn).failures = b.failures + turn.counted.toNat := by
      cases hcounted : turn.counted <;> simp [Bid.turned, hcounted]
    have hopening : (b.turned turn).opening = turn.opening := rfl
    rw [hfailures, hopening]
    omega
  made := by
    obtain ⟨new, hnet, htried⟩ := made
    rw [made_of_step step hnet, htried, h.made]
  alone := by
    intro hnot
    obtain ⟨new, hnet, -⟩ := made
    have hold := h.alone fun net hmem => hnot net (List.mem_append_left _ hmem)
    show turn.net.calls.toList = _
    rw [hnet, made_of_step step hnet, hold, List.append_assoc]

/-- The last attempt comes to its end, and the opening goes on from there. -/
theorem Tracked.finish {turn : Opening.Turn} {answer? : Option (Nat × Answer)} {ok : Bool}
    (h : Tracked c net₀ ms calls (done ++ [a]) b) (step : b.step c = some turn)
    (open_ : a.over? = none)
    (at_ : b.opening = .calling a.errand (a.limit c) answer?)
    (verdict : a.verdict c = (b.net.clock, ok)) (uncounted : turn.counted = false)
    (failed : turn.opening.isFailed = !ok) (same : turn.net.calls = b.net.calls)
    (none_given_up : ∀ e, turn.opening ≠ .gaveUp e)
    (stage : Stage c turn.net.clock (done ++ [{ a with over? := some (b.net.clock, ok) }])
      turn.opening) :
    Tracked c net₀ (ms ++ [.work]) (calls ++ b.made c .work)
      (done ++ [{ a with over? := some (b.net.clock, ok) }])
      (b.turned turn) := by
  refine h.turn step (h.inTurn.relast rfl rfl) stage ?_ ?_ ?_ ⟨[], by simp [same], ?_⟩
  · intro x hx
    rcases List.mem_append.mp hx with hx | hx
    · exact .inl (List.mem_append_left _ hx)
    · refine .inr fun e he => ?_
      rw [List.mem_singleton.mp hx] at he ⊢
      cases he
      exact verdict.symm
  · exact fun e he => absurd he (none_given_up e)
  · intro _
    have hopen : a.isFailure = false := by simp [Attempt.isFailure, open_]
    have hended : Attempt.isFailure { a with over? := some (b.net.clock, ok) } = !ok := by
      cases ok <;> rfl
    have hcalling : b.opening.isFailed = false := by rw [at_]; rfl
    rw [uncounted, failed, hcalling]
    cases ok <;> simp [hopen, hended]
    omega
  · simp [Attempt.call]

/-- An answer has come. -/
theorem Tracked.answer {answer? : Option (Nat × Answer)} {answer : Answer}
    (h : Tracked c net₀ ms calls (done ++ [a]) b)
    (step : b.step c = some (c.settle b.net a.errand answer)) (open_ : a.over? = none)
    (at_ : b.opening = .calling a.errand (a.limit c) answer?)
    (suits : answer.Suits a.errand) (verdict : a.verdict c = (b.net.clock, answer.isGood)) :
    Tracked c net₀ (ms ++ [.work]) (calls ++ b.made c .work)
      (done ++ [{ a with over? := some (b.net.clock, answer.isGood) }])
      (b.turned (c.settle b.net a.errand answer)) := by
  cases answer with
  | connected => exact h.finish step open_ at_ verdict rfl rfl rfl nofun (.connected suits rfl)
  | stream plan => exact h.finish step open_ at_ verdict rfl rfl rfl nofun (.opened suits rfl)
  | refused f => exact h.finish step open_ at_ verdict rfl rfl rfl nofun (.failed rfl)

/-- The attempt that a call begins waits for its answer. -/
theorem stage_call (c : Connector) (net : Net) (errand : Errand) (tried : List Attempt) :
    Stage c (c.call net errand).1.clock (tried ++ [.begin net errand]) (c.call net errand).2 := by
  obtain ⟨answer?, hopening, hreply, hanswers, hclock, -⟩ := c.call_spec net errand
  have herrand := Attempt.errand_begin net errand
  have hlimit : (Attempt.begin net errand).limit c = net.clock + c.attemptTimeout.ticks := by
    rw [Attempt.limit, Attempt.began_begin]
  have hcalling : Stage c net.clock (tried ++ [.begin net errand])
      (.calling (Attempt.begin net errand).errand ((Attempt.begin net errand).limit c) answer?) := by
    refine .calling (Attempt.over_begin net errand) hreply ?_ ?_
    · intro t answer ht
      rw [herrand]
      exact (hanswers t answer ht).2
    · intro d hd
      cases answer? with
      | none => cases hd; omega
      | some answered =>
        have := (hanswers answered.1 answered.2 rfl).1
        cases hd
        omega
  rw [herrand] at hcalling
  rwa [hclock, hopening]

/-- The attempt that a call begins is noted down. -/
theorem noteTurn_call {errand : Errand} (going : b.cancelled = false)
    (waits : ∀ errand deadline answer?, b.opening ≠ .calling errand deadline answer?) :
    noteTurn b ⟨(c.call b.net errand).2, (c.call b.net errand).1, false, []⟩ tried =
      tried ++ [.begin b.net errand] := by
  obtain ⟨answer?, hopening, -⟩ := c.call_spec b.net errand
  rw [noteTurn, going, hopening]
  cases ho : b.opening with
  | calling => exact absurd ho (waits _ _ _)
  | _ => rfl

/-- A call is made. -/
theorem Tracked.call {errand : Errand} (h : Tracked c net₀ ms calls tried b)
    (step : b.step c = some ⟨(c.call b.net errand).2, (c.call b.net errand).1, false, []⟩)
    (not_failed : b.opening.isFailed = false) (fits : InTurn c (tried ++ [.begin b.net errand])) :
    Tracked c net₀ (ms ++ [.work]) (calls ++ b.made c .work) (tried ++ [.begin b.net errand])
      (b.turned ⟨(c.call b.net errand).2, (c.call b.net errand).1, false, []⟩) := by
  obtain ⟨answer?, hopening, -, -, -, hcalls⟩ := c.call_spec b.net errand
  have hover := Attempt.over_begin b.net errand
  refine h.turn step fits (stage_call c b.net errand tried) ?_ ?_ ?_
    ⟨[(Attempt.begin b.net errand).call c], by simp [hcalls], by simp⟩
  · intro a ha
    rcases List.mem_append.mp ha with ha | ha
    · exact .inl ha
    · refine .inr fun e he => ?_
      rw [List.mem_singleton.mp ha, hover] at he
      cases he
  · intro e he
    rw [hopening] at he
    cases he
  · intro _
    rw [hopening, not_failed]
    simp [Opening.isFailed, Attempt.isFailure, hover]

/-- After a failure there is a pause, or the opening is given up. -/
theorem Tracked.retreat {errand : Errand} {e : OpenFailure}
    (h : Tracked c net₀ ms calls (done ++ [a]) b)
    (step : b.step c = some (c.retreat b.stopped b.net errand e))
    (at_ : b.opening = .failed errand e) (finished : a.over? = some (b.net.clock, false)) :
    Tracked c net₀ (ms ++ [.work]) (calls ++ b.made c .work) (done ++ [a])
      (b.turned (c.retreat b.stopped b.net errand e)) := by
  cases hstopped : b.stopped with
  | true =>
    have hnone : ¬ HasStream (done ++ [a]) := by
      rw [h.inTurn.hasStream_iff, finished]
      simp
    rw [hstopped] at step
    refine h.turn step h.inTurn (.gaveUp hnone) (fun x hx => .inl hx) ?_ ?_
      ⟨[], by simp [Connector.retreat]⟩
    · intro e' he
      cases he
      exact .inr ⟨rfl, hstopped⟩
    · intro _
      simp [Connector.retreat, at_, Opening.isFailed]
  | false =>
    rw [hstopped] at step
    refine h.turn step h.inTurn (.resting finished (Nat.le_add_right ..)) (fun x hx => .inl hx) nofun ?_
      ⟨[], by simp [Connector.retreat]⟩
    intro _
    simp [Connector.retreat, at_, Opening.isFailed]

/-- **Every step of an opening keeps what is known of it.** -/
theorem Tracked.work {turn : Opening.Turn} (h : Tracked c net₀ ms calls tried b)
    (hstep : b.step c = some turn) :
    Tracked c net₀ (ms ++ [.work]) (calls ++ b.made c .work) (noteTurn b turn tried)
      (b.turned turn) := by
  have hstage := h.stage
  have hcases := step_cases hstep
  generalize ho : b.opening = o at hcases hstage
  cases hcases with
  | cancel isCancelled under_way =>
    rw [noteTurn, if_pos isCancelled]
    refine h.turn hstep h.inTurn (.gaveUp ?_) (fun a ha => .inl ha) ?_ ?_ ⟨[], by simp⟩
    · rw [hstage.hasStream_iff h.inTurn]
      rintro ⟨i, rfl⟩
      cases under_way
    · intro e he
      cases he
      exact .inl ⟨rfl, isCancelled⟩
    · intro going
      rw [isCancelled] at going
      cases going
  | @call errand going =>
    rw [noteTurn_call going (by simp [ho])]
    refine h.call hstep (by rw [ho]; rfl) ?_
    cases hstage with
    | begun => exact .singleton (Attempt.errand_begin ..)
    | connected connect finished =>
      exact h.inTurn.concat (.after_connect connect finished (Attempt.errand_begin ..)
        (Attempt.began_begin ..))
  | @answer errand deadline s answer going due =>
    cases hstage with
    | @calling done a _ open_ reply suits early =>
      have hverdict := Attempt.verdict_of_reply rfl reply early due
      have hnote : noteTurn b (c.settle b.net a.errand answer) (done ++ [a]) =
          done ++ [{ a with over? := some (b.net.clock, answer.isGood) }] := by
        simp only [noteTurn, going, ho, List.modifyLast_concat, Bool.false_eq_true, if_false]
        cases answer <;> rfl
      rw [hnote]
      exact h.answer hstep open_ ho (suits s answer rfl) hverdict
  | @timeout errand deadline answer? going unanswered due =>
    cases hstage with
    | @calling done a _ open_ reply suits early =>
      have hverdict := Attempt.verdict_of_limit reply early unanswered due
      have hnote : noteTurn b ⟨.failed a.errand (.timeout c.attemptTimeout), b.net, false, []⟩
          (done ++ [a]) = done ++ [{ a with over? := some (b.net.clock, false) }] := by
        simp [noteTurn, going, ho, List.modifyLast_concat, Opening.isFailed]
      rw [hnote]
      exact h.finish hstep open_ ho hverdict rfl rfl rfl nofun (.failed rfl)
  | @fail errand e going =>
    have hnote : noteTurn b (c.retreat b.stopped b.net errand e) tried = tried := by
      rcases (c.retreat_cases b.stopped b.net errand e).2 with hopening | hopening <;>
        simp [noteTurn, going, ho, hopening]
    rw [hnote]
    cases hstage with
    | failed finished => exact h.retreat hstep ho finished
  | @stop deadline going isStopped =>
    have hnote : noteTurn b ⟨.gaveUp .closed, b.net, false, []⟩ tried = tried := by
      simp [noteTurn, going, ho]
    rw [hnote]
    refine h.turn hstep h.inTurn (.gaveUp ?_) (fun x hx => .inl hx) ?_ ?_ ⟨[], by simp⟩
    · rw [hstage.hasStream_iff h.inTurn]
      simp
    · intro e he
      cases he
      exact .inr ⟨rfl, isStopped⟩
    · intro _
      simp [ho, Opening.isFailed]
  | @retry deadline going trying due =>
    rw [noteTurn_call going (by simp [ho])]
    refine h.call hstep (by rw [ho]; rfl) ?_
    cases hstage with
    | @resting done a t finished early =>
      have hbegan := Attempt.began_begin b.net .connect
      exact h.inTurn.concat (.after_failure finished (Attempt.errand_begin ..) (by omega))

theorem Tracked.move {m : Move} (h : Tracked c net₀ ms calls tried b) (hmove : b.move c m = some b') :
    Tracked c net₀ (ms ++ [m]) (calls ++ b.made c m) (c.note b tried m) b' := by
  cases m with
  | work =>
    obtain ⟨turn, hstep, rfl⟩ := Option.map_eq_some_iff.mp hmove
    have hnote : c.note b tried .work = noteTurn b turn tried := by simp [note, hstep]
    rw [hnote]
    exact h.work hstep
  | advance t =>
    rw [show calls ++ b.made c (.advance t) = calls from List.append_nil calls]
    simp only [Bid.move] at hmove
    split at hmove
    · next hcan =>
      obtain ⟨hidle, -, hearly⟩ := hcan
      cases hmove
      exact h.aside _ (h.stage.advance (Option.isNone_iff_eq_none.mp hidle) hearly) rfl rfl
        (by simp) (by simp) (.inl rfl)
    · cases hmove
  | cancel =>
    rw [show calls ++ b.made c (.cancel) = calls from List.append_nil calls]
    cases hmove
    exact h.aside _ h.stage rfl rfl (by simp) (by simp) (.inl rfl)
  | stop =>
    rw [show calls ++ b.made c (.stop) = calls from List.append_nil calls]
    cases hmove
    exact h.aside _ h.stage rfl rfl (by simp) (by simp) (.inl rfl)
  | others net =>
    rw [show calls ++ b.made c (.others net) = calls from List.append_nil calls]
    simp only [Bid.move] at hmove
    split at hmove
    · next hclock =>
      cases hmove
      refine h.aside _ ?_ rfl rfl (by simp) (by simp) (.inr ⟨net, rfl⟩)
      rw [show ({ b with net } : Bid).net.clock = b.net.clock from hclock]
      exact h.stage
    · cases hmove

theorem Run.tracked (r : Run c (.start net₀) ms calls tried b) :
    Tracked c net₀ ms calls tried b := by
  induction r with
  | start => exact tracked_start c net₀
  | move r hmove ih => exact ih.move hmove

end TraceRelay.Connector
