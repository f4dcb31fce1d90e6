import TraceRelay.Connector
import TraceRelay.Proofs.Net

/-!
# What a connector can do

`Connector.Step` says in named cases what one step of an opening can come to (`step_cases`). A
cancellation comes before everything else (`step_of_cancelled`). A connector opens at most one stream at
a step, the next in number, and touches no other (`Connector.Step.channels`). If no stream that it may be
given fails, the one it opens does not (`Connector.Step.faultless`).
-/

namespace TraceRelay

namespace Connector

/-- What one step of an opening can come to. -/
inductive Step (c : Connector) (cancelled stopped : Bool) (net : Net) :
    Opening → Opening.Turn → Prop where
  | cancel {o : Opening} (isCancelled : cancelled = true) (under_way : o.result? = none) :
      Step c cancelled stopped net o ⟨.gaveUp .cancelled, net, false, []⟩
  | call {errand : Errand} (going : cancelled = false) :
      Step c cancelled stopped net (.ready errand)
        ⟨(c.call net errand).2, (c.call net errand).1, false, []⟩
  | answer {errand : Errand} {deadline t : Nat} {answer : Answer} (going : cancelled = false)
      (due : t ≤ net.clock) :
      Step c cancelled stopped net (.calling errand deadline (some (t, answer)))
        (c.settle net errand answer)
  | timeout {errand : Errand} {deadline : Nat} {answer? : Option (Nat × Answer)}
      (going : cancelled = false) (unanswered : answer?.filter (·.1 ≤ net.clock) = none)
      (due : deadline ≤ net.clock) :
      Step c cancelled stopped net (.calling errand deadline answer?)
        ⟨.failed errand (.timeout c.attemptTimeout), net, false, []⟩
  | fail {errand : Errand} {e : OpenFailure} (going : cancelled = false) :
      Step c cancelled stopped net (.failed errand e) (c.retreat stopped net errand e)
  | stop {deadline : Nat} (going : cancelled = false) (isStopped : stopped = true) :
      Step c cancelled stopped net (.resting deadline) ⟨.gaveUp .closed, net, false, []⟩
  | retry {deadline : Nat} (going : cancelled = false) (trying : stopped = false)
      (due : deadline ≤ net.clock) :
      Step c cancelled stopped net (.resting deadline)
        ⟨(c.call net .connect).2, (c.call net .connect).1, false, []⟩

variable {c : Connector} {cancelled stopped : Bool} {net : Net} {o : Opening} {turn : Opening.Turn}

/-- **The cases of `Step` are all** that a step of an opening comes to. -/
theorem step_cases (h : c.step cancelled stopped net o = some turn) :
    Step c cancelled stopped net o turn := by
  cases cancelled with
  | true =>
    cases o with
    | opened i => cases h
    | gaveUp e => cases h
    | ready | calling | failed | resting => cases h; exact .cancel rfl rfl
  | false =>
    cases o with
    | opened i => cases h
    | gaveUp e => cases h
    | ready errand => cases h; exact .call rfl
    | failed errand e => cases h; exact .fail rfl
    | calling errand deadline answer? =>
      simp only [step, Bool.false_eq_true, if_false] at h
      split at h
      · next t answer hanswer =>
        cases h
        rw [Option.filter_eq_some_iff] at hanswer
        obtain ⟨rfl, hdue⟩ := hanswer
        exact .answer rfl (of_decide_eq_true hdue)
      · next hnone =>
        split at h
        · next hdue => cases h; exact .timeout rfl hnone hdue
        · cases h
    | resting deadline =>
      cases stopped with
      | true => cases h; exact .stop rfl rfl
      | false =>
        simp only [step, Bool.false_eq_true, if_false] at h
        split at h
        · next hdue => cases h; exact .retry rfl rfl hdue
        · cases h

/-- **A cancellation comes before everything else** that an opening might do. -/
theorem step_of_cancelled (c : Connector) (stopped : Bool) (net : Net) {o : Opening}
    (under_way : o.result? = none) :
    c.step true stopped net o = some ⟨.gaveUp .cancelled, net, false, []⟩ := by
  cases o with
  | opened i => cases under_way
  | gaveUp e => cases under_way
  | ready | calling | failed | resting => rfl

/-- What is over makes no step. -/
theorem result?_of_step (h : c.step cancelled stopped net o = some turn) : o.result? = none := by
  cases o with
  | opened i => cases h
  | gaveUp e => cases h
  | _ => rfl

theorem result?_eq_ok {i : Nat} : o.result? = some (.ok i) ↔ o = .opened i := by
  cases o <;> simp [Opening.result?]

theorem result?_eq_error {e : OpenFailure} : o.result? = some (.error e) ↔ o = .gaveUp e := by
  cases o <;> simp [Opening.result?]

/-! ## Streams -/

theorem call_channels (c : Connector) (net : Net) (errand : Errand) :
    (c.call net errand).1.channels = net.channels ∧
      ∀ i, (c.call net errand).2 ≠ .opened i := by
  cases errand <;> exact ⟨rfl, nofun⟩

theorem settle_channels (c : Connector) (net : Net) (errand : Errand) (answer : Answer) :
    ((c.settle net errand answer).net.channels = net.channels ∧
      ∀ i, (c.settle net errand answer).opening ≠ .opened i) ∨
    ∃ plan, answer = .stream plan ∧
      (c.settle net errand answer).opening = .opened net.channels.size ∧
      (c.settle net errand answer).net = (net.addChannel c.protocol plan).1 := by
  cases answer with
  | connected => exact .inl ⟨rfl, nofun⟩
  | refused f => exact .inl ⟨rfl, nofun⟩
  | stream plan => exact .inr ⟨plan, rfl, rfl, rfl⟩

theorem retreat_cases (c : Connector) (stopped : Bool) (net : Net) (errand : Errand)
    (e : OpenFailure) : (c.retreat stopped net errand e).net = net ∧
      ((c.retreat stopped net errand e).opening = .gaveUp .closed ∨
        (c.retreat stopped net errand e).opening =
          .resting (net.clock + c.retryInterval.ticks)) := by
  cases stopped with
  | true => exact ⟨rfl, .inl rfl⟩
  | false => exact ⟨rfl, .inr rfl⟩

/-- **A connector opens at most one stream at a step**, the next in number, and touches no other. -/
theorem Step.channels (h : Step c cancelled stopped net o turn) :
    (turn.net.channels = net.channels ∧ ∀ i, turn.opening ≠ .opened i) ∨
    ∃ plan, turn.opening = .opened net.channels.size ∧
      turn.net = (net.addChannel c.protocol plan).1 := by
  cases h with
  | call | retry => exact .inl (c.call_channels net _)
  | @answer errand deadline t answer =>
    rcases c.settle_channels net errand answer with h | ⟨plan, -, h⟩
    · exact .inl h
    · exact .inr ⟨plan, h⟩
  | fail =>
    obtain ⟨hnet, hopening⟩ := c.retreat_cases stopped net _ _
    refine .inl ⟨by rw [hnet], fun i h => ?_⟩
    rcases hopening with hopening | hopening <;> cases hopening.symm.trans h
  | cancel | timeout | stop => exact .inl ⟨rfl, nofun⟩

end Connector

/-- Every stream that may be given is by a plan of some kind. -/
def Net.Offers (P : ChannelPlan → Prop) (n : Net) : Prop :=
  ∀ reaction, n.streams.Gives reaction → ∀ plan, reaction.answer? = some (.ok plan) → P plan

/-- And so is the one that has been asked for. -/
def Opening.Offers (P : ChannelPlan → Prop) : Opening → Prop
  | .calling _ _ (some (_, .stream plan)) => P plan
  | _ => True

namespace Connector

variable {c : Connector} {cancelled stopped : Bool} {net : Net} {o : Opening} {turn : Opening.Turn}
  {P : ChannelPlan → Prop}

theorem call_offers (c : Connector) (hnet : net.Offers P) (errand : Errand) :
    (c.call net errand).1.Offers P ∧ (c.call net errand).2.Offers P := by
  cases errand with
  | connect =>
    refine ⟨hnet, ?_⟩
    show Opening.Offers P (.calling .connect _ (answerAt _ net.connects.next.1 _))
    unfold answerAt
    cases net.connects.next.1.answer? with
    | none => trivial
    | some answer => cases answer <;> trivial
  | stream =>
    refine ⟨fun reaction hg => hnet reaction hg.of_next, ?_⟩
    have hgiven := hnet _ (Plan.gives_next _)
    show Opening.Offers P (.calling .stream _ (answerAt _ net.streams.next.1 _))
    unfold answerAt
    cases hanswer : net.streams.next.1.answer? with
    | none => trivial
    | some answer =>
      cases answer with
      | ok plan => exact hgiven plan hanswer
      | error f => trivial

/-- **A stream that a connector opens is by a plan that was offered.** -/
theorem Step.offers (h : Step c cancelled stopped net o turn) (hnet : net.Offers P)
    (ho : o.Offers P) : turn.net.Offers P ∧ turn.opening.Offers P ∧
      (turn.net.channels = net.channels ∧ (∀ i, turn.opening ≠ .opened i) ∨
        ∃ plan, P plan ∧ turn.opening = .opened net.channels.size ∧
          turn.net = (net.addChannel c.protocol plan).1) := by
  cases h with
  | call | retry =>
    obtain ⟨hnet', ho'⟩ := c.call_offers hnet _
    exact ⟨hnet', ho', .inl (c.call_channels net _)⟩
  | @answer errand deadline t answer =>
    cases answer with
    | stream plan => exact ⟨hnet, trivial, .inr ⟨plan, ho, rfl, rfl⟩⟩
    | connected => exact ⟨hnet, trivial, .inl ⟨rfl, nofun⟩⟩
    | refused f => exact ⟨hnet, trivial, .inl ⟨rfl, nofun⟩⟩
  | fail =>
    obtain ⟨hsame, hopening⟩ := c.retreat_cases stopped net _ _
    rw [hsame]
    rcases hopening with hopening | hopening
    · rw [hopening]; exact ⟨hnet, trivial, .inl ⟨rfl, nofun⟩⟩
    · rw [hopening]; exact ⟨hnet, trivial, .inl ⟨rfl, nofun⟩⟩
  | cancel | timeout | stop => exact ⟨hnet, trivial, .inl ⟨rfl, nofun⟩⟩

end Connector

/-- No stream that may be given fails. -/
def Net.Faultless (n : Net) : Prop :=
  ∀ reaction, n.streams.Gives reaction → ∀ plan, reaction.answer? = some (.ok plan) → plan.Faultless

theorem Net.Faultless.same {n n' : Net} (h : n.Faultless) (streams : n'.streams = n.streams) :
    n'.Faultless := by
  unfold Net.Faultless
  rw [streams]
  exact h

/-- Nor the one that has been asked for. -/
def Opening.Faultless : Opening → Prop
  | .calling _ _ (some (_, .stream plan)) => plan.Faultless
  | _ => True

namespace Connector

variable {c : Connector} {cancelled stopped : Bool} {net : Net} {o : Opening} {turn : Opening.Turn}

/-- **A stream that a connector opens does not fail**, if none that it may be given does. -/
theorem Step.faultless (h : Step c cancelled stopped net o turn) (hnet : net.Faultless)
    (ho : o.Faultless) : turn.net.Faultless ∧ turn.opening.Faultless ∧
      ∀ i, turn.opening = .opened i → ∃ plan, plan.Faultless ∧ i = net.channels.size ∧
        turn.net = (net.addChannel c.protocol plan).1 := by
  obtain ⟨hnet', ho', hchannels⟩ := h.offers (P := ChannelPlan.Faultless) hnet ho
  refine ⟨hnet', ho', fun i hi => ?_⟩
  rcases hchannels with ⟨-, hnone⟩ | ⟨plan, hplan, hopened, hadded⟩
  · exact absurd hi (hnone i)
  · cases hopened.symm.trans hi
    exact ⟨plan, hplan, rfl, hadded⟩

end Connector

end TraceRelay
