import TraceRelay.Proofs.Cancellation
import TraceRelay.Proofs.Connector.Stopping
import TraceRelay.Proofs.Courier.FirstOpening

/-!
# A close while a stream is being opened

The opening makes no new attempt after one that has failed, but an attempt under way may still succeed
(`Connector.LastTry`). So a courier that is closed before it has had a stream either delivers everything,
or counts everything as dropped (`Courier.ClosedEarly`).
-/

namespace TraceRelay

/-- **A close while connecting is bounded, and does not throw away a success**: for an opening that is told
to stop, at whatever moment; and for a courier that is closed before it has had a stream. Neither is
cancelled. -/
theorem close_while_connecting {α : Type} [Message α] :
    (∀ {c net ms more all tried' b'},
      Connector.Run c (.start net) (ms ++ .stop :: more) all tried' b' →
      .cancel ∉ ms ++ .stop :: more →
      ∃ calls tried b since, Connector.Run c (.start net) ms calls tried b ∧ all = calls ++ since ∧
        Connector.LastTry c calls tried b since tried' b') ∧
    (∀ {connector window method level net cancelled ms₁ ds₁ ms₂ ds₂ o closing result}
      {c₁ c₂ : Courier α}, net.channels = #[] →
      Courier.Run (.start connector window method level net cancelled) ms₁ ds₁ c₁ →
      c₁.intake.buffer.closed = true → Courier.Run c₁ ms₂ ds₂ c₂ → c₂.cancelled = false →
      c₂.phase = .opening o closing false → o.result? = some result →
      Courier.ClosedEarly method level ds₁.accepted result (ds₁ ++ ds₂) c₂) :=
  ⟨fun r no_cancel => r.lastTry no_cancel, fun fresh r₁ closed r₂ going at_ result =>
    Courier.closedEarly fresh r₁ closed r₂ going at_ result⟩

/-! ## Close calls -/

/-- A host that no peer can be found for. -/
def deadNet : Net := .start (.always ⟨0, some (.error (.noAddresses "peer"))⟩) (.always ⟨0, none⟩)

/-- The first attempt fails; the order to stop comes during the rest after it. -/
def stoppedResting : List Connector.Move := [.work, .work, .work] ++ .stop :: [.work]

/-- The order to stop comes during the first attempt, which succeeds. -/
def stoppedCalling : List Connector.Move := [.work] ++ .stop :: [.work, .work, .work]

def closingStart (net : Net) : Courier Event :=
  .start promptConnector (.ofSeconds 0) .stored 6 net false

/-- An event, and a close before the stream is open. -/
def closedAtOnce : List (Courier.Move Event) := [.trace ⟨"a", 1⟩, .close]

/-- How the first opening has ended, if it has. -/
def Courier.firstOpening? (c : Courier Event) : Option (Except OpenFailure Nat) :=
  match c.phase with
  | .opening o _ false => o.result?
  | _ => none

theorem Courier.of_firstOpening? {c : Courier Event} {result : Except OpenFailure Nat}
    (h : c.firstOpening? = some result) :
    ∃ o closing, c.phase = .opening o closing false ∧ o.result? = some result := by
  unfold firstOpening? at h
  split at h
  · next o closing hphase => exact ⟨o, closing, hphase, h⟩
  · cases h

/-- What is seen of a run in three parts: up to the close, until the first opening has ended, and to the
end. -/
def Courier.closeView (start : Courier Event) (opening closing : List (Courier.Move Event)) :
    Option ((Bool × Option (Except OpenFailure Nat)) × List (List Event × Courier.Fate)) :=
  (start.moves closedAtOnce).bind fun closed => (closed.2.moves opening).bind fun opened =>
    (opened.2.moves closing).map fun ended =>
      ((closed.2.intake.buffer.closed && decide (closed.1.accepted = [⟨"a", 1⟩]) &&
        !opened.2.cancelled && ended.2.isEnded && !ended.2.cancelled && ended.1.lost.isEmpty,
        opened.2.firstOpening?), (closed.1 ++ opened.1 ++ ended.1).settled)

theorem Courier.seen_close {net : Net} {opening closing : List (Courier.Move Event)}
    {result : Except OpenFailure Nat} {settled : List (List Event × Courier.Fate)}
    (h : (closingStart net).closeView opening closing = some ((true, some result), settled)) :
    ∃ ds₁ c₁ ds₂ c₂ new c, Courier.Run (closingStart net) closedAtOnce ds₁ c₁ ∧
      ds₁.accepted = [⟨"a", 1⟩] ∧ Courier.Run c₁ opening ds₂ c₂ ∧ Courier.Run c₂ closing new c ∧
      c.phase = .ended ∧ c.cancelled = false ∧ new.lost = [] ∧ (ds₁ ++ ds₂ ++ new).settled = settled ∧
      ∃ o closing, c₁.intake.buffer.closed = true ∧ c₂.cancelled = false ∧
        c₂.phase = .opening o closing false ∧ o.result? = some result := by
  simp only [closeView, Option.bind_eq_some_iff, Option.map_eq_some_iff, Prod.exists] at h
  obtain ⟨ds₁, c₁, hclose, ds₂, c₂, hopening, new, c, hclosing, hstate⟩ := h
  simp only [Prod.mk.injEq, Bool.and_eq_true, Bool.not_eq_true', decide_eq_true_eq,
    List.isEmpty_iff] at hstate
  obtain ⟨⟨⟨⟨⟨⟨⟨hclosed, haccepted⟩, hgoing⟩, hended⟩, hgoing'⟩, hlost⟩, hfirst⟩, hsettled⟩ := hstate
  obtain ⟨o, seen, hphase, hresult⟩ := of_firstOpening? hfirst
  exact ⟨ds₁, c₁, ds₂, c₂, new, c, Run.start.moves hclose, haccepted, Run.start.moves hopening,
    Run.start.moves hclosing, isEnded_iff.mp hended, hgoing', hlost, hsettled, o, seen, hclosed, hgoing,
    hphase, hresult⟩

theorem close_while_connecting_prompt :
    (∃ all tried' b' calls tried b since,
      Connector.Run promptConnector (.start deadNet) stoppedResting all tried' b' ∧
      b'.opening.result? = some (.error .closed) ∧ b'.failures = 1 ∧ all = calls ++ since ∧
      Connector.LastTry promptConnector calls tried b since tried' b') ∧
    (∃ all tried' b' calls tried b since,
      Connector.Run promptConnector (.start promptNet) stoppedCalling all tried' b' ∧
      b'.opening.result? = some (.ok 0) ∧ b'.failures = 0 ∧ all = calls ++ since ∧
      Connector.LastTry promptConnector calls tried b since tried' b') ∧
    (∃ ds c new c', Courier.ClosedEarly .stored 6 [(⟨"a", 1⟩ : Event)] (.ok 0) ds c ∧
      Courier.Run c (Courier.works 13) new c' ∧ (ds ++ new).settled = [([⟨"a", 1⟩], .sent 0)] ∧
      Courier.DeliversAll .stored 6 [⟨"a", 1⟩] (ds ++ new) c') ∧
    ∃ ds c new c', Courier.ClosedEarly .stored 6 [(⟨"a", 1⟩ : Event)] (.error .closed) ds c ∧
      Courier.Run c (Courier.works 3) new c' ∧ (ds ++ new).settled = [([⟨"a", 1⟩], .abandoned)] ∧
      Courier.DropsAll [⟨"a", 1⟩] (ds ++ new) c' := by
  refine ⟨?_, ?_, ?_, ?_⟩
  · have hmoves : (stoppedResting.foldlM (Connector.follow promptConnector)
        ([], [], .start deadNet)).map (fun (_, _, b) => (b.opening.result?, b.failures)) =
        some (some (.error .closed), 1) := by decide +kernel
    obtain ⟨all, tried', b', hrun, hstate⟩ := Connector.Run.seen hmoves
    simp only [Prod.mk.injEq] at hstate
    obtain ⟨hresult, hfailures⟩ := hstate
    obtain ⟨calls, tried, b, since, -, hall, hlast⟩ :=
      (@close_while_connecting Event _).1 hrun (by simp)
    exact ⟨all, tried', b', calls, tried, b, since, hrun, hresult, hfailures, hall, hlast⟩
  · have hmoves : (stoppedCalling.foldlM (Connector.follow promptConnector)
        ([], [], .start promptNet)).map (fun (_, _, b) => (b.opening.result?, b.failures)) =
        some (some (.ok 0), 0) := by decide +kernel
    obtain ⟨all, tried', b', hrun, hstate⟩ := Connector.Run.seen hmoves
    simp only [Prod.mk.injEq] at hstate
    obtain ⟨hresult, hfailures⟩ := hstate
    obtain ⟨calls, tried, b, since, -, hall, hlast⟩ :=
      (@close_while_connecting Event _).1 hrun (by simp)
    exact ⟨all, tried', b', calls, tried, b, since, hrun, hresult, hfailures, hall, hlast⟩
  · have hview : (closingStart promptNet).closeView (Courier.works 5) (Courier.works 13) =
        some ((true, some (.ok 0)), [([⟨"a", 1⟩], .sent 0)]) := by decide +kernel
    obtain ⟨ds₁, c₁, ds₂, c₂, new, c, hclose, haccepted, hopening, hclosing, hended, hgoing, hlost,
      hsettled, o, seen, hclosed, hgoing₂, hphase, hresult⟩ := Courier.seen_close hview
    have hearly := close_while_connecting.2 rfl hclose hclosed hopening hgoing₂ hphase hresult
    rw [haccepted] at hearly
    exact ⟨ds₁ ++ ds₂, c₂, new, c, hearly, hclosing, hsettled,
      hearly.delivers rfl hclosing hended hgoing hlost⟩
  · have hview : (closingStart deadNet).closeView
        (.work .former :: .work .latter :: .work .latter :: Courier.works 3) (Courier.works 3) =
        some ((true, some (.error .closed)), [([⟨"a", 1⟩], .abandoned)]) := by decide +kernel
    obtain ⟨ds₁, c₁, ds₂, c₂, new, c, hclose, haccepted, hopening, hclosing, hended, hgoing, hlost,
      hsettled, o, seen, hclosed, hgoing₂, hphase, hresult⟩ := Courier.seen_close hview
    have hearly := close_while_connecting.2 rfl hclose hclosed hopening hgoing₂ hphase hresult
    rw [haccepted] at hearly
    exact ⟨ds₁ ++ ds₂, c₂, new, c, hearly, hclosing, hsettled, hearly.drops rfl hclosing hended⟩

end TraceRelay
