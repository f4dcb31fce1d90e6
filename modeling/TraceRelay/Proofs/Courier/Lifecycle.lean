import TraceRelay.Proofs.Courier.Delivered
import TraceRelay.Proofs.Courier.OnRecord
import TraceRelay.Proofs.Courier.Reckoning

/-!
# The life of all streams

What holds of the streams of a courier at every moment of every run (`lifecycle`):

1. the one in use, if any, has not failed and has not been reset; any other that was opened is over, and
   has been ended once;
2. while a stream is in use none is asked for, and while it is idle nothing is done with it;
3. the counters are in step with what became of the batches, and, whenever the courier waits or has ended,
   with the streams.
-/

namespace TraceRelay.Courier

variable {α : Type} [Message α] {e : Gzip.Encoder} {c c' : Courier α} {ds new : Deeds α} {i : Nat}

/-! ## Between batches -/

/-- A stream is idle but for batches, and its end. -/
theorem Work.net_of_idle (w : Work c new c') (in_use : c.stream? ≠ none) (idle : c.use = .idle) :
    c'.net = c.net := by
  cases w with
  | opened | gaveUp => exact net_endOpening ..
  | heedNoted | heed | heedCancel => exact net_heed ..
  | takeNothing => exact net_endBatch ..
  | discardNothing | discard => exact net_discard _
  | connect at_ result =>
    refine absurd (stream?_opening at_ fun i hi => ?_) in_use
    rw [hi] at result
    cases result
  | writeWaits at_ | writeFails at_ | writePart at_ | writeAll at_ | flush at_ | flushFails at_
  | completeWaits at_ | completeFails at_ | completePart at_ | completeAll at_ | flushEnd at_
  | flushEndFails at_ | closeWaits at_ | closed at_ | closeFails at_ =>
    rw [use, at_] at idle
    cases idle
  | _ => rfl

/-- No stream is asked for while one is in use. -/
theorem dials_of_stream {m : Move α} (hmove : c.move m = some c') (in_use : c.stream? ≠ none) :
    c'.net.dials = c.net.dials := by
  have st := move_cases hmove
  generalize c.deeds m = new at st
  cases st with
  | work w =>
    rcases w.dials_or_connect with hsame | ⟨o, closing, again, turn, at_, result, -⟩
    · exact hsame
    · refine absurd (stream?_opening at_ fun i hi => ?_) in_use
      rw [hi] at result
      cases result
  | _ => rfl

/-! ## At every moment -/

/-- A stream in use: nothing has failed on it, it has not been reset, and it has been closed only if it is
in use for that. It has taken what was sent on it, and of what is being written what it has taken. -/
structure InUse (e : Gzip.Encoder) (sent lost : List (List α)) (use : Use α) (ops : List Op) :
    Prop where
  life : Life e sent lost use ops
  none_lost : lost = []
  calm : Calm use.isEnded.toNat ops
  owes : use.Owes e sent (bytesOf ops)

/-- A stream that is over: it was ended once, by a close that came after all went well, or by the reset
that came right after a failure. -/
structure Over (e : Gzip.Encoder) (sent lost : List (List α)) (ops : List Op) : Prop where
  life : Life e sent lost .done ops
  ended : Ended e sent lost ops
  once : ops.countP Op.isClose + ops.countP Op.isReset = 1

/-- What holds at some moment of the streams of a courier. -/
structure Lifecycle (e : Gzip.Encoder) (hist : Nat → List Op) (ds : Deeds α) (c : Courier α) :
    Prop where
  in_use : ∀ i, c.stream? = some i →
    i < c.net.channels.size ∧ InUse e (ds.sentOn i) (ds.lostOn i) c.use (hist i)
  done : ∀ i < c.net.channels.size, c.stream? ≠ some i →
    Over e (ds.sentOn i) (ds.lostOn i) (hist i)
  unopened : ∀ i, c.net.channels.size ≤ i → hist i = []
  ended : c.phase = .ended → c.stream? = none
  /-- One flush for each batch sent on a stream, and at most one more. -/
  flushes : ∀ i < c.net.channels.size, (ds.sentOn i).length ≤ (hist i).countP Op.isFlush ∧
    (hist i).countP Op.isFlush ≤ (ds.sentOn i).length + 1
  /-- Nothing is done with an idle stream; whatever woke the courier, it writes when it has taken events. -/
  idle : ∀ pick c', c.work pick = some c' → c.stream? ≠ none → c.use = .idle → c'.net = c.net
  nonempty : [] ∉ ds.taken
  /-- As long as a stream is in use no other is asked for. -/
  next : ∀ m c', c.move m = some c' → c.stream? ≠ none → c'.net.dials = c.net.dials
  /-- It is what the host has on record, and the streams have taken. -/
  recorded : ∀ i, Recorded c.net i (hist i)
  errors : c.intake.tally.batchesFailed = c.intake.tally.writeErrors + c.intake.tally.encodeErrors
  batches : c.intake.tally.batchesSent + c.intake.tally.batchesFailed =
    .ofNat (ds.sent.length + ds.lost.length)
  balanced : Rests c → Balanced ds c

omit [Message α] in
/-- How often a stream may have been flushed, in whatever use. -/
theorem Use.Flushed.bounds {batches flushes : Nat} {use : Use α} (h : use.Flushed batches flushes) :
    batches ≤ flushes ∧ flushes ≤ batches + 1 := by
  cases use with
  | idle | writing => exact ⟨Nat.le_of_eq h.symm, Nat.le_succ_of_le (Nat.le_of_eq h)⟩
  | closing => exact ⟨by rw [h]; exact Nat.le_succ _, Nat.le_of_eq h⟩
  | done => exact h

variable {connector : Connector} {window : Duration} {method : Gzip.Method} {level : Nat} {net : Net}
  {cancelled : Bool} {ms : List (Move α)}

/-- **The life of all streams**, at every moment of every run. -/
theorem lifecycle (fresh : net.channels = #[]) (uncalled : net.calls = #[])
    (r : Run (.start connector window method level net cancelled) ms ds c) :
    Lifecycle (.start method level)
      (history (.start connector window method level net cancelled) ms) ds c := by
  have hlives := r.lives fresh
  have hcounts := r.counted.counts
  simp only [counts, countsOf, List.cons.injEq, and_true] at hcounts
  obtain ⟨-, -, -, hsent, hfailed⟩ := hcounts
  constructor
  case in_use =>
    intro i hi
    obtain ⟨hsize, hlife⟩ := hlives.current i hi
    have huse : c.use ≠ .done := by
      intro hdone
      unfold use at hdone
      split at hdone <;> cases hdone
    obtain ⟨hnone, hcalm⟩ := hlife.calm huse
    exact ⟨hsize, hlife, hnone, hcalm, hlife.owes⟩
  case done =>
    intro i hi hother
    have hlife := hlives.past i hi hother
    exact ⟨hlife, hlife.ended, hlife.ended.once⟩
  case unopened => exact fun i hi => (hlives.unopened i hi).1
  case ended =>
    intro hended
    rw [stream?, hended]
  case flushes =>
    intro i hi
    by_cases hcurrent : c.stream? = some i
    · exact (hlives.current i hcurrent).2.flushed.bounds
    · exact (hlives.past i hi hcurrent).flushed.bounds
  case idle => exact fun pick c' hwork => (work_cases hwork).net_of_idle
  case nonempty => exact r.kept.nonempty
  case next => exact fun m c' => dials_of_stream
  case recorded => exact r.agrees fresh uncalled
  case errors => exact (r.reckoned fresh).errors
  case batches => rw [hsent, hfailed, UInt64.ofNat_add]
  case balanced => exact r.balanced fresh

/-- Of two streams the first is reset, when the second batch on it fails; the other is closed at the end. -/
theorem lifecycle_torn :
    ∃ ds c, Run tornStart torn ds c ∧ c.phase = .ended ∧ c.net.channels.size = 2 ∧
      (c.intake.tally.reconnects, c.intake.tally.batchesFailed, c.intake.tally.batchesSent) =
        (1, 1, 2) ∧
      c.net.calls.toList.filter (fun call => !call.isDial) = [.reset 0, .close 1] ∧
      Lifecycle (.start .stored 6) (history tornStart torn) ds c := by
  have hmoves : (tornStart.moves torn).map (fun (_, c) => (c.isEnded, c.net.channels.size,
      (c.intake.tally.reconnects, c.intake.tally.batchesFailed, c.intake.tally.batchesSent),
      c.net.calls.toList.filter (fun call => !call.isDial))) =
      some (true, 2, (1, 1, 2), [.reset 0, .close 1]) := by decide +kernel
  obtain ⟨ds, c, hrun, hseen⟩ := Run.seen hmoves
  simp only [Prod.mk.injEq] at hseen
  obtain ⟨hended, hsize, ⟨hreconnects, hfailed, hsent⟩, hcalls⟩ := hseen
  exact ⟨ds, c, hrun, isEnded_iff.mp hended, hsize, by rw [hreconnects, hfailed, hsent], hcalls,
    lifecycle rfl rfl hrun⟩

end TraceRelay.Courier
