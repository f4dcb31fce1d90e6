import TraceRelay.Proofs.Courier.Run

/-!
# What a courier has reported

A journal only grows, whatever is done (`Step.journal`). So a report that has been made since some
state of a courier stays made (`Reported.mono`).
-/

namespace TraceRelay

namespace Intake

variable {α : Type}

/-- Nothing that `k` has reported is gone in `k'`. -/
def Extends (k k' : Intake α) : Prop := k.journal.toList <+: k'.journal.toList

theorem Extends.refl (k : Intake α) : k.Extends k := List.prefix_refl _

theorem Extends.trans {k k' k'' : Intake α} (h : k.Extends k') (h' : k'.Extends k'') : k.Extends k'' :=
  List.IsPrefix.trans h h'

theorem extends_log (k : Intake α) (r : Log.Record) : k.Extends (k.log r) := by
  rw [Extends, log, Array.toList_push]
  exact List.prefix_append _ _

theorem extends_report (k : Intake α) (level : Log.Level) (message : String)
    (fields : List (String × Log.Value)) : k.Extends (k.report level message fields) :=
  k.extends_log _

theorem extends_logAll (k : Intake α) (rs : List Log.Record) : k.Extends (k.logAll rs) := by
  induction rs generalizing k with
  | nil => exact .refl k
  | cons r rs ih => exact (k.extends_log r).trans (ih (k.log r))

theorem extends_trace (k : Intake α) (e : α) : k.Extends (k.trace e) := by
  cases hclosed : k.buffer.closed with
  | false =>
    rw [trace_of_open hclosed]
    exact .refl k
  | true =>
    rw [trace_of_closed hclosed, Extends, Array.toList_push]
    exact List.prefix_append _ _

theorem extends_close (k : Intake α) : k.Extends k.close := by
  unfold close Buffer.close
  cases k.buffer.closed with
  | false => exact extends_log _ _
  | true => exact .refl k

end Intake

namespace Courier

variable {α : Type} {c c' c'' : Courier α} {new : Deeds α}

theorem extends_endOpening (c : Courier α) (again : Bool) (result : Except OpenFailure Nat) :
    c.intake.Extends (c.endOpening again result).intake := by
  cases result with
  | ok i => cases again <;> exact .refl _
  | error e => cases e <;> exact Intake.extends_report ..

theorem extends_discard (c : Courier α) : c.intake.Extends c.discard.intake := by
  refine Intake.Extends.trans ?_ (Intake.extends_report _ .info _ _)
  split
  · exact .refl _
  · exact Intake.extends_report ((c.intake.swap c.scratch).1.count _) ..

/-- A step adds to the journal. -/
theorem Work.journal [Message α] (w : Work c new c') : c.intake.Extends c'.intake := by
  cases w with
  | start => exact Intake.extends_report ..
  | opened | gaveUp => exact c.extends_endOpening _ _
  | @connect o closing again turn =>
    show c.intake.Extends ((if turn.counted then _ else _ : Intake α).logAll _)
    cases turn.counted with
    | true => exact (c.intake.count .connectFailure).extends_logAll _
    | false => exact c.intake.extends_logAll _
  | heedNoted | heed | heedCancel =>
    rw [intake_heed]
    exact .refl _
  | takeNothing =>
    rw [intake_endBatch]
    exact .refl _
  | flush =>
    rw [sent, intake_endBatch]
    exact Intake.extends_report (c.intake.count _) ..
  | writeFails | flushFails =>
    exact Intake.extends_report ((c.intake.count .batchFailed).count .writeError) ..
  | completeFails | flushEndFails | closeFails => exact Intake.extends_report ..
  | discardNothing | discard => exact c.extends_discard
  | _ => exact .refl _

/-- **A journal only grows.** -/
theorem Step.journal [Message α] (st : Step c new c') : c.intake.Extends c'.intake := by
  cases st with
  | accept | refuse => exact Intake.extends_trace ..
  | close => exact Intake.extends_close _
  | abandon | cancel | advance => exact .refl _
  | work w => exact w.journal

/-- Since `c` a courier has made this report. -/
def Reported (c : Courier α) (message : String) (fields : List (String × Log.Value))
    (c' : Courier α) : Prop :=
  ∃ level part name, ⟨level, part, message, ("sink", .text name) :: fields⟩ ∈
    c'.intake.journal.toList.drop c.intake.journal.size

variable {message : String} {fields : List (String × Log.Value)}

theorem Reported.mono (h : Reported c message fields c') (later : c'.intake.Extends c''.intake) :
    Reported c message fields c'' := by
  obtain ⟨level, part, name, hmem⟩ := h
  obtain ⟨more, hmore⟩ := later
  refine ⟨level, part, name, ?_⟩
  rw [← hmore, List.drop_append]
  exact List.mem_append_left _ hmem

/-- A report that is being made is made since any earlier state. -/
theorem reported_now {k : Intake α} {level : Log.Level} (since : c.intake.Extends k)
    (now : c'.intake = k.report level message fields) : Reported c message fields c' := by
  refine ⟨level, k.part, k.name, ?_⟩
  rw [now, Intake.report, Intake.log, Array.toList_push, List.drop_append_of_le_length]
  · exact List.mem_append_right _ List.mem_cons_self
  · exact List.IsPrefix.length_le since

end Courier

end TraceRelay
