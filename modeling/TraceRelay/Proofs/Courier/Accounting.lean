import TraceRelay.Proofs.Courier.Run

/-!
# No event is counted twice, and none is forgotten

1. `Work.quiet`: a step without deeds leaves all events where they are, and their counters.
   `Work.ending`: the buffer is closed before a courier empties it for the last time.
2. `Kept`: the events that were accepted are those of the batches taken, in order, and then those
   in the buffer; the batches taken are those done with, in order, and then the one on its way.
3. `Leaving`: an abandoned batch is the last, and after it the buffer is closed and empty.
4. `Counted`: the counters of events and batches say how many there are of each, as words.
5. `accounts`: all of it together, for runs of fewer than `2 ^ 64` calls, in numbers.
-/

namespace TraceRelay.Courier

variable {α : Type}

/-- The batch that was taken and is not done with. -/
def onItsWay (c : Courier α) : List (List α) :=
  match c.phase with
  | .writing _ _ _ _ | .flushing _ _ _ => [c.scratch.toList]
  | _ => []

/-- The length that a batch on its way is counted with. -/
def announced? (c : Courier α) : Option Nat :=
  match c.phase with
  | .writing _ _ parcel _ | .flushing _ _ parcel => some parcel.events
  | _ => none

/-- The counters of events and of batches. -/
def counts (t : Tally) : List UInt64 :=
  [t.eventsTraced, t.eventsDropped, t.eventsWritten, t.batchesSent, t.batchesFailed]

/-! ## Steps without deeds -/

/-- Events stay where they are. -/
structure Quiet (c c' : Courier α) : Prop where
  events : c'.intake.buffer.events = c.intake.buffer.events
  closed : c.intake.buffer.closed = true → c'.intake.buffer.closed = true
  way : c'.onItsWay = c.onItsWay
  announced : c'.announced? = c.announced?
  counts : counts c'.intake.tally = counts c.intake.tally

/-- A step to and from phases in which no batch is on its way. -/
theorem Quiet.of_idle {c c' : Courier α} (before : c.announced? = none) (after : c'.announced? = none)
    (events : c'.intake.buffer.events = c.intake.buffer.events)
    (closed : c.intake.buffer.closed = true → c'.intake.buffer.closed = true)
    (counts : Courier.counts c'.intake.tally = Courier.counts c.intake.tally) : Quiet c c' := by
  have hway : ∀ d : Courier α, d.announced? = none → d.onItsWay = [] := by
    intro d hd
    unfold announced? at hd
    unfold onItsWay
    split
    · next hp => rw [hp] at hd; cases hd
    · next hp => rw [hp] at hd; cases hd
    · rfl
  exact ⟨events, closed, by rw [hway c before, hway c' after], by rw [before, after], counts⟩

/-- **A step without deeds leaves all events where they are.** -/
theorem Work.quiet [Message α] {new : Deeds α} {c c' : Courier α} (w : Work c new c')
    (hnew : new = []) : Quiet c c' := by
  cases w with
  -- nothing is on its way, neither before nor after
  | start at_ | heedNoted at_ | gathered at_ | completeFails at_ | completePart at_ | completeAll at_
  | flushEnd at_ | flushEndFails at_ | closed at_ | closeFails at_ =>
    exact .of_idle (by rw [announced?, at_]) rfl rfl id rfl
  | @opened o closing again i at_ =>
    cases again with
    | _ => exact .of_idle (by rw [announced?, at_]) rfl rfl id rfl
  | @gaveUp o closing again e at_ =>
    cases e with
    | _ => exact .of_idle (by rw [announced?, at_]) rfl rfl id rfl
  | @connect o closing again turn at_ =>
    refine .of_idle (by rw [announced?, at_]) rfl ?_ ?_ ?_
    · show (Intake.logAll _ _).buffer.events = _
      rw [Intake.buffer_logAll]
      split <;> rfl
    · show _ → (Intake.logAll _ _).buffer.closed = _
      rw [Intake.buffer_logAll]
      split <;> exact id
    · show counts (Intake.logAll _ _).tally = _
      rw [Intake.tally_logAll]
      split <;> rfl
  | noteWake at_ =>
    exact .of_idle (by rw [announced?, at_]) (by rw [announced?, at_]) (by simp) (by simp) rfl
  | noteClose at_ => exact .of_idle (by rw [announced?, at_]) rfl (by simp) (by simp) rfl
  | @heed s signal at_ =>
    cases signal with
    | _ => exact .of_idle (by rw [announced?, at_]) rfl (by simp) (by simp) rfl
  | @takeNothing s last at_ events =>
    refine .of_idle (by rw [announced?, at_]) (by cases last <;> rfl) ?_ ?_ ?_
    · rw [intake_endBatch, Intake.events_swap, events]
    · rw [intake_endBatch]; exact id
    · rw [intake_endBatch]; rfl
  -- the same batch stays on its way
  | writeWaits at_ | writePart at_ | writeAll at_ =>
    exact ⟨rfl, id, by simp [onItsWay, at_], by simp [announced?, at_], rfl⟩
  | completeWaits at_ | closeWaits at_ =>
    exact .of_idle (by rw [announced?, at_]) (by rw [announced?, at_]) rfl id rfl
  | heedCancel at_ | leave at_ => exact .of_idle (by rw [announced?, at_]) rfl rfl (fun _ => rfl) rfl
  | discardNothing at_ events =>
    refine .of_idle (by rw [announced?, at_]) rfl ?_ ?_ ?_
    · rw [events_discard, events]
    · rw [closed_discard]; exact id
    · rw [tally_discard, if_pos (by rw [events]; rfl)]
  | take | writeFails | flush | flushFails | discard => cases hnew

/-- **The last emptying comes after the close.** Every other step leads elsewhere. -/
theorem Work.ending [Message α] {new : Deeds α} {c c' : Courier α} (w : Work c new c') :
    (c'.phase ≠ .discarding ∧ c'.phase ≠ .ended) ∨
    (c'.phase = .discarding ∧ c'.intake.buffer.closed = true) ∨
    (c.phase = .discarding ∧ c' = c.discard) := by
  cases w with
  | leave at_ => exact .inr (.inl ⟨rfl, rfl⟩)
  | discardNothing at_ => exact .inr (.inr ⟨at_, rfl⟩)
  | discard at_ => exact .inr (.inr ⟨at_, rfl⟩)
  | noteWake at_ | writeWaits at_ | completeWaits at_ | closeWaits at_ =>
    left
    dsimp only
    rw [at_]
    exact ⟨nofun, nofun⟩
  | @opened o closing again => cases again <;> exact .inl ⟨nofun, nofun⟩
  | @gaveUp o closing again e => cases e <;> exact .inl ⟨nofun, nofun⟩
  | @heed s signal => cases signal <;> exact .inl ⟨nofun, nofun⟩
  | @takeNothing s last | @writeFails s last | @flush s last | @flushFails s last =>
    cases last <;> exact .inl ⟨nofun, nofun⟩
  | _ => exact .inl ⟨nofun, nofun⟩

/-! ## Batches -/

/-- Where the events that were accepted are. -/
structure Kept (ds : Deeds α) (c : Courier α) : Prop where
  accepted : ds.accepted = ds.taken.flatten ++ c.intake.buffer.events.toList
  taken : ds.taken = ds.settled.map Prod.fst ++ c.onItsWay
  nonempty : [] ∉ ds.taken

theorem Kept.quiet {ds : Deeds α} {c c' : Courier α} (h : Kept ds c) (q : Quiet c c') :
    Kept (ds ++ []) c' := by
  rw [List.append_nil]
  refine ⟨?_, ?_, h.nonempty⟩
  · rw [q.events]; exact h.accepted
  · rw [q.way]; exact h.taken

/-- The batch on its way is done with. -/
theorem Kept.settle {ds : Deeds α} {c c' : Courier α} (h : Kept ds c) (fate : Fate)
    (events : c'.intake.buffer.events = c.intake.buffer.events)
    (before : c.onItsWay = [c.scratch.toList]) (after : c'.onItsWay = []) :
    Kept (ds ++ [.settled c.scratch.toList fate]) c' := by
  refine ⟨?_, ?_, ?_⟩
  · rw [Deeds.accepted_append, Deeds.taken_append, events, h.accepted]
    simp [Deeds.accepted, Deeds.taken]
  · rw [Deeds.taken_append, Deeds.settled_append, h.taken, before, after]
    simp [Deeds.taken, Deeds.settled]
  · rw [Deeds.taken_append, show Deeds.taken [Deed.settled c.scratch.toList fate] = [] from rfl,
      List.append_nil]
    exact h.nonempty

theorem toList_ne_nil {a : Array α} (h : a ≠ #[]) : [] ≠ a.toList := fun hnil =>
  h (Array.toList_eq_nil_iff.mp hnil.symm)

/-- **Events stay in order and each is in one place**, in every step. -/
theorem Kept.step [Message α] {ds new : Deeds α} {c c' : Courier α} (h : Kept ds c)
    (st : Step c new c') : Kept (ds ++ new) c' := by
  cases st with
  | accept e open_ =>
    have hway : (c.trace e).onItsWay = c.onItsWay := rfl
    refine ⟨?_, ?_, ?_⟩
    · rw [Deeds.accepted_append, Deeds.taken_append, h.accepted, trace_eq,
        Intake.trace_of_open open_, Array.toList_push]
      simp [Deeds.accepted, Deeds.taken]
    · rw [Deeds.taken_append, Deeds.settled_append, hway, h.taken]
      simp [Deeds.taken, Deeds.settled]
    · rw [Deeds.taken_append, show Deeds.taken [Deed.accepted e] = [] from rfl, List.append_nil]
      exact h.nonempty
  | refuse e closed =>
    have hway : (c.trace e).onItsWay = c.onItsWay := rfl
    refine ⟨?_, ?_, ?_⟩
    · rw [Deeds.accepted_append, Deeds.taken_append, h.accepted, trace_eq,
        Intake.trace_of_closed closed]
      simp [Deeds.accepted, Deeds.taken]
    · rw [Deeds.taken_append, Deeds.settled_append, hway, h.taken]
      simp [Deeds.taken, Deeds.settled]
    · rw [Deeds.taken_append, show Deeds.taken [Deed.refused e] = [] from rfl, List.append_nil]
      exact h.nonempty
  | close => exact h.quiet ⟨Intake.events_close _, fun _ => Intake.closed_close _, rfl, rfl, by
      show counts c.intake.close.tally = _
      rw [Intake.tally_close]⟩
  | abandon => exact h.quiet ⟨rfl, fun _ => rfl, rfl, rfl, rfl⟩
  | cancel => exact h.quiet ⟨rfl, id, rfl, rfl, rfl⟩
  | advance => exact h.quiet ⟨rfl, id, rfl, rfl, rfl⟩
  | work w =>
    have hquiet := w.quiet
    cases w with
    | @take s last at_ events =>
      have hbefore : c.onItsWay = [] := by rw [onItsWay, at_]
      refine ⟨?_, ?_, ?_⟩
      · rw [Deeds.accepted_append, Deeds.taken_append, h.accepted]
        simp [Deeds.accepted, Deeds.taken]
      · rw [Deeds.taken_append, Deeds.settled_append, h.taken, hbefore]
        simp [Deeds.taken, Deeds.settled, onItsWay]
      · rw [Deeds.taken_append, List.mem_append]
        rintro (hmem | hmem)
        · exact h.nonempty hmem
        · exact toList_ne_nil events (List.mem_singleton.mp hmem)
    | @writeFails s last _ _ _ _ _ at_ | @flushFails s last _ _ _ at_ =>
      exact h.settle _ rfl (by rw [onItsWay, at_]) (by cases last <;> rfl)
    | @flush s last parcel net at_ =>
      exact h.settle _ (by cases last <;> rfl) (by rw [onItsWay, at_]) (by cases last <;> rfl)
    | discard at_ events =>
      have hbefore : c.onItsWay = [] := by rw [onItsWay, at_]
      refine ⟨?_, ?_, ?_⟩
      · rw [Deeds.accepted_append, Deeds.taken_append, h.accepted, events_discard]
        simp [Deeds.accepted, Deeds.taken]
      · rw [Deeds.taken_append, Deeds.settled_append, h.taken, hbefore]
        simp [Deeds.taken, Deeds.settled, onItsWay]
      · rw [Deeds.taken_append, List.mem_append]
        rintro (hmem | hmem)
        · exact h.nonempty hmem
        · exact toList_ne_nil events (List.mem_singleton.mp hmem)
    | _ => exact h.quiet (hquiet rfl)

/-! ## The end -/

/-- Only the last of some batches may have been abandoned. -/
def AbandonedLast (batches : List (List α × Fate)) : Prop :=
  ∃ done left, batches = done ++ left ∧ (∀ b ∈ done, b.2 ≠ .abandoned) ∧
    (left = [] ∨ ∃ events, left = [(events, .abandoned)])

/-- What has ended does not work. -/
theorem Work.running [Message α] {new : Deeds α} {c c' : Courier α} (w : Work c new c') :
    c.phase ≠ .ended := by
  intro hended
  cases w <;> simp_all only [reduceCtorEq]

/-- A batch is abandoned in the last step only. -/
theorem Work.fates [Message α] {new : Deeds α} {c c' : Courier α} (w : Work c new c') :
    (∀ b ∈ new.settled, b.2 ≠ .abandoned) ∨
      c' = c.discard ∧ ∃ events, new.settled = [(events, .abandoned)] := by
  cases w with
  | discard at_ => exact .inr ⟨rfl, _, rfl⟩
  | writeFails | flush | flushFails =>
    refine .inl fun b hb => ?_
    cases List.mem_singleton.mp hb
    nofun
  | _ => exact .inl nofun

structure Leaving (ds : Deeds α) (c : Courier α) : Prop where
  last : AbandonedLast ds.settled
  running : c.phase ≠ .ended → ∀ b ∈ ds.settled, b.2 ≠ .abandoned
  closed : c.phase = .discarding ∨ c.phase = .ended → c.intake.buffer.closed = true
  empty : c.phase = .ended → c.intake.buffer.events = #[]

/-- A move of others, at the end, finds the buffer closed. -/
theorem Leaving.call {ds new : Deeds α} {c c' : Courier α} (h : Leaving ds c)
    (phase : c'.phase = c.phase) (settled : new.settled = [])
    (closed : c.intake.buffer.closed = true →
      c'.intake.buffer.closed = true ∧ c'.intake.buffer.events = c.intake.buffer.events) :
    Leaving (ds ++ new) c' := by
  have hsettled : (ds ++ new).settled = ds.settled := by
    rw [Deeds.settled_append, settled, List.append_nil]
  refine ⟨hsettled ▸ h.last, ?_, ?_, ?_⟩
  · rw [phase, hsettled]; exact h.running
  · rw [phase]; exact fun hp => (closed (h.closed hp)).1
  · rw [phase]
    intro hp
    rw [(closed (h.closed (.inr hp))).2]
    exact h.empty hp

theorem Leaving.step [Message α] {ds new : Deeds α} {c c' : Courier α} (h : Leaving ds c)
    (st : Step c new c') : Leaving (ds ++ new) c' := by
  cases st with
  | accept e open_ =>
    exact h.call rfl rfl fun hclosed => by rw [open_] at hclosed; cases hclosed
  | refuse e closed =>
    refine h.call rfl rfl fun _ => ?_
    rw [trace_eq, Intake.trace_of_closed closed]
    exact ⟨closed, rfl⟩
  | close => exact h.call rfl rfl fun _ => ⟨Intake.closed_close _, Intake.events_close _⟩
  | abandon => exact h.call rfl rfl fun _ => ⟨rfl, rfl⟩
  | cancel => exact h.call rfl rfl fun hclosed => ⟨hclosed, rfl⟩
  | advance => exact h.call rfl rfl fun hclosed => ⟨hclosed, rfl⟩
  | work w =>
    have hold := h.running w.running
    rcases w.fates with hsettled | ⟨rfl, events, hsettled⟩
    · have hnone : ∀ b ∈ (ds ++ new).settled, b.2 ≠ .abandoned := by
        rw [Deeds.settled_append]
        intro b hb
        exact (List.mem_append.mp hb).elim (hold b) (hsettled b)
      refine ⟨⟨_, [], (List.append_nil _).symm, hnone, .inl rfl⟩, fun _ => hnone, ?_, ?_⟩
      · intro hp
        rcases w.ending with ⟨hnot, hnot'⟩ | ⟨-, hclosed⟩ | ⟨hat, rfl⟩
        · exact (hp.elim hnot hnot').elim
        · exact hclosed
        · rw [closed_discard]; exact h.closed (.inl hat)
      · intro hp
        rcases w.ending with ⟨-, hnot⟩ | ⟨hat, -⟩ | ⟨-, rfl⟩
        · exact absurd hp hnot
        · rw [hat] at hp; cases hp
        · exact events_discard c
    · refine ⟨⟨_, _, ?_, hold, .inr ⟨events, rfl⟩⟩, fun hne => absurd rfl hne, fun _ => ?_, fun _ =>
        events_discard c⟩
      · rw [Deeds.settled_append, hsettled]
      · rcases w.ending with ⟨-, hnot⟩ | ⟨hat, -⟩ | ⟨hat, -⟩
        · exact absurd rfl hnot
        · cases hat
        · rw [closed_discard]; exact h.closed (.inl hat)

/-! ## Counters -/

/-- The counters that belong to some deeds. -/
def countsOf (ds : Deeds α) : List UInt64 :=
  [.ofNat ds.accepted.length, .ofNat (ds.refused.length + Deeds.size ds.abandoned),
    .ofNat (Deeds.size ds.sent), .ofNat ds.sent.length, .ofNat ds.lost.length]

structure Counted (ds : Deeds α) (c : Courier α) : Prop where
  counts : counts c.intake.tally = countsOf ds
  announced : c.announced? = c.onItsWay.head?.map List.length

theorem Counted.quiet {ds : Deeds α} {c c' : Courier α} (h : Counted ds c) (q : Quiet c c') :
    Counted (ds ++ []) c' := by
  rw [List.append_nil]
  exact ⟨by rw [q.counts]; exact h.counts, by rw [q.announced, q.way]; exact h.announced⟩

/-- One deed adds to the counters what it adds to the record. -/
theorem countsOf_append {ds new : Deeds α} {t : Tally} (h : counts t = countsOf ds) :
    countsOf (ds ++ new) = [t.eventsTraced + .ofNat new.accepted.length,
      t.eventsDropped + .ofNat (new.refused.length + Deeds.size new.abandoned),
      t.eventsWritten + .ofNat (Deeds.size new.sent), t.batchesSent + .ofNat new.sent.length,
      t.batchesFailed + .ofNat new.lost.length] := by
  simp only [counts, countsOf, List.cons.injEq, and_true] at h
  obtain ⟨htraced, hdropped, hwritten, hsent, hfailed⟩ := h
  rw [htraced, hdropped, hwritten, hsent, hfailed]
  simp only [countsOf, Deeds.accepted_append, Deeds.refused_append, Deeds.sent_append,
    Deeds.lost_append, Deeds.abandoned_append, Deeds.size_append, List.length_append,
    ← UInt64.ofNat_add, List.cons.injEq, and_true, true_and]
  congr 1
  omega

section

variable {ds : Deeds α} {t : Tally} (h : counts t = countsOf ds)
include h

theorem countsOf_accepted (e : α) : counts t.traced = countsOf (ds ++ [.accepted e]) := by
  rw [countsOf_append h]
  simp [counts, Tally.traced, Deeds.accepted, Deeds.refused, Deeds.sent, Deeds.lost,
    Deeds.abandoned, Deeds.having, Deeds.settled, Deeds.size]

theorem countsOf_refused (e : α) : counts t.dropped = countsOf (ds ++ [.refused e]) := by
  rw [countsOf_append h]
  simp [counts, Tally.dropped, Deeds.accepted, Deeds.refused, Deeds.sent, Deeds.lost,
    Deeds.abandoned, Deeds.having, Deeds.settled, Deeds.size]

theorem countsOf_took (events : List α) : counts t = countsOf (ds ++ [.took events]) := by
  rw [countsOf_append h]
  simp [counts, Deeds.accepted, Deeds.refused, Deeds.sent, Deeds.lost,
    Deeds.abandoned, Deeds.having, Deeds.settled, Deeds.size]

theorem countsOf_sent (events : List α) (i bytes : Nat) :
    counts (t.batchSent events.length bytes) =
      countsOf (ds ++ [.settled events (.sent i)]) := by
  rw [countsOf_append h]
  simp [counts, Tally.batchSent, Tally.written, Deeds.accepted, Deeds.refused, Deeds.sent,
    Deeds.lost, Deeds.abandoned, Deeds.having, Deeds.settled, Deeds.size]

theorem countsOf_lost (events : List α) (i : Nat) :
    counts t.batchFailed.writeError = countsOf (ds ++ [.settled events (.lost i)]) := by
  rw [countsOf_append h]
  simp [counts, Tally.batchFailed, Tally.writeError, Deeds.accepted, Deeds.refused, Deeds.sent,
    Deeds.lost, Deeds.abandoned, Deeds.having, Deeds.settled, Deeds.size]

theorem countsOf_abandoned (events : List α) :
    counts (t.abandoned events.length) =
      countsOf (ds ++ [.took events, .settled events .abandoned]) := by
  rw [countsOf_append h]
  simp [counts, Tally.abandoned, Deeds.accepted, Deeds.refused, Deeds.sent, Deeds.lost,
    Deeds.abandoned, Deeds.having, Deeds.settled, Deeds.size]

end

theorem Counted.step [Message α] {ds new : Deeds α} {c c' : Courier α} (h : Counted ds c)
    (st : Step c new c') : Counted (ds ++ new) c' := by
  cases st with
  | accept e open_ =>
    refine ⟨?_, h.announced⟩
    rw [← countsOf_accepted h.counts, trace_eq, Intake.trace_of_open open_]
  | refuse e closed =>
    refine ⟨?_, h.announced⟩
    rw [← countsOf_refused h.counts, trace_eq, Intake.trace_of_closed closed]
  | close =>
    refine h.quiet ⟨Intake.events_close _, fun _ => Intake.closed_close _, rfl, rfl, ?_⟩
    show Courier.counts c.intake.close.tally = _
    rw [Intake.tally_close]
  | abandon => exact h.quiet ⟨rfl, fun _ => rfl, rfl, rfl, rfl⟩
  | cancel => exact h.quiet ⟨rfl, id, rfl, rfl, rfl⟩
  | advance => exact h.quiet ⟨rfl, id, rfl, rfl, rfl⟩
  | work w =>
    have hquiet := w.quiet
    have hannounced := h.announced
    cases w with
    | take at_ events =>
      exact ⟨countsOf_took h.counts _, by simp [announced?, onItsWay]⟩
    | @writeFails s last | @flushFails s last =>
      exact ⟨countsOf_lost h.counts _ _, by cases last <;> rfl⟩
    | @flush s last parcel net at_ =>
      have hevents : parcel.events = c.scratch.toList.length := by
        rw [announced?, onItsWay, at_] at hannounced
        exact Option.some.inj hannounced
      refine ⟨?_, by cases last <;> rfl⟩
      rw [← countsOf_sent h.counts _ _ parcel.size, ← hevents]
      cases last <;> rfl
    | discard at_ events =>
      refine ⟨?_, rfl⟩
      rw [← countsOf_abandoned h.counts, tally_discard, if_neg (fun h => events
        (Array.isEmpty_iff.mp h)), Array.length_toList]
    | _ => exact h.quiet (hquiet rfl)

/-! ## Runs -/

/-- After its end a courier refuses what it is given, and notes no more of it than that. -/
theorem trace_of_ended {c : Courier α} {e : α} (h : c.intake.buffer.closed = true) :
    ∃ record, c.trace e = { c with
      intake := { c.intake with
        tally := { c.intake.tally with eventsDropped := c.intake.tally.eventsDropped + 1 }
        journal := c.intake.journal.push record } } :=
  ⟨_, by rw [trace_eq, Intake.trace_of_closed h]; rfl⟩

variable [Message α] {connector : Connector} {window : Duration} {method : Gzip.Method} {level : Nat}
  {net : Net} {cancelled : Bool} {ms : List (Move α)} {ds : Deeds α}
  {c : Courier α}

theorem Run.kept (r : Run (.start connector window method level net cancelled) ms ds c) :
    Kept ds c := r.induct ⟨rfl, rfl, nofun⟩ Kept.step

theorem Run.leaving (r : Run (.start connector window method level net cancelled) ms ds c) :
    Leaving ds c := by
  refine r.induct ⟨⟨[], [], rfl, nofun, .inl rfl⟩, fun _ => nofun, ?_, nofun⟩ Leaving.step
  rintro (h | h) <;> cases h

theorem Run.counted (r : Run (.start connector window method level net cancelled) ms ds c) :
    Counted ds c := r.induct ⟨rfl, rfl⟩ Counted.step

/-- **Every event is accounted for exactly once**, in every run of fewer than `2 ^ 64` calls and at
every moment of it. At the end nothing is queued or on its way, and what is traced then is only
counted as dropped. -/
theorem accounts (r : Run (.start connector window method level net cancelled) ms ds c)
    (h : (traced ms).length < UInt64.size) :
    let t := c.intake.tally
    (traced ms).length = t.eventsTraced.toNat + ds.refused.length ∧
    t.eventsDropped.toNat = ds.refused.length + Deeds.size ds.abandoned ∧
    t.eventsTraced.toNat = t.eventsWritten.toNat + Deeds.size ds.lost + Deeds.size ds.abandoned +
      (Deeds.size c.onItsWay + c.intake.buffer.events.size) ∧
    (c.phase = .ended →
      c.intake.buffer.closed = true ∧ c.intake.buffer.events = #[] ∧ c.onItsWay = [] ∧
      ∀ e, ∃ record, c.trace e = { c with
        intake := { c.intake with
          tally := { t with eventsDropped := t.eventsDropped + 1 }
          journal := c.intake.journal.push record } }) := by
  intro t
  have hcounts := r.counted.counts
  simp only [counts, countsOf, List.cons.injEq, and_true] at hcounts
  obtain ⟨htraced, hdropped, hwritten, -, -⟩ := hcounts
  have hkept : ds.accepted.length = Deeds.size ds.sent + Deeds.size ds.lost +
      Deeds.size ds.abandoned + (Deeds.size c.onItsWay + c.intake.buffer.events.size) := by
    rw [r.kept.accepted, r.kept.taken, List.length_append, Array.length_toList]
    have := Deeds.size_settled ds
    rw [← Nat.add_assoc, ← this, ← Deeds.size_append]
    rfl
  have hnat : ∀ {n : Nat}, n < UInt64.size → (UInt64.ofNat n).toNat = n := fun h =>
    UInt64.toNat_ofNat_of_lt h
  rw [r.calls] at h ⊢
  have ht : t.eventsTraced.toNat = ds.accepted.length := by rw [htraced, hnat (by omega)]
  have hd : t.eventsDropped.toNat = ds.refused.length + Deeds.size ds.abandoned := by
    rw [hdropped, hnat (by omega)]
  have hw : t.eventsWritten.toNat = Deeds.size ds.sent := by rw [hwritten, hnat (by omega)]
  refine ⟨by omega, hd, by omega, ?_⟩
  intro hended
  have hclosed := r.leaving.closed (.inr hended)
  exact ⟨hclosed, r.leaving.empty hended, by rw [onItsWay, hended], fun e => trace_of_ended hclosed⟩

/-- A courier whose second write fails, on a method that gives one byte for everything. -/
def fourFatesStart : Courier Event :=
  .start ⟨"remote", ⟨"peer", []⟩, "p", .ofSeconds 1, .ofSeconds 1⟩ (.ofSeconds 0)
    ⟨fun _ _ _ => [0], fun _ _ => [0]⟩ 0
    (.start (.always ⟨0, some (.ok ())⟩)
      (.always ⟨0, some (.ok { writes := ⟨[.takes], .fails .writeZero⟩ })⟩)) false

/-- Four events: one is sent, one is lost with its batch, one is left when the courier is cancelled,
one comes too late. -/
def fourFates : List (Move Event) :=
  let works (n : Nat) : List (Move Event) := List.replicate n (.work .former)
  [.trace ⟨"a", 1⟩] ++ works 11 ++ [.trace ⟨"b", 2⟩] ++ works 4 ++ [.trace ⟨"c", 3⟩, .cancel] ++
    works 4 ++ [.trace ⟨"d", 4⟩]

theorem accounts_fourFates :
    ∃ ds c, Run fourFatesStart fourFates ds c ∧ c.phase = .ended ∧
      Deeds.size ds.sent = 1 ∧ Deeds.size ds.lost = 1 ∧ Deeds.size ds.abandoned = 1 ∧
      (let t := c.intake.tally
      (traced fourFates).length = t.eventsTraced.toNat + ds.refused.length ∧
      t.eventsDropped.toNat = ds.refused.length + Deeds.size ds.abandoned ∧
      t.eventsTraced.toNat = t.eventsWritten.toNat + Deeds.size ds.lost + Deeds.size ds.abandoned +
        (Deeds.size c.onItsWay + c.intake.buffer.events.size) ∧
      (c.phase = .ended →
        c.intake.buffer.closed = true ∧ c.intake.buffer.events = #[] ∧ c.onItsWay = [] ∧
        ∀ e, ∃ record, c.trace e = { c with
          intake := { c.intake with
            tally := { t with eventsDropped := t.eventsDropped + 1 }
            journal := c.intake.journal.push record } })) := by
  have hmoves : (fourFatesStart.moves fourFates).map (fun (ds, c) => (c.isEnded,
      Deeds.size ds.sent, Deeds.size ds.lost, Deeds.size ds.abandoned)) = some (true, 1, 1, 1) := by
    decide +kernel
  rw [Option.map_eq_some_iff] at hmoves
  obtain ⟨⟨ds, c⟩, hmoves, hsizes⟩ := hmoves
  simp only [Prod.mk.injEq] at hsizes
  obtain ⟨hended, hsent, hlost, habandoned⟩ := hsizes
  have hrun : Run fourFatesStart fourFates ds c := Run.start.moves hmoves
  exact ⟨ds, c, hrun, isEnded_iff.mp hended, hsent, hlost, habandoned, accounts hrun (by decide)⟩

end TraceRelay.Courier
