import TraceRelay.Proofs.Courier.Handling

/-!
# What the counters say of the streams

A courier begins a stream only after it has lost a batch on the one before, and it loses at most one on
each. `Reckoned` puts that in numbers: the streams begun, the batches lost and the reconnects counted are
in step with each other in every phase. Every step keeps it (`Reckoned.step`).

When a courier can do nothing by itself (`Rests`) every stream opened has been begun, and the numbers are
those of the streams (`Run.balanced`).
-/

namespace TraceRelay.Courier

variable {α : Type}

/-! ## Streams begun -/

/-- The streams that have been opened and not begun. -/
def Phase.unbegun : Phase → Nat
  | .opening (.opened _) _ _ => 1
  | _ => 0

/-- The streams that have been begun. -/
def begun (c : Courier α) : Nat := c.net.channels.size - c.phase.unbegun

/-- How many streams have been begun when `lost` batches were lost. -/
def Phase.Tells (lost begun : Nat) : Phase → Prop
  | .starting => begun = 0 ∧ lost = 0
  | .opening _ _ again => begun = lost ∧ (again = true ↔ 0 < begun)
  | .leaving | .discarding | .ended => lost ≤ begun ∧ begun ≤ lost + 1
  | _ => begun = lost + 1

/-- The counters that go with the streams. -/
def failures (t : Tally) : List UInt64 :=
  [t.batchesFailed, t.writeErrors, t.encodeErrors, t.reconnects]

structure Reckoned (ds : Deeds α) (c : Courier α) : Prop where
  errors : c.intake.tally.batchesFailed = c.intake.tally.writeErrors + c.intake.tally.encodeErrors
  reconnects : c.intake.tally.reconnects = .ofNat (c.begun - 1)
  tells : c.phase.Tells ds.lost.length c.begun

variable {ds new : Deeds α} {c c' : Courier α}

/-! ## Steps -/

/-- A step that counts nothing, and opens no stream. -/
theorem Reckoned.keep {p : Phase} (h : Reckoned ds c) (at_ : c.phase = p)
    (none_lost : new.lost = []) (tally : failures c'.intake.tally = failures c.intake.tally)
    (begun : c'.net.channels.size - c'.phase.unbegun = c.net.channels.size - p.unbegun)
    (tells : ∀ n, p.Tells ds.lost.length n → c'.phase.Tells ds.lost.length n) :
    Reckoned (ds ++ new) c' := by
  simp only [failures, List.cons.injEq, and_true] at tally
  obtain ⟨hfailed, hwrite, hencode, hreconnects⟩ := tally
  have hbegun : c'.begun = c.begun := by
    rw [Courier.begun, Courier.begun, at_]
    exact begun
  refine ⟨?_, ?_, ?_⟩
  · rw [hfailed, hwrite, hencode]
    exact h.errors
  · rw [hreconnects, hbegun]
    exact h.reconnects
  · rw [hbegun, Deeds.lost_append, none_lost, List.append_nil]
    exact tells _ (at_ ▸ h.tells)

/-- A step in the same phase. -/
theorem Reckoned.stay (h : Reckoned ds c) (phase : c'.phase = c.phase) (none_lost : new.lost = [])
    (tally : failures c'.intake.tally = failures c.intake.tally)
    (size : c'.net.channels.size = c.net.channels.size) : Reckoned (ds ++ new) c' :=
  h.keep rfl none_lost tally (by rw [size, phase]) fun _ htells => by rw [phase]; exact htells

/-- A stream is begun: it is a reconnect, unless it is the first. -/
theorem Reckoned.opened (h : Reckoned ds c) {closing again : Bool} {i : Nat}
    (at_ : c.phase = .opening (.opened i) closing again) (some_ : 0 < c.net.channels.size) :
    Reckoned (ds ++ []) (c.endOpening again (.ok i)) := by
  have hbegun : c.begun = c.net.channels.size - 1 := by rw [begun, at_]; rfl
  have hbegun' : (c.endOpening again (.ok i)).begun = c.begun + 1 := by
    show c.net.channels.size = _
    omega
  have htells := h.tells
  rw [at_] at htells
  obtain ⟨hlost, hagain⟩ := htells
  refine ⟨by cases again <;> exact h.errors, ?_, ?_⟩
  · rw [hbegun', Nat.add_sub_cancel]
    cases again with
    | true =>
      have hone : c.begun = c.begun - 1 + 1 := by
        have := hagain.mp rfl
        omega
      show c.intake.tally.reconnects + 1 = _
      rw [h.reconnects, hone, UInt64.ofNat_add, Nat.add_sub_cancel]
      rfl
    | false =>
      have hnone : c.begun = 0 := by
        have := mt hagain.mpr Bool.false_ne_true
        omega
      show c.intake.tally.reconnects = _
      rw [h.reconnects, hnone]
  · rw [hbegun', List.append_nil, hlost]
    rfl

/-- A batch is lost on the stream in use, and with it the stream. -/
theorem Reckoned.lose (h : Reckoned ds c) {s : Session} {last : Bool} {parcel : Parcel} {f : Fault}
    {net : Net} {events : List α} {i : Nat} (begun_ : c.begun = c.net.channels.size)
    (tells : c.begun = ds.lost.length + 1) (size : net.channels.size = c.net.channels.size) :
    Reckoned (ds ++ [.settled events (.lost i)]) ({ c with net }.lost s last parcel f) := by
  have hbegun : ({ c with net }.lost s last parcel f).begun = c.begun := by
    have hsize : (net.reset s.stream).channels.size = c.begun :=
      (Net.size_reset net s.stream).trans (size.trans begun_.symm)
    cases last <;> exact hsize
  have hlost : (Deeds.lost (ds ++ [.settled events (.lost i)])).length = c.begun := by
    rw [Deeds.lost_append, List.length_append, tells]
    rfl
  refine ⟨?_, ?_, ?_⟩
  · show c.intake.tally.batchesFailed + 1 =
      c.intake.tally.writeErrors + 1 + c.intake.tally.encodeErrors
    rw [h.errors]
    simp only [UInt64.add_assoc, UInt64.add_comm]
  · rw [hbegun]
    exact h.reconnects
  · rw [hbegun, hlost]
    cases last with
    | false => exact ⟨rfl, iff_of_true rfl (by omega)⟩
    | true => exact ⟨Nat.le_refl _, Nat.le_succ _⟩

variable [Message α]

omit [Message α] in
/-- What is told while a stream is in use. -/
theorem Reckoned.using {p : Phase} (h : Reckoned ds c) (at_ : c.phase = p)
    (unbegun : p.unbegun = 0) (tells : ∀ lost begun, p.Tells lost begun → begun = lost + 1) :
    c.begun = c.net.channels.size ∧ c.begun = ds.lost.length + 1 := by
  refine ⟨?_, tells _ _ (at_ ▸ h.tells)⟩
  rw [begun, at_, unbegun]
  rfl

omit [Message α] in
/-- When the last stream is done with, one batch was lost on each, or on each but the last. -/
theorem tells_of_using {lost begun : Nat} (h : begun = lost + 1) : lost ≤ begun ∧ begun ≤ lost + 1 :=
  ⟨by omega, by omega⟩

/-- **Every step keeps the counters in step with the streams.** -/
theorem Reckoned.work {e : Gzip.Encoder} (h : Reckoned ds c) (streams : Streams e ds c)
    (w : Work c new c') : Reckoned (ds ++ new) c' := by
  cases w with
  | start at_ => exact h.keep at_ rfl rfl rfl fun n hn => ⟨hn.1.trans hn.2.symm, by simp [hn.1]⟩
  | @opened o closing again i at_ result =>
    rw [Connector.result?_eq_ok] at result
    subst result
    have hcurrent := streams.current
    rw [Current, at_] at hcurrent
    exact h.opened at_ (Nat.zero_lt_of_lt hcurrent.2.1)
  | @gaveUp o closing again f at_ result =>
    rw [Connector.result?_eq_error] at result
    subst result
    refine h.keep at_ rfl ?_ ?_ fun n hn => ?_
    · cases f <;> rfl
    · cases f <;> rfl
    · rw [(c.asksNothing_giveUp again f).2]
      exact ⟨Nat.le_of_eq hn.1.symm, Nat.le_succ_of_le (Nat.le_of_eq hn.1)⟩
  | @connect o closing again turn at_ result step =>
    have hunbegun : Phase.unbegun (.opening o closing again) = 0 := by
      cases o with
      | opened i => cases result
      | _ => rfl
    refine h.keep at_ rfl ?_ ?_ fun n hn => hn
    · show failures (Intake.logAll _ _).tally = _
      rw [Intake.tally_logAll]
      split <;> rfl
    · rw [hunbegun]
      rcases (Connector.step_cases step).channels with ⟨hchannels, hopening⟩ | ⟨plan, hopening, hnet⟩
      · show turn.net.channels.size - Phase.unbegun (.opening turn.opening closing again) = _
        rw [hchannels]
        cases hturn : turn.opening with
        | opened i => exact absurd hturn (hopening i)
        | _ => rfl
      · show turn.net.channels.size - Phase.unbegun (.opening turn.opening closing again) = _
        rw [hopening, hnet, Net.addChannel, Array.size_push]
        rfl
  | noteWake at_ => exact h.stay rfl rfl rfl rfl
  | @noteClose o again at_ => exact h.keep at_ rfl rfl (by cases o <;> rfl) fun n hn => hn
  -- the stream in use stays, or there is none, and nothing is counted
  | heedNoted at_ | heedCancel at_ | gathered at_ | take at_ | leave at_ =>
    exact h.keep at_ rfl rfl rfl fun n hn => hn
  | @heed s signal at_ =>
    cases signal with
    | wake => exact h.keep at_ rfl rfl rfl fun n hn => hn
    | closed => exact h.keep at_ rfl rfl rfl fun n hn => hn
  | @takeNothing s last at_ =>
    cases last with
    | true => exact h.keep at_ rfl rfl rfl fun n hn => hn
    | false => exact h.keep at_ rfl rfl rfl fun n hn => hn
  | writeWaits at_ ready write | completeWaits at_ ready write =>
    exact h.stay rfl rfl rfl (Net.size_of_write write)
  | writePart at_ ready write | writeAll at_ ready write | completePart at_ ready write
  | completeAll at_ ready write =>
    exact h.keep at_ rfl rfl (Net.size_of_write write) fun n hn => hn
  | writeFails at_ ready write =>
    obtain ⟨hbegun, htells⟩ := h.using at_ rfl fun _ _ => id
    exact h.lose hbegun htells (Net.size_of_write write)
  | @flush s last parcel net at_ ready flush =>
    cases last with
    | true => exact h.keep at_ rfl rfl (Net.size_of_flush flush) fun n hn => hn
    | false => exact h.keep at_ rfl rfl (Net.size_of_flush flush) fun n hn => hn
  | flushFails at_ ready flush =>
    obtain ⟨hbegun, htells⟩ := h.using at_ rfl fun _ _ => id
    exact h.lose hbegun htells (Net.size_of_flush flush)
  -- the last stream is done with
  | completeFails at_ ready write =>
    exact h.keep at_ rfl rfl ((Net.size_reset _ _).trans (Net.size_of_write write))
      fun n => tells_of_using
  | @flushEnd i net at_ ready flush =>
    have hsize : net.channels.size = c.net.channels.size := Net.size_of_flush flush
    exact h.keep at_ rfl rfl hsize fun n hn => hn
  | flushEndFails at_ ready flush =>
    exact h.keep at_ rfl rfl ((Net.size_reset _ _).trans (Net.size_of_flush flush))
      fun n => tells_of_using
  | closeWaits at_ ready close => exact h.stay rfl rfl rfl (Net.size_of_close close)
  | closed at_ ready close | closeFails at_ ready close =>
    exact h.keep at_ rfl rfl (Net.size_of_close close) fun n => tells_of_using
  | discardNothing at_ | discard at_ =>
    refine h.keep at_ rfl ?_ rfl fun n hn => hn
    rw [tally_discard]
    split <;> rfl

theorem Reckoned.step {e : Gzip.Encoder} (h : Reckoned ds c) (streams : Streams e ds c)
    (st : Step c new c') : Reckoned (ds ++ new) c' := by
  cases st with
  | accept event open_ =>
    refine h.stay rfl rfl ?_ rfl
    rw [trace_eq, Intake.trace_of_open open_]
    rfl
  | refuse event closed =>
    refine h.stay rfl rfl ?_ rfl
    rw [trace_eq, Intake.trace_of_closed closed]
    rfl
  | close => exact h.stay rfl rfl (congrArg failures (Intake.tally_close _)) rfl
  | abandon | cancel | advance => exact h.stay rfl rfl rfl rfl
  | work w => exact h.work streams w

variable {connector : Connector} {window : Duration} {method : Gzip.Method} {level : Nat} {net : Net}
  {cancelled : Bool} {ms : List (Move α)}

theorem Run.reckoned (r : Run (.start connector window method level net cancelled) ms ds c)
    (fresh : net.channels = #[]) : Reckoned ds c := by
  induction r with
  | start =>
    have hbegun : (Courier.start connector window method level net cancelled : Courier α).begun = 0 := by
      show net.channels.size = 0
      rw [fresh]
      rfl
    exact ⟨rfl, by rw [hbegun]; rfl, by rw [hbegun]; exact ⟨rfl, rfl⟩⟩
  | move r hmove ih => exact ih.step (r.streams fresh) (move_cases hmove)

/-! ## At rest -/

/-- A courier that waits, or has ended: it can do nothing by itself. -/
def Rests (c : Courier α) : Prop := ∀ pick, c.work pick = none

/-- One that rests has begun all streams that were opened. -/
theorem Rests.begun (h : Rests c) : c.begun = c.net.channels.size := by
  have hunbegun : c.phase.unbegun = 0 := by
    cases hphase : c.phase with
    | opening o closing again =>
      cases o with
      | opened i =>
        have hnone := h .former
        rw [Courier.work, hphase] at hnone
        cases hnone
      | _ => rfl
    | _ => rfl
  rw [Courier.begun, hunbegun]
  rfl

/-- What the counters say of a courier that rests. -/
structure Balanced (ds : Deeds α) (c : Courier α) : Prop where
  reconnects : c.intake.tally.reconnects = .ofNat (c.net.channels.size - 1)
  /-- One batch has failed for each reconnect, and perhaps one more. -/
  failed : c.intake.tally.batchesFailed = c.intake.tally.reconnects ∨
    c.intake.tally.batchesFailed = c.intake.tally.reconnects + 1
  /-- Before the counters wrap, that is an order of numbers. -/
  between : c.net.channels.size < UInt64.size →
    c.intake.tally.reconnects.toNat ≤ c.intake.tally.batchesFailed.toNat ∧
      c.intake.tally.batchesFailed.toNat ≤ c.intake.tally.reconnects.toNat + 1

omit [Message α] in
/-- The last stream may have lost a batch or not. -/
theorem Phase.Tells.bounds {p : Phase} {lost begun : Nat} (h : p.Tells lost begun) :
    lost ≤ begun ∧ begun ≤ lost + 1 := by
  cases p with
  | starting => exact ⟨by rw [h.2]; exact Nat.zero_le _, by rw [h.1]; exact Nat.zero_le _⟩
  | opening => exact ⟨Nat.le_of_eq h.1.symm, Nat.le_succ_of_le (Nat.le_of_eq h.1)⟩
  | leaving | discarding | ended => exact h
  | _ => exact tells_of_using h

/-- **The counters are in step** whenever a courier waits or has ended. -/
theorem Run.balanced (r : Run (.start connector window method level net cancelled) ms ds c)
    (fresh : net.channels = #[]) (rests : Rests c) : Balanced ds c := by
  have hreckoned := r.reckoned fresh
  have hreconnects := hreckoned.reconnects
  obtain ⟨hle, hge⟩ := hreckoned.tells.bounds
  rw [rests.begun] at hreconnects hle hge
  have hfailed : c.intake.tally.batchesFailed = .ofNat ds.lost.length := by
    have hcounts := r.counted.counts
    simp only [counts, countsOf, List.cons.injEq, and_true] at hcounts
    exact hcounts.2.2.2.2
  have hone : ds.lost.length = c.net.channels.size - 1 ∨
      ds.lost.length = c.net.channels.size - 1 + 1 := by omega
  refine ⟨hreconnects, ?_, fun hsmall => ?_⟩
  · rw [hfailed, hreconnects]
    rcases hone with hone | hone
    · exact .inl (congrArg UInt64.ofNat hone)
    · rw [hone, UInt64.ofNat_add]
      exact .inr rfl
  · have hnat : ∀ {n : Nat}, n < UInt64.size → (UInt64.ofNat n).toNat = n := fun h =>
      UInt64.toNat_ofNat_of_lt h
    rw [hfailed, hreconnects, hnat (by omega), hnat (by omega)]
    omega

end TraceRelay.Courier
