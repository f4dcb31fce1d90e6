import TraceRelay.Proofs.Courier.Closed
import TraceRelay.Proofs.Courier.Delivered
import TraceRelay.Proofs.Courier.LastBatch
import TraceRelay.Proofs.Courier.Reckoning
import TraceRelay.Proofs.Courier.Unbroken

/-!
# A courier that is closed before its first stream

Its first opening ends in one of two ways, unless it is cancelled (`Run.given_up`):

* It gives a stream. Then everything that was accepted is delivered on it, if no batch is lost: nothing is
  left when the courier leaves its stream (`Parting`).
* It is given up, as closed. Then nothing is delivered, and everything is counted as dropped.

`closedEarly` puts the two together.
-/

namespace TraceRelay.Courier

variable {α : Type} [Message α] {e : Gzip.Encoder} {c c₁ c₂ c' : Courier α}
  {ds ds₁ ds₂ new : Deeds α} {ms ms₁ ms₂ : List (Move α)}

/-! ## Fates of batches -/

omit [Message α] in
theorem Deeds.having_eq_nil {fate : Fate → Bool} (h : ∀ b ∈ ds.settled, fate b.2 = false) :
    ds.having fate = [] := by
  rw [having, List.filter_eq_nil_iff.mpr fun b hb => by rw [h b hb]; exact Bool.false_ne_true]
  rfl

omit [Message α] in
/-- Where there is no stream, batches can only be abandoned. -/
theorem Deeds.all_abandoned (none : ∀ i, ds.sentOn i = [] ∧ ds.lostOn i = []) :
    ∀ b ∈ ds.settled, b.2 = .abandoned := by
  rintro ⟨events, fate⟩ hb
  cases fate with
  | abandoned => rfl
  | sent i =>
    have hmem : events ∈ ds.sentOn i := Deeds.mem_having hb (beq_self_eq_true _)
    rw [(none i).1] at hmem
    cases hmem
  | lost i =>
    have hmem : events ∈ ds.lostOn i := Deeds.mem_having hb (beq_self_eq_true _)
    rw [(none i).2] at hmem
    cases hmem

/-! ## An opening that is given up -/

/-- An opening that is not cancelled is given up only as closed. -/
theorem Work.given_up {f : OpenFailure} {closing again : Bool} (w : Work c new c')
    (going : c.cancelled = false) (at_ : c'.phase = .opening (.gaveUp f) closing again) :
    f = .closed ∨ ∃ closing, c.phase = .opening (.gaveUp f) closing again := by
  cases w with
  | @connect o closing' again' turn at' result step =>
    simp only [Phase.opening.injEq] at at_
    obtain ⟨hturn, -, -⟩ := at_
    rw [going] at step
    cases Connector.step_cases step with
    | cancel isCancelled => cases isCancelled
    | stop => cases hturn; exact .inl rfl
    | @call errand => cases errand <;> cases hturn
    | timeout | retry => cases hturn
    | @answer errand deadline t answer => cases answer <;> cases hturn
    | fail =>
      cases hstopped : c.stopped with
      | true => rw [Connector.retreat, hstopped] at hturn; cases hturn; exact .inl rfl
      | false => rw [Connector.retreat, hstopped] at hturn; cases hturn
  | noteWake at' => exact .inr ⟨_, at_⟩
  | noteClose at' => cases at_; exact .inr ⟨_, at'⟩
  | writeWaits at' | completeWaits at' | closeWaits at' => cases at'.symm.trans at_
  | @gaveUp o closing' again' e => cases e <;> cases at_
  | @heed s signal => cases signal <;> cases at_
  | @takeNothing s last => cases last <;> cases at_
  | @writeFails s last => cases last <;> cases at_
  | @flush s last => cases last <;> cases at_
  | @flushFails s last => cases last <;> cases at_
  | _ => cases at_

theorem Step.given_up {f : OpenFailure} {closing again : Bool} (st : Step c new c')
    (going : c.cancelled = false) (at_ : c'.phase = .opening (.gaveUp f) closing again) :
    f = .closed ∨ ∃ closing, c.phase = .opening (.gaveUp f) closing again := by
  cases st with
  | work w => exact w.given_up going at_
  | _ => exact .inr ⟨closing, at_⟩

theorem Step.going (st : Step c new c') (going : c'.cancelled = false) : c.cancelled = false := by
  have hstill := st.cancelled
  rw [going] at hstill
  exact Bool.eq_false_iff.mpr fun h => absurd (hstill h) Bool.false_ne_true

theorem Run.given_up {connector : Connector} {window : Duration} {method : Gzip.Method} {level : Nat}
    {net : Net} {cancelled : Bool} {f : OpenFailure} {closing again : Bool}
    (r : Run (.start connector window method level net cancelled) ms ds c)
    (going : c.cancelled = false) (at_ : c.phase = .opening (.gaveUp f) closing again) :
    f = .closed := by
  have hall := r.induct (P := fun _ c => c.cancelled = false → ∀ f closing again,
    c.phase = .opening (.gaveUp f) closing again → f = .closed) (fun _ _ _ _ h => by cases h) ?_
  · exact hall going f closing again at_
  · intro _ _ _ _ ih st going f closing again at_
    rcases st.given_up (st.going going) at_ with hclosed | ⟨closing, hbefore⟩
    · exact hclosed
    · exact ih (st.going going) f closing again hbefore

/-- The opening has been given up. -/
inductive GivenUp (c : Courier α) : Prop where
  | opening {f : OpenFailure} {closing again : Bool}
      (at_ : c.phase = .opening (.gaveUp f) closing again)
  | leaving (at_ : c.phase = .leaving)
  | discarding (at_ : c.phase = .discarding)
  | ended (at_ : c.phase = .ended)

omit [Message α] in
theorem GivenUp.same (h : GivenUp c) (phase : c'.phase = c.phase) : GivenUp c' := by
  cases h with
  | opening at_ => exact .opening (phase.trans at_)
  | leaving at_ => exact .leaving (phase.trans at_)
  | discarding at_ => exact .discarding (phase.trans at_)
  | ended at_ => exact .ended (phase.trans at_)

theorem GivenUp.work (h : GivenUp c) (w : Work c new c') :
    GivenUp c' ∧ c'.net.channels = c.net.channels := by
  cases h with
  | opening at_ =>
    rcases w.at_opening at_ with ⟨result, hresult, rfl⟩ | ⟨turn, hnone, -⟩ | ⟨-, -, rfl⟩ | ⟨-, -, rfl⟩
    · cases hresult
      exact ⟨.leaving (c.asksNothing_giveUp _ _).2, by rw [net_endOpening]⟩
    · cases hnone
    · exact ⟨.opening at_, rfl⟩
    · exact ⟨.opening rfl, rfl⟩
  | leaving at_ =>
    rw [w.at_leaving at_]
    exact ⟨.discarding rfl, rfl⟩
  | discarding at_ =>
    rw [w.at_discarding at_]
    exact ⟨.ended rfl, rfl⟩
  | ended at_ => exact absurd at_ w.running

/-- **After an opening that was given up there is no other stream.** -/
theorem Run.no_stream (r : Run c ms ds c') (h : GivenUp c) :
    GivenUp c' ∧ c'.net.channels = c.net.channels := by
  refine r.induct (P := fun _ c' => GivenUp c' ∧ c'.net.channels = c.net.channels) ⟨h, rfl⟩ ?_
  rintro _ c₁ _ c₂ ⟨hgiven, hchannels⟩ st
  cases st with
  | work w => exact ⟨(hgiven.work w).1, (hgiven.work w).2.trans hchannels⟩
  | _ => exact ⟨hgiven.same rfl, hchannels⟩

/-! ## Events that are left -/

/-- No stream is taken away. -/
theorem Work.size_le (w : Work c new c') : c.net.channels.size ≤ c'.net.channels.size := by
  cases w with
  | opened | gaveUp => exact Nat.le_of_eq (by rw [net_endOpening])
  | heedNoted | heed | heedCancel => exact Nat.le_of_eq (by rw [net_heed])
  | takeNothing => exact Nat.le_of_eq (by rw [net_endBatch])
  | connect at_ result step =>
    rcases (Connector.step_cases step).channels with ⟨hchannels, -⟩ | ⟨plan, -, hnet⟩
    · exact Nat.le_of_eq (congrArg Array.size hchannels.symm)
    · show _ ≤ Array.size _
      rw [hnet, Net.addChannel, Array.size_push]
      exact Nat.le_succ _
  | writeWaits _ _ write | writePart _ _ write | writeAll _ _ write | completeWaits _ _ write
  | completePart _ _ write | completeAll _ _ write =>
    exact Nat.le_of_eq (Net.size_of_write write).symm
  | writeFails _ _ write | completeFails _ _ write =>
    exact Nat.le_of_eq ((Net.size_reset _ _).trans (Net.size_of_write write)).symm
  | flush _ _ flush =>
    rw [sent, net_endBatch]
    exact Nat.le_of_eq (Net.size_of_flush flush).symm
  | @flushEnd i net _ _ flush =>
    have hsize : net.channels.size = c.net.channels.size := Net.size_of_flush flush
    exact Nat.le_of_eq hsize.symm
  | flushFails _ _ flush | flushEndFails _ _ flush =>
    exact Nat.le_of_eq ((Net.size_reset _ _).trans (Net.size_of_flush flush)).symm
  | closeWaits _ _ close | closed _ _ close | closeFails _ _ close =>
    exact Nat.le_of_eq (Net.size_of_close close).symm
  | _ => exact Nat.le_refl _

theorem Run.size_le (r : Run c ms ds c') : c.net.channels.size ≤ c'.net.channels.size := by
  refine r.induct (P := fun _ c' => c.net.channels.size ≤ c'.net.channels.size) (Nat.le_refl _) ?_
  intro _ _ _ _ h st
  cases st with
  | work w => exact Nat.le_trans h w.size_le
  | _ => exact h

/-- What is known of the events that are left, in a phase in which a courier is done with its streams:
unless it had none, or has lost a batch, there are none. -/
def Phase.Parts (no_stream lost exhausted none_abandoned : Prop) : Phase → Prop
  | .completing _ _ | .flushingEnd _ | .closing _ => exhausted
  | .leaving | .discarding => no_stream ∨ lost ∨ exhausted
  | .ended => no_stream ∨ lost ∨ none_abandoned
  | _ => True

def Parting (ds : Deeds α) (c : Courier α) : Prop :=
  c.phase.Parts (c.net.channels = #[]) (ds.lost ≠ []) (Exhausted c) (ds.abandoned = [])

omit [Message α] in
theorem parting_iff {p : Phase} (at_ : c.phase = p) : Parting ds c ↔
    p.Parts (c.net.channels = #[]) (ds.lost ≠ []) (Exhausted c) (ds.abandoned = []) := by
  rw [Parting, at_]

omit [Message α] in
theorem lost_append_ne_nil (h : ds.lost ≠ []) : (ds ++ new).lost ≠ [] := by
  rw [Deeds.lost_append]
  exact fun hnil => h (List.append_eq_nil_iff.mp hnil).1

omit [Message α] in
/-- Before its end a courier has abandoned nothing. -/
theorem Leaving.none_abandoned (h : Leaving ds c) (running : c.phase ≠ .ended) : ds.abandoned = [] := by
  refine Deeds.having_eq_nil fun b hb => ?_
  have := h.running running b hb
  cases hfate : b.2 with
  | abandoned => exact absurd hfate this
  | sent | lost => rfl

/-- **A courier leaves nothing behind** when it is done with its streams and was not cancelled. -/
theorem Parting.work (h : Parting ds c) (told : Told c) (reckoned : Reckoned ds c)
    (leaving : Leaving ds c) (going : c.cancelled = false) (w : Work c new c') :
    Parting (ds ++ new) c' := by
  have hrunning := w.running
  have hexhausted : Exhausted c → Exhausted c' := fun h => (h.work w).1
  have hlost : ∀ {events : List α} {i : Nat},
      (ds ++ [Deed.settled events (.lost i)]).lost ≠ [] := by
    intro events i hnil
    rw [Deeds.lost_append] at hnil
    exact List.cons_ne_nil _ _ (List.append_eq_nil_iff.mp hnil).2
  cases w with
  | start | connect | noteClose | heedNoted | heedCancel | gathered | take | writePart | writeAll => trivial
  | opened => trivial
  | noteWake at_ | writeWaits at_ =>
    rw [Parting]
    dsimp only
    rw [at_]
    trivial
  | @gaveUp o closing again f at_ result =>
    rw [Connector.result?_eq_error] at result
    subst result
    rw [parting_iff (c.asksNothing_giveUp again f).2, net_endOpening]
    have htells := reckoned.tells
    rw [begun, at_] at htells
    obtain ⟨hbegun, -⟩ := htells
    by_cases hsize : c.net.channels = #[]
    · exact .inl hsize
    · refine .inr (.inl (lost_append_ne_nil fun hnil => hsize ?_))
      rw [hnil] at hbegun
      exact Array.eq_empty_of_size_eq_zero hbegun
  | @heed s signal => cases signal <;> trivial
  | @takeNothing s last at_ =>
    cases last with
    | false => trivial
    | true =>
      rcases told.taking with htakes | hcancelled | hempty
      · rw [(lasts_at at_).1] at htakes
        cases htakes
      · rw [going] at hcancelled
        cases hcancelled
      · exact hexhausted hempty
  | @writeFails s last | @flushFails s last =>
    cases last with
    | false => trivial
    | true => exact .inr (.inl hlost)
  | @flush s last parcel net at_ =>
    cases last with
    | false => trivial
    | true =>
      rcases told.sending with hsends | hcancelled
      · rw [(lasts_at at_).2] at hsends
        cases hsends
      · rw [going] at hcancelled
        cases hcancelled
  | completeWaits at_ | closeWaits at_ =>
    obtain ⟨hclosed, hempty⟩ : Exhausted c := (parting_iff at_).mp h
    rw [Parting]
    dsimp only
    rw [at_]
    exact ⟨hclosed, hempty⟩
  | completePart at_ | completeAll at_ | flushEnd at_ =>
    exact hexhausted ((parting_iff at_).mp h)
  | completeFails at_ | flushEndFails at_ | closed at_ | closeFails at_ =>
    exact .inr (.inr (hexhausted ((parting_iff at_).mp h)))
  | leave at_ =>
    exact ((parting_iff at_).mp h).imp_right (Or.imp lost_append_ne_nil hexhausted)
  | discardNothing at_ =>
    refine .inr (.inr ?_)
    rw [List.append_nil]
    exact leaving.none_abandoned hrunning
  | discard at_ events =>
    refine ((parting_iff at_).mp h).imp_right fun h => .inl ?_
    exact lost_append_ne_nil (h.resolve_right fun hempty => events hempty.empty)

theorem Parting.step (h : Parting ds c) (told : Told c) (reckoned : Reckoned ds c)
    (leaving : Leaving ds c) (going : c.cancelled = false) (st : Step c new c') :
    Parting (ds ++ new) c' := by
  have hcall : ∀ {c' : Courier α} {new : Deeds α}, c'.phase = c.phase →
      c'.net.channels = c.net.channels → (Exhausted c → Exhausted c') → new.abandoned = [] →
      Parting (ds ++ new) c' := by
    intro c' new phase channels exhausted abandoned
    have habandoned : (ds ++ new).abandoned = ds.abandoned := by
      rw [Deeds.abandoned_append, abandoned, List.append_nil]
    unfold Parting at h ⊢
    rw [phase, channels, habandoned]
    cases hphase : c.phase with
    | completing | flushingEnd | closing => rw [hphase] at h; exact exhausted h
    | leaving | discarding =>
      rw [hphase] at h
      exact h.imp_right (Or.imp lost_append_ne_nil exhausted)
    | ended =>
      rw [hphase] at h
      exact h.imp_right (Or.imp_left lost_append_ne_nil)
    | _ => trivial
  have hexhausted : Exhausted c → Exhausted c' := fun h => (h.step st).1
  cases st with
  | accept | refuse | close | abandon | cancel | advance => exact hcall rfl rfl hexhausted rfl
  | work w => exact h.work told reckoned leaving going w

section

variable {connector : Connector} {window : Duration} {method : Gzip.Method} {level : Nat} {net : Net}
  {cancelled : Bool}

theorem Run.parting (r : Run (.start connector window method level net cancelled) ms ds c)
    (fresh : net.channels = #[]) (going : c.cancelled = false) : Parting ds c := by
  induction r with
  | start => trivial
  | move r hmove ih =>
    have st := move_cases hmove
    have hgoing := st.going going
    exact (ih hgoing).step r.told (r.reckoned fresh) r.leaving hgoing st

/-! ## A courier that is closed before its first stream -/

/-- All that was accepted has been sent on the first stream, from which a reader has it. -/
structure DeliversAll (method : Gzip.Method) (level : Nat) (accepted : List α) (ds : Deeds α)
    (c : Courier α) : Prop where
  sent : ds.sent.flatten = accepted
  on_first : ds.sentOn 0 = ds.sent
  none_abandoned : ds.abandoned = []
  written : c.intake.tally.eventsWritten = .ofNat accepted.length
  carried : Past (.start method level) ds.sent [] (c.net.channel 0)
  read : method.Sound level → ∀ (limit : Nat) (source : Source) (fuel : Nat),
    limit < UInt64.size → (∀ events ∈ ds.sent, Batch.Admits limit events) →
    source.data = (c.net.channel 0).accepted → source.Calm →
    (Gzip.Decoder.start.feedAll (c.net.channel 0).accepted).out.size < fuel →
    ∃ v, readAll limit source fuel = (ds.sent.map Batch.ofEvents, v)

/-- All that was accepted has been counted as dropped, and nothing delivered. -/
structure DropsAll (accepted : List α) (ds : Deeds α) (c : Courier α) : Prop where
  no_stream : c.net.channels = #[]
  none_sent : ds.sent = []
  none_lost : ds.lost = []
  abandoned : ds.abandoned.flatten = accepted
  dropped : c.intake.tally.eventsDropped = .ofNat (ds.refused.length + accepted.length)
  none_written : c.intake.tally.eventsWritten = 0

/-- **Without a stream everything is dropped.** -/
theorem Run.dropsAll (r : Run (.start connector window method level net cancelled) ms ds c)
    (fresh : net.channels = #[]) (ended : c.phase = .ended) (no_stream : c.net.channels = #[]) :
    DropsAll ds.accepted ds c := by
  obtain ⟨htaken, haccepted⟩ := r.settled_all ended
  have hcounts := r.counted.counts
  simp only [counts, countsOf, List.cons.injEq, and_true] at hcounts
  obtain ⟨-, hdropped, hwritten, -, -⟩ := hcounts
  have hfates := Deeds.all_abandoned fun i =>
    (r.streams fresh).unopened i (by rw [no_stream]; exact Nat.zero_le _)
  have hsent : ds.sent = [] := Deeds.having_eq_nil fun b hb => by rw [hfates b hb]
  have habandoned : ds.abandoned.flatten = ds.accepted := by
    rw [← haccepted, htaken]
    exact congrArg List.flatten (Deeds.having_of_forall fun b hb => by rw [hfates b hb])
  refine ⟨no_stream, hsent, ?_, habandoned, ?_, ?_⟩
  · exact Deeds.having_eq_nil fun b hb => by rw [hfates b hb]
  · rw [hdropped, Deeds.size, habandoned]
  · rw [hwritten, hsent]
    rfl

/-- **With a stream everything is delivered**, unless a batch is lost or the courier cancelled. -/
theorem Run.deliversAll (r : Run (.start connector window method level net cancelled) ms ds c)
    (fresh : net.channels = #[]) (ended : c.phase = .ended) (going : c.cancelled = false)
    (opened : c.net.channels ≠ #[]) (none_lost : ds.lost = []) :
    DeliversAll method level ds.accepted ds c := by
  obtain ⟨htaken, haccepted⟩ := r.settled_all ended
  have hstreams := r.streams fresh
  have habandoned : ds.abandoned = [] := by
    have hparting := (parting_iff ended).mp (r.parting fresh going)
    exact (hparting.resolve_left opened).resolve_left fun h => h none_lost
  have hsize : c.net.channels.size = 1 := by
    have htells := (r.reckoned fresh).tells
    rw [ended, none_lost, begun, ended] at htells
    have hsome : c.net.channels.size ≠ 0 := fun h => opened (Array.eq_empty_of_size_eq_zero h)
    have hone : c.net.channels.size - 0 ≤ 0 + 1 := htells.2
    omega
  have hfates := Deeds.fate_of_settled (i := 0) none_lost habandoned fun j hj =>
    (hstreams.unopened j (by rw [hsize]; exact Nat.one_le_iff_ne_zero.mpr hj)).1
  have hsent : ds.sent = ds.taken := by
    rw [htaken]
    exact Deeds.having_of_forall fun b hb => by rw [hfates b hb]
  have hon_first : ds.sentOn 0 = ds.sent := by
    rw [hsent, htaken]
    exact Deeds.having_of_forall fun b hb => by rw [hfates b hb]; rfl
  have hnone_on_first : ds.lostOn 0 = [] :=
    Deeds.having_eq_nil fun b hb => by rw [hfates b hb]; rfl
  have hpast := hstreams.past_of_ended ended (i := 0) (by rw [hsize]; exact Nat.one_pos)
  rw [hon_first, hnone_on_first] at hpast
  refine ⟨by rw [hsent, haccepted], hon_first, habandoned, ?_, hpast, ?_⟩
  · have hcounts := r.counted.counts
    simp only [counts, countsOf, List.cons.injEq, and_true] at hcounts
    rw [hcounts.2.2.1, Deeds.size, hsent, haccepted]
  · intro sound limit source fuel hlimit admits hsource hcalm hfuel
    rw [← List.append_nil ds.sent] at admits
    obtain ⟨tail, v, htail, hread, -⟩ := hpast.read sound hlimit admits hsource hcalm hfuel
    rw [List.prefix_nil.mp htail, List.append_nil] at hread
    exact ⟨v, hread⟩

/-- What comes of a courier that has been closed, with `accepted` by then, when its first opening has
ended in state `c`, with `result`. All that it has done by then are `ds`. -/
structure ClosedEarly (method : Gzip.Method) (level : Nat) (accepted : List α)
    (result : Except OpenFailure Nat) (ds : Deeds α) (c : Courier α) : Prop where
  either : result = .ok 0 ∨ result = .error .closed
  /-- It comes to its end by itself, if its stream neither makes it wait nor loses a batch. -/
  ends : ∀ pick, ∃ own new c', (∀ m ∈ own, Move.IsOwn pick m) ∧ c.moves own = some (new, c') ∧
    (c'.phase = .ended ∨ c'.AwaitsStream pick ∨ new.lost ≠ [])
  delivers : result = .ok 0 → ∀ {ms new c'}, Run c ms new c' → c'.phase = .ended →
    c'.cancelled = false → new.lost = [] → DeliversAll method level accepted (ds ++ new) c'
  drops : result = .error .closed → ∀ {ms new c'}, Run c ms new c' → c'.phase = .ended →
    DropsAll accepted (ds ++ new) c'

/-- **A courier that is closed before it has had a stream**, and not cancelled, delivers everything or
drops everything, as its first opening ends. -/
theorem closedEarly {o : Opening} {closing : Bool} {result : Except OpenFailure Nat}
    (fresh : net.channels = #[])
    (r₁ : Run (.start connector window method level net cancelled) ms₁ ds₁ c₁)
    (closed : c₁.intake.buffer.closed = true) (r₂ : Run c₁ ms₂ ds₂ c₂)
    (going : c₂.cancelled = false) (at_ : c₂.phase = .opening o closing false)
    (decided : o.result? = some result) :
    ClosedEarly method level ds₁.accepted result (ds₁ ++ ds₂) c₂ := by
  have hr := r₁.append r₂
  obtain ⟨hclosed, hnone⟩ := r₂.none_accepted closed
  -- no stream has been begun, so that the one that was opened is the first
  have htells := (hr.reckoned fresh).tells
  rw [begun, at_] at htells
  obtain ⟨hlost, hagain⟩ := htells
  have hbegun := mt hagain.mpr Bool.false_ne_true
  have hnone_lost : (ds₁ ++ ds₂).lost = [] := List.eq_nil_of_length_eq_zero (by omega)
  have haccepted : ∀ {ms new c'}, Run c₂ ms new c' →
      (ds₁ ++ ds₂ ++ new).accepted = ds₁.accepted := by
    intro ms new c' r₃
    rw [Deeds.accepted_append, Deeds.accepted_append, hnone, (r₃.none_accepted hclosed).2,
      List.append_nil, List.append_nil]
  refine ⟨?_, fun pick => ends_of_closed c₂ hclosed (by rw [at_, Phase.isOpened, decided]; rfl) pick,
    ?_, ?_⟩
  · cases result with
    | ok i =>
      rw [Connector.result?_eq_ok] at decided
      subst decided
      have hcurrent := (hr.streams fresh).current
      rw [Current, at_] at hcurrent
      have hlt := hcurrent.2.1
      have hnone_begun : ¬ 0 < c₂.net.channels.size - 1 := hbegun
      exact .inl (congrArg Except.ok (by omega))
    | error f =>
      rw [Connector.result?_eq_error] at decided
      subst decided
      exact .inr (congrArg Except.error (hr.given_up going at_))
  · rintro rfl ms new c' r₃ hended hgoing hlost'
    rw [Connector.result?_eq_ok] at decided
    subst decided
    have hcurrent := (hr.streams fresh).current
    rw [Current, at_] at hcurrent
    have hopened : c'.net.channels ≠ #[] := by
      intro hempty
      have hle := Nat.lt_of_lt_of_le hcurrent.2.1 r₃.size_le
      rw [hempty] at hle
      exact absurd hle (Nat.not_lt_zero _)
    have hall : (ds₁ ++ ds₂ ++ new).lost = [] := by
      rw [Deeds.lost_append, hnone_lost, hlost', List.append_nil]
    rw [← haccepted r₃]
    exact (hr.append r₃).deliversAll fresh hended hgoing hopened hall
  · rintro rfl ms new c' r₃ hended
    rw [Connector.result?_eq_error] at decided
    subst decided
    have hnone_begun : ¬ 0 < c₂.net.channels.size - 0 := hbegun
    have hempty : c₂.net.channels = #[] := Array.eq_empty_of_size_eq_zero (by omega)
    rw [← haccepted r₃]
    exact (hr.append r₃).dropsAll fresh hended ((r₃.no_stream (.opening at_)).2.trans hempty)

end

end TraceRelay.Courier
