import TraceRelay.Proofs.Courier.Accounting
import TraceRelay.Proofs.Courier.Streams
import TraceRelay.Proofs.Framing.Written

/-!
# A courier loses nothing while no stream fails

1. `Stage`: how far a courier has got on the one stream that it opens. From the last emptying on, the
   buffer is closed and empty.
2. `Unbroken.step`: nothing is lost on the way, and nothing is abandoned once there was a stream.
3. `Unbroken.whole`: in the end the stream carries all that was accepted, in whole frames, and is
   closed.
-/

namespace TraceRelay.Courier

variable {α : Type}

/-! ## How far a courier has got -/

/-- There is one stream, and it does not fail. -/
structure Up (n : Net) : Prop where
  size : n.channels.size = 1
  faultless : (n.channel 0).plan.Faultless

/-- No event is left, and none can come. -/
structure Emptied (k : Intake α) : Prop where
  closed : k.buffer.closed = true
  events : k.buffer.events = #[]

def Stage (c : Courier α) : Prop :=
  match c.phase with
  | .starting => c.net.channels.size = 0
  | .opening (.opened i) _ _ => i = 0 ∧ Up c.net
  | .opening o _ _ => c.net.channels.size = 0 ∧ o.Faultless
  | .waiting s | .gathering s _ => s.stream = 0 ∧ Up c.net
  | .collecting s last => s.stream = 0 ∧ Up c.net ∧ (last = true → c.intake.buffer.closed = true)
  | .writing s last _ rest => s.stream = 0 ∧ Up c.net ∧ (last = true → Emptied c.intake) ∧ rest ≠ []
  | .flushing s last _ => s.stream = 0 ∧ Up c.net ∧ (last = true → Emptied c.intake)
  | .completing i rest => i = 0 ∧ Up c.net ∧ Emptied c.intake ∧ rest ≠ []
  | .flushingEnd i | .closing i => i = 0 ∧ Up c.net ∧ Emptied c.intake
  | .leaving | .discarding | .ended =>
    c.net.channels.size = 0 ∨
      c.net.channels.size = 1 ∧ Emptied c.intake ∧ (c.net.channel 0).outcome = .closed

structure Unbroken (ds : Deeds α) (c : Courier α) : Prop where
  net : c.net.Faultless
  stage : Stage c
  none_lost : ds.lost = []
  none_abandoned : ds.abandoned = [] ∨ c.phase = .ended ∧ c.net.channels.size = 0

variable {ds new : Deeds α} {c c' : Courier α} {n n' : Net} {k k' : Intake α}

/-! ## What keeps it -/

theorem Up.same (h : Up n) (channels : n'.channels = n.channels) : Up n' := by
  have hchannel : n'.channel 0 = n.channel 0 := by rw [Net.channel, Net.channel, channels]
  exact ⟨by rw [channels]; exact h.size, by rw [hchannel]; exact h.faultless⟩

theorem Up.touched (h : Up n) (touches : Net.Touches 0 n n')
    (faultless : (n'.channel 0).plan.Faultless) : Up n' :=
  ⟨touches.size.trans h.size, faultless⟩

theorem Up.lt (h : Up n) : 0 < n.channels.size := by rw [h.size]; exact Nat.one_pos

theorem Emptied.same (h : Emptied k) (closed : k.buffer.closed = true → k'.buffer.closed = true)
    (events : k.buffer.closed = true → k'.buffer.events = k.buffer.events) : Emptied k' :=
  ⟨closed h.closed, (events h.closed).trans h.events⟩

/-! ### Calls on the stream -/

theorem Up.write {i : Nat} {data : Bytes} {result : Option (Except Fault Nat)} (up : Up n)
    (at_ : i = 0) (some_ : data ≠ []) (write : n.write i data = (n', result)) :
    n'.streams = n.streams ∧ Up n' ∧ ∀ f, ¬ writeFailure result f := by
  subst at_
  obtain ⟨hplan, hstreams, hresult⟩ := Net.write_faultless up.lt up.faultless write
  refine ⟨hstreams, up.touched (Net.write_spec up.lt write).1 hplan, fun f hf => ?_⟩
  rcases hresult with rfl | ⟨m, rfl, hm⟩
  · rcases hf with hf | ⟨hf, -⟩ <;> cases hf
  · rcases hf with hf | ⟨hf, -⟩
    · cases hf
    · cases hf
      exact hm some_ rfl

theorem Up.flush {i : Nat} {result : Except Fault Unit} (up : Up n) (at_ : i = 0)
    (flush : n.flush i = (n', result)) :
    n'.streams = n.streams ∧ Up n' ∧ result = .ok () := by
  subst at_
  obtain ⟨hplan, hstreams, hresult⟩ := Net.flush_faultless up.lt up.faultless flush
  exact ⟨hstreams, up.touched (Net.flush_spec up.lt flush).1 hplan, hresult⟩

theorem Up.close {i : Nat} {result : Option (Except Fault Unit)} (up : Up n) (at_ : i = 0)
    (close : n.close i = (n', result)) :
    n'.streams = n.streams ∧ Up n' ∧ (result = none ∨ result = some (.ok ())) := by
  subst at_
  obtain ⟨hplan, hstreams, hresult⟩ := Net.close_faultless up.lt up.faultless close
  exact ⟨hstreams, up.touched (Net.close_spec up.lt close).1 hplan, hresult⟩

/-! ### Phases -/

/-- An opening that has not opened a stream. -/
theorem stage_opening {o : Opening} {closing again : Bool} (at_ : c.phase = .opening o closing again)
    (h : ∀ i, o ≠ .opened i) :
    Stage c ↔ c.net.channels.size = 0 ∧ o.Faultless := by
  unfold Stage
  rw [at_]
  cases o with
  | opened i => exact absurd rfl (h i)
  | _ => exact Iff.rfl

/-- Nothing is different but what callers change. -/
theorem Stage.call (h : Stage c) (phase : c'.phase = c.phase)
    (channels : c'.net.channels = c.net.channels)
    (closed : c.intake.buffer.closed = true → c'.intake.buffer.closed = true)
    (events : c.intake.buffer.closed = true →
      c'.intake.buffer.events = c.intake.buffer.events) : Stage c' := by
  have hemptied : Emptied c.intake → Emptied c'.intake := fun h => h.same closed events
  have hend : (c.net.channels.size = 0 ∨ c.net.channels.size = 1 ∧ Emptied c.intake ∧
      (c.net.channel 0).outcome = .closed) → (c'.net.channels.size = 0 ∨
        c'.net.channels.size = 1 ∧ Emptied c'.intake ∧ (c'.net.channel 0).outcome = .closed) := by
    rw [Net.channel, Net.channel, channels]
    exact Or.imp_right fun h => ⟨h.1, hemptied h.2.1, h.2.2⟩
  unfold Stage at h ⊢
  rw [phase]
  split at h
  · rw [channels]; exact h
  · exact ⟨h.1, h.2.same channels⟩
  · rw [channels]; exact h
  · exact ⟨h.1, h.2.same channels⟩
  · exact ⟨h.1, h.2.same channels⟩
  · exact ⟨h.1, h.2.1.same channels, fun hl => closed (h.2.2 hl)⟩
  · exact ⟨h.1, h.2.1.same channels, fun hl => hemptied (h.2.2.1 hl), h.2.2.2⟩
  · exact ⟨h.1, h.2.1.same channels, fun hl => hemptied (h.2.2 hl)⟩
  · exact ⟨h.1, h.2.1.same channels, hemptied h.2.2.1, h.2.2.2⟩
  · exact ⟨h.1, h.2.1.same channels, hemptied h.2.2⟩
  · exact ⟨h.1, h.2.1.same channels, hemptied h.2.2⟩
  · exact hend h
  · exact hend h
  · exact hend h

/-! ## Steps -/

variable {method : Gzip.Method} {level : Nat}

theorem stage_endBatch {s : Session} {last : Bool} (stream : s.stream = 0) (up : Up c.net)
    (emptied : last = true → Emptied c.intake) (finish : s.gzip.finish ≠ []) :
    Stage (c.endBatch s last) := by
  cases last with
  | true => exact ⟨stream, up, emptied rfl, finish⟩
  | false => exact ⟨stream, up⟩

theorem Unbroken.next (h : Unbroken ds c) (going : c.phase ≠ .ended) (net : c'.net.Faultless)
    (stage : Stage c') (lost : new.lost = []) (abandoned : new.abandoned = []) :
    Unbroken (ds ++ new) c' := by
  refine ⟨net, stage, ?_, .inl ?_⟩
  · rw [Deeds.lost_append, h.none_lost, lost]; rfl
  · rw [Deeds.abandoned_append, abandoned, h.none_abandoned.resolve_right fun h => going h.1]; rfl

theorem Unbroken.connect (h : Unbroken ds c) {o : Opening} {closing again : Bool}
    {turn : Opening.Turn} {intake : Intake α} (at_ : c.phase = .opening o closing again)
    (result : o.result? = none)
    (step : c.connector.step c.cancelled c.stopped c.net o = some turn) :
    Unbroken (ds ++ []) { c with
      intake
      net := turn.net
      phase := .opening turn.opening closing again } := by
  have hcases := Connector.step_cases step
  have hgoing : c.phase ≠ .ended := by rw [at_]; nofun
  obtain ⟨hsize, ho⟩ := (stage_opening at_ fun i hi => by rw [hi] at result; cases result).mp h.stage
  obtain ⟨hnet, hopening, hopened⟩ := hcases.faultless h.net ho
  refine h.next hgoing hnet ?_ rfl rfl
  rcases hcases.channels with ⟨hchannels, hnone⟩ | ⟨_, hsome, _⟩
  · exact (stage_opening rfl hnone).mpr ⟨by rw [← hsize]; exact congrArg _ hchannels, hopening⟩
  · obtain ⟨plan, hplan, -, hnew⟩ := hopened _ hsome
    have hchannel : turn.net.channel 0 = .start c.connector.protocol plan := by
      have := Net.channel_addChannel c.net c.connector.protocol plan
      rwa [← hnew, hsize] at this
    unfold Stage
    dsimp only
    rw [hsome]
    refine ⟨hsize, ?_, by rw [hchannel]; exact hplan⟩
    rw [hnew, Net.addChannel, Array.size_push, hsize]

variable [Message α]

/-- **No step loses anything.** -/
theorem Unbroken.work (h : Unbroken ds c) (streams : Streams (.start method level) ds c)
    (sound : method.Sound level) (w : Work c new c') : Unbroken (ds ++ new) c' := by
  have hgoing := w.running
  have hstage := h.stage
  have hcurrent := streams.current
  unfold Stage at hstage
  unfold Current at hcurrent
  cases w with
  -- there is no stream yet, or it has just been opened
  | start at_ =>
    rw [at_] at hstage
    exact h.next hgoing h.net ⟨hstage, trivial⟩ rfl rfl
  | @opened o closing again i at_ result =>
    cases o with
    | opened j =>
      cases result
      rw [at_] at hstage
      exact h.next hgoing h.net hstage rfl rfl
    | _ => cases result
  | @gaveUp o closing again failure at_ result =>
    obtain ⟨hsize, -⟩ :=
      (stage_opening at_ fun i hi => by rw [hi] at result; cases result).mp h.stage
    cases failure <;> exact h.next hgoing h.net (.inl hsize) rfl rfl
  | connect at_ result step => exact h.connect at_ result step
  | noteWake at_ =>
    exact h.next hgoing h.net
      (h.stage.call rfl rfl (by rw [Intake.closed_wait]; exact id)
        (by rw [Intake.events_wait]; exact fun _ => rfl)) rfl rfl
  | @noteClose o again at_ =>
    rw [at_] at hstage
    refine h.next hgoing h.net ?_ rfl rfl
    cases o with
    | opened i => exact hstage
    | _ => exact hstage
  -- between batches: the one that is taken after a close is the last
  | heedNoted at_ =>
    rw [at_] at hstage
    exact h.next hgoing h.net hstage rfl rfl
  | @heed s signal at_ noted wait =>
    rw [at_] at hstage
    refine h.next hgoing (by rw [net_heed]; exact h.net) ?_ rfl rfl
    cases signal with
    | wake => exact hstage
    | closed =>
      exact ⟨hstage.1, hstage.2, fun _ => (Intake.closed_wait _).trans (Intake.closed_of_wait wait)⟩
  | heedCancel at_ =>
    rw [at_] at hstage
    exact h.next hgoing h.net ⟨hstage.1, hstage.2, fun _ => rfl⟩ rfl rfl
  | gathered at_ =>
    rw [at_] at hstage
    exact h.next hgoing h.net ⟨hstage.1, hstage.2, nofun⟩ rfl rfl
  | @takeNothing s last at_ events =>
    rw [at_] at hstage hcurrent
    obtain ⟨hs, hup, hclosed⟩ := hstage
    refine h.next hgoing (by rw [net_endBatch]; exact h.net) ?_ rfl rfl
    refine stage_endBatch hs hup (fun hl => ⟨hclosed hl, Intake.events_swap _ _⟩) ?_
    rw [hcurrent.1]
    exact sound.finish_ne_nil _
  | @take s last at_ events =>
    rw [at_] at hstage hcurrent
    obtain ⟨hs, hup, hclosed⟩ := hstage
    refine h.next hgoing h.net ?_ rfl rfl
    refine ⟨hs, hup, fun hl => ⟨hclosed hl, Intake.events_swap _ _⟩, ?_⟩
    show (s.gzip.flush _).2 ≠ []
    rw [hcurrent.1]
    exact sound.flush_ne_nil _ (Batch.frame_ne_nil _)
  -- the stream does not fail, so that what is written, a batch or the end, is taken or waits
  | writeWaits at_ ready write | completeWaits at_ ready write =>
    rw [at_] at hstage
    obtain ⟨hs, hup, hemptied, hrest⟩ := hstage
    obtain ⟨hstreams, hup, -⟩ := hup.write hs hrest write
    refine h.next hgoing (h.net.same hstreams) ?_ rfl rfl
    unfold Stage
    dsimp only
    rw [at_]
    exact ⟨hs, hup, hemptied, hrest⟩
  | writeFails at_ ready write failure | completeFails at_ ready write failure =>
    rw [at_] at hstage
    exact absurd failure ((hstage.2.1.write hstage.1 hstage.2.2.2 write).2.2 _)
  | writePart at_ ready write some_ left | completePart at_ ready write some_ left =>
    rw [at_] at hstage
    obtain ⟨hs, hup, hemptied, hrest⟩ := hstage
    obtain ⟨hstreams, hup, -⟩ := hup.write hs hrest write
    exact h.next hgoing (h.net.same hstreams) ⟨hs, hup, hemptied, left⟩ rfl rfl
  | writeAll at_ ready write some_ left | completeAll at_ ready write some_ left =>
    rw [at_] at hstage
    obtain ⟨hs, hup, hemptied, hrest⟩ := hstage
    obtain ⟨hstreams, hup, -⟩ := hup.write hs hrest write
    exact h.next hgoing (h.net.same hstreams) ⟨hs, hup, hemptied⟩ rfl rfl
  | flushFails at_ ready flush | flushEndFails at_ ready flush =>
    rw [at_] at hstage
    cases (hstage.2.1.flush hstage.1 flush).2.2
  | @flush s last parcel net at_ ready flush =>
    rw [at_] at hstage hcurrent
    obtain ⟨hs, hup, hemptied⟩ := hstage
    obtain ⟨hstreams, hup, -⟩ := hup.flush hs flush
    refine h.next hgoing ?_ ?_ rfl rfl
    · rw [sent, net_endBatch]; exact h.net.same hstreams
    · refine stage_endBatch hs hup (fun hl => (hemptied hl).same id fun _ => rfl) ?_
      rw [hcurrent.1]
      exact sound.finish_ne_nil _
  | flushEnd at_ ready flush =>
    rw [at_] at hstage
    obtain ⟨hi, hup, hemptied⟩ := hstage
    obtain ⟨hstreams, hup, -⟩ := hup.flush hi flush
    exact h.next hgoing (h.net.same hstreams) ⟨hi, hup.same rfl, hemptied⟩ rfl rfl
  | @closeWaits i net at_ ready close =>
    rw [at_] at hstage
    obtain ⟨hi, hup, hemptied⟩ := hstage
    obtain ⟨hstreams, hup, -⟩ := hup.close hi close
    refine h.next hgoing (h.net.same hstreams) ?_ rfl rfl
    unfold Stage
    dsimp only
    rw [at_]
    exact ⟨hi, hup, hemptied⟩
  | @closed i net at_ ready close =>
    rw [at_] at hstage
    obtain ⟨hi, hup, hemptied⟩ := hstage
    obtain ⟨hstreams, hup', -⟩ := hup.close hi close
    subst hi
    exact h.next hgoing (h.net.same hstreams)
      (.inr ⟨hup'.size, hemptied, (Net.close_spec hup.lt close).2.2⟩) rfl rfl
  | closeFails at_ ready close =>
    rw [at_] at hstage
    rcases (hstage.2.1.close hstage.1 close).2.2 with hresult | hresult <;> cases hresult
  -- nothing is left to abandon, unless there was never a stream
  | leave at_ =>
    rw [at_] at hstage
    refine h.next hgoing h.net ?_ rfl rfl
    exact hstage.imp_right fun h => ⟨h.1, ⟨rfl, h.2.1.events⟩, h.2.2⟩
  | discardNothing at_ events =>
    rw [at_] at hstage
    refine h.next hgoing h.net ?_ rfl rfl
    exact hstage.imp_right fun h =>
      ⟨h.1, ⟨(closed_discard c).trans h.2.1.closed, events_discard c⟩, h.2.2⟩
  | discard at_ events =>
    rw [at_] at hstage
    rcases hstage with hsize | ⟨-, hemptied, -⟩
    · refine ⟨h.net, .inl hsize, ?_, .inr ⟨rfl, hsize⟩⟩
      rw [Deeds.lost_append, h.none_lost]
      rfl
    · exact absurd hemptied.events events

theorem Unbroken.step (h : Unbroken ds c) (streams : Streams (.start method level) ds c)
    (sound : method.Sound level) (st : Step c new c') : Unbroken (ds ++ new) c' := by
  have hcall : ∀ {c' : Courier α} {new : Deeds α}, c'.net.streams = c.net.streams →
      c'.phase = c.phase → c'.net.channels = c.net.channels →
      (c.intake.buffer.closed = true → c'.intake.buffer.closed = true) →
      (c.intake.buffer.closed = true → c'.intake.buffer.events = c.intake.buffer.events) →
      new.lost = [] → new.abandoned = [] → Unbroken (ds ++ new) c' := by
    intro c' new streams phase channels closed events lost abandoned
    refine ⟨h.net.same streams, h.stage.call phase channels closed events, ?_, ?_⟩
    · rw [Deeds.lost_append, h.none_lost, lost]; rfl
    · rw [Deeds.abandoned_append, abandoned, List.append_nil, phase, channels]
      exact h.none_abandoned
  cases st with
  | accept e open_ =>
    refine hcall rfl rfl rfl ?_ ?_ rfl rfl
    · intro hclosed; rw [hclosed] at open_; cases open_
    · intro hclosed; rw [hclosed] at open_; cases open_
  | refuse e closed =>
    have hintake : (c.trace e).intake.buffer = c.intake.buffer := by
      rw [trace_eq, Intake.trace_of_closed closed]
    exact hcall rfl rfl rfl (by rw [hintake]; exact id) (by rw [hintake]; exact fun _ => rfl) rfl rfl
  | close =>
    exact hcall rfl rfl rfl (fun _ => Intake.closed_close _) (fun _ => Intake.events_close _) rfl rfl
  | abandon => exact hcall rfl rfl rfl (fun _ => rfl) (fun _ => rfl) rfl rfl
  | cancel => exact hcall rfl rfl rfl id (fun _ => rfl) rfl rfl
  | advance => exact hcall rfl rfl rfl id (fun _ => rfl) rfl rfl
  | work w => exact h.work streams sound w

/-! ## Runs -/

section

variable {connector : Connector} {window : Duration} {net : Net} {cancelled : Bool}
  {ms : List (Move α)}

theorem Run.unbroken (r : Run (.start connector window method level net cancelled) ms ds c)
    (sound : method.Sound level) (hnet : net.channels = #[]) (faultless : net.Faultless) :
    Unbroken ds c := by
  have hstart : Unbroken ([] : Deeds α) (.start connector window method level net cancelled) :=
    ⟨faultless, congrArg Array.size hnet, rfl, .inl rfl⟩
  induction r with
  | start => exact hstart
  | move r h ih => exact ih.step (r.streams hnet) sound (move_cases h)

omit [Message α] in
theorem Deeds.mem_having {fate : Fate → Bool} {b : List α × Fate} (h : b ∈ ds.settled)
    (hfate : fate b.2 = true) : b.1 ∈ ds.having fate :=
  List.mem_map_of_mem (List.mem_filter.mpr ⟨h, hfate⟩)

omit [Message α] in
theorem Deeds.having_of_forall {fate : Fate → Bool} (h : ∀ b ∈ ds.settled, fate b.2 = true) :
    ds.having fate = ds.settled.map Prod.fst := by
  rw [having, List.filter_eq_self.mpr h]

omit [Message α] in
/-- Where nothing is lost or abandoned, and all that is sent is sent on one stream. -/
theorem Deeds.fate_of_settled {i : Nat} (lost : ds.lost = []) (abandoned : ds.abandoned = [])
    (others : ∀ j, j ≠ i → ds.sentOn j = []) : ∀ b ∈ ds.settled, b.2 = .sent i := by
  rintro ⟨events, fate⟩ hb
  cases fate with
  | lost j =>
    have : events ∈ ds.lost := Deeds.mem_having hb rfl
    rw [lost] at this
    cases this
  | abandoned =>
    have : events ∈ ds.abandoned := Deeds.mem_having hb rfl
    rw [abandoned] at this
    cases this
  | sent j =>
    by_cases hj : j = i
    · rw [hj]
    · have : events ∈ ds.sentOn j := Deeds.mem_having hb (beq_self_eq_true _)
      rw [others j hj] at this
      cases this

/-- At its end a courier has done with every batch that it took, and they are all that was accepted. -/
theorem Run.settled_all (r : Run (.start connector window method level net cancelled) ms ds c)
    (ended : c.phase = .ended) :
    ds.taken = ds.settled.map Prod.fst ∧ ds.taken.flatten = ds.accepted := by
  have hway : c.onItsWay = [] := by rw [onItsWay, ended]
  refine ⟨?_, ?_⟩
  · rw [r.kept.taken, hway, List.append_nil]
  · rw [r.kept.accepted, r.leaving.empty ended, List.append_nil]

/-- What has come of a run in which no stream failed. -/
structure Whole (e : Gzip.Encoder) (ds : Deeds α) (c : Courier α) : Prop where
  /-- All events that were accepted were sent, in batches, in order. -/
  blocks : ds.sent.flatten = ds.accepted
  /-- On one stream, which carries their frames and an end. -/
  accepted : (c.net.channel 0).accepted = e.whole (frames ds.sent)
  outcome : (c.net.channel 0).outcome = .closed
  sent : c.intake.tally.batchesSent = .ofNat ds.sent.length
  written : c.intake.tally.eventsWritten = .ofNat ds.accepted.length

/-- **A courier that has opened a stream delivers all that it accepted**, if no stream fails. -/
theorem Run.whole (r : Run (.start connector window method level net cancelled) ms ds c)
    (sound : method.Sound level) (hnet : net.channels = #[]) (faultless : net.Faultless)
    (ended : c.phase = .ended) (opened : c.net.channels.size ≠ 0) :
    Whole (.start method level) ds c := by
  have h := r.unbroken sound hnet faultless
  have hstreams := r.streams hnet
  have hcounts := r.counted.counts
  simp only [counts, countsOf, List.cons.injEq, and_true] at hcounts
  obtain ⟨-, -, hwritten, hsent, -⟩ := hcounts
  have hstage := h.stage
  rw [Stage, ended] at hstage
  obtain ⟨hsize, -, houtcome⟩ := hstage.resolve_left opened
  have habandoned : ds.abandoned = [] := h.none_abandoned.resolve_right fun h => opened h.2
  have hothers : ∀ j, j ≠ 0 → ds.sentOn j = [] := fun j hj =>
    (hstreams.unopened j (by rw [hsize]; exact Nat.one_le_iff_ne_zero.mpr hj)).1
  have hfates := Deeds.fate_of_settled h.none_lost habandoned hothers
  obtain ⟨htaken, haccepted⟩ := r.settled_all ended
  have hall : ∀ fate : Fate → Bool, fate (.sent 0) = true → ds.having fate = ds.taken := by
    intro fate hfate
    rw [htaken]
    exact Deeds.having_of_forall fun b hb => by rw [hfates b hb]; exact hfate
  have hsettled : ds.sent = ds.taken := hall _ rfl
  have hsentOn : ds.sentOn 0 = ds.sent := (hall (· == .sent 0) rfl).trans hsettled.symm
  have hblocks : ds.sent.flatten = ds.accepted := by rw [hsettled, haccepted]
  refine ⟨hblocks, ?_, houtcome, hsent, ?_⟩
  · have hpast := hstreams.past_of_ended ended (i := 0) (by rw [hsize]; exact Nat.one_pos)
    rw [hsentOn] at hpast
    cases hpast with
    | cut _ _ _ _ _ hreset => rw [houtcome] at hreset; cases hreset
    | ceased p _ _ haccepted _ hwhole => rw [haccepted, hwhole houtcome, Gzip.Encoder.whole]
  · rw [hwritten, Deeds.size, hblocks]

end

end TraceRelay.Courier
