import TraceRelay.Proofs.Channel.Prompt
import TraceRelay.Proofs.Connector.Openings
import TraceRelay.Proofs.Courier.Served

/-!
# How a courier comes to its end

1. `Net.Prompt`: every stream answers sooner or later.
2. A closed courier makes a step when it is due (`works_when_due`).
3. If its host is willing, and no stream fails, each step leads closer to its end (`Run.closer`): the first
   stream is nearer, or a step is done of those that are ahead, or the stream has made the courier wait one of
   the times that it may.
-/

namespace TraceRelay

/-! ## Streams that answer -/

namespace Net

structure Prompt (n : Net) : Prop where
  given : n.Offers ChannelPlan.Prompt
  streams : ∀ i, (n.channel i).Prompt

variable {n n' : Net} {i : Nat}

theorem Prompt.setChannel (h : n.Prompt) (i : Nat) {ch : Channel} (prompt : ch.Prompt) :
    (n.setChannel i ch).Prompt := by
  refine ⟨h.given, fun j => ?_⟩
  by_cases hj : j = i
  · subst hj
    by_cases hlt : j < n.channels.size
    · rw [channel_setChannel hlt]
      exact prompt
    · have hsame : n.setChannel j ch = n := by
        rw [Net.setChannel, Array.setIfInBounds_eq_of_size_le (Nat.le_of_not_lt hlt)]
      rw [hsame]
      exact h.streams j
  · rw [(touches_setChannel n i ch).others hj]
    exact h.streams j

theorem Prompt.write (h : n.Prompt) {data : Bytes} {result : Option (Except Fault Nat)}
    (write : n.write i data = (n', result)) : n'.Prompt := by
  have hprompt := ((h.streams i).write n.clock data).1
  cases write
  exact h.setChannel i hprompt

theorem Prompt.flush (h : n.Prompt) {result : Except Fault Unit} (flush : n.flush i = (n', result)) :
    n'.Prompt := by
  have hprompt := (h.streams i).flush
  cases flush
  exact h.setChannel i hprompt

theorem Prompt.close (h : n.Prompt) {result : Option (Except Fault Unit)}
    (close : n.close i = (n', result)) : n'.Prompt := by
  have hprompt := ((h.streams i).close n.clock).1
  cases close
  exact h.setChannel i hprompt

theorem Prompt.reset (h : n.Prompt) (i : Nat) : (n.reset i).Prompt := by
  have hreset := h.setChannel i (h.streams i).reset
  exact ⟨hreset.given, hreset.streams⟩

theorem Prompt.addChannel (h : n.Prompt) (protocol : String) {plan : ChannelPlan}
    (prompt : plan.Prompt) : (n.addChannel protocol plan).1.Prompt := by
  refine ⟨h.given, fun j => ?_⟩
  rcases Nat.lt_trichotomy j n.channels.size with hlt | rfl | hgt
  · rw [channel_addChannel_of_lt protocol plan hlt]
    exact h.streams j
  · rw [channel_addChannel]
    exact Channel.prompt_start protocol prompt
  · have hnone : (n.addChannel protocol plan).1.channel j = n.channel j := by
      simp [Net.addChannel, Net.channel, Array.getElem?_push, Nat.ne_of_gt hgt, Nat.le_of_lt hgt]
    rw [hnone]
    exact h.streams j

/-- There is nothing behind a number that was never given, and it makes nobody wait. -/
theorem lt_size_of_write {data : Bytes} (write : n.write i data = (n', none)) :
    i < n.channels.size := by
  refine Nat.lt_of_not_le fun hge => ?_
  have hnone : n.channel i = default := by simp [channel, Array.getElem?_eq_none hge]
  rw [Net.write, hnone] at write
  cases write

theorem lt_size_of_close (close : n.close i = (n', none)) : i < n.channels.size := by
  refine Nat.lt_of_not_le fun hge => ?_
  have hnone : n.channel i = default := by simp [channel, Array.getElem?_eq_none hge]
  rw [Net.close, hnone] at close
  cases close

/-- A stream that makes its writer wait may do so one time less. -/
theorem Prompt.hesitations_write (h : n.Prompt) {data : Bytes} (write : n.write i data = (n', none)) :
    (n'.channel i).hesitations < (n.channel i).hesitations := by
  have hnet : n.setChannel i ((n.channel i).write n.clock data).1 = n' := congrArg Prod.fst write
  have hnone : ((n.channel i).write n.clock data).2 = none := congrArg Prod.snd write
  rw [← hnet, channel_setChannel (lt_size_of_write write)]
  exact ((h.streams i).write n.clock data).2 hnone

theorem Prompt.hesitations_close (h : n.Prompt) (close : n.close i = (n', none)) :
    (n'.channel i).hesitations < (n.channel i).hesitations := by
  have hnet : n.setChannel i ((n.channel i).close n.clock).1 = n' := congrArg Prod.fst close
  have hnone : ((n.channel i).close n.clock).2 = none := congrArg Prod.snd close
  rw [← hnet, channel_setChannel (lt_size_of_close close)]
  exact ((h.streams i).close n.clock).2 hnone

end Net

/-! ## Openings -/

namespace Connector

variable {c : Connector} {net : Net} {o : Opening} {turn : Opening.Turn}

/-- An opening makes a step when it is due. -/
theorem step_when_due (c : Connector) (cancelled stopped : Bool) (net : Net)
    (under_way : o.result? = none) (due : ∀ t, o.due = some t → t ≤ net.clock) :
    ∃ turn, c.step cancelled stopped net o = some turn := by
  cases cancelled with
  | true => exact ⟨_, step_of_cancelled c stopped net under_way⟩
  | false =>
    cases o with
    | opened | gaveUp => cases under_way
    | ready | failed => exact ⟨_, rfl⟩
    | resting deadline =>
      have hdue : deadline ≤ net.clock := due deadline rfl
      cases stopped with
      | true => exact ⟨_, rfl⟩
      | false => exact ⟨_, if_pos hdue⟩
    | calling errand deadline answer? =>
      simp only [step, Bool.false_eq_true, if_false]
      split
      · exact ⟨_, rfl⟩
      · next hnone =>
        have hdue : deadline ≤ net.clock := by
          cases answer? with
          | none => exact due deadline rfl
          | some answered =>
            obtain ⟨t, answer⟩ := answered
            have hmin : min deadline t ≤ net.clock := due _ rfl
            by_cases ht : t ≤ net.clock
            · rw [Option.filter_some, if_pos (decide_eq_true ht)] at hnone
              cases hnone
            · omega
        exact ⟨_, if_pos hdue⟩

end Connector

/-- How many steps an opening makes, if nothing fails. -/
def Opening.left : Opening → Nat
  | .ready .connect => 4
  | .calling _ _ (some (_, .connected)) => 3
  | .ready .stream => 2
  | .calling _ _ (some (_, .stream _)) => 1
  | _ => 0

/-- An opening at a willing host has one step less to make with every step. -/
theorem Connector.Step.left_lt {c : Connector} {net : Net} {o : Opening} {turn : Opening.Turn}
    {stopped : Bool} (h : Step c false stopped net o turn) (hopeful : o.Hopeful)
    (willing : net.Willing c.attemptTimeout.ticks) : turn.opening.left < o.left := by
  have hnext := (h.hopeful hopeful willing).2
  cases h with
  | cancel isCancelled => cases isCancelled
  | @call errand =>
    cases errand with
    | connect =>
      obtain ⟨-, a, hanswer⟩ := willing.connects _ (Plan.gives_next _)
      show Opening.left (.calling .connect _ (answerAt _ net.connects.next.1 _)) < 4
      rw [answerAt, hanswer]
      exact Nat.lt_succ_self 3
    | stream =>
      obtain ⟨-, a, hanswer⟩ := willing.streams _ (Plan.gives_next _)
      show Opening.left (.calling .stream _ (answerAt _ net.streams.next.1 _)) < 2
      rw [answerAt, hanswer]
      exact Nat.lt_succ_self 1
  | @answer errand deadline t answer =>
    cases answer with
    | connected => exact Nat.lt_succ_self 2
    | stream plan => exact Nat.lt_succ_self 0
    | refused f => exact absurd rfl (hopeful.2 f)
  | timeout => exact hnext.elim
  | fail | stop | retry => exact hopeful.elim

namespace Courier

variable {α : Type} [Message α] {c c' : Courier α} {ds new : Deeds α} {ms : List (Move α)}

/-! ## Couriers whose streams answer -/

/-- Also the stream that has been asked for will answer. -/
def Phase.Asks : Phase → Prop
  | .opening o _ _ => o.Offers ChannelPlan.Prompt
  | _ => True

structure Prompt (c : Courier α) : Prop where
  net : c.net.Prompt
  asks : c.phase.Asks

theorem Prompt.work (h : Prompt c) (w : Work c new c') : Prompt c' := by
  cases w with
  | @opened o closing again => cases again <;> exact ⟨h.net, trivial⟩
  | @gaveUp o closing again e => cases e <;> exact ⟨h.net, trivial⟩
  | connect at_ result step =>
    have hasks := h.asks
    rw [at_] at hasks
    obtain ⟨hgiven, hopening, hchannels⟩ := (Connector.step_cases step).offers h.net.given hasks
    refine ⟨⟨hgiven, fun i => ?_⟩, hopening⟩
    rcases hchannels with ⟨hsame, -⟩ | ⟨plan, hplan, -, hadded⟩
    · rw [Net.channel, hsame]
      exact h.net.streams i
    · have hnet : _ = _ := hadded
      show (Net.channel _ i).Prompt
      rw [hnet]
      exact (h.net.addChannel _ hplan).streams i
  | noteWake => exact ⟨h.net, h.asks⟩
  | noteClose at_ =>
    have hasks := h.asks
    rw [at_] at hasks
    exact ⟨h.net, hasks⟩
  | @heed s signal => cases signal <;> exact ⟨h.net, trivial⟩
  | @takeNothing s last => cases last <;> exact ⟨h.net, trivial⟩
  | writeWaits at_ ready write | completeWaits at_ ready write => exact ⟨h.net.write write, h.asks⟩
  | @writeFails s last parcel rest net result f at_ ready write =>
    have hreset := (h.net.write write).reset s.stream
    cases last <;> exact ⟨hreset, trivial⟩
  | writePart at_ ready write | writeAll at_ ready write | completePart at_ ready write
  | completeAll at_ ready write => exact ⟨h.net.write write, trivial⟩
  | completeFails at_ ready write => exact ⟨(h.net.write write).reset _, trivial⟩
  | @flush s last parcel net at_ ready flush =>
    have hnet := h.net.flush flush
    cases last <;> exact ⟨hnet, trivial⟩
  | @flushFails s last parcel net f at_ ready flush =>
    have hreset := (h.net.flush flush).reset s.stream
    cases last <;> exact ⟨hreset, trivial⟩
  | flushEnd at_ ready flush =>
    have hnet := h.net.flush flush
    exact ⟨⟨hnet.given, hnet.streams⟩, trivial⟩
  | flushEndFails at_ ready flush => exact ⟨(h.net.flush flush).reset _, trivial⟩
  | closeWaits at_ ready close => exact ⟨h.net.close close, h.asks⟩
  | closed at_ ready close | closeFails at_ ready close => exact ⟨h.net.close close, trivial⟩
  | start | heedNoted | heedCancel | gathered | take | leave | discardNothing | discard =>
    exact ⟨h.net, trivial⟩

theorem Prompt.step (h : Prompt c) (st : Step c new c') : Prompt c' := by
  cases st with
  | accept | refuse | close | abandon | cancel => exact ⟨h.net, h.asks⟩
  | advance => exact ⟨⟨h.net.given, h.net.streams⟩, h.asks⟩
  | work w => exact h.work w

/-- No time passes in a step. -/
theorem Work.clock (w : Work c new c') : c'.net.clock = c.net.clock := by
  have hwrite : ∀ {i data net result}, c.net.write i data = (net, result) →
      net.clock = c.net.clock := by
    intro i data net result h
    have hnet : net = (c.net.write i data).1 := by rw [h]
    rw [hnet]
    rfl
  have hflush : ∀ {i net result}, c.net.flush i = (net, result) → net.clock = c.net.clock := by
    intro i net result h
    have hnet : net = (c.net.flush i).1 := by rw [h]
    rw [hnet]
    rfl
  have hclose : ∀ {i net result}, c.net.close i = (net, result) → net.clock = c.net.clock := by
    intro i net result h
    have hnet : net = (c.net.close i).1 := by rw [h]
    rw [hnet]
    rfl
  cases w with
  | @opened o closing again => cases again <;> rfl
  | @gaveUp o closing again e => cases e <;> rfl
  | connect at_ result step => exact (Connector.step_cases step).clock
  | heedNoted | heed | heedCancel => rw [net_heed]
  | takeNothing => rw [net_endBatch]
  | flush at_ ready flush => rw [sent, net_endBatch]; exact hflush flush
  | writeWaits at_ ready write | writeFails at_ ready write | writePart at_ ready write
  | writeAll at_ ready write | completeWaits at_ ready write | completeFails at_ ready write
  | completePart at_ ready write | completeAll at_ ready write =>
    have hsame := hwrite write
    exact hsame
  | flushFails at_ ready flush | flushEnd at_ ready flush | flushEndFails at_ ready flush =>
    have hsame := hflush flush
    exact hsame
  | closeWaits at_ ready close | closed at_ ready close | closeFails at_ ready close =>
    have hsame := hclose close
    exact hsame
  | _ => rfl

/-! ## What is due -/

omit [Message α] in
theorem due_of_use {i : Nat} (use : c.use ≠ .idle) (on_ : c.stream? = some i) :
    c.due = (c.net.channel i).due := by
  cases hp : c.phase with
  | writing | flushing | completing | flushingEnd | closing =>
    rw [stream?, hp] at on_
    cases on_
    rw [Courier.due, hp]
  | _ =>
    rw [Courier.use, hp] at use
    exact absurd rfl use

/-- **A closed courier waits for its host and its stream only**, and no longer than these are due. -/
theorem works_when_due (prompt : ∀ i, (c.net.channel i).Prompt)
    (closed : c.intake.buffer.closed = true) (running : c.phase ≠ .ended)
    (due : ∀ t, c.due = some t → t ≤ c.net.clock) (pick : Pick) : ∃ c', c.work pick = some c' := by
  cases hopened : c.phase.isOpened with
  | true =>
    rcases works_of_closed closed hopened running pick with
      hworks | ⟨s, deadline, hgathering⟩ | ⟨huse, i, hi, hheld⟩
    · exact hworks
    · have hdue : deadline ≤ c.net.clock := due deadline (by rw [Courier.due, hgathering])
      rw [work, hgathering]
      exact ⟨_, if_pos hdue⟩
    · rcases hheld with hbusy | ⟨c', hwork, -⟩
      · rw [due_of_use huse hi] at due
        have hready : c.net.isReady i = true := (prompt i).ready due
        rw [hready] at hbusy
        cases hbusy
      · exact ⟨c', hwork⟩
  | false =>
    rcases unopened_cases hopened with hp | ⟨o, closing, again, hp, hresult⟩
    · rw [work, hp]
      exact ⟨_, rfl⟩
    · obtain ⟨turn, hstep⟩ := c.connector.step_when_due c.cancelled c.stopped c.net hresult
        fun t ht => due t (by rw [Courier.due, hp]; exact ht)
      have hconnects : ∃ c', c.workOpening o closing again = some c' := by
        rw [workOpening, hresult]
        exact ⟨_, congrArg (Option.map _) hstep⟩
      obtain ⟨c', hwork, -⟩ := Pick.choose_of_former (P := fun _ => True) pick hconnects fun _ _ => trivial
      rw [work, hp]
      exact ⟨c', hwork⟩

/-! ## The way to the end -/

/-- How many steps it takes to the first stream, if nothing fails. -/
def Phase.toStream : Phase → Nat
  | .starting => 5
  | .opening o _ _ => o.left
  | _ => 0

/-- How many more times the stream in use may make the courier wait. -/
def hesitations (c : Courier α) : Nat := (c.stream?.map fun i => (c.net.channel i).hesitations).getD 0

def ahead (c : Courier α) : Nat × (Nat × Nat × Nat) × Nat := (c.phase.toStream, c.toGo, c.hesitations)

/-- `c'` is closer to the end than `c`. -/
def Closer (c c' : Courier α) : Prop :=
  Prod.Lex (· < ·) (Prod.Lex (Prod.Lex (· < ·) (Prod.Lex (· < ·) (· < ·))) (· < ·)) c'.ahead c.ahead

omit [Message α] in
theorem toStream_of_opened (h : c.phase.isOpened = true) : c.phase.toStream = 0 := by
  cases hp : c.phase with
  | opening o closing again =>
    rw [hp] at h
    cases o with
    | opened | gaveUp => rfl
    | ready | calling | failed | resting => cases h
  | starting => rw [hp] at h; cases h
  | _ => rfl

omit [Message α] in
theorem Nearer.closer (h : Nearer c c') (toStream : c'.phase.toStream = c.phase.toStream) :
    Closer c c' := by
  unfold Closer ahead
  rw [toStream]
  exact .right _ (.left _ _ h)

omit [Message α] in
/-- A stream that makes the courier wait may do so one time less. -/
theorem Stalls.hesitations (h : Stalls c c') (prompt : Prompt c) :
    ∃ net, c' = { c with net } ∧ Courier.hesitations { c with net } < c.hesitations := by
  have hfewer : ∀ {i : Nat} {net : Net}, c.stream? = some i →
      (net.channel i).hesitations < (c.net.channel i).hesitations →
      Courier.hesitations { c with net } < c.hesitations := by
    intro i net hstream hlt
    show (c.stream?.map fun i => (net.channel i).hesitations).getD 0 <
      (c.stream?.map fun i => (c.net.channel i).hesitations).getD 0
    rw [hstream]
    exact hlt
  cases h with
  | write on_ write => exact ⟨_, rfl, hfewer on_ (prompt.net.hesitations_write write)⟩
  | close on_ close => exact ⟨_, rfl, hfewer on_ (prompt.net.hesitations_close close)⟩

omit [Message α] in
theorem Stalls.closer (h : Stalls c c') (prompt : Prompt c) : Closer c c' := by
  obtain ⟨net, rfl, hfewer⟩ := h.hesitations prompt
  exact .right _ (.right _ hfewer)

/-- **A step leads closer to the end**, while no stream fails and the host is willing. -/
theorem Work.closer (w : Work c new c') (prompt : Prompt c) (going : c.cancelled = false)
    (kept : new.lost = [])
    (hopeful : ∀ o closing again, c.phase = .opening o closing again → o.result? = none →
      o.Hopeful ∧ c.net.Willing c.connector.attemptTimeout.ticks) : Closer c c' := by
  cases hopened : c.phase.isOpened with
  | true =>
    have hzero := toStream_of_opened hopened
    rcases w.nearer hopened with ⟨-, hstalls⟩ | hlost | ⟨hnearer, hstays⟩
    · exact hstalls.closer prompt
    · exact absurd kept hlost
    · exact hnearer.closer ((toStream_of_opened hstays).trans hzero.symm)
  | false =>
    rcases unopened_cases hopened with hp | ⟨o, closing, again, hp, hresult⟩
    · cases w with
      | start at_ => exact .left _ _ (by rw [hp]; exact Nat.lt_succ_self 4)
      | _ => simp_all only [reduceCtorEq]
    · obtain ⟨hhopeful, hwilling⟩ := hopeful o closing again hp hresult
      rcases w.at_opening hp with ⟨result, hover, -⟩ | ⟨turn, -, hstep, rfl⟩ | ⟨-, hwait, rfl⟩ |
        ⟨rfl, hwait, rfl⟩
      · rw [hresult] at hover
        cases hover
      · rw [going] at hstep
        refine .left _ _ ?_
        rw [hp]
        exact (Connector.step_cases hstep).left_lt hhopeful hwilling
      · exact (nearer_of_noteWake hwait).closer rfl
      · exact (nearer_of_noteClose hp hwait).closer (by rw [hp]; rfl)

section

variable {connector : Connector} {window : Duration} {method : Gzip.Method} {level : Nat} {net : Net}
  {cancelled : Bool}

theorem Run.prompt (r : Run (.start connector window method level net cancelled) ms ds c)
    (given : net.Offers ChannelPlan.Prompt) (fresh : net.channels = #[]) : Prompt c := by
  refine r.induct (P := fun _ c => Prompt c) ⟨⟨given, fun i => ?_⟩, trivial⟩ fun h st => h.step st
  have hnone : net.channel i = default := by simp [Net.channel, fresh]
  show (net.channel i).Prompt
  rw [hnone]
  exact Channel.prompt_default

/-- The first opening is under way to its stream, and nothing stands against it. -/
theorem Run.hopeful (r : Run (.start connector window method level net cancelled) ms ds c)
    (willing : net.Willing connector.attemptTimeout.ticks) (sound : method.Sound level)
    (fresh : net.channels = #[]) (faultless : net.Faultless) (going : c.cancelled = false)
    {o : Opening} {closing again : Bool} (at_ : c.phase = .opening o closing again)
    (under_way : o.result? = none) : o.Hopeful ∧ c.net.Willing c.connector.attemptTimeout.ticks := by
  cases r.is_served willing going with
  | starting at' => cases at_.symm.trans at'
  | opening at' _ hopeful willing =>
    cases at_.symm.trans at'
    exact ⟨hopeful, willing⟩
  | streamed some_ =>
    have hnone : ∀ i, o ≠ .opened i := by
      rintro i rfl
      cases under_way
    have hstage := (r.unbroken sound fresh faultless).stage
    rw [stage_opening at_ hnone] at hstage
    exact absurd hstage.1 some_

/-- **A closed courier goes on**, at some time, and is closer to its end then. -/
theorem Run.goes_on (r : Run (.start connector window method level net cancelled) ms ds c)
    (willing : net.Willing connector.attemptTimeout.ticks) (sound : method.Sound level)
    (fresh : net.channels = #[]) (faultless : net.Faultless) (given : net.Offers ChannelPlan.Prompt)
    (going : c.cancelled = false) (closed : c.intake.buffer.closed = true)
    (running : c.phase ≠ .ended) :
    ∃ t c', c.net.clock ≤ t ∧ (c.advance t).work .former = some c' ∧ Closer c c' := by
  -- there is nothing to wait for at this time
  have hlater : c.net.clock ≤ max c.net.clock (c.due.getD 0) := Nat.le_max_left ..
  have hdue : ∀ t, (c.advance (max c.net.clock (c.due.getD 0))).due = some t →
      t ≤ max c.net.clock (c.due.getD 0) := by
    intro t ht
    have hsame : c.due = some t := ht
    rw [hsame]
    exact Nat.le_max_right ..
  generalize max c.net.clock (c.due.getD 0) = t at hlater hdue
  have hadvance : c.move (.advance t) = some (c.advance t) := if_pos hlater
  have hrun := r.move hadvance
  have hprompt := hrun.prompt given fresh
  obtain ⟨c', hwork⟩ := works_when_due hprompt.net.streams closed running hdue .former
  have w := work_cases hwork
  have hkept : Deeds.lost ((c.advance t).deeds (.work .former)) = [] := by
    have hnone := ((hrun.move (m := .work .former) hwork).unbroken sound fresh faultless).none_lost
    rw [Deeds.lost_append] at hnone
    exact (List.append_eq_nil_iff.mp hnone).2
  exact ⟨t, c', hlater, hwork, w.closer hprompt going hkept fun _ _ _ at_ under_way =>
    hrun.hopeful willing sound fresh faultless going at_ under_way⟩

end

end Courier

end TraceRelay
