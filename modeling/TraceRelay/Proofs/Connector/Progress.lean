import Mathlib.Logic.Relation
import TraceRelay.Proofs.Connector.Attempts

/-!
# An opening that is left alone

While it is neither cancelled nor stopped, an opening goes by itself from the beginning of an attempt to
the end of it (`reaches_end`), and after a failure to the next attempt (`reaches_retry`). So if the host
grants a connect and the stream after it, sooner or later and in time (`Grants`), a stream is opened
(`Grants.opens`).
-/

namespace TraceRelay

/-- What was asked for is granted, and takes no longer than `limit`. -/
def Reaction.InTime {α : Type} (limit : Nat) (r : Reaction α) : Prop :=
  ∃ x, r.answer? = some (.ok x) ∧ r.delay ≤ limit

namespace Connector

/-- After some failures the host grants a connect and then a stream. -/
inductive Grants (c : Connector) : Plan (Reaction Unit) → Plan (Reaction ChannelPlan) → Prop where
  | opens {connects : Plan (Reaction Unit)} {streams : Plan (Reaction ChannelPlan)}
      (connect : connects.next.1.InTime c.attemptTimeout.ticks)
      (stream : streams.next.1.InTime c.attemptTimeout.ticks) : Grants c connects streams
  | connectFails {connects : Plan (Reaction Unit)} {streams : Plan (Reaction ChannelPlan)}
      (fails : ¬ connects.next.1.InTime c.attemptTimeout.ticks)
      (later : Grants c connects.next.2 streams) : Grants c connects streams
  | streamFails {connects : Plan (Reaction Unit)} {streams : Plan (Reaction ChannelPlan)}
      (connect : connects.next.1.InTime c.attemptTimeout.ticks)
      (fails : ¬ streams.next.1.InTime c.attemptTimeout.ticks)
      (later : Grants c connects.next.2 streams.next.2) : Grants c connects streams

/-- Time, or a step of the opening's own. -/
def Move.IsOwn : Move → Prop
  | .work | .advance _ => True
  | _ => False

namespace Bid

def Goes (c : Connector) (b b' : Bid) : Prop := ∃ m : Move, m.IsOwn ∧ b.move c m = some b'

/-- What a bid can come to with nobody's help. -/
abbrev Reaches (c : Connector) : Bid → Bid → Prop := Relation.ReflTransGen (Goes c)

/-- Neither order has been given. -/
structure IsFree (b : Bid) : Prop where
  going : b.cancelled = false
  trying : b.stopped = false

/-- The clock stands at `t`. -/
def atTime (b : Bid) (t : Nat) : Bid := { b with net := { b.net with clock := t } }

@[simp] theorem connects_atTime (b : Bid) (t : Nat) :
    (b.atTime t).net.connects = b.net.connects := rfl

@[simp] theorem streams_atTime (b : Bid) (t : Nat) :
    (b.atTime t).net.streams = b.net.streams := rfl

end Bid

variable {c : Connector} {a : Attempt} {b : Bid} {errand : Errand}

/-! ## Moves -/

/-- A step of a free opening. -/
theorem Bid.reaches_turn {turn : Opening.Turn} (free : b.IsFree) (h : b.step c = some turn) :
    ∃ b', b.Reaches c b' ∧ b'.IsFree ∧ b'.net = turn.net ∧ b'.opening = turn.opening := by
  refine ⟨b.turned turn, .single ⟨.work, trivial, ?_⟩, ⟨free.going, free.trying⟩, rfl, rfl⟩
  rw [move, h]
  rfl

/-- Before it is due an opening does nothing. -/
theorem Bid.step_of_early {d : Nat} (free : b.IsFree) (due : b.opening.due = some d)
    (early : b.net.clock < d) : b.step c = none := by
  rw [step, free.going, free.trying]
  generalize b.opening = o at due
  cases o with
  | calling errand deadline answer? =>
    cases answer? with
    | none =>
      cases due
      simp [Connector.step]
      omega
    | some answered =>
      obtain ⟨t, answer⟩ := answered
      cases due
      have hanswer : ¬ t ≤ b.net.clock := by omega
      have hdeadline : ¬ deadline ≤ b.net.clock := by omega
      simp [Connector.step, Option.filter, hanswer, hdeadline]
  | resting deadline =>
    cases due
    simp [Connector.step]
    omega
  | _ => cases due

/-- A free opening waits until it is due. -/
theorem Bid.reaches_due {d : Nat} (free : b.IsFree) (due : b.opening.due = some d)
    (later : b.net.clock ≤ d) : b.Reaches c (b.atTime d) := by
  rcases Nat.eq_or_lt_of_le later with rfl | early
  · exact .refl
  · have hidle : (b.step c).isNone = true := by rw [step_of_early free due early]; rfl
    have hdue : b.opening.due.all (d ≤ ·) = true := by simp [due]
    exact .single ⟨.advance d, trivial, if_pos ⟨hidle, later, hdue⟩⟩

/-- A step that a free opening makes when it is due. -/
theorem Bid.reaches_turn_due {d : Nat} {turn : Opening.Turn} (free : b.IsFree)
    (due : b.opening.due = some d) (later : b.net.clock ≤ d) (h : (b.atTime d).step c = some turn) :
    ∃ b', b.Reaches c b' ∧ b'.IsFree ∧ b'.net = turn.net ∧ b'.opening = turn.opening := by
  obtain ⟨b', hreach, hfree, hnet, hopening⟩ :=
    reaches_turn (b := b.atTime d) ⟨free.going, free.trying⟩ h
  exact ⟨b', (reaches_due free due later).trans hreach, hfree, hnet, hopening⟩

/-! ## From one attempt to the next -/

/-- Whether an attempt succeeds is up to the host. -/
theorem Attempt.granted_iff {α : Type} {r : Reaction α} (reply : a.reply? = r.reply? a.began) :
    (a.verdict c).2 = true ↔ r.InTime c.attemptTimeout.ticks := by
  rw [verdict, reply, Reaction.reply?, Reaction.InTime, limit]
  cases r.answer? with
  | none => simp
  | some answer =>
    by_cases hdelay : r.delay ≤ c.attemptTimeout.ticks
    · cases answer <;> simp [hdelay, Except.isOk, Except.toBool]
    · cases answer <;> simp [hdelay, Except.isOk, Except.toBool]

/-- The state of an opening whose attempt has succeeded. -/
def Opening.Granted : Errand → Opening → Prop
  | .connect, o => o = .ready .stream
  | .stream, o => ∃ i, o = .opened i

theorem settle_granted (c : Connector) (net : Net) {answer : Answer} (suits : answer.Suits errand)
    (good : answer.isGood = true) : Opening.Granted errand (c.settle net errand answer).opening := by
  cases answer with
  | connected => rw [show errand = .connect from suits]; rfl
  | stream plan => rw [show errand = .stream from suits]; exact ⟨_, rfl⟩
  | refused f => cases good

theorem settle_failed (c : Connector) (net : Net) {answer : Answer} (bad : answer.isGood = false) :
    ∃ e, (c.settle net errand answer).opening = .failed errand e := by
  cases answer with
  | refused f => exact ⟨_, rfl⟩
  | connected | stream => cases bad

theorem settle_plans (c : Connector) (net : Net) (errand : Errand) (answer : Answer) :
    (c.settle net errand answer).net.connects = net.connects ∧
      (c.settle net errand answer).net.streams = net.streams := by
  cases answer <;> exact ⟨rfl, rfl⟩

/-- The next step of the opening is a call. -/
def Bid.Calls (c : Connector) (b : Bid) (errand : Errand) : Prop :=
  b.step c = some ⟨(c.call b.net errand).2, (c.call b.net errand).1, false, []⟩

theorem Bid.calls_of_ready (free : b.IsFree) (at_ : b.opening = .ready errand) : b.Calls c errand := by
  rw [Calls, step, at_, free.going]
  rfl

/-- **An attempt comes to its end**, the one that the host decides on. -/
theorem Bid.reaches_end (free : b.IsFree) (calls : b.Calls c errand) :
    ∃ b', b.Reaches c b' ∧ b'.IsFree ∧ b'.net.connects = (c.call b.net errand).1.connects ∧
      b'.net.streams = (c.call b.net errand).1.streams ∧
      (((Attempt.begin b.net errand).verdict c).2 = true ∧ Opening.Granted errand b'.opening ∨
        ((Attempt.begin b.net errand).verdict c).2 = false ∧ ∃ e, b'.opening = .failed errand e) := by
  obtain ⟨answer?, hopening, hreply, hanswers, hclock, -⟩ := c.call_spec b.net errand
  have hbegan := Attempt.began_begin b.net errand
  generalize Attempt.begin b.net errand = a at hopening hreply hbegan ⊢
  have hlimit : a.limit c = b.net.clock + c.attemptTimeout.ticks := by rw [Attempt.limit, hbegan]
  obtain ⟨b₁, hreach₁, hfree₁, hnet₁, hopening₁⟩ := reaches_turn free calls
  have hclock₁ : b₁.net.clock = b.net.clock := by rw [hnet₁, hclock]
  have hconnects₁ : b₁.net.connects = (c.call b.net errand).1.connects := by rw [hnet₁]
  have hstreams₁ : b₁.net.streams = (c.call b.net errand).1.streams := by rw [hnet₁]
  rw [hopening] at hopening₁
  -- the answer is waited for, or the limit, whatever comes first
  by_cases hanswer : ∃ t answer, answer? = some (t, answer) ∧ t ≤ a.limit c
  · obtain ⟨t, answer, rfl, ht⟩ := hanswer
    obtain ⟨hlater, hsuits⟩ := hanswers t answer rfl
    have hverdict : a.verdict c = (t, answer.isGood) := by
      rw [Attempt.verdict, hreply]
      simp [ht]
    have hdue : b₁.opening.due = some t := by
      rw [hopening₁]
      simp [Opening.due, ht]
    have hsettle : (b₁.atTime t).step c = some (c.settle (b₁.atTime t).net errand answer) := by
      simp [step, atTime, hopening₁, hfree₁.going, Connector.step, Option.filter]
    obtain ⟨b', hreach, hfree, hnet, hopening'⟩ :=
      reaches_turn_due hfree₁ hdue (hclock₁.trans_le hlater) hsettle
    obtain ⟨hconnects, hstreams⟩ := c.settle_plans (b₁.atTime t).net errand answer
    refine ⟨b', hreach₁.trans hreach, hfree, ?_, ?_, ?_⟩
    · rw [hnet, hconnects, Bid.connects_atTime, hconnects₁]
    · rw [hnet, hstreams, Bid.streams_atTime, hstreams₁]
    · rw [hverdict, hopening']
      cases hgood : answer.isGood with
      | true => exact .inl ⟨rfl, c.settle_granted _ hsuits hgood⟩
      | false => exact .inr ⟨rfl, c.settle_failed _ hgood⟩
  · have hlate : ∀ t answer, answer? = some (t, answer) → ¬ t ≤ a.limit c :=
      fun t answer h ht => hanswer ⟨t, answer, h, ht⟩
    have hverdict : a.verdict c = (a.limit c, false) := by
      rw [Attempt.verdict, hreply]
      cases answer? with
      | none => rfl
      | some answered => simp [hlate answered.1 answered.2 rfl]
    have hdue : b₁.opening.due = some (a.limit c) := by
      rw [hopening₁]
      cases answer? with
      | none => rfl
      | some answered =>
        have := hlate answered.1 answered.2 rfl
        simp [Opening.due]
        omega
    have htimeout : (b₁.atTime (a.limit c)).step c =
        some ⟨.failed errand (.timeout c.attemptTimeout), (b₁.atTime (a.limit c)).net, false, []⟩ := by
      cases answer? with
      | none => simp [step, atTime, hopening₁, hfree₁.going, Connector.step]
      | some answered =>
        have := hlate answered.1 answered.2 rfl
        simp [step, atTime, hopening₁, hfree₁.going, Connector.step, Option.filter, this]
    obtain ⟨b', hreach, hfree, hnet, hopening'⟩ := reaches_turn_due hfree₁ hdue (by omega) htimeout
    refine ⟨b', hreach₁.trans hreach, hfree, ?_, ?_, ?_⟩
    · rw [hnet, Bid.connects_atTime, hconnects₁]
    · rw [hnet, Bid.streams_atTime, hstreams₁]
    · rw [hverdict, hopening']
      exact .inr ⟨rfl, _, rfl⟩

/-- After a failure the opening rests and connects again. -/
theorem Bid.reaches_retry {e : OpenFailure} (free : b.IsFree) (at_ : b.opening = .failed errand e) :
    ∃ b', b.Reaches c b' ∧ b'.IsFree ∧ b'.net.connects = b.net.connects ∧
      b'.net.streams = b.net.streams ∧ b'.Calls c .connect := by
  obtain ⟨turn, hturn, hnet₀, t, hrest, hlater⟩ : ∃ turn, c.retreat false b.net errand e = turn ∧
      turn.net = b.net ∧ ∃ t, turn.opening = .resting t ∧ b.net.clock ≤ t :=
    ⟨_, rfl, rfl, _, rfl, Nat.le_add_right ..⟩
  have hfail : b.step c = some turn := by
    rw [step, at_, free.going, free.trying, ← hturn]
    rfl
  obtain ⟨b₁, hreach₁, hfree₁, hnet₁, hopening₁⟩ := reaches_turn free hfail
  rw [hnet₀] at hnet₁
  rw [hrest] at hopening₁
  have hdue : b₁.opening.due = some t := by
    rw [hopening₁]
    rfl
  have hcalls : (b₁.atTime t).Calls c .connect := by
    simp [Calls, step, atTime, hopening₁, hfree₁.going, hfree₁.trying, Connector.step]
  refine ⟨b₁.atTime t, hreach₁.trans (reaches_due hfree₁ hdue (by rw [hnet₁]; exact hlater)),
    ⟨hfree₁.going, hfree₁.trying⟩, ?_, ?_, hcalls⟩
  · rw [Bid.connects_atTime, hnet₁]
  · rw [Bid.streams_atTime, hnet₁]

/-- What was asked for is granted. -/
theorem Bid.reaches_granted (free : b.IsFree) (calls : b.Calls c errand)
    (granted : ((Attempt.begin b.net errand).verdict c).2 = true) :
    ∃ b', b.Reaches c b' ∧ b'.IsFree ∧ b'.net.connects = (c.call b.net errand).1.connects ∧
      b'.net.streams = (c.call b.net errand).1.streams ∧ Opening.Granted errand b'.opening := by
  obtain ⟨b', hreach, hfree, hconnects, hstreams, hend⟩ := reaches_end free calls
  rcases hend with ⟨-, hgranted⟩ | ⟨hbad, -⟩
  · exact ⟨b', hreach, hfree, hconnects, hstreams, hgranted⟩
  · rw [granted] at hbad
    cases hbad

/-- What was asked for is not granted, and the opening begins again. -/
theorem Bid.reaches_again (free : b.IsFree) (calls : b.Calls c errand)
    (refused : ((Attempt.begin b.net errand).verdict c).2 ≠ true) :
    ∃ b', b.Reaches c b' ∧ b'.IsFree ∧ b'.net.connects = (c.call b.net errand).1.connects ∧
      b'.net.streams = (c.call b.net errand).1.streams ∧ b'.Calls c .connect := by
  obtain ⟨b₁, hreach₁, hfree₁, hconnects₁, hstreams₁, hend⟩ := reaches_end free calls
  rcases hend with ⟨hgood, -⟩ | ⟨-, e, hfailed⟩
  · exact absurd hgood refused
  · obtain ⟨b', hreach, hfree, hconnects, hstreams, hcalls⟩ := reaches_retry (c := c) hfree₁ hfailed
    exact ⟨b', hreach₁.trans hreach, hfree, hconnects.trans hconnects₁, hstreams.trans hstreams₁,
      hcalls⟩

theorem granted_connect (c : Connector) (net : Net) :
    ((Attempt.begin net .connect).verdict c).2 = true ↔
      net.connects.next.1.InTime c.attemptTimeout.ticks := Attempt.granted_iff rfl

theorem granted_stream (c : Connector) (net : Net) :
    ((Attempt.begin net .stream).verdict c).2 = true ↔
      net.streams.next.1.InTime c.attemptTimeout.ticks := Attempt.granted_iff rfl

/-- **If the host grants a stream sooner or later, the opening gets it**, by its own moves. -/
theorem Grants.reaches_opened (h : Grants c b.net.connects b.net.streams) (free : b.IsFree)
    (calls : b.Calls c .connect) : ∃ b' i, b.Reaches c b' ∧ b'.opening = .opened i := by
  generalize hconnects : b.net.connects = connects at h
  generalize hstreams : b.net.streams = streams at h
  induction h generalizing b with
  | opens connect stream =>
    subst hconnects hstreams
    obtain ⟨b₁, hreach₁, hfree₁, -, hstreams₁, hready₁⟩ :=
      Bid.reaches_granted free calls ((granted_connect c b.net).mpr connect)
    have hstream : ((Attempt.begin b₁.net .stream).verdict c).2 = true := by
      rw [granted_stream, hstreams₁]
      exact stream
    obtain ⟨b', hreach, -, -, -, i, hi⟩ :=
      Bid.reaches_granted hfree₁ (Bid.calls_of_ready hfree₁ hready₁) hstream
    exact ⟨b', i, hreach₁.trans hreach, hi⟩
  | connectFails fails later ih =>
    subst hconnects hstreams
    obtain ⟨b₁, hreach₁, hfree₁, hconnects₁, hstreams₁, hcalls₁⟩ :=
      Bid.reaches_again free calls (mt (granted_connect c b.net).mp fails)
    obtain ⟨b', i, hreach, hi⟩ := ih hfree₁ hcalls₁ hconnects₁ hstreams₁
    exact ⟨b', i, hreach₁.trans hreach, hi⟩
  | streamFails connect fails later ih =>
    subst hconnects hstreams
    obtain ⟨b₁, hreach₁, hfree₁, hconnects₁, hstreams₁, hready₁⟩ :=
      Bid.reaches_granted free calls ((granted_connect c b.net).mpr connect)
    have hstream : ¬ ((Attempt.begin b₁.net .stream).verdict c).2 = true := by
      rw [granted_stream, hstreams₁]
      exact fails
    obtain ⟨b₂, hreach₂, hfree₂, hconnects₂, hstreams₂, hcalls₂⟩ :=
      Bid.reaches_again hfree₁ (Bid.calls_of_ready hfree₁ hready₁) hstream
    obtain ⟨b', i, hreach, hi⟩ := ih hfree₂ hcalls₂ (hconnects₂.trans hconnects₁)
      (hstreams₂.trans (congrArg (·.next.2) hstreams₁))
    exact ⟨b', i, (hreach₁.trans hreach₂).trans hreach, hi⟩

end Connector

end TraceRelay
