import TraceRelay.Proofs.Connector
import TraceRelay.Proofs.Courier.Run
import TraceRelay.Proofs.Gzip.Sound

/-!
# What is on each stream

The invariant of all streams of a courier, by the batches that were sent on a stream and lost on it.

1. `Open`: the stream in use carries the frames of the batches sent on it, and a part of what comes
   next, the rest of which is still to be written.
2. `Past`: a stream that is no longer in use carries the frames of the batches sent on it, and a part
   of the one frame that was lost on it, or of the end. Only if it carries all of the end can it
   have been closed.
3. `Streams.step`: every step keeps this. A step touches no stream but the one in use.
-/

namespace TraceRelay.Courier

variable {α : Type} [Message α]

/-- The frames that some batches travel in. -/
def frames (batches : List (List α)) : List Bytes := batches.map Batch.frame

theorem frames_append (a b : List (List α)) : frames (a ++ b) = frames a ++ frames b :=
  List.map_append

/-! ## One stream -/

variable {e : Gzip.Encoder} {sent lost : List (List α)} {ch ch' : Channel}

/-- A stream in use. Of the bytes `whole` after its frames, `rest` is still to be written. -/
structure Open (e : Gzip.Encoder) (sent lost : List (List α)) (ch : Channel) (whole rest : Bytes) :
    Prop where
  none_lost : lost = []
  live : ch.outcome = .live
  accepted : ∃ p, p ++ rest = whole ∧ ch.accepted = e.flushAll (frames sent) ++ p

/-- A stream that is no longer written to. -/
inductive Past (e : Gzip.Encoder) (sent lost : List (List α)) (ch : Channel) : Prop where
  | cut (events : List α) (p : Bytes) (one_lost : lost = [events])
      (part : p <+: ((e.after (frames sent)).flush (Batch.frame events)).2)
      (accepted : ch.accepted = e.flushAll (frames sent) ++ p) (outcome : ch.outcome = .reset)
  | ceased (p : Bytes) (none_lost : lost = []) (part : p <+: (e.after (frames sent)).finish)
      (accepted : ch.accepted = e.flushAll (frames sent) ++ p) (ended : ch.outcome ≠ .live)
      (whole : ch.outcome = .closed → p = (e.after (frames sent)).finish)

theorem Past.length_lost (h : Past e sent lost ch) : lost.length ≤ 1 := by
  cases h with
  | cut events p one_lost => rw [one_lost]; exact Nat.le_refl _
  | ceased p none_lost => rw [none_lost]; exact Nat.zero_le _

/-- More of what comes next is written. -/
theorem Open.write {whole rest : Bytes} (h : Open e sent lost ch whole rest) {n : Nat}
    (accepted : ch'.accepted = ch.accepted ++ rest.take n) (outcome : ch'.outcome = ch.outcome) :
    Open e sent lost ch' whole (rest.drop n) := by
  obtain ⟨p, hp, hch⟩ := h.accepted
  refine ⟨h.none_lost, outcome.trans h.live, p ++ rest.take n, ?_, ?_⟩
  · rw [List.append_assoc, List.take_append_drop, hp]
  · rw [accepted, hch, List.append_assoc]

theorem Open.same {whole rest : Bytes} (h : Open e sent lost ch whole rest)
    (accepted : ch'.accepted = ch.accepted) (outcome : ch'.outcome = ch.outcome) :
    Open e sent lost ch' whole rest := by
  obtain ⟨p, hp, hch⟩ := h.accepted
  exact ⟨h.none_lost, outcome.trans h.live, p, hp, accepted.trans hch⟩

/-- All that comes next has been written. -/
theorem Open.accepted_all {whole : Bytes} (h : Open e sent lost ch whole []) :
    ch.accepted = e.flushAll (frames sent) ++ whole := by
  obtain ⟨p, hp, hch⟩ := h.accepted
  rw [List.append_nil] at hp
  rw [hch, hp]

/-- What comes next turns out to be one more batch sent. -/
theorem Open.delivered {events : List α}
    (h : Open e sent lost ch ((e.after (frames sent)).flush (Batch.frame events)).2 [])
    (accepted : ch'.accepted = ch.accepted) (outcome : ch'.outcome = ch.outcome) (next : Bytes) :
    Open e (sent ++ [events]) lost ch' next next := by
  refine ⟨h.none_lost, outcome.trans h.live, [], rfl, ?_⟩
  rw [accepted, h.accepted_all, frames_append, List.append_nil]
  exact (e.flushAll_concat (frames sent) (Batch.frame events)).symm

/-- What comes next is lost. -/
theorem Open.cut {events : List α} {rest : Bytes}
    (h : Open e sent lost ch ((e.after (frames sent)).flush (Batch.frame events)).2 rest)
    (accepted : ch'.accepted = ch.accepted) (outcome : ch'.outcome = .reset) :
    Past e sent (lost ++ [events]) ch' := by
  obtain ⟨p, hp, hch⟩ := h.accepted
  refine .cut events p ?_ ⟨rest, hp⟩ (accepted.trans hch) outcome
  rw [h.none_lost, List.nil_append]

/-- The end is cut short, or the close fails. -/
theorem Open.ceased {rest : Bytes} (h : Open e sent lost ch (e.after (frames sent)).finish rest)
    (accepted : ch'.accepted = ch.accepted) (ended : ch'.outcome ≠ .live)
    (whole : ch'.outcome = .closed → rest = []) : Past e sent lost ch' := by
  obtain ⟨p, hp, hch⟩ := h.accepted
  refine .ceased p h.none_lost ⟨rest, hp⟩ (accepted.trans hch) ended fun hclosed => ?_
  rw [whole hclosed, List.append_nil] at hp
  exact hp

/-! ## All streams -/

/-- The stream in use. -/
def stream? (c : Courier α) : Option Nat :=
  match c.phase with
  | .opening (.opened i) _ _ => some i
  | .waiting s | .gathering s _ | .collecting s _ => some s.stream
  | .writing s _ _ _ | .flushing s _ _ => some s.stream
  | .completing i _ | .flushingEnd i | .closing i => some i
  | _ => none

/-- Stream `i` is in use. -/
def Holds (e : Gzip.Encoder) (ds : Deeds α) (c : Courier α) (i : Nat) (whole rest : Bytes) : Prop :=
  i < c.net.channels.size ∧ Open e (ds.sentOn i) (ds.lostOn i) (c.net.channel i) whole rest

/-- The compressor has taken the frames of the batches sent on the stream in use, and of the one on
its way. -/
def Current (e : Gzip.Encoder) (ds : Deeds α) (c : Courier α) : Prop :=
  match c.phase with
  | .opening (.opened i) _ _ => ds.sentOn i = [] ∧ Holds e ds c i [] []
  | .waiting s | .gathering s _ | .collecting s _ =>
    s.gzip = e.after (frames (ds.sentOn s.stream)) ∧ Holds e ds c s.stream [] []
  | .writing s _ _ rest =>
    s.gzip = e.after (frames (ds.sentOn s.stream ++ [c.scratch.toList])) ∧
      Holds e ds c s.stream
        ((e.after (frames (ds.sentOn s.stream))).flush (Batch.frame c.scratch.toList)).2 rest
  | .flushing s _ _ =>
    s.gzip = e.after (frames (ds.sentOn s.stream ++ [c.scratch.toList])) ∧
      Holds e ds c s.stream
        ((e.after (frames (ds.sentOn s.stream))).flush (Batch.frame c.scratch.toList)).2 []
  | .completing i rest => Holds e ds c i (e.after (frames (ds.sentOn i))).finish rest
  | .flushingEnd i | .closing i => Holds e ds c i (e.after (frames (ds.sentOn i))).finish []
  | _ => True

structure Streams (e : Gzip.Encoder) (ds : Deeds α) (c : Courier α) : Prop where
  start : Gzip.Encoder.start c.method c.compressionLevel = e
  current : Current e ds c
  past : ∀ i, i < c.net.channels.size → c.stream? ≠ some i →
    Past e (ds.sentOn i) (ds.lostOn i) (c.net.channel i)
  unopened : ∀ i, c.net.channels.size ≤ i → ds.sentOn i = [] ∧ ds.lostOn i = []

variable {ds new : Deeds α} {c c' : Courier α}

/-- A step on the stream in use. -/
theorem Streams.of_touches (h : Streams e ds c) {i : Nat} (at_ : c.stream? = some i)
    (hi : i < c.net.channels.size) (touches : Net.Touches i c.net c'.net)
    (spares : ∀ j, j ≠ i → new.Spares j)
    (start : Gzip.Encoder.start c'.method c'.compressionLevel =
      Gzip.Encoder.start c.method c.compressionLevel)
    (current : Current e (ds ++ new) c')
    (next : c'.stream? = some i ∨
      Past e ((ds ++ new).sentOn i) ((ds ++ new).lostOn i) (c'.net.channel i)) :
    Streams e (ds ++ new) c' where
  start := start.trans h.start
  current := current
  past := by
    intro j hj hne
    by_cases hji : j = i
    · subst hji
      exact next.resolve_left hne
    · obtain ⟨hsent, hlost⟩ := (spares j hji).append ds
      rw [hsent, hlost, touches.others hji]
      refine h.past j (touches.size ▸ hj) ?_
      rw [at_]
      exact fun hsome => hji (Option.some.inj hsome).symm
  unopened := by
    intro j hj
    rw [touches.size] at hj
    have hji : j ≠ i := by omega
    obtain ⟨hsent, hlost⟩ := (spares j hji).append ds
    rw [hsent, hlost]
    exact h.unopened j hj

/-- A step that touches no stream. -/
theorem Streams.of_same (h : Streams e ds c) (channels : c'.net.channels = c.net.channels)
    (spares : ∀ j, new.Spares j)
    (start : Gzip.Encoder.start c'.method c'.compressionLevel =
      Gzip.Encoder.start c.method c.compressionLevel)
    (current : Current e (ds ++ new) c') (stream : c.stream? = none ∨ c'.stream? = c.stream?) :
    Streams e (ds ++ new) c' where
  start := start.trans h.start
  current := current
  past := by
    intro j hj hne
    obtain ⟨hsent, hlost⟩ := (spares j).append ds
    have hchannel : c'.net.channel j = c.net.channel j := by rw [Net.channel, Net.channel, channels]
    rw [hsent, hlost, hchannel]
    refine h.past j (channels ▸ hj) ?_
    rcases stream with hnone | hsame
    · exact hnone ▸ (Option.some_ne_none j).symm
    · exact hsame ▸ hne
  unopened := by
    intro j hj
    obtain ⟨hsent, hlost⟩ := (spares j).append ds
    rw [hsent, hlost]
    exact h.unopened j (channels ▸ hj)

/-! ## Steps -/

/-- A step that touches no stream, and knows of the one in use what was known. -/
theorem Streams.turn (h : Streams e ds c) (channels : c'.net.channels = c.net.channels)
    (start : Gzip.Encoder.start c'.method c'.compressionLevel =
      Gzip.Encoder.start c.method c.compressionLevel)
    (current : Current e ds c') (stream : c'.stream? = c.stream?) : Streams e (ds ++ []) c' := by
  rw [← List.append_nil ds] at current
  exact h.of_same channels Deeds.spares_nil start current (.inr stream)

/-- Nothing that the state of the stream in use is told by is different. -/
theorem Current.same (h : Current e ds c) (phase : c'.phase = c.phase)
    (scratch : c'.scratch = c.scratch) (channels : c'.net.channels = c.net.channels)
    (spares : ∀ i, new.Spares i) : Current e (ds ++ new) c' := by
  have hsent : ∀ i, (ds ++ new).sentOn i = ds.sentOn i := fun i => ((spares i).append ds).1
  have hlost : ∀ i, (ds ++ new).lostOn i = ds.lostOn i := fun i => ((spares i).append ds).2
  have hchannel : ∀ i, c'.net.channel i = c.net.channel i := fun i => by
    rw [Net.channel, Net.channel, channels]
  unfold Current Holds at h ⊢
  simp only [phase, scratch, hsent, hlost, hchannel, channels]
  exact h

/-- A batch is done with, and the stream goes on. -/
theorem Current.endBatch {s : Session} {last : Bool}
    (gzip : s.gzip = e.after (frames (ds.sentOn s.stream)))
    (holds : ∀ next, Holds e ds c s.stream next next) : Current e ds (c.endBatch s last) := by
  cases last with
  | true =>
    have := holds s.gzip.finish
    rw [gzip] at this
    show Holds e ds c s.stream _ s.gzip.finish
    rwa [gzip]
  | false => exact ⟨gzip, holds []⟩

theorem Holds.next {i : Nat} (h : Holds e ds c i [] []) (next : Bytes) :
    Holds e ds c i next next := by
  obtain ⟨p, hp, hch⟩ := h.2.accepted
  rw [List.append_nil] at hp
  subst hp
  exact ⟨h.1, h.2.none_lost, h.2.live, [], rfl, hch⟩

omit [Message α] in
theorem stream?_endBatch (c : Courier α) (s : Session) (last : Bool) :
    (c.endBatch s last).stream? = some s.stream := by cases last <;> rfl

omit [Message α] in
theorem start_endBatch (c : Courier α) (s : Session) (last : Bool) :
    Gzip.Encoder.start (c.endBatch s last).method (c.endBatch s last).compressionLevel =
      .start c.method c.compressionLevel := by cases last <;> rfl

/-! ### Opening a stream -/

omit [Message α] in
/-- An opening that has no stream has none in use. -/
theorem stream?_opening {o : Opening} {closing again : Bool}
    (at_ : c.phase = .opening o closing again) (h : ∀ i, o ≠ .opened i) : c.stream? = none := by
  unfold stream?
  rw [at_]
  cases o with
  | opened i => exact absurd rfl (h i)
  | _ => rfl

theorem current_opening {o : Opening} {closing again : Bool}
    (at_ : c.phase = .opening o closing again) (h : ∀ i, o ≠ .opened i) : Current e ds c := by
  unfold Current
  rw [at_]
  cases o with
  | opened i => exact absurd rfl (h i)
  | _ => trivial

theorem Streams.opened (h : Streams e ds c) {o : Opening} {closing again : Bool} {i : Nat}
    (at_ : c.phase = .opening o closing again) (result : o.result? = some (.ok i)) :
    Streams e (ds ++ []) (c.endOpening again (.ok i)) := by
  cases o with
  | opened j =>
    cases result
    have hcurrent := h.current
    rw [Current, at_] at hcurrent
    obtain ⟨hsent, hholds⟩ := hcurrent
    refine h.of_same rfl Deeds.spares_nil rfl ?_ (.inr (by rw [stream?, stream?, at_]; rfl))
    rw [List.append_nil]
    refine ⟨?_, hholds⟩
    show Gzip.Encoder.start c.method c.compressionLevel = _
    rw [h.start, hsent]
    exact (Gzip.Encoder.after_nil e).symm
  | _ => cases result

theorem Streams.connect (h : Streams e ds c) {o : Opening} {closing again : Bool}
    {turn : Opening.Turn} {intake : Intake α} (at_ : c.phase = .opening o closing again)
    (result : o.result? = none)
    (step : c.connector.step c.cancelled c.stopped c.net o = some turn) :
    Streams e (ds ++ []) { c with
      intake
      net := turn.net
      phase := .opening turn.opening closing again } := by
  have hstream : c.stream? = none :=
    stream?_opening at_ fun i hi => by rw [hi] at result; cases result
  rcases (Connector.step_cases step).channels with ⟨hchannels, hopening⟩ | ⟨plan, hopening, hnet⟩
  · exact h.of_same hchannels Deeds.spares_nil rfl (current_opening rfl hopening) (.inl hstream)
  · rw [List.append_nil]
    have hsize : turn.net.channels.size = c.net.channels.size + 1 := by
      rw [hnet, Net.addChannel, Array.size_push]
    obtain ⟨hsent, hlost⟩ := h.unopened c.net.channels.size (Nat.le_refl _)
    have hfresh : turn.net.channel c.net.channels.size = .start c.connector.protocol plan := by
      rw [hnet]; exact Net.channel_addChannel ..
    refine ⟨h.start, ?_, ?_, ?_⟩
    · show Current e ds { c with
        intake
        net := turn.net
        phase := .opening turn.opening closing again }
      rw [hopening]
      refine ⟨hsent, by show _ < turn.net.channels.size; omega, ?_⟩
      show Open e _ _ (turn.net.channel c.net.channels.size) _ _
      rw [hfresh, hsent]
      exact ⟨hlost, rfl, [], rfl, rfl⟩
    · intro i hi hne
      have hi : i < turn.net.channels.size := hi
      have hold : i < c.net.channels.size := by
        have : i ≠ c.net.channels.size := by
          rintro rfl
          exact hne (by rw [stream?]; dsimp only; rw [hopening])
        omega
      show Past e _ _ (turn.net.channel i)
      rw [hnet, Net.channel_addChannel_of_lt _ _ hold]
      exact h.past i hold (hstream ▸ (Option.some_ne_none i).symm)
    · intro i hi
      have hi : turn.net.channels.size ≤ i := hi
      exact h.unopened i (by omega)

/-! ### Sending -/

/-- A write on the stream in use that does not fail. -/
theorem Streams.wrote (h : Streams e ds c) {i : Nat} {whole rest : Bytes} {net : Net}
    {result : Option (Except Fault Nat)} (stream : c.stream? = some i)
    (holds : Holds e ds c i whole rest) (write : c.net.write i rest = (net, result))
    (same : c'.net = net)
    (start : Gzip.Encoder.start c'.method c'.compressionLevel =
      Gzip.Encoder.start c.method c.compressionLevel)
    (next : c'.stream? = some i)
    (current : Holds e ds c' i whole (rest.drop (Channel.took result)) → Current e ds c') :
    Streams e (ds ++ []) c' := by
  obtain ⟨htouches, haccepted, -, houtcome⟩ := Net.write_spec holds.1 write
  subst same
  refine h.of_touches stream holds.1 htouches (fun j _ => Deeds.spares_nil j) start ?_ (.inl next)
  rw [List.append_nil]
  exact current ⟨htouches.size ▸ holds.1, holds.2.write haccepted houtcome⟩

/-- A call that leaves the stream in use as it is. -/
theorem Streams.kept (h : Streams e ds c) {i : Nat} {whole rest : Bytes}
    (stream : c.stream? = some i) (holds : Holds e ds c i whole rest)
    (touches : Net.Touches i c.net c'.net)
    (accepted : (c'.net.channel i).accepted = (c.net.channel i).accepted)
    (outcome : (c'.net.channel i).outcome = (c.net.channel i).outcome)
    (start : Gzip.Encoder.start c'.method c'.compressionLevel =
      Gzip.Encoder.start c.method c.compressionLevel)
    (next : c'.stream? = some i) (current : Holds e ds c' i whole rest → Current e ds c') :
    Streams e (ds ++ []) c' := by
  refine h.of_touches stream holds.1 touches (fun j _ => Deeds.spares_nil j) start ?_ (.inl next)
  rw [List.append_nil]
  exact current ⟨touches.size ▸ holds.1, holds.2.same accepted outcome⟩

/-- The stream in use is closed, well or not. -/
theorem Streams.shut (h : Streams e ds c) {i : Nat} {net : Net} {result : Except Fault Unit}
    (stream : c.stream? = some i)
    (holds : Holds e ds c i (e.after (frames (ds.sentOn i))).finish [])
    (close : c.net.close i = (net, some result)) (same : c'.net = net)
    (start : Gzip.Encoder.start c'.method c'.compressionLevel =
      Gzip.Encoder.start c.method c.compressionLevel)
    (current : Current e ds c') : Streams e (ds ++ []) c' := by
  obtain ⟨htouches, haccepted, houtcome⟩ := Net.close_spec holds.1 close
  subst same
  rw [← List.append_nil ds] at current
  refine h.of_touches stream holds.1 htouches (fun j _ => Deeds.spares_nil j) start current
    (.inr ?_)
  rw [List.append_nil]
  refine holds.2.ceased haccepted ?_ fun _ => rfl
  rw [houtcome]
  cases result <;> nofun

theorem Holds.spare {i : Nat} {whole rest : Bytes} (h : Holds e ds c i whole rest)
    (spares : new.Spares i) (same : c'.net = c.net) : Holds e (ds ++ new) c' i whole rest := by
  unfold Holds
  rw [same, (spares.append ds).1, (spares.append ds).2]
  exact h

theorem Streams.lose (h : Streams e ds c) {s : Session} {last : Bool} {parcel : Parcel} {f : Fault}
    {net : Net} {rest : Bytes} (stream : c.stream? = some s.stream)
    (holds : Holds e ds c s.stream
      ((e.after (frames (ds.sentOn s.stream))).flush (Batch.frame c.scratch.toList)).2 rest)
    (touches : Net.Touches s.stream c.net net)
    (accepted : (net.channel s.stream).accepted = (c.net.channel s.stream).accepted) :
    Streams e (ds ++ [.settled c.scratch.toList (.lost s.stream)])
      ({ c with net }.lost s last parcel f) := by
  have hi : s.stream < net.channels.size := touches.size ▸ holds.1
  obtain ⟨hreset, hkept, houtcome⟩ := Net.reset_spec hi
  refine h.of_touches stream holds.1 (touches.trans hreset)
    (fun j hj => Deeds.spares_lost hj _) rfl ?_ (.inr ?_)
  · cases last <;> trivial
  · show Past e _ _ ((net.reset s.stream).channel s.stream)
    rw [Deeds.sentOn_append, Deeds.lostOn_append, Deeds.sentOn_lost, Deeds.lostOn_lost,
      List.append_nil]
    exact holds.2.cut (hkept.trans accepted) houtcome

theorem took_of_failure {result : Option (Except Fault Nat)} {f : Fault}
    (h : writeFailure result f) : Channel.took result = 0 := by
  rcases h with h | ⟨h, -⟩ <;> rw [h] <;> rfl

theorem Streams.spoil (h : Streams e ds c) {i : Nat} {f : Fault} {net : Net} {rest : Bytes}
    (stream : c.stream? = some i)
    (holds : Holds e ds c i (e.after (frames (ds.sentOn i))).finish rest)
    (touches : Net.Touches i c.net net)
    (accepted : (net.channel i).accepted = (c.net.channel i).accepted) :
    Streams e (ds ++ []) ({ c with net }.spoiled i f) := by
  have hi : i < net.channels.size := touches.size ▸ holds.1
  obtain ⟨hreset, hkept, houtcome⟩ := Net.reset_spec hi
  refine h.of_touches stream holds.1 (touches.trans hreset) (fun j _ => Deeds.spares_nil j) rfl
    trivial (.inr ?_)
  show Past e _ _ ((net.reset i).channel i)
  rw [List.append_nil]
  refine holds.2.ceased (hkept.trans accepted) ?_ ?_
  · rw [houtcome]; nofun
  · rw [houtcome]; nofun

/-! ### Every step -/

/-- **Every step keeps the invariant of all streams.** -/
theorem Streams.work (h : Streams e ds c) (w : Work c new c') : Streams e (ds ++ new) c' := by
  have hcurrent := h.current
  unfold Current at hcurrent
  cases w with
  -- a stream is being opened
  | start at_ => exact h.of_same rfl Deeds.spares_nil rfl trivial (.inl (by rw [stream?, at_]))
  | opened at_ result => exact h.opened at_ result
  | @gaveUp o closing again failure at_ result =>
    have hstream : c.stream? = none :=
      stream?_opening at_ fun i hi => by rw [hi] at result; cases result
    cases failure <;> exact h.of_same rfl Deeds.spares_nil rfl trivial (.inl hstream)
  | connect at_ result step => exact h.connect at_ result step
  | noteWake at_ =>
    exact h.of_same rfl Deeds.spares_nil rfl (h.current.same rfl rfl rfl Deeds.spares_nil)
      (.inr rfl)
  | @noteClose o again at_ =>
    cases o with
    | opened i =>
      rw [at_] at hcurrent
      exact h.turn rfl rfl hcurrent (by rw [stream?, stream?, at_])
    | _ => exact h.of_same rfl Deeds.spares_nil rfl trivial (.inl (by rw [stream?, at_]))
  -- the stream in use has carried whole frames, and waits for a batch
  | heedNoted at_ | heedCancel at_ =>
    rw [at_] at hcurrent
    exact h.turn rfl rfl hcurrent (by rw [stream?, stream?, at_]; rfl)
  | @heed s signal at_ =>
    rw [at_] at hcurrent
    have hstream : c.stream? = some s.stream := by rw [stream?, at_]
    cases signal <;> exact h.turn rfl rfl hcurrent hstream.symm
  | gathered at_ =>
    rw [at_] at hcurrent
    exact h.turn rfl rfl hcurrent (by rw [stream?, stream?, at_])
  | @takeNothing s last at_ =>
    rw [at_] at hcurrent
    obtain ⟨hgzip, hholds⟩ := hcurrent
    refine h.turn (by rw [net_endBatch]) (start_endBatch ..) ?_ ?_
    · exact Current.endBatch hgzip hholds.next
    · rw [stream?_endBatch, stream?, at_]
  | @take s last at_ =>
    rw [at_] at hcurrent
    obtain ⟨hgzip, hholds⟩ := hcurrent
    have hspares := Deeds.spares_took s.stream c.intake.buffer.events.toList
    refine h.of_same rfl (fun i => Deeds.spares_took i _) rfl ?_
      (.inr (by rw [stream?, stream?, at_]))
    refine ⟨?_, ?_⟩
    · show (s.gzip.flush _).1 = e.after (frames (Deeds.sentOn s.stream (ds ++ _) ++ _))
      rw [(hspares.append ds).1, hgzip, Gzip.Encoder.flush_eq, Gzip.Encoder.after_after,
        frames_append]
      rfl
    · show Holds e (ds ++ _) _ s.stream
        ((e.after (frames (Deeds.sentOn s.stream (ds ++ _)))).flush _).2 (s.gzip.flush _).2
      rw [(hspares.append ds).1, hgzip]
      exact (hholds.next _).spare hspares rfl
  -- the frame of the batch is on its way
  | @writeWaits s last parcel rest net at_ ready write =>
    rw [at_] at hcurrent
    obtain ⟨hgzip, hholds⟩ := hcurrent
    refine h.wrote (by rw [stream?, at_]) hholds write rfl rfl ?_ fun hnext => ?_
    · rw [stream?]; dsimp only; rw [at_]
    · rw [Current]; dsimp only; rw [at_]
      exact ⟨hgzip, hnext⟩
  | @writeFails s last parcel rest net result f at_ ready write failure =>
    rw [at_] at hcurrent
    obtain ⟨hgzip, hholds⟩ := hcurrent
    obtain ⟨htouches, haccepted, -, -⟩ := Net.write_spec hholds.1 write
    rw [took_of_failure failure, List.take_zero, List.append_nil] at haccepted
    exact h.lose (by rw [stream?, at_]) hholds htouches haccepted
  | @writePart s last parcel rest net n at_ ready write some_ left =>
    rw [at_] at hcurrent
    obtain ⟨hgzip, hholds⟩ := hcurrent
    exact h.wrote (by rw [stream?, at_]) hholds write rfl rfl rfl fun hnext => ⟨hgzip, hnext⟩
  | @writeAll s last parcel rest net n at_ ready write some_ left =>
    rw [at_] at hcurrent
    obtain ⟨hgzip, hholds⟩ := hcurrent
    refine h.wrote (by rw [stream?, at_]) hholds write rfl rfl rfl fun hnext => ?_
    rw [Channel.took_ok, left] at hnext
    exact ⟨hgzip, hnext⟩
  | @flush s last parcel net at_ ready flush =>
    rw [at_] at hcurrent
    obtain ⟨hgzip, hholds⟩ := hcurrent
    obtain ⟨htouches, haccepted, houtcome⟩ := Net.flush_spec hholds.1 flush
    have hsent : Deeds.sentOn s.stream (ds ++ [.settled c.scratch.toList (.sent s.stream)]) =
        ds.sentOn s.stream ++ [c.scratch.toList] := by
      rw [Deeds.sentOn_append, Deeds.sentOn_sent]
    have hlost : Deeds.lostOn s.stream (ds ++ [.settled c.scratch.toList (.sent s.stream)]) =
        ds.lostOn s.stream := by
      rw [Deeds.lostOn_append, Deeds.lostOn_sent, List.append_nil]
    refine h.of_touches (by rw [stream?, at_]) hholds.1 (by cases last <;> exact htouches)
      (fun j hj => Deeds.spares_sent hj _) (by cases last <;> rfl) ?_
      (.inl (by cases last <;> rfl))
    refine Current.endBatch (by rw [hsent]; exact hgzip) fun next => ?_
    refine ⟨htouches.size ▸ hholds.1, ?_⟩
    rw [hsent, hlost]
    exact hholds.2.delivered haccepted houtcome next
  | @flushFails s last parcel net f at_ ready flush =>
    rw [at_] at hcurrent
    obtain ⟨hgzip, hholds⟩ := hcurrent
    obtain ⟨htouches, haccepted, -⟩ := Net.flush_spec hholds.1 flush
    exact h.lose (by rw [stream?, at_]) hholds htouches haccepted
  -- the end of the stream is on its way
  | @completeWaits i rest net at_ ready write =>
    rw [at_] at hcurrent
    refine h.wrote (by rw [stream?, at_]) hcurrent write rfl rfl ?_ fun hnext => ?_
    · rw [stream?]; dsimp only; rw [at_]
    · rw [Current]; dsimp only; rw [at_]
      exact hnext
  | @completeFails i rest net result f at_ ready write failure =>
    rw [at_] at hcurrent
    obtain ⟨htouches, haccepted, -, -⟩ := Net.write_spec hcurrent.1 write
    rw [took_of_failure failure, List.take_zero, List.append_nil] at haccepted
    exact h.spoil (by rw [stream?, at_]) hcurrent htouches haccepted
  | @completePart i rest net n at_ ready write some_ left =>
    rw [at_] at hcurrent
    exact h.wrote (by rw [stream?, at_]) hcurrent write rfl rfl rfl id
  | @completeAll i rest net n at_ ready write some_ left =>
    rw [at_] at hcurrent
    refine h.wrote (by rw [stream?, at_]) hcurrent write rfl rfl rfl fun hnext => ?_
    rw [Channel.took_ok, left] at hnext
    exact hnext
  | @flushEnd i net at_ ready flush =>
    rw [at_] at hcurrent
    obtain ⟨htouches, haccepted, houtcome⟩ := Net.flush_spec hcurrent.1 flush
    exact h.kept (by rw [stream?, at_]) hcurrent ⟨htouches.size, htouches.others⟩ haccepted houtcome
      rfl rfl id
  | @flushEndFails i net f at_ ready flush =>
    rw [at_] at hcurrent
    obtain ⟨htouches, haccepted, -⟩ := Net.flush_spec hcurrent.1 flush
    exact h.spoil (by rw [stream?, at_]) hcurrent htouches haccepted
  | @closeWaits i net at_ ready close =>
    rw [at_] at hcurrent
    obtain ⟨htouches, haccepted, houtcome⟩ := Net.close_spec hcurrent.1 close
    refine h.kept (by rw [stream?, at_]) hcurrent htouches haccepted houtcome rfl ?_ fun hnext => ?_
    · rw [stream?]; dsimp only; rw [at_]
    · rw [Current]; dsimp only; rw [at_]
      exact hnext
  | closed at_ ready close | closeFails at_ ready close =>
    rw [at_] at hcurrent
    exact h.shut (by rw [stream?, at_]) hcurrent close rfl rfl trivial
  -- no stream is in use any more
  | leave at_ | discardNothing at_ =>
    exact h.of_same rfl Deeds.spares_nil rfl trivial (.inl (by rw [stream?, at_]))
  | discard at_ =>
    exact h.of_same rfl (fun i => Deeds.spares_abandoned i _) rfl trivial
      (.inl (by rw [stream?, at_]))

theorem Streams.step (h : Streams e ds c) (st : Step c new c') : Streams e (ds ++ new) c' := by
  have hcall : ∀ {c' : Courier α} {new : Deeds α}, c'.phase = c.phase → c'.scratch = c.scratch →
      c'.net.channels = c.net.channels → (∀ i, new.Spares i) → c'.method = c.method →
      c'.compressionLevel = c.compressionLevel → Streams e (ds ++ new) c' := by
    intro c' new phase scratch channels spares method level
    refine h.of_same channels spares (by rw [method, level])
      (h.current.same phase scratch channels spares) (.inr ?_)
    rw [stream?, stream?, phase]
  cases st with
  | accept event => exact hcall rfl rfl rfl (fun _ => ⟨rfl, rfl⟩) rfl rfl
  | refuse event => exact hcall rfl rfl rfl (fun _ => ⟨rfl, rfl⟩) rfl rfl
  | close => exact hcall rfl rfl rfl Deeds.spares_nil rfl rfl
  | abandon => exact hcall rfl rfl rfl Deeds.spares_nil rfl rfl
  | cancel => exact hcall rfl rfl rfl Deeds.spares_nil rfl rfl
  | advance => exact hcall rfl rfl rfl Deeds.spares_nil rfl rfl
  | work w => exact h.work w

theorem Run.streams {connector : Connector} {window : Duration} {method : Gzip.Method} {level : Nat}
    {net : Net} {cancelled : Bool} {ms : List (Move α)}
    (r : Run (.start connector window method level net cancelled) ms ds c)
    (hnet : net.channels = #[]) : Streams (.start method level) ds c := by
  refine r.induct ⟨rfl, trivial, ?_, fun _ _ => ⟨rfl, rfl⟩⟩ Streams.step
  intro i hi
  have hi : i < net.channels.size := hi
  rw [hnet] at hi
  exact absurd hi (Nat.not_lt_zero i)

/-- At the end no stream is in use any more. -/
theorem Streams.past_of_ended (h : Streams e ds c) (ended : c.phase = .ended) {i : Nat}
    (hi : i < c.net.channels.size) : Past e (ds.sentOn i) (ds.lostOn i) (c.net.channel i) :=
  h.past i hi (by rw [stream?, ended]; nofun)

end TraceRelay.Courier
