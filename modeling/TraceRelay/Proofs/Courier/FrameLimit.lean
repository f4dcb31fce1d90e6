import TraceRelay.Proofs.Courier.Delivered
import TraceRelay.Proofs.Framing.Agreement
import TraceRelay.Proofs.Framing.Oversized

/-!
# A backlog against the limit of a collector

A courier sends all that has gathered as one batch, and so one frame, however much it is. A collector
takes no frame beyond its limit.

1. `Streams.legible`: at any moment a stream gives, to whoever decompresses what is on it, the frames
   of the batches sent on it, and a part of the next one.
2. `received_within_limit`: a decoder with the default limit takes these batches up to the first
   whose events are too long together, refuses that one, and sees nothing beyond.
3. `backlog_beyond_limit`: two events of which each would be taken on its own are refused together.
-/

namespace TraceRelay.Courier

variable {α : Type} [Message α] {method : Gzip.Method} {level : Nat}

/-! ## What is on a stream -/

/-- The batch of which a part may be on a stream behind those sent on it: the one lost on it, or the
one on its way. -/
def upNext (ds : Deeds α) (c : Courier α) (i : Nat) : List (List α) :=
  ds.lostOn i ++ if c.stream? = some i then c.onItsWay else []

variable {sent lost next : List (List α)} {ch : Channel} {ds : Deeds α} {c : Courier α}

/-- What is on a stream can be decompressed, and comes to the frames of the batches sent and a part
of what is next. -/
structure Legible (sent next : List (List α)) (ch : Channel) : Prop where
  one : next.length ≤ 1
  faultless : (Gzip.Decoder.start.feedAll ch.accepted).fault? = none
  payload : ∃ q, q <+: (frames next).flatten ∧
    (Gzip.Decoder.start.feedAll ch.accepted).out.toList = (frames sent).flatten ++ q
  whole : ch.outcome = .closed →
    next = [] ∧ (Gzip.Decoder.start.feedAll ch.accepted).agrees = true

theorem Past.legible (sound : method.Sound level) (h : Past (.start method level) sent lost ch) :
    Legible sent lost ch := by
  obtain ⟨q, hfault, hout, hq, hwhole⟩ := h.payload sound
  exact ⟨h.length_lost, hfault, ⟨q, hq, hout⟩, hwhole⟩

theorem Open.not_closed {e : Gzip.Encoder} {whole rest : Bytes} (h : Open e sent lost ch whole rest) :
    ch.outcome ≠ .closed := by
  rw [h.live]
  nofun

/-- A batch is being written. -/
theorem Open.legible_sending {events : List α} {rest : Bytes} (sound : method.Sound level)
    (h : Open (.start method level) sent lost ch
      (((Gzip.Encoder.start method level).after (frames sent)).flush (Batch.frame events)).2 rest) :
    Legible sent [events] ch := by
  obtain ⟨p, hp, haccepted⟩ := h.accepted
  obtain ⟨hfault, q, hq, hout⟩ := sound.cut_flush (frames sent) (Batch.frame events) ⟨rest, hp⟩
  rw [← haccepted] at hfault hout
  refine ⟨Nat.le_refl _, hfault, ⟨q, ?_, hout⟩, (absurd · h.not_closed)⟩
  rwa [show (frames [events]).flatten = _ from List.flatten_singleton]

/-- Nothing is being written, or the end is. -/
theorem Open.legible_idle {whole rest : Bytes} (sound : method.Sound level)
    (h : Open (.start method level) sent lost ch whole rest)
    (hwhole : whole <+: ((Gzip.Encoder.start method level).after (frames sent)).finish) :
    Legible sent [] ch := by
  obtain ⟨p, hp, haccepted⟩ := h.accepted
  obtain ⟨hfault, hout⟩ := sound.cut_complete (frames sent)
    ((List.prefix_append p rest).trans (hp ▸ hwhole))
  rw [← haccepted] at hfault hout
  exact ⟨Nat.zero_le _, hfault, ⟨[], List.nil_prefix, by rw [hout, List.append_nil]⟩,
    (absurd · h.not_closed)⟩

theorem Holds.legible_idle {i : Nat} {whole rest : Bytes} (sound : method.Sound level)
    (h : Holds (.start method level) ds c i whole rest) (at_ : c.stream? = some i)
    (way : c.onItsWay = [])
    (hwhole : whole <+: ((Gzip.Encoder.start method level).after (frames (ds.sentOn i))).finish) :
    Legible (ds.sentOn i) (upNext ds c i) (c.net.channel i) := by
  rw [upNext, if_pos at_, way, h.2.none_lost]
  exact h.2.legible_idle sound hwhole

theorem Holds.legible_sending {i : Nat} {rest : Bytes} (sound : method.Sound level)
    (h : Holds (.start method level) ds c i
      (((Gzip.Encoder.start method level).after (frames (ds.sentOn i))).flush
        (Batch.frame c.scratch.toList)).2 rest)
    (at_ : c.stream? = some i) (way : c.onItsWay = [c.scratch.toList]) :
    Legible (ds.sentOn i) (upNext ds c i) (c.net.channel i) := by
  rw [upNext, if_pos at_, way, h.2.none_lost]
  exact h.2.legible_sending sound

/-- The stream in use, by what the courier is about. -/
theorem Current.legible (sound : method.Sound level) (h : Current (.start method level) ds c) {i : Nat}
    (at_ : c.stream? = some i) : Legible (ds.sentOn i) (upNext ds c i) (c.net.channel i) := by
  have hstream := at_
  cases hphase : c.phase with
  | opening o closing again =>
    cases o with
    | opened j =>
      rw [stream?, hphase] at hstream
      cases hstream
      rw [Current, hphase] at h
      exact h.2.legible_idle sound at_ (by rw [onItsWay, hphase]) List.nil_prefix
    | _ => rw [stream?, hphase] at hstream; cases hstream
  | waiting s | gathering s deadline | collecting s last =>
    rw [stream?, hphase] at hstream
    cases hstream
    rw [Current, hphase] at h
    exact h.2.legible_idle sound at_ (by rw [onItsWay, hphase]) List.nil_prefix
  | writing s last parcel rest | flushing s last parcel =>
    rw [stream?, hphase] at hstream
    cases hstream
    rw [Current, hphase] at h
    exact h.2.legible_sending sound at_ (by rw [onItsWay, hphase])
  | completing j rest | flushingEnd j | closing j =>
    rw [stream?, hphase] at hstream
    cases hstream
    rw [Current, hphase] at h
    exact Holds.legible_idle sound h at_ (by rw [onItsWay, hphase]) List.prefix_rfl
  | starting | leaving | discarding | ended =>
    rw [stream?, hphase] at hstream
    cases hstream

/-- **At any moment a stream can be read**: the batches sent on it are there. -/
theorem Streams.legible (sound : method.Sound level) (h : Streams (.start method level) ds c) {i : Nat}
    (hi : i < c.net.channels.size) : Legible (ds.sentOn i) (upNext ds c i) (c.net.channel i) := by
  by_cases hstream : c.stream? = some i
  · exact h.current.legible sound hstream
  · rw [upNext, if_neg hstream, List.append_nil]
    exact (h.past i hi hstream).legible sound

/-! ## What a collector takes of it -/

open Batch (together given verdict)

/-- What a decoder with the default limit makes of a stream, by the batches sent on it and the next. -/
structure Received (sent next : List (List α)) (closed : Prop)
    (fed : List (Nat × Except DecodeFailure Batch) × Batch.Decoder) : Prop where
  /-- Batches come out, in order, while the events of each fit together, however many these are. -/
  accepted : ∀ before, before <+: sent →
    (∀ events ∈ before, together events ≤ Frame.defaultLimit) →
    given before <+: fed.1.map Prod.snd
  /-- The first whose events do not fit together is refused, and nothing comes out after it. -/
  refused : ∀ before events, before ++ [events] <+: sent →
    (∀ earlier ∈ before, together earlier ≤ Frame.defaultLimit) →
    Frame.defaultLimit < together events → together events < UInt64.size →
    fed.1.map Prod.snd =
      given before ++ [.error (.frameTooLarge (together events) Frame.defaultLimit)]
  /-- Behind the batches sent there is no more than the next. -/
  only : (∀ events ∈ sent, together events ≤ Frame.defaultLimit) →
    (∀ events ∈ next, together events < UInt64.size) →
    fed.1.map Prod.snd = given sent ∨
      ∃ events ∈ next, fed.1.map Prod.snd = given sent ++ [verdict Frame.defaultLimit events]
  /-- A stream that was closed has a clean end. -/
  clean : closed → (∀ events ∈ sent, together events ≤ Frame.defaultLimit) →
    next = [] ∧ fed.2.finish = .ok ()

theorem Legible.received {pieces : List Bytes} (h : Legible sent next ch)
    (cut : pieces.flatten = ch.accepted) :
    Received sent next (ch.outcome = .closed) (Batch.Decoder.start.feedPieces 0 pieces) := by
  have hlimit : Frame.defaultLimit < UInt64.size := by decide
  obtain ⟨q, hq, hout⟩ := h.payload
  have hseen : (Batch.Decoder.start.feedPieces 0 pieces).1.map Prod.snd =
      (Batch.scan Frame.defaultLimit ((frames sent).flatten ++ q)).seen :=
    (Batch.Decoder.feedPieces_start Frame.defaultLimit cut h.faultless hout).1
  have hsplit : ∀ before after, before ++ after = sent → (frames sent).flatten ++ q =
      (before.map Batch.frame).flatten ++ ((frames after).flatten ++ q) := by
    rintro before after rfl
    rw [frames_append, List.flatten_append, List.append_assoc]
    rfl
  constructor
  case accepted =>
    rintro before ⟨after, hbefore⟩ hfit
    rw [hseen, hsplit before after hbefore, Batch.seen_frames_append hlimit hfit]
    exact List.prefix_append _ _
  case refused =>
    rintro before events ⟨after, hbefore⟩ hfit hlarge hsize
    rw [List.append_assoc] at hbefore
    rw [hseen, hsplit before _ hbefore, Batch.seen_frames_append hlimit hfit]
    show _ ++ (Batch.scan _ (Batch.frame events ++ (frames after).flatten ++ q)).seen = _
    rw [List.append_assoc, Batch.seen_oversized hlarge hsize]
  case only =>
    intro hfit hsize
    rw [hseen, frames, Batch.seen_frames_append hlimit hfit]
    have hone := h.one
    cases next with
    | nil =>
      rw [List.prefix_nil.mp hq, Batch.scan_of_none (Batch.front_nil _)]
      exact .inl (List.append_nil _)
    | cons events more =>
      obtain rfl : more = [] :=
        List.eq_nil_of_length_eq_zero (by rw [List.length_cons] at hone; omega)
      rw [show (frames [events]).flatten = _ from List.flatten_singleton] at hq
      have hmem := List.mem_singleton_self events
      rcases Batch.seen_cut hlimit (hsize events hmem) hq with hcut | hwhole
      · exact .inl (by rw [hcut, List.append_nil])
      · exact .inr ⟨events, hmem, by rw [hwhole]⟩
  case clean =>
    intro hclosed hfit
    obtain ⟨rfl, hagrees⟩ := h.whole hclosed
    rw [List.prefix_nil.mp hq, List.append_nil] at hout
    have hend := (Batch.Decoder.scanned Frame.defaultLimit cut hagrees hout).2
    rw [frames, Batch.scan_frames hlimit fun events hmem => Batch.admits_iff.mpr (hfit events hmem)]
      at hend
    exact ⟨rfl, hend⟩

/-- **A collector takes what a courier sends up to the first batch that is too long as a whole.** At
any moment of any run, and whatever pieces a stream arrives in. -/
theorem received_within_limit {connector : Connector} {window : Duration} {net : Net}
    {cancelled : Bool} {ms : List (Move α)} (sound : method.Sound level) (hnet : net.channels = #[])
    (r : Run (.start connector window method level net cancelled) ms ds c) {i : Nat}
    (hi : i < c.net.channels.size) {pieces : List Bytes}
    (cut : pieces.flatten = (c.net.channel i).accepted) :
    Received (ds.sentOn i) (upNext ds c i) ((c.net.channel i).outcome = .closed)
      (Batch.Decoder.start.feedPieces 0 pieces) :=
  ((r.streams hnet).legible sound hi).received cut

theorem received_within_limit_torn :
    ∃ ds c, Run tornStart torn ds c ∧ 0 < c.net.channels.size ∧
      ds.sentOn 0 = [[⟨"a", 1⟩]] ∧ upNext ds c 0 = [[⟨"b", 2⟩]] ∧
      Received (ds.sentOn 0) (upNext ds c 0) ((c.net.channel 0).outcome = .closed)
        (Batch.Decoder.start.feedPieces 0
          [(c.net.channel 0).accepted.take 15, (c.net.channel 0).accepted.drop 15]) := by
  have hmoves : (tornStart.moves torn).map (fun (ds, c) =>
      (c.net.channels.size, ds.sentOn 0, upNext ds c 0)) =
        some (2, [[⟨"a", 1⟩]], [[⟨"b", 2⟩]]) := by decide +kernel
  obtain ⟨ds, c, hrun, hseen⟩ := Run.seen hmoves
  simp only [Prod.mk.injEq] at hseen
  obtain ⟨hsize, hsent, hnext⟩ := hseen
  have hopened : 0 < c.net.channels.size := by rw [hsize]; exact Nat.two_pos
  have hcut : [(c.net.channel 0).accepted.take 15, (c.net.channel 0).accepted.drop 15].flatten =
      (c.net.channel 0).accepted := by
    rw [List.flatten_cons, List.flatten_singleton, List.take_append_drop]
  exact ⟨ds, c, hrun, hopened, hsent, hnext,
    received_within_limit (Gzip.Method.sound_stored 6) rfl hrun hopened hcut⟩

/-! ## Two events that do not fit together -/

/-- An event of half the limit. -/
def half : Bytes := List.replicate (8 * 1024 * 1024) 0

theorem together_half : together [half] = 8388613 := by
  have hsize : Batch.entrySize 8388608 = 8388613 := by decide +kernel
  have hentries : Batch.ofEvents [half] = ⟨[half]⟩ := rfl
  rw [← Batch.length_encode, hentries, Batch.encode, List.flatMap_singleton,
    Batch.length_bytesField, half, List.length_replicate]
  exact hsize

/-- Two events that queue up before there is a stream are sent as one batch. Each fits the default
limit on its own, and yet a decoder with that limit refuses the batch, and gives nothing of the stream,
in whatever pieces it arrives. -/
theorem backlog_beyond_limit :
    ∃ ms ds c, Run (.start ⟨"remote", ⟨"peer", []⟩, "p", .ofSeconds 1, .ofSeconds 1⟩ ⟨0⟩ .stored 6
        (Undisturbed.still #[] #[]) false) ms ds c ∧
      c.phase = .ended ∧ ds.sentOn 0 = [[half, half]] ∧
      (∀ e ∈ [half, half], Batch.Admits Frame.defaultLimit [e]) ∧
      ∀ pieces : List Bytes, pieces.flatten = (c.net.channel 0).accepted →
        (Batch.Decoder.start.feedPieces 0 pieces).1.map Prod.snd =
          [.error (.frameTooLarge 16777226 16777216)] := by
  have sound := Gzip.Method.sound_stored 6
  obtain ⟨ms, ds, c, hrun, hended, hds, writes, flushes, hchannels⟩ := undisturbed_backlog
    ⟨"remote", ⟨"peer", []⟩, "p", .ofSeconds 1, .ofSeconds 1⟩ sound half [half]
  have hsent : ds.sentOn 0 = [[half, half]] := by rw [hds]; rfl
  have htwo : together [half, half] = 16777226 := by
    rw [← List.singleton_append, Batch.together_append, together_half]
  refine ⟨ms, ds, c, hrun, hended, hsent, fun e he => ?_, fun pieces cut => ?_⟩
  · obtain rfl : e = half := by simpa using he
    rw [Batch.admits_iff, together_half]
    decide
  · have hlegible := (hrun.streams rfl).legible sound (i := 0) (by rw [hchannels]; exact Nat.one_pos)
    rw [hsent] at hlegible
    have hrefused := (hlegible.received cut).refused [] [half, half] List.prefix_rfl
      (List.forall_mem_nil _) (by rw [htwo]; decide) (by rw [htwo]; decide)
    rw [htwo] at hrefused
    exact hrefused

end TraceRelay.Courier
