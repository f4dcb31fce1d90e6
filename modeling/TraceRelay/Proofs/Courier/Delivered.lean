import TraceRelay.Proofs.Courier.Accounting
import TraceRelay.Proofs.Courier.Streams
import TraceRelay.Proofs.Courier.Undisturbed
import TraceRelay.Proofs.Framing.OnRequest
import TraceRelay.Proofs.Framing.Written
import TraceRelay.Proofs.Gzip.Stored

/-!
# Delivery is in order and at most once

What a reader makes of a stream that a courier has left behind (`Past.read`), and with it the whole
of what a run delivers (`delivered_in_order`).

A reader has a limit for frames. A courier has none, so of a stream that carries a longer frame a
reader gives the batches before it and then refuses (`Past.refused`).
-/

namespace TraceRelay.Courier

variable {α : Type} [Message α] {method : Gzip.Method} {level : Nat}

/-! ## Reading one stream -/

/-- A reader with some limit, asked for batches until it gives no more. -/
def readAll (limit : Nat) (source : Source) (fuel : Nat) : List Batch × Except DecodeFailure Unit :=
  ((Batch.Reader.ofSource source).withLimit limit).nextAll fuel

/-- A reader of the beginning of a stream gives the batches of what it decompresses to. -/
theorem readAll_eq (limit : Nat) {source : Source} {payload : Bytes} {fuel : Nat}
    (hcalm : source.Calm) (hfault : (Gzip.Decoder.start.feedAll source.data).fault? = none)
    (hpayload : (Gzip.Decoder.start.feedAll source.data).out.toList = payload)
    (hfuel : payload.length < fuel) :
    ∃ v, readAll limit source fuel = ((Batch.scan limit payload).batches, v) ∧
      match (Batch.scan limit payload).failure? with
      | some e => v = .error e
      | none => (Gzip.Decoder.start.feedAll source.data).lastAnswer.Verdict
          (Batch.scan limit payload).rest v := by
  subst hpayload
  exact Batch.Reader.nextAll_eq (Gzip.Reader.serves hfault) fuel
    (r := (Batch.Reader.ofSource source).withLimit limit) (Gzip.Reader.reads_ofSource hcalm) hfuel

variable {sent lost : List (List α)} {ch : Channel} {source : Source} {limit fuel : Nat}

/-- What a stream decompresses to, once it is no longer written to. -/
theorem Past.payload (sound : method.Sound level) (h : Past (.start method level) sent lost ch) :
    ∃ q, (Gzip.Decoder.start.feedAll ch.accepted).fault? = none ∧
      (Gzip.Decoder.start.feedAll ch.accepted).out.toList = (frames sent).flatten ++ q ∧
      q <+: (frames lost).flatten ∧
      (ch.outcome = .closed →
        lost = [] ∧ (Gzip.Decoder.start.feedAll ch.accepted).agrees = true) := by
  cases h with
  | cut events p one_lost part accepted outcome =>
    subst one_lost
    obtain ⟨hfault, q, hq, hout⟩ := sound.cut_flush (frames sent) (Batch.frame events) part
    rw [← accepted] at hfault hout
    refine ⟨q, hfault, hout, ?_, fun hclosed => by rw [outcome] at hclosed; cases hclosed⟩
    rw [show (frames [events]).flatten = _ from List.flatten_singleton]
    exact hq
  | ceased p none_lost part accepted ended whole =>
    subst none_lost
    obtain ⟨hfault, hout⟩ := sound.cut_complete (frames sent) part
    rw [← accepted] at hfault hout
    refine ⟨[], hfault, by rw [hout, List.append_nil], List.nil_prefix, fun hclosed => ⟨rfl, ?_⟩⟩
    have hagrees := (sound.completed (frames sent)).1
    rwa [Gzip.Encoder.whole, ← whole hclosed, ← accepted] at hagrees

/-- The batches among the bytes of a stream. -/
theorem scan_payload (hlimit : limit < UInt64.size) (one : lost.length ≤ 1)
    (admits : ∀ events ∈ sent ++ lost, Batch.Admits limit events) {q : Bytes}
    (hq : q <+: (frames lost).flatten) :
    ∃ tail, tail <+: lost ∧ (lost = [] → q = []) ∧
      (Batch.scan limit ((frames sent).flatten ++ q)).batches = (sent ++ tail).map Batch.ofEvents ∧
      (Batch.scan limit ((frames sent).flatten ++ q)).failure? = none := by
  have hsent : ∀ events ∈ sent, Batch.Admits limit events := fun events hmem =>
    admits events (List.mem_append_left _ hmem)
  rw [frames, Batch.scan_frames_append hlimit hsent]
  cases lost with
  | nil =>
    have hnil : q = [] := List.prefix_nil.mp hq
    refine ⟨[], List.nil_prefix, fun _ => hnil, ?_⟩
    rw [hnil, Batch.scan_of_none (Batch.front_nil limit), List.append_nil, List.append_nil]
    exact ⟨rfl, rfl⟩
  | cons events more =>
    obtain rfl : more = [] := List.eq_nil_of_length_eq_zero (by rw [List.length_cons] at one; omega)
    rw [show (frames [events]).flatten = _ from List.flatten_singleton] at hq
    have hadmits := admits events (List.mem_append_right _ (List.mem_singleton_self _))
    rcases Batch.scan_cut hlimit hadmits hq with hcut | ⟨-, hwhole⟩
    · refine ⟨[], List.nil_prefix, nofun, ?_⟩
      rw [hcut, List.append_nil, List.append_nil]
      exact ⟨rfl, rfl⟩
    · refine ⟨[events], List.prefix_rfl, nofun, ?_⟩
      rw [hwhole, List.map_append]
      exact ⟨rfl, rfl⟩

/-- **A reader gives the batches sent on a stream, and then at most the one lost on it.** Of a stream
that was closed it gives exactly those sent, and finds no fault with its end. -/
theorem Past.read (sound : method.Sound level) (h : Past (.start method level) sent lost ch)
    (hlimit : limit < UInt64.size) (admits : ∀ events ∈ sent ++ lost, Batch.Admits limit events)
    (hsource : source.data = ch.accepted) (hcalm : source.Calm)
    (hfuel : (Gzip.Decoder.start.feedAll ch.accepted).out.size < fuel) :
    ∃ tail v, tail <+: lost ∧ readAll limit source fuel = ((sent ++ tail).map Batch.ofEvents, v) ∧
      (ch.outcome = .closed → tail = [] ∧ v = .ok ()) := by
  obtain ⟨q, hfault, hout, hq, hclose⟩ := h.payload sound
  obtain ⟨tail, htail, hnil, hbatches, hfailure⟩ := scan_payload hlimit h.length_lost admits hq
  rw [← Array.length_toList, hout] at hfuel
  rw [← hsource] at hfault hout hclose
  obtain ⟨v, hread, hv⟩ := readAll_eq limit hcalm hfault hout hfuel
  rw [hbatches] at hread
  refine ⟨tail, v, htail, hread, fun hclosed => ?_⟩
  obtain ⟨hlost, hagrees⟩ := hclose hclosed
  rw [hlost, List.prefix_nil] at htail
  have hrest : (Batch.scan limit ((frames sent).flatten ++ q)).rest = [] := by
    rw [hnil hlost, List.append_nil, frames, Batch.scan_frames hlimit fun events hmem =>
      admits events (List.mem_append_left _ hmem)]
  rw [hfailure, hrest, Gzip.Decoder.lastAnswer_of_agrees hagrees] at hv
  exact ⟨htail, hv⟩

/-- A reader refuses the first frame that is longer than its limit, and gives what came before. -/
theorem Past.refused (before : List (List α)) {after : List (List α)} {events : List α}
    (sound : method.Sound level) (h : Past (.start method level) (before ++ events :: after) lost ch)
    (admits : ∀ events ∈ before, Batch.Admits limit events)
    (hlarge : limit < (Batch.ofEvents events).encode.length)
    (hsize : (Batch.ofEvents events).encode.length < UInt64.size)
    (hsource : source.data = ch.accepted) (hcalm : source.Calm)
    (hfuel : (Gzip.Decoder.start.feedAll ch.accepted).out.size < fuel) :
    readAll limit source fuel = (before.map Batch.ofEvents,
      .error (.frameTooLarge (Batch.ofEvents events).encode.length limit)) := by
  obtain ⟨q, hfault, hout, -, -⟩ := h.payload sound
  rw [← Array.length_toList, hout] at hfuel
  rw [← hsource] at hfault hout
  obtain ⟨v, hread, hv⟩ := readAll_eq limit hcalm hfault hout hfuel
  have hfront : ∀ rest, Batch.front limit (Batch.frame events ++ rest) =
      .error (.frameTooLarge (Batch.ofEvents events).encode.length limit) := by
    intro rest
    refine Batch.front_eq_error.mpr (.inl ?_)
    rw [Batch.frame_eq, Frame.front_block rest hsize, if_pos hlarge]
  have hscan := Batch.scan_frames_append (by omega) admits
    (Batch.frame events ++ ((frames after).flatten ++ q))
  have hsplit : (frames (before ++ events :: after)).flatten ++ q =
      (before.map Batch.frame).flatten ++ (Batch.frame events ++ ((frames after).flatten ++ q)) := by
    simp only [frames, List.map_append, List.map_cons, List.flatten_append, List.flatten_cons,
      List.append_assoc]
  rw [Batch.scan_of_error (hfront _), List.append_nil] at hscan
  rw [hsplit, hscan] at hread hv
  rw [hread]
  exact congrArg _ hv

/-! ## A run -/

/-- What has come of a run, by its deeds and the streams it has left behind. -/
structure Delivered (e : Gzip.Encoder) (ds : Deeds α) (c : Courier α) : Prop where
  /-- The batches are the accepted events, cut into blocks. -/
  blocks : ds.taken.flatten = ds.accepted
  nonempty : [] ∉ ds.taken
  /-- Each has one fate, and they are done with in order. -/
  one_fate : ds.settled.map Prod.fst = ds.taken
  abandoned_last : AbandonedLast ds.settled
  /-- A batch is sent or lost on a stream that was opened. -/
  on_stream : ∀ i, c.net.channels.size ≤ i → ds.sentOn i = [] ∧ ds.lostOn i = []
  counted : c.intake.tally.batchesSent = .ofNat ds.sent.length ∧
    c.intake.tally.batchesFailed = .ofNat ds.lost.length
  /-- A stream carries what was sent on it, and of the one batch lost on it a part. -/
  carried : ∀ i < c.net.channels.size, Past e (ds.sentOn i) (ds.lostOn i) (c.net.channel i)
  /-- A reader whose limit admits all frames gives the batches sent and then at most one more, the
  one that was lost; of a stream that was closed, exactly those sent, and a clean end. -/
  read : ∀ i < c.net.channels.size, ∀ (limit : Nat) (source : Source) (fuel : Nat),
    limit < UInt64.size → (∀ events ∈ ds.sentOn i ++ ds.lostOn i, Batch.Admits limit events) →
    source.data = (c.net.channel i).accepted → source.Calm →
    (Gzip.Decoder.start.feedAll (c.net.channel i).accepted).out.size < fuel →
    ∃ tail v, tail <+: ds.lostOn i ∧ tail.length ≤ 1 ∧
      readAll limit source fuel = ((ds.sentOn i ++ tail).map Batch.ofEvents, v) ∧
      ((c.net.channel i).outcome = .closed → tail = [] ∧ v = .ok ())

/-- **Delivery is in order and at most once**, in every run to the end. -/
theorem delivered_in_order {connector : Connector} {window : Duration} {net : Net} {cancelled : Bool}
    {ms : List (Move α)} {ds : Deeds α} {c : Courier α} (sound : method.Sound level)
    (hnet : net.channels = #[])
    (r : Run (.start connector window method level net cancelled) ms ds c)
    (ended : c.phase = .ended) : Delivered (.start method level) ds c := by
  have hkept := r.kept
  have hstreams := r.streams hnet
  have hway : c.onItsWay = [] := by rw [onItsWay, ended]
  have hcounts := r.counted.counts
  simp only [counts, countsOf, List.cons.injEq, and_true] at hcounts
  obtain ⟨-, -, -, hsent, hfailed⟩ := hcounts
  refine ⟨?_, hkept.nonempty, ?_, r.leaving.last, hstreams.unopened, ⟨hsent, hfailed⟩,
    fun i hi => hstreams.past_of_ended ended hi, ?_⟩
  · rw [hkept.accepted, r.leaving.empty ended, List.append_nil]
  · rw [hkept.taken, hway, List.append_nil]
  · intro i hi limit source fuel hlimit admits hsource hcalm hfuel
    have hpast := hstreams.past_of_ended ended hi
    obtain ⟨tail, v, htail, hread, hclosed⟩ := hpast.read sound hlimit admits hsource hcalm hfuel
    exact ⟨tail, v, htail, Nat.le_trans htail.length_le hpast.length_lost, hread, hclosed⟩

/-- A courier whose first stream takes one frame and ten bytes of the next. -/
def tornStart : Courier Event :=
  .start ⟨"remote", ⟨"peer", []⟩, "p", .ofSeconds 1, .ofSeconds 1⟩ (.ofSeconds 0) .stored 6
    (.start (.always ⟨0, some (.ok ())⟩)
      ⟨[⟨0, some (.ok { writes := ⟨[.takes, .upTo 10], .fails .writeZero⟩ })⟩], ⟨0, some (.ok {})⟩⟩)
    false

/-- Three events, one batch each: one is sent, one is lost, one is sent on a second stream. -/
def torn : List (Move Event) :=
  [.trace ⟨"a", 1⟩] ++ works 11 ++ [.trace ⟨"b", 2⟩] ++ works 10 ++ [.trace ⟨"c", 3⟩, .close] ++
    works 12

theorem delivered_in_order_torn :
    ∃ ds c, Run tornStart torn ds c ∧ c.phase = .ended ∧
      c.net.channels.map (·.outcome) = #[.reset, .closed] ∧
      ds.settled = [([⟨"a", 1⟩], .sent 0), ([⟨"b", 2⟩], .lost 0), ([⟨"c", 3⟩], .sent 1)] ∧
      Delivered (.start .stored 6) ds c := by
  have hmoves : (tornStart.moves torn).map (fun (ds, c) =>
      (c.isEnded, c.net.channels.map (·.outcome), ds.settled)) = some (true, #[.reset, .closed],
        [([⟨"a", 1⟩], .sent 0), ([⟨"b", 2⟩], .lost 0), ([⟨"c", 3⟩], .sent 1)]) := by decide +kernel
  rw [Option.map_eq_some_iff] at hmoves
  obtain ⟨⟨ds, c⟩, hmoves, hends⟩ := hmoves
  simp only [Prod.mk.injEq] at hends
  obtain ⟨hended, houtcomes, hsettled⟩ := hends
  have hrun : Run tornStart torn ds c := Run.start.moves hmoves
  have hended := isEnded_iff.mp hended
  exact ⟨ds, c, hrun, hended, houtcomes, hsettled,
    delivered_in_order (Gzip.Method.sound_stored 6) rfl hrun hended⟩

/-! ## A frame beyond the limit -/

/-- An event that fits the default limit for frames, but not together with its length. -/
def large : Bytes := List.replicate Frame.defaultLimit 0

theorem length_large : (Batch.ofEvents [large]).encode.length = 16777221 := by
  have hsize : Batch.entrySize 16777216 = 16777221 := by decide +kernel
  have hentries : Batch.ofEvents [large] = ⟨[large]⟩ := rfl
  rw [hentries, Batch.encode, List.flatMap_singleton, Batch.length_bytesField, large,
    List.length_replicate]
  exact hsize

/-- A courier sends a frame of any length, on a stream that is then closed; a reader with the default
limit gives nothing of it. -/
theorem sent_beyond_limit :
    ∃ ms ds c, Run (.start ⟨"remote", ⟨"peer", []⟩, "p", .ofSeconds 1, .ofSeconds 1⟩ ⟨0⟩ .stored 6
        (Undisturbed.still #[] #[]) false) ms ds c ∧
      c.phase = .ended ∧ ds.sentOn 0 = [[large]] ∧ ds.lostOn 0 = [] ∧
      (c.net.channel 0).outcome = .closed ∧
      (let stream := (c.net.channel 0).accepted
      let found := readAll Frame.defaultLimit (.ofBytes stream)
        ((Gzip.Decoder.start.feedAll stream).out.size + 1)
      found = ([], .error (.frameTooLarge 16777221 16777216)) ∧
        found ≠ ((ds.sentOn 0).map Batch.ofEvents, .ok ())) := by
  have sound := Gzip.Method.sound_stored 6
  obtain ⟨ms, ds, c, hrun, hended, hds, writes, flushes, hchannels⟩ :=
    undisturbed ⟨"remote", ⟨"peer", []⟩, "p", .ofSeconds 1, .ofSeconds 1⟩ sound large
  have hsent : ds.sentOn 0 = [[large]] := by rw [hds]; rfl
  have hlost : ds.lostOn 0 = [] := by rw [hds]; rfl
  have hclosed : (c.net.channel 0).outcome = .closed := by rw [Net.channel, hchannels]; rfl
  have hpast :=
    (hrun.streams rfl).past_of_ended hended (i := 0) (by rw [hchannels]; exact Nat.one_pos)
  rw [hsent] at hpast
  have hread : readAll Frame.defaultLimit (.ofBytes (c.net.channel 0).accepted)
      ((Gzip.Decoder.start.feedAll (c.net.channel 0).accepted).out.size + 1) =
        ([], .error (.frameTooLarge (Batch.ofEvents [large]).encode.length Frame.defaultLimit)) :=
    hpast.refused [] sound (List.forall_mem_nil _) (by rw [length_large]; decide)
      (by rw [length_large]; decide) rfl (Source.calm_ofBytes _) (Nat.lt_succ_self _)
  rw [length_large] at hread
  refine ⟨ms, ds, c, hrun, hended, hsent, hlost, hclosed, hread, ?_⟩
  rw [hsent]
  intro h
  cases hread.symm.trans h

end TraceRelay.Courier
