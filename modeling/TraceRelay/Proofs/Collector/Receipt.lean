import TraceRelay.Proofs.Collector.Run
import TraceRelay.Proofs.Framing.Incremental
import TraceRelay.Proofs.Framing.Written
import TraceRelay.Proofs.Gzip.Sound
import TraceRelay.Proofs.Peer.Header
import TraceRelay.Proofs.Recorder.Lossless

/-!
# What a collector makes of a whole stream

The stream of one tracer, on one connection, in whatever pieces it arrives.

1. `Holding`: a decoder has given the batches `done`, and holds what else its bytes decompress to.
2. `Reached`: how far a handler has got, by what is still to arrive.
3. `Receipt.move`: every move keeps this, and what is passed on is counted and recorded.
4. `Run.receipt`: in the end all batches were passed on, and no failure was counted.
-/

namespace TraceRelay.Collector

variable {α : Type} [Message α] {method : Gzip.Method} {level limit : Nat} {sent : List (List α)}

/-- The bytes of a compressed stream that carries some batches. -/
def carrying (e : Gzip.Encoder) (batches : List (List α)) : Bytes := e.whole (batches.map Batch.frame)

/-! ## Decoders -/

/-- A decoder that was fed `z` has given the batches `done`. -/
structure Holding (limit : Nat) (sent : List (List α)) (z : Bytes) (done : List (List α))
    (d : Batch.Decoder) : Prop where
  limit : d.limit = limit
  gzip : d.gzip = Gzip.Decoder.start.feedAll z
  among : done <+: sent
  payload : (done.map Batch.frame).flatten ++ d.pending = d.gzip.out.toList

theorem holding_start (limit : Nat) (sent : List (List α)) :
    Holding limit sent [] [] (Batch.Decoder.start.withLimit limit) :=
  ⟨rfl, rfl, List.nil_prefix, rfl⟩

variable {z : Bytes} {done : List (List α)} {d : Batch.Decoder}

theorem Holding.feed (h : Holding limit sent z done d) (sound : method.Sound level) {data : Bytes}
    (part : z ++ data <+: carrying (.start method level) sent) :
    ∃ d', d.feed data = (.ok (), d') ∧ Holding limit sent (z ++ data) done d' := by
  have hcompleted := (sound.completed (sent.map Batch.frame)).1
  have hfault := Gzip.Decoder.fault?_of_prefix part (Gzip.Decoder.fault?_of_agrees hcompleted)
  obtain ⟨hresult, hgzip, hlimit, hpending⟩ := d.feed_eq data
  have hfed : d.gzip.feedAll data = Gzip.Decoder.start.feedAll (z ++ data) := by
    rw [h.gzip, Gzip.Decoder.feedAll_append]
  rw [hfed, hfault] at hresult
  refine ⟨(d.feed data).2, Prod.ext hresult rfl, hlimit.trans h.limit, hgzip.trans hfed, h.among, ?_⟩
  rw [hpending, hgzip, ← List.append_assoc, h.payload]
  exact (Batch.Decoder.out_feedAll d.gzip data).symm

/-- What a decoder holds is the beginning of the frames that come next. -/
theorem Holding.pending_prefix (h : Holding limit sent z done d) (sound : method.Sound level)
    (part : z <+: carrying (.start method level) sent) {rest : List (List α)}
    (split : done ++ rest = sent) : d.pending <+: (rest.map Batch.frame).flatten := by
  have hout := Gzip.Decoder.out_prefix_of_prefix Gzip.Decoder.start part
  rw [carrying, (sound.completed _).2, ← h.gzip, ← h.payload, ← split, List.map_append,
    List.flatten_append] at hout
  exact (List.prefix_append_right_inj _).mp hout

/-- A decoder gives the next batch, or does not have it yet. -/
theorem Holding.next (h : Holding limit sent z done d) (sound : method.Sound level)
    (hlimit : limit < UInt64.size) (admits : ∀ events ∈ sent, Batch.Admits limit events)
    (part : z <+: carrying (.start method level) sent) :
    (d.next = (.ok none, d) ∧ Batch.front d.limit d.pending = .ok none) ∨
    ∃ events d', d.next = (.ok (some (Batch.ofEvents events)), d') ∧
      Holding limit sent z (done ++ [events]) d' := by
  obtain ⟨rest, hsplit⟩ := h.among
  have hprefix := h.pending_prefix sound part hsplit
  rw [Batch.Decoder.next_eq]
  cases rest with
  | nil =>
    have hnil : d.pending = [] := List.prefix_nil.mp hprefix
    rw [hnil, Batch.front_nil]
    exact .inl ⟨rfl, rfl⟩
  | cons events rest =>
    obtain ⟨more, hmore⟩ := hprefix
    have hmem : events ∈ sent := by rw [← hsplit]; simp
    have hwhole := Batch.front_frame hlimit (admits events hmem) (rest.map Batch.frame).flatten
    rw [List.map_cons, List.flatten_cons] at hmore
    rw [← hmore, ← h.limit] at hwhole
    cases hfront : Batch.front d.limit d.pending with
    | error e => rw [Batch.front_append_error more hfront] at hwhole; cases hwhole
    | ok found =>
      cases found with
      | none => exact .inl ⟨rfl, rfl⟩
      | some found =>
        obtain ⟨b, left⟩ := found
        rw [Batch.front_append_some more hfront] at hwhole
        simp only [Except.ok.injEq, Option.some.injEq, Prod.mk.injEq] at hwhole
        obtain ⟨rfl, hleft⟩ := hwhole
        rw [← hleft, ← List.append_assoc] at hmore
        have hpending : d.pending = Batch.frame events ++ left := List.append_cancel_right hmore
        refine .inr ⟨events, _, rfl, h.limit, h.gzip, ⟨rest, ?_⟩, ?_⟩
        · rw [List.append_assoc]; exact hsplit
        · rw [Batch.Decoder.pending_give, hpending, List.length_append, Nat.add_sub_cancel,
            List.drop_left, List.map_append, List.flatten_append, List.map_singleton,
            List.flatten_singleton, List.append_assoc, ← hpending, h.payload]
          rfl

/-- At the end of the stream nothing is left. -/
theorem Holding.finish (h : Holding limit sent z done d) (sound : method.Sound level)
    (hlimit : limit < UInt64.size) (admits : ∀ events ∈ sent, Batch.Admits limit events)
    (whole : z = carrying (.start method level) sent)
    (front : Batch.front d.limit d.pending = .ok none) : done = sent ∧ d.finish = .ok () := by
  subst whole
  obtain ⟨hagrees, hout⟩ := sound.completed (sent.map Batch.frame)
  obtain ⟨rest, hsplit⟩ := h.among
  have hpending : d.pending = (rest.map Batch.frame).flatten := by
    have := h.payload
    rw [h.gzip, carrying, hout, ← hsplit, List.map_append, List.flatten_append] at this
    exact List.append_cancel_left this
  cases rest with
  | nil =>
    have hend : d.gzip.agrees = true := by rw [h.gzip]; exact hagrees
    refine ⟨by rw [← hsplit, List.append_nil], ?_⟩
    exact (Batch.Decoder.finish_eq hend).trans (if_pos hpending)
  | cons events rest =>
    have hmem : events ∈ sent := by rw [← hsplit]; simp
    rw [hpending, List.map_cons, List.flatten_cons, h.limit,
      Batch.front_frame hlimit (admits events hmem)] at front
    cases front

/-! ## Handlers -/

/-- How far a handler has got that has passed on the batches `done`, by what is still to arrive. -/
inductive Reached (limit : Nat) (e : Gzip.Encoder) (sent : List (List α)) :
    List Arrival → List (List α) → Handler → Prop where
  | greeting {got : Bytes} {todo : List Bytes}
      (stream : got ++ todo.flatten = Header.write traceProtocol ++ carrying e sent)
      (part : got <+: Header.write traceProtocol) (short : got ≠ Header.write traceProtocol) :
      Reached limit e sent (todo.map .bytes ++ [.eof]) [] (.greeting got)
  | reading {z : Bytes} {todo : List Bytes} {done : List (List α)} {d : Batch.Decoder}
      (stream : z ++ todo.flatten = carrying e sent) (holds : Holding limit sent z done d)
      (front : Batch.front d.limit d.pending = .ok none) :
      Reached limit e sent (todo.map .bytes ++ [.eof]) done (.reading d)
  | draining {z : Bytes} {todo : List Bytes} {done : List (List α)} {d : Batch.Decoder}
      (stream : z ++ todo.flatten = carrying e sent) (holds : Holding limit sent z done d) :
      Reached limit e sent (todo.map .bytes ++ [.eof]) done (.draining d)
  | ended : Reached limit e sent [] sent (.ended .clean)

namespace Server

variable {dest : Storage.File}

/-- What is passed on is counted and recorded. -/
structure Passed (dest : Storage.File) (limit : Nat) (done : List (List α)) (s : Server) : Prop where
  file : s.file = dest
  settings : s.settings.maxFrameSize = limit
  batches : s.census.batches = .ofNat done.length
  events : s.census.events = .ofNat done.flatten.length
  errors : s.census.errors = 0
  encoder : s.output.loop.encoder = .rawDelimited
  output : Recorder.Lossless (done.flatten.map Message.encode) s.output.loop
  open_ : s.output.joinable = true → s.output.loop.intake.buffer.closed = false

/-- Nothing that is counted or recorded is different. -/
theorem Passed.same {s s' : Server} (h : Passed dest limit done s) (file : s'.file = s.file)
    (settings : s'.settings = s.settings)
    (batches : s'.census.batches = s.census.batches) (events : s'.census.events = s.census.events)
    (errors : s'.census.errors = s.census.errors) (output : s'.output = s.output) :
    Passed dest limit done s' where
  file := file.trans h.file
  settings := by rw [settings]; exact h.settings
  batches := batches.trans h.batches
  events := events.trans h.events
  errors := errors.trans h.errors
  encoder := by rw [output]; exact h.encoder
  output := by rw [output]; exact h.output
  open_ := by rw [output]; exact h.open_

theorem handlers_setHandler {s : Server} {peer : String} {h : Handler}
    (one : s.handlers = #[(peer, h)]) (h' : Handler) :
    (s.setHandler 0 peer h').handlers = #[(peer, h')] := by
  rw [setHandler, one]; rfl

theorem feed_eq {s : Server} {i : Nat} {peer : String} {d d' : Batch.Decoder} {data : Bytes}
    (feed : d.feed data = (.ok (), d')) :
    s.feed i peer d data = s.setHandler i peer (.draining d') := by rw [Server.feed, feed]

/-- What a handler makes of the next thing to arrive. -/
structure Arrived (dest : Storage.File) (limit : Nat) (e : Gzip.Encoder) (sent : List (List α))
    (peer : String) (rest : List Arrival) (done : List (List α)) (s s' : Server) : Prop where
  reached : ∃ h, s'.handlers = #[(peer, h)] ∧ Reached limit e sent rest done h
  passed : Passed dest limit done s'
  output : s'.output = s.output

variable {s s' : Server} {peer : String} {got data : Bytes} {todo : List Bytes}

theorem length_traceProtocol : (Header.line traceProtocol).length ≤ Header.maxLength := by decide

/-- More of a header has arrived, and perhaps what comes after it. -/
theorem greet_arrived (sound : method.Sound level) (one : s.handlers = #[(peer, .greeting got)])
    (passed : Passed dest limit ([] : List (List α)) s)
    (stream : data ++ todo.flatten =
      Header.write traceProtocol ++ carrying (.start method level) sent) :
    Arrived dest limit (.start method level) sent peer (todo.map .bytes ++ [.eof]) [] s
      (s.greet 0 peer data) := by
  by_cases hheader : Header.write traceProtocol <+: data
  · obtain ⟨z, rfl⟩ := hheader
    obtain ⟨rest, hread, hrest⟩ := Header.read_write length_traceProtocol z
    rw [List.append_assoc] at stream
    have hz : z ++ todo.flatten = carrying (.start method level) sent :=
      List.append_cancel_left stream
    have hstart := holding_start limit sent
    have hsettings : ∀ level message fields,
        (s.report level message fields).settings.maxFrameSize = limit := fun _ _ _ => passed.settings
    rw [greet, hread]
    dsimp only
    rw [if_neg (fun h => h rfl), hrest, hsettings]
    by_cases hnil : z = []
    · subst hnil
      refine ⟨⟨_, handlers_setHandler one _, .reading hz hstart rfl⟩, ?_, rfl⟩
      exact passed.same rfl rfl rfl rfl rfl rfl
    · rw [if_neg fun h => hnil (List.isEmpty_iff.mp h)]
      have hpart : [] ++ z <+: carrying (.start method level) sent := ⟨todo.flatten, hz⟩
      obtain ⟨d', hfeed, hholds⟩ := hstart.feed sound hpart
      rw [feed_eq hfeed]
      refine ⟨⟨_, handlers_setHandler one _, .draining hz hholds⟩, ?_, rfl⟩
      exact passed.same rfl rfl rfl rfl rfl rfl
  · have hpart : data <+: Header.write traceProtocol :=
      (List.prefix_or_prefix_of_prefix ⟨_, stream⟩ (List.prefix_append _ _)).resolve_right hheader
    have hshort : data ≠ Header.write traceProtocol := fun h => hheader (h ▸ List.prefix_rfl)
    obtain ⟨f, rest, hread, hkind⟩ := Header.read_cut length_traceProtocol hpart hshort
    rw [greet, hread]
    dsimp only
    rw [if_pos hkind]
    refine ⟨⟨_, handlers_setHandler one _, .greeting stream hpart hshort⟩, ?_, rfl⟩
    exact passed.same rfl rfl rfl rfl rfl rfl

/-- **What arrives at a handler that waits for it.** -/
theorem arrive_arrived {h : Handler} {a : Arrival} {rest : List Arrival} {done : List (List α)}
    {i : Nat} (sound : method.Sound level) (hlimit : limit < UInt64.size)
    (admits : ∀ events ∈ sent, Batch.Admits limit events) (one : s.handlers = #[(peer, h)])
    (reached : Reached limit (.start method level) sent (a :: rest) done h)
    (passed : Passed dest limit done s) (waits : s.isWaiting i = true) :
    Arrived dest limit (.start method level) sent peer rest done s (s.arrive i a) := by
  have hi : i = 0 := by
    cases i with
    | zero => rfl
    | succ i => rw [isWaiting, one] at waits; cases waits
  subst hi
  have hget : s.handlers[0]? = some (peer, h) := by rw [one]; rfl
  generalize hall : a :: rest = all at reached
  cases reached with
  | greeting stream part short =>
    rename_i got todo
    cases todo with
    | nil =>
      rw [List.flatten_nil, List.append_nil] at stream
      obtain ⟨more, hmore⟩ := part
      rw [stream, List.append_assoc, List.append_right_eq_self, List.append_eq_nil_iff] at hmore
      rw [hmore.1, List.append_nil] at stream
      exact absurd stream short
    | cons p todo =>
      cases hall
      rw [List.flatten_cons, ← List.append_assoc] at stream
      unfold arrive
      rw [hget]
      exact greet_arrived sound one passed stream
  | reading stream holds front =>
    rename_i z todo d
    cases todo with
    | nil =>
      cases hall
      rw [List.flatten_nil, List.append_nil] at stream
      obtain ⟨rfl, hfinish⟩ := holds.finish sound hlimit admits stream front
      unfold arrive
      rw [hget]
      dsimp only
      rw [finish, hfinish]
      refine ⟨⟨_, handlers_setHandler one _, .ended⟩, ?_, rfl⟩
      exact passed.same rfl rfl rfl rfl rfl rfl
    | cons p todo =>
      cases hall
      rw [List.flatten_cons, ← List.append_assoc] at stream
      obtain ⟨d', hfeed, hholds⟩ := holds.feed sound ⟨_, stream⟩
      unfold arrive
      rw [hget]
      dsimp only
      rw [feed_eq hfeed]
      refine ⟨⟨_, handlers_setHandler one _, .draining stream hholds⟩, ?_, rfl⟩
      exact passed.same rfl rfl rfl rfl rfl rfl
  | draining stream holds => rw [isWaiting, hget] at waits; cases waits
  | ended => cases hall

/-- **A handler passes on the next batch**, or goes back to reading. -/
theorem drain_passed {h : Handler} {rest : List Arrival} {done : List (List α)} {i : Nat}
    (sound : method.Sound level) (hlimit : limit < UInt64.size)
    (admits : ∀ events ∈ sent, Batch.Admits limit events) (one : s.handlers = #[(peer, h)])
    (reached : Reached limit (.start method level) sent rest done h)
    (passed : Passed dest limit done s)
    (going : rest ≠ [] → s.output.joinable = true) (drains : s.isDraining i = true) :
    ∃ done' h', (s.drain i).handlers = #[(peer, h')] ∧
      Reached limit (.start method level) sent rest done' h' ∧ Passed dest limit done' (s.drain i) ∧
      (s.drain i).output.joinable = s.output.joinable := by
  have hi : i = 0 := by
    cases i with
    | zero => rfl
    | succ i => rw [isDraining, one] at drains; cases drains
  subst hi
  have hget : s.handlers[0]? = some (peer, h) := by rw [one]; rfl
  cases reached with
  | draining stream holds =>
    rename_i z todo d
    unfold drain
    rw [hget]
    dsimp only
    rcases holds.next sound hlimit admits ⟨_, stream⟩ with
      ⟨hnext, hfront⟩ | ⟨events, d', hnext, hholds⟩
    · rw [hnext]
      refine ⟨done, _, handlers_setHandler one _, .reading stream holds hfront, ?_, rfl⟩
      exact passed.same rfl rfl rfl rfl rfl rfl
    · rw [hnext]
      have hopen := passed.open_ (going (List.append_ne_nil_of_right_ne_nil _ (List.cons_ne_nil _ _)))
      obtain ⟨houtput, hopen', hencoder⟩ :=
        passed.output.traceAll hopen (events.map Message.encode)
      refine ⟨done ++ [events], _, handlers_setHandler one _, .draining stream hholds, ?_, rfl⟩
      refine ⟨passed.file, passed.settings, ?_, ?_, passed.errors, hencoder.trans passed.encoder, ?_,
        fun _ => hopen'⟩
      · show s.census.batches + 1 = _
        rw [passed.batches, List.length_append, List.length_singleton, UInt64.ofNat_add]
        rfl
      · show s.census.events + UInt64.ofNat (events.map Message.encode).length = _
        rw [passed.events, List.length_map, List.flatten_append, List.flatten_singleton,
          List.length_append, UInt64.ofNat_add]
      · rw [List.flatten_append, List.flatten_singleton, List.map_append]
        exact houtput
  | greeting => rw [isDraining, hget] at drains; cases drains
  | reading => rw [isDraining, hget] at drains; cases drains
  | ended => rw [isDraining, hget] at drains; cases drains

/-- A step of the output. -/
theorem Passed.step {done : List (List α)} {loop : Recorder Bytes} (h : Passed dest limit done s)
    (st : Recorder.Step s.output.loop [] loop)
    (same : loop.intake.buffer.closed = s.output.loop.intake.buffer.closed) :
    Passed dest limit done { s with output.loop := loop } where
  file := h.file
  settings := h.settings
  batches := h.batches
  events := h.events
  errors := h.errors
  encoder := st.encoder.trans h.encoder
  output := by have := h.output.step st; rwa [List.append_nil] at this
  open_ := fun hj => same.trans (h.open_ hj)

theorem Passed.shut {done : List (List α)} (h : Passed dest limit done s) :
    Passed dest limit done s.shut where
  file := h.file
  settings := h.settings
  batches := h.batches
  events := h.events
  errors := h.errors
  encoder := h.encoder
  output := by have := h.output.step .close; rwa [List.append_nil] at this
  open_ := nofun

/-! ## Runs -/

/-- The pieces of a whole stream, and its end. -/
structure Pieces (e : Gzip.Encoder) (sent : List (List α)) (stream : List Arrival) : Prop where
  split : ∃ pieces : List Bytes, stream = pieces.map .bytes ++ [.eof] ∧
    pieces.flatten = Header.write traceProtocol ++ carrying e sent

/-- How far a collector has got with its one connection, by the connections still to be made and what
is still to arrive. -/
inductive Receipt (dest : Storage.File) (limit : Nat) (e : Gzip.Encoder) (sent : List (List α))
    (peer : String) (stream : List Arrival) : List String → List Arrival → Server → Prop where
  | before {s : Server} (idle : s.handlers = #[])
      (passed : Passed dest limit ([] : List (List α)) s) :
      Receipt dest limit e sent peer stream [peer] stream s
  | during {rest : List Arrival} {done : List (List α)} {h : Handler} {s : Server}
      (one : s.handlers = #[(peer, h)]) (reached : Reached limit e sent rest done h)
      (passed : Passed dest limit done s) (going : rest ≠ [] → s.output.joinable = true) :
      Receipt dest limit e sent peer stream [] rest s

variable {stream rest : List Arrival} {late : List String}

/-- A move of the output leaves the connection alone. -/
theorem Receipt.output {e : Gzip.Encoder} (h : Receipt dest limit e sent peer stream late rest s)
    (handlers : s'.handlers = s.handlers)
    (passed : ∀ {done : List (List α)}, Passed dest limit done s → Passed dest limit done s')
    (joinable : s'.output.joinable = s.output.joinable) :
    Receipt dest limit e sent peer stream late rest s' := by
  cases h with
  | before idle hpassed => exact .before (handlers.trans idle) (passed hpassed)
  | during one reached hpassed going =>
    exact .during (handlers.trans one) reached (passed hpassed)
      fun hrest => joinable.trans (going hrest)

/-- **Every move keeps it.** -/
theorem Receipt.move {m : Move} (h : Receipt dest limit (.start method level) sent peer stream
      (peers [m] ++ late) (arrivals [m] ++ rest) s)
    (sound : method.Sound level) (hlimit : limit < UInt64.size)
    (admits : ∀ events ∈ sent, Batch.Admits limit events)
    (pieces : Pieces (.start method level) sent stream) (step : Step s m s') :
    Receipt dest limit (.start method level) sent peer stream late rest s' := by
  cases step with
  | @accept p joinable =>
    generalize hlate : peers [.accept p] ++ late = all at h
    generalize harr : arrivals [.accept p] ++ rest = arr at h
    cases h with
    | before idle passed =>
      cases hlate
      cases harr
      obtain ⟨pieces, rfl, hflatten⟩ := pieces.split
      refine .during ?_ (.greeting hflatten List.nil_prefix (Header.write_ne_nil _).symm)
        (passed.same rfl rfl rfl rfl rfl rfl) fun _ => joinable
      show s.handlers.push _ = _
      rw [idle]
      rfl
    | during => cases hlate
  | @arrive i a waits =>
    generalize harr : arrivals [.arrive i a] ++ rest = arr at h
    generalize hlate : peers [.arrive i a] ++ late = all at h
    cases h with
    | before idle => rw [isWaiting, idle] at waits; cases waits
    | during one reached passed going =>
      cases hlate
      cases harr
      obtain ⟨⟨h', hone, hreached⟩, hpassed, houtput⟩ :=
        arrive_arrived sound hlimit admits one reached passed waits
      exact .during hone hreached hpassed fun _ => by rw [houtput]; exact going nofun
  | drain drains =>
    replace h : Receipt dest limit (.start method level) sent peer stream late rest s := h
    cases h with
    | before idle => rw [isDraining, idle] at drains; cases drains
    | during one reached passed going =>
      obtain ⟨done', h', hone, hreached, hpassed, hjoinable⟩ :=
        drain_passed sound hlimit admits one reached passed going drains
      exact .during hone hreached hpassed fun hrest => hjoinable.trans (going hrest)
  | work work =>
    have w := Recorder.work_cases work
    exact Receipt.output h rfl (fun hp => hp.step (.work w) w.same.2) rfl
  | advance later => exact Receipt.output h rfl (fun hp => hp.step (.advance later) rfl) rfl
  | shut joinable ended =>
    replace h : Receipt dest limit (.start method level) sent peer stream late rest s := h
    cases h with
    | before idle passed => exact .before idle passed.shut
    | during one reached passed going =>
      refine .during one reached passed.shut fun hrest => ?_
      rw [one] at ended
      cases reached with
      | ended => exact absurd rfl hrest
      | _ => simp at ended

/-- What a run keeps. -/
theorem Run.receipt {s₀ : Server} {ms : List Move} (r : Run s₀ ms s)
    (start : Receipt dest limit (.start method level) sent peer stream [peer] stream s₀)
    (sound : method.Sound level) (hlimit : limit < UInt64.size)
    (admits : ∀ events ∈ sent, Batch.Admits limit events)
    (pieces : Pieces (.start method level) sent stream) {late : List String} {rest : List Arrival}
    (hpeers : peers ms ++ late = [peer]) (harrivals : arrivals ms ++ rest = stream) :
    Receipt dest limit (.start method level) sent peer stream late rest s := by
  induction r generalizing late rest with
  | start =>
    have hlate : late = [peer] := hpeers
    have hrest : rest = stream := harrivals
    rw [hlate, hrest]
    exact start
  | move r h ih =>
    rw [peers_append, List.append_assoc] at hpeers
    rw [arrivals_append, List.append_assoc] at harrivals
    exact (ih hpeers harrivals).move sound hlimit admits pieces (move_cases h)

/-- **A collector that was sent one whole stream has passed on every batch of it.** -/
theorem Run.received {s₀ : Server} {ms : List Move} (r : Run s₀ ms s)
    (start : Receipt dest limit (.start method level) sent peer stream [peer] stream s₀)
    (sound : method.Sound level) (hlimit : limit < UInt64.size)
    (admits : ∀ events ∈ sent, Batch.Admits limit events)
    (pieces : Pieces (.start method level) sent stream)
    (hpeers : peers ms = [peer]) (harrivals : arrivals ms = stream) :
    s.handlers = #[(peer, .ended .clean)] ∧ Passed dest limit sent s := by
  have h : Receipt dest limit (.start method level) sent peer stream [] [] s :=
    r.receipt start sound hlimit admits pieces (by rw [hpeers]; rfl)
      (by rw [harrivals, List.append_nil])
  generalize hrest : ([] : List Arrival) = rest at h
  generalize hlate : ([] : List String) = late at h
  cases h with
  | before => cases hlate
  | during one reached passed going =>
    subst hrest
    generalize hrest : ([] : List Arrival) = rest at reached
    cases reached with
    | ended => exact ⟨one, passed⟩
    | _ => exact absurd hrest (List.append_ne_nil_of_right_ne_nil _ (List.cons_ne_nil _ _)).symm

end Server

end TraceRelay.Collector
