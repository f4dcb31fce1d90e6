import TraceRelay.Proofs.Collector.Floor

/-!
# The life of a handler

Whatever arrives on a connection, its handler ends as `verdict` says, which looks at all the bytes that
have arrived and at what came last: rejected, if they begin with the header of another protocol; failed,
if they begin with no header, hold what cannot be decoded, or end where they may not; and clean otherwise.

1. `Life`: how far a handler has got with what has arrived, and the batches that it has decoded.
2. `arrive_life`, `take_life`: the two kinds of steps that it takes. `Became`: what they do to the
   collector.
3. `Life.first`: the batches decoded are the first of those in the stream, and all of them at the end
   of a stream that shows no fault.
-/

namespace TraceRelay.Collector

/-! ## What arrives -/

/-- The bytes among what arrives. -/
def bytesOf (arrived : List Arrival) : Bytes :=
  arrived.flatMap fun
    | .bytes data => data
    | _ => []

theorem bytesOf_pieces (ps : List Bytes) : bytesOf (ps.map .bytes) = ps.flatten := by
  induction ps with
  | nil => rfl
  | cons p ps ih => rw [List.map_cons, bytesOf, List.flatMap_cons, List.flatten_cons, ← ih]; rfl

theorem bytesOf_last (ps : List Bytes) {a : Arrival} (h : bytesOf [a] = []) :
    bytesOf (ps.map .bytes ++ [a]) = ps.flatten := by
  rw [bytesOf, List.flatMap_append, ← bytesOf, ← bytesOf, h, List.append_nil, bytesOf_pieces]

/-- What a compressed stream holds. -/
def contents (limit : Nat) (z : Bytes) : Batch.Scan :=
  Batch.scan limit (Gzip.Decoder.start.feedAll z).out.toList

/-- What more of a stream holds begins with what was there before. -/
theorem batches_prefix (limit : Nat) {z z' : Bytes} (h : z <+: z') :
    (contents limit z).batches <+: (contents limit z').batches := by
  obtain ⟨more, hmore⟩ := Gzip.Decoder.out_prefix_of_prefix .start h
  rw [contents, contents, ← hmore, Batch.scan_append]
  split
  · exact List.prefix_rfl
  · exact List.prefix_append _ _

/-- How a handler ends on whose connection this has arrived. -/
def verdict (limit : Nat) (arrived : List Arrival) : Ending :=
  match Header.read (Source.ofBytes (bytesOf arrived)) with
  | (.error (.io _), _) => if arrived.getLast? matches some .stopped then .clean else .failed
  | (.error _, _) => .failed
  | (.ok protocol, rest) =>
    if protocol ≠ traceProtocol then .rejected
    else if (Gzip.Decoder.start.feedAll rest.data).fault?.isSome ∨
        (contents limit rest.data).failure?.isSome then .failed
    else
      match arrived.getLast? with
      | some .stopped => .clean
      | some .eof =>
        if (Gzip.Decoder.start.feedAll rest.data).agrees ∧ (contents limit rest.data).rest = [] then
          .clean
        else .failed
      | _ => .failed

/-- The batches in what has arrived on a connection. -/
def batchesIn (limit : Nat) (data : Bytes) : List Batch :=
  match Header.read (Source.ofBytes data) with
  | (.ok protocol, rest) => if protocol = traceProtocol then (contents limit rest.data).batches else []
  | (.error _, _) => []

/-- Neither the header nor the compressed stream behind it shows a fault. -/
def Sound (data : Bytes) : Prop :=
  ∀ s, Header.read (Source.ofBytes data) = (.ok traceProtocol, s) →
    (Gzip.Decoder.start.feedAll s.data).fault? = none

/-- Less than a header. -/
def Short (data : Bytes) : Prop :=
  ∃ f s, Header.read (Source.ofBytes data) = (.error (.io f), s)

theorem short_nil : Short [] := by
  obtain ⟨f, rest, hread, -⟩ := isHeader_write.cut [] List.nil_prefix isHeader_write.some_.symm
  exact ⟨f, rest, hread⟩

/-- The header of traces, and the stream `z` behind it. -/
def Opened (data z : Bytes) : Prop :=
  ∃ s, Header.read (Source.ofBytes data) = (.ok traceProtocol, s) ∧ s.data = z

theorem Opened.append {data z : Bytes} (h : Opened data z) (q : Bytes) : Opened (data ++ q) (z ++ q) := by
  obtain ⟨s, hread, rfl⟩ := h
  obtain ⟨s', hread', hs'⟩ := Header.read_append hread nofun q
  exact ⟨s', hread', hs'⟩

section

variable {limit : Nat} {arrived : List Arrival} {data z : Bytes}

theorem batchesIn_of_short (h : Short data) : batchesIn limit data = [] := by
  obtain ⟨f, s, hread⟩ := h
  rw [batchesIn, hread]

theorem batchesIn_of_opened (h : Opened data z) :
    batchesIn limit data = (contents limit z).batches := by
  obtain ⟨s, hread, rfl⟩ := h
  rw [batchesIn, hread]
  exact if_pos rfl

theorem Opened.sound (h : Opened data z) :
    Sound data ↔ (Gzip.Decoder.start.feedAll z).fault? = none := by
  obtain ⟨s, hread, rfl⟩ := h
  refine ⟨fun hsound => hsound s hread, fun hnone s' hread' => ?_⟩
  rw [hread] at hread'
  cases hread'
  exact hnone

theorem verdict_of_short (h : Short (bytesOf arrived)) :
    verdict limit arrived = if arrived.getLast? matches some .stopped then .clean else .failed := by
  obtain ⟨f, s, hread⟩ := h
  rw [verdict, hread]

theorem verdict_of_opened (h : Opened (bytesOf arrived) z) :
    verdict limit arrived =
      if (Gzip.Decoder.start.feedAll z).fault?.isSome ∨ (contents limit z).failure?.isSome then .failed
      else match arrived.getLast? with
      | some .stopped => .clean
      | some .eof =>
        if (Gzip.Decoder.start.feedAll z).agrees ∧ (contents limit z).rest = [] then .clean else .failed
      | _ => .failed := by
  obtain ⟨s, hread, rfl⟩ := h
  rw [verdict, hread]
  exact if_neg (fun h => h rfl)

end

/-- Nothing comes of the stream of another protocol. -/
theorem batchesIn_of_rejected (h : verdict limit arrived = .rejected) :
    batchesIn limit (bytesOf arrived) = [] := by
  unfold verdict at h
  unfold batchesIn
  split at h
  · split at h <;> cases h
  · cases h
  · next protocol rest hread =>
    rw [hread]
    split at h
    · next hne => exact if_neg hne
    · split at h
      · cases h
      · split at h
        · cases h
        · split at h <;> cases h
        · cases h

/-! ## Lives -/

/-- The end of a handler that has decoded the batches `given`. -/
structure Ended (limit : Nat) (arrived : List Arrival) (given : List Batch) (e : Ending) : Prop where
  ending : e = verdict limit arrived
  first : given <+: batchesIn limit (bytesOf arrived)
  all : Sound (bytesOf arrived) → given = batchesIn limit (bytesOf arrived)

/-- How far a handler has got with what has arrived, and the batches that it has decoded. -/
inductive Life (limit : Nat) : List Arrival → List Batch → Handler → Prop where
  | greeting {ps : List Bytes} (short : Short ps.flatten) :
      Life limit (ps.map .bytes) [] (.greeting ps.flatten)
  | reading {ps : List Bytes} {z : Bytes} {given : List Batch} {d : Batch.Decoder}
      (opened : Opened ps.flatten z) (scanned : d.Scanned limit z given)
      (idle : Batch.front limit d.pending = .ok none) :
      Life limit (ps.map .bytes) given (.reading d)
  | draining {ps : List Bytes} {z : Bytes} {given : List Batch} {d : Batch.Decoder}
      (opened : Opened ps.flatten z) (scanned : d.Scanned limit z given) :
      Life limit (ps.map .bytes) given (.draining d)
  | ended {arrived : List Arrival} {given : List Batch} {e : Ending}
      (ended : Ended limit arrived given e) : Life limit arrived given (.ended e)

variable {limit : Nat} {arrived : List Arrival} {given : List Batch} {ps : List Bytes} {q z : Bytes}
  {d : Batch.Decoder} {h h' : Handler} {e : Ending}

theorem Life.of_ended (life : Life limit arrived given (.ended e)) : Ended limit arrived given e := by
  cases life with
  | ended ended => exact ended

/-- What is at the front of the pending bytes of a decoder that has no batch to give. -/
theorem front_of_none (scanned : d.Scanned limit z given) {d' : Batch.Decoder}
    (next : d.next = (.ok none, d')) : Batch.front limit d.pending = .ok none := by
  have hcases := d.next_cases
  rw [next] at hcases
  cases hcases with
  | none hfront => exact scanned.bound ▸ hfront

/-- What is refused is refused in the stream. -/
theorem contents_of_refused (scanned : d.Scanned limit z given) {d' : Batch.Decoder}
    {f : DecodeFailure} (next : d.next = (.error f, d')) :
    contents limit z = ⟨given, d.pending, some f⟩ := by
  have hcases := d.next_cases
  rw [next] at hcases
  cases hcases with
  | refused hfront =>
    rw [contents, scanned.scan, Batch.scan_of_error (scanned.bound ▸ hfront), List.append_nil]

/-- Where no batch is at the front of what is pending, the batches given are all there are. -/
theorem contents_of_idle (scanned : d.Scanned limit z given)
    (idle : Batch.front limit d.pending = .ok none) :
    contents limit z = ⟨given, d.pending, none⟩ := by
  rw [contents, scanned.scan, Batch.scan_of_none idle, List.append_nil]

/-- **The batches decoded are the first of those that have arrived.** -/
theorem Life.first (life : Life limit arrived given h) :
    given <+: batchesIn limit (bytesOf arrived) := by
  have hscanned : ∀ {ps : List Bytes} {z given d}, Opened ps.flatten z →
      Batch.Decoder.Scanned limit z given d →
      given <+: batchesIn limit (bytesOf (ps.map .bytes)) := by
    intro ps z given d opened scanned
    rw [bytesOf_pieces, batchesIn_of_opened opened, contents, scanned.scan]
    exact List.prefix_append _ _
  cases life with
  | greeting short => exact List.nil_prefix
  | reading opened scanned idle => exact hscanned opened scanned
  | draining opened scanned => exact hscanned opened scanned
  | ended ended => exact ended.first

/-- The end of a handler that was still waiting for a header. -/
theorem ended_short (short : Short ps.flatten) {a : Arrival} (none_ : bytesOf [a] = []) :
    Ended limit (ps.map .bytes ++ [a]) []
      (if (some a : Option Arrival) matches some .stopped then .clean else .failed) := by
  have hbytes := bytesOf_last ps none_
  have hshort : Short (bytesOf (ps.map .bytes ++ [a])) := hbytes ▸ short
  refine ⟨?_, List.nil_prefix, fun _ => (batchesIn_of_short hshort).symm⟩
  rw [verdict_of_short hshort, List.getLast?_concat]

/-- The end of a handler that had decoded all that was there. -/
theorem ended_idle (opened : Opened ps.flatten z) (scanned : d.Scanned limit z given)
    (idle : Batch.front limit d.pending = .ok none) {a : Arrival} (none_ : bytesOf [a] = [])
    (ending : e = match a with
      | .stopped => .clean
      | .eof =>
        if (Gzip.Decoder.start.feedAll z).agrees ∧ d.pending = [] then .clean else .failed
      | _ => .failed) : Ended limit (ps.map .bytes ++ [a]) given e := by
  have hbytes := bytesOf_last ps none_
  have hopened : Opened (bytesOf (ps.map .bytes ++ [a])) z := hbytes ▸ opened
  have hcontents := contents_of_idle scanned idle
  have hall : batchesIn limit (bytesOf (ps.map .bytes ++ [a])) = given := by
    rw [batchesIn_of_opened hopened, hcontents]
  refine ⟨?_, hall ▸ List.prefix_rfl, fun _ => hall.symm⟩
  rw [verdict_of_opened hopened, hcontents, scanned.sound, if_neg (by simp), List.getLast?_concat]
  cases a with
  | bytes _ => exact ending
  | eof | broken _ | stopped => exact ending

/-! ## What a step does to a collector -/

/-- A handler ends, or goes on, and that is counted. -/
def Handler.count (c : Census) : Handler → Census
  | .ended .clean => c.connectionClosed
  | .ended .rejected => c.streamRejected.connectionClosed
  | .ended .failed => c.streamError.connectionClosed
  | _ => c

/-- Handler `i` has become `h'`; but for that and what is reported nothing has changed. -/
structure Became (i : Nat) (peer : String) (h' : Handler) (s s' : Server) : Prop where
  handlers : s'.handlers = s.handlers.setIfInBounds i (peer, h')
  census : s'.census = h'.count s.census
  settings : s'.settings = s.settings
  output : s'.output = s.output

namespace Server

variable {s : Server} {i : Nat} {peer : String}

/-- What has become of handler `i` on whose connection this has arrived. -/
def Turned (limit : Nat) (i : Nat) (peer : String) (arrived : List Arrival) (given : List Batch)
    (s s' : Server) : Prop :=
  ∃ h', Became i peer h' s s' ∧ Life limit arrived given h'

theorem became_fail (s : Server) (i : Nat) (peer : String) (f : Failure) :
    Became i peer (.ended .failed) s (s.fail i peer f) := ⟨rfl, rfl, rfl, rfl⟩

theorem became_reject (s : Server) (i : Nat) (peer protocol : String) :
    Became i peer (.ended .rejected) s (s.reject i peer protocol) := ⟨rfl, rfl, rfl, rfl⟩

theorem became_endClean (s : Server) (i : Nat) (peer : String) :
    Became i peer (.ended .clean) s (s.endClean i peer) := ⟨rfl, rfl, rfl, rfl⟩

/-- The next piece of the stream is fed to the decoder. -/
theorem feed_life (opened : Opened ps.flatten (z ++ q)) (scanned : d.Scanned limit z given)
    (idle : Batch.front limit d.pending = .ok none) :
    Turned limit i peer (ps.map .bytes) given s (s.feed i peer d q) := by
  unfold feed
  split
  · next e d' hfeed =>
    have hfault : (Gzip.Decoder.start.feedAll (z ++ q)).fault? ≠ none := by
      have hresult := (d.feed_eq q).1
      rw [hfeed, scanned.gzip, ← Gzip.Decoder.feedAll_append] at hresult
      intro hnone
      rw [hnone] at hresult
      cases hresult
    have hopened : Opened (bytesOf (ps.map .bytes)) (z ++ q) := (bytesOf_pieces ps).symm ▸ opened
    refine ⟨.ended .failed, became_fail .., .ended ⟨?_, ?_, fun hsound => ?_⟩⟩
    · rw [verdict_of_opened hopened, if_pos (.inl (Option.isSome_iff_ne_none.mpr hfault))]
    · rw [batchesIn_of_opened hopened]
      have hgiven := batches_prefix limit (List.prefix_append z q)
      rwa [contents_of_idle scanned idle] at hgiven
    · exact absurd (hopened.sound.mp hsound) hfault
  · next d' hfeed =>
    exact ⟨.draining d', ⟨rfl, rfl, rfl, rfl⟩, .draining opened (scanned.feed hfeed)⟩

/-- More of a header has arrived, and perhaps what comes behind it. -/
theorem greet_life (settings : s.settings.maxFrameSize = limit) :
    Turned limit i peer (ps.map .bytes) [] s (s.greet i peer ps.flatten) := by
  have hbytes := bytesOf_pieces ps
  unfold greet
  split
  · next f rest hread =>
    rw [if_pos (Header.read_io hread)]
    exact ⟨_, ⟨rfl, rfl, rfl, rfl⟩, .greeting ⟨f, rest, hread⟩⟩
  · next f rest hother hread =>
    have hnone : batchesIn limit (bytesOf (ps.map .bytes)) = [] := by rw [hbytes, batchesIn, hread]
    refine ⟨.ended .failed, became_fail .., .ended ⟨?_, hnone ▸ List.prefix_rfl, fun _ => hnone.symm⟩⟩
    rw [verdict, hbytes, hread]
    cases f with
    | io f => exact absurd rfl (hother f)
    | noAddresses | dial | notConnected | protocol => rfl
  · next protocol rest hread =>
    by_cases hprotocol : protocol = traceProtocol
    · subst hprotocol
      rw [if_neg (fun hne => hne rfl)]
      have hopened : Opened ps.flatten rest.data := ⟨rest, hread, rfl⟩
      have hstart : (Batch.Decoder.start.withLimit limit).Scanned limit [] [] :=
        Batch.Decoder.scanned_start limit
      have hidle : Batch.front limit (Batch.Decoder.start.withLimit limit).pending = .ok none :=
        Batch.front_nil limit
      dsimp only
      rw [show (s.report .debug "accepted tracer stream" [("peer", .text peer)]).settings.maxFrameSize =
        limit from settings]
      by_cases hnil : rest.data = []
      · rw [if_pos (List.isEmpty_iff.mpr hnil)]
        rw [hnil] at hopened
        exact ⟨_, ⟨rfl, rfl, rfl, rfl⟩, .reading hopened hstart hidle⟩
      · rw [if_neg fun h => hnil (List.isEmpty_iff.mp h)]
        obtain ⟨h', hbecame, hlife⟩ := feed_life (z := []) (q := rest.data) (i := i)
          (s := s.report .debug "accepted tracer stream" [("peer", .text peer)]) hopened hstart hidle
        exact ⟨h', ⟨hbecame.handlers, hbecame.census, hbecame.settings, hbecame.output⟩, hlife⟩
    · rw [if_pos hprotocol]
      have hnone : batchesIn limit (bytesOf (ps.map .bytes)) = [] := by
        rw [hbytes, batchesIn, hread]
        exact if_neg hprotocol
      refine ⟨.ended .rejected, became_reject .., .ended ⟨?_, hnone ▸ List.prefix_rfl,
        fun _ => hnone.symm⟩⟩
      rw [verdict, hbytes, hread]
      exact (if_pos hprotocol).symm

/-- **What arrives** at a handler that waits for it. -/
theorem arrive_life {a : Arrival} (settings : s.settings.maxFrameSize = limit)
    (get : s.handlers[i]? = some (peer, h)) (life : Life limit arrived given h)
    (waits : s.isWaiting i = true) : Turned limit i peer (arrived ++ [a]) given s (s.arrive i a) := by
  have hconcat : ∀ (ps : List Bytes) (q : Bytes),
      ps.map Arrival.bytes ++ [.bytes q] = (ps ++ [q]).map .bytes := fun ps q => by
    rw [List.map_append, List.map_singleton]
  have hflatten : ∀ (ps : List Bytes) (q : Bytes), (ps ++ [q]).flatten = ps.flatten ++ q :=
    fun ps q => by rw [List.flatten_append, List.flatten_singleton]
  unfold arrive
  rw [get]
  cases life with
  | @greeting ps short =>
    cases a with
    | bytes q =>
      dsimp only
      rw [hconcat, ← hflatten]
      exact greet_life settings
    | eof =>
      obtain ⟨f, rest, hread⟩ := id short
      dsimp only
      rw [cutHeader, hread]
      exact ⟨_, became_fail .., .ended (ended_short short rfl)⟩
    | broken f => exact ⟨_, became_fail .., .ended (ended_short short rfl)⟩
    | stopped => exact ⟨_, became_endClean .., .ended (ended_short short rfl)⟩
  | @reading ps z given d opened scanned idle =>
    cases a with
    | bytes q =>
      dsimp only
      rw [hconcat]
      exact feed_life (by rw [hflatten]; exact opened.append q) scanned idle
    | eof =>
      dsimp only
      rw [finish]
      by_cases hagrees : (Gzip.Decoder.start.feedAll z).agrees = true ∧ d.pending = []
      · have hfinish : d.finish = .ok () := by
          rw [Batch.Decoder.finish_eq (by rw [scanned.gzip]; exact hagrees.1), if_pos hagrees.2]
        rw [hfinish]
        exact ⟨_, became_endClean .., .ended (ended_idle opened scanned idle rfl (if_pos hagrees).symm)⟩
      · have hended := ended_idle (e := .failed) opened scanned idle (a := .eof) rfl
          (if_neg hagrees).symm
        split
        · next hfinish =>
          by_cases hpending : d.pending = []
          · rw [Batch.Decoder.finish, scanned.gzip, if_neg fun h => hagrees ⟨h, hpending⟩] at hfinish
            cases hfinish
          · exact absurd hfinish (Batch.Decoder.finish_ne_ok hpending)
        · exact ⟨_, became_fail .., .ended hended⟩
    | broken f => exact ⟨_, became_fail .., .ended (ended_idle opened scanned idle rfl rfl)⟩
    | stopped => exact ⟨_, became_endClean .., .ended (ended_idle opened scanned idle rfl rfl)⟩
  | draining => rw [isWaiting, get] at waits; cases waits
  | ended => rw [isWaiting, get] at waits; cases waits

/-- **A handler with something to pass on** decodes the next batch, goes back to reading, or fails. -/
theorem take_life (get : s.handlers[i]? = some (peer, h)) (life : Life limit arrived given h)
    (drains : s.isDraining i = true) :
    ∃ h', (s.take i).1.handlers = s.handlers.setIfInBounds i (peer, h') ∧
      (s.take i).1.census = (s.take i).2.elim (h'.count s.census)
        (fun batch => (h'.count s.census).batchReceived batch.entries.length) ∧
      (s.take i).1.settings = s.settings ∧ (s.take i).1.output = s.output ∧
      Life limit arrived (given ++ (s.take i).2.toList) h' := by
  cases life with
  | @draining ps z given d opened scanned =>
    unfold take
    rw [get]
    dsimp only
    rcases hnext : d.next with ⟨e | _ | batch, d'⟩
    · have hrefused := contents_of_refused scanned hnext
      have hopened : Opened (bytesOf (ps.map .bytes)) z := (bytesOf_pieces ps).symm ▸ opened
      have hall : batchesIn limit (bytesOf (ps.map .bytes)) = given := by
        rw [batchesIn_of_opened hopened, hrefused]
      rw [Option.toList_none, List.append_nil]
      refine ⟨.ended .failed, rfl, rfl, rfl, rfl, .ended ⟨?_, hall ▸ List.prefix_rfl,
        fun _ => hall.symm⟩⟩
      rw [verdict_of_opened hopened, hrefused]
      exact (if_pos (.inr rfl)).symm
    · obtain ⟨rfl, -⟩ := scanned.idle hnext
      rw [Option.toList_none, List.append_nil]
      exact ⟨.reading d', rfl, rfl, rfl, rfl,
        .reading opened scanned (front_of_none scanned hnext)⟩
    · exact ⟨.draining d', rfl, rfl, rfl, rfl, .draining opened (scanned.next hnext)⟩
  | greeting | reading | ended => rw [isDraining, get] at drains; cases drains

end Server

end TraceRelay.Collector
