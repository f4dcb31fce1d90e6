import Mathlib
import TraceRelay.Proofs.Collector.Receipt
import TraceRelay.Proofs.Courier.Undisturbed
import TraceRelay.Proofs.Courier.Unbroken
import TraceRelay.Proofs.Framing.TraceFile
import TraceRelay.Proofs.Gzip.Stored
import TraceRelay.Proofs.Recorder.File

/-!
# From a remote tracer to the file of a collector

What a remote tracer delivers to a collector ends up in the collector's file as if it had been traced
into a file on the spot (`end_to_end`). A run of each of three parties is put together:

1. `Sending`: a remote tracer whose streams do not fail.
2. `Collecting`: a collector that one connection is made to, and that reads what was sent in whatever
   pieces, up to the end.
3. `Recording`: a file tracer on the spot, of the path and mode of the collector's output.

Each goes by its own clock, and its steps and those of its callers come in any order.
-/

namespace TraceRelay.EndToEnd

open Collector (Arrival Server)
open Courier (Deeds)

variable {α : Type} [Message α]

/-! ## The parties -/

/-- A remote tracer that has run to its end, on a net that did not fail it. -/
structure Sending (connector : Connector) (window : Duration) (method : Gzip.Method) (level : Nat)
    (net : Net) (cancelled : Bool) (ms : List (Courier.Move α)) (ds : Deeds α) (c : Courier α) :
    Prop where
  protocol : connector.protocol = traceProtocol
  fresh : net.channels = #[]
  faultless : net.Faultless
  run : Courier.Run (.start connector window method level net cancelled) ms ds c
  ended : c.phase = .ended
  opened : c.net.channels.size ≠ 0

/-- A collector that one connection was made to, on which some pieces arrived, and then the end. Its
output did not fail, and has been closed. -/
structure Collecting (storage : Storage) (settings : Config.Collector) (peer : String)
    (pieces : List Bytes) (ms : List Server.Move) (s : Server) (storage' : Storage) : Prop where
  bounded : settings.maxFrameSize < UInt64.size
  run : ∃ network plan s₀, plan.Faultless ∧
    Server.start network settings storage plan = .ok (s₀, storage') ∧ Server.Run s₀ ms s
  one_peer : Server.peers ms = [peer]
  arrived : Server.arrivals ms = pieces.map .bytes ++ [.eof]
  ended : s.output.loop.phase = .ended

/-- A file tracer of messages that has accepted some events and run to its end. -/
structure Recording (storage : Storage) (path : String) (append : Bool)
    (ms : List (Recorder.Move α)) (es : List α) (f : FileRecorder α) (storage' : Storage) :
    Prop where
  run : ∃ plan f₀, plan.Faultless ∧
    FileRecorder.start true storage path append .delimited plan = .ok (f₀, storage') ∧
    f.file = f₀.file ∧ Recorder.Run f₀.recorder ms es f.recorder
  ended : f.recorder.phase = .ended

/-! ## What comes of it -/

/-- The file, and the counters on both sides. -/
structure Delivered (storage : Storage) (settings : Config.Collector) (ms : List (Courier.Move α))
    (ds : Deeds α) (c : Courier α) (s : Server) (stored : Storage) : Prop where
  traced : ds.refused = [] → ds.accepted = Courier.traced ms
  /-- Behind what was there, the file holds the records of all events that the tracer accepted. -/
  file : stored.read settings.output = .ok (storage.before settings.append s.file.place ++
    (ds.accepted.map Message.encode).flatMap Wire.block)
  /-- Where nothing was there, a reader gives these events. -/
  read : storage.before settings.append s.file.place = [] →
    (∀ e ∈ ds.accepted, (Message.encode e).length ≤ Frame.defaultLimit) →
    (∀ e ∈ ds.accepted, Message.decode (Message.encode e) = .ok e) →
    ∃ file, stored.read settings.output = .ok file ∧ Frame.readEvents file = .ok ds.accepted
  batches : s.census.batches = c.intake.tally.batchesSent
  events : s.census.events = .ofNat ds.accepted.length
  sent : c.intake.tally.eventsWritten = .ofNat ds.accepted.length
  written : s.output.loop.intake.tally.eventsWritten = .ofNat ds.accepted.length
  errors : s.census.errors = 0

section

variable {connector : Connector} {window : Duration} {method : Gzip.Method} {level : Nat} {net : Net}
  {cancelled : Bool} {ms : List (Courier.Move α)} {ds : Deeds α} {c : Courier α}
  {storage storage' : Storage} {settings : Config.Collector} {peer : String} {pieces : List Bytes}
  {cms : List Server.Move} {s : Server}

/-- A collector that has just been started. -/
theorem receipt_start {network : Network} {plan : ChannelPlan} {s₀ : Server} (e : Gzip.Encoder)
    (sent : List (List α)) (peer : String) (stream : List Arrival) (faultless : plan.Faultless)
    (h : Server.start network settings storage plan = .ok (s₀, storage')) :
    ∃ f, FileRecorder.Started storage settings.output settings.append .rawDelimited f storage' ∧
      Server.Receipt f.file settings.maxFrameSize e sent peer stream [peer] stream s₀ := by
  unfold Server.start at h
  split at h
  · cases h
  · split at h
    · cases h
    · next f storage₁ hstart =>
      cases h
      have hstarted := FileRecorder.start_spec hstart faultless
      refine ⟨f, hstarted, .before rfl ?_⟩
      exact ⟨rfl, rfl, rfl, rfl, rfl, hstarted.encoder, hstarted.lossless, fun _ => hstarted.open_⟩

/-- What the output of a collector has written. -/
theorem written_of_passed {dest : Storage.File} {limit : Nat}
    (h : Server.Passed dest limit ds.sent s) (blocks : ds.sent.flatten = ds.accepted)
    (ended : s.output.loop.phase = .ended) :
    s.output.loop.output.accepted = (ds.accepted.map Message.encode).flatMap Wire.block ∧
      s.output.loop.intake.tally.eventsWritten = .ofNat ds.accepted.length := by
  obtain ⟨haccepted, hcounts, -⟩ := h.output.written ended
  simp only [Recorder.counts, Recorder.countsOf, List.cons.injEq, and_true] at hcounts
  rw [h.encoder, blocks] at haccepted hcounts
  refine ⟨haccepted.trans (FileRecorder.records_rawDelimited _), ?_⟩
  rw [hcounts.1, FileRecorder.recordable_rawDelimited, List.length_map]

/-- **From a remote tracer to the file of a collector.** The file is the one that a file tracer on the
spot would have left. -/
theorem end_to_end (sound : method.Sound level)
    (sending : Sending connector window method level net cancelled ms ds c)
    (collecting : Collecting storage settings peer pieces cms s storage')
    (wire : pieces.flatten = Header.write connector.protocol ++ (c.net.channel 0).accepted)
    (admits : ∀ events ∈ ds.sent, Batch.Admits settings.maxFrameSize events) :
    Delivered storage settings ms ds c s (s.store storage') ∧
      ∀ rms f local', Recording storage settings.output settings.append rms ds.accepted f local' →
        f.store local' = s.store storage' := by
  have hwhole := sending.run.whole sound sending.fresh sending.faultless sending.ended sending.opened
  obtain ⟨network, plan, s₀, hplan, hstart, hrun⟩ := collecting.run
  obtain ⟨f₀, hstarted, hreceipt⟩ := receipt_start (.start method level) ds.sent peer
    (pieces.map .bytes ++ [.eof]) hplan hstart
  have hpieces : Server.Pieces (.start method level) ds.sent (pieces.map .bytes ++ [.eof]) :=
    ⟨pieces, rfl, by rw [wire, sending.protocol, hwhole.accepted]; rfl⟩
  obtain ⟨-, hpassed⟩ := hrun.received hreceipt sound collecting.bounded admits hpieces
    collecting.one_peer collecting.arrived
  obtain ⟨hwritten, hcount⟩ := written_of_passed hpassed hwhole.blocks collecting.ended
  have hopened := Storage.openFile_spec hstarted.openFile
  have hfile : (s.store storage').read settings.output =
      .ok (storage.before settings.append s.file.place ++
        (ds.accepted.map Message.encode).flatMap Wire.block) := by
    rw [Server.store, hwritten, hpassed.file]
    exact hopened.read_written _
  refine ⟨⟨sending.run.accepted_eq_traced, hfile, ?_, ?_, ?_, hwhole.written, hcount,
    hpassed.errors⟩, ?_⟩
  · intro hbefore fits lawful
    rw [hbefore, List.nil_append] at hfile
    exact ⟨_, hfile, Frame.readEvents_written fits lawful⟩
  · rw [hpassed.batches, hwhole.sent]
  · rw [hpassed.events, hwhole.blocks]
  · intro rms f local' hlocal
    obtain ⟨plan', f₁, hplan', hstart', hsame, hrun'⟩ := hlocal.run
    have hstarted' := FileRecorder.start_spec hstart' hplan'
    obtain ⟨haccepted, -, -⟩ := (hrun'.lossless hstarted'.lossless).written hlocal.ended
    rw [hrun'.encoder, hstarted'.encoder, FileRecorder.records_delimited]
      at haccepted
    have hopen := hstarted.openFile.symm.trans hstarted'.openFile
    simp only [Except.ok.injEq, Prod.mk.injEq] at hopen
    rw [FileRecorder.store, haccepted, hsame, ← hopen.1, ← hopen.2, Server.store, hwritten,
      hpassed.file]

end

/-! ## Two batches -/

namespace TwoBatches

/-- A tracer on a net where everything succeeds. -/
def tracer : Courier Event :=
  .start ⟨"remote", ⟨"peer", []⟩, traceProtocol, .ofSeconds 1, .ofSeconds 1⟩ (.ofSeconds 0) .stored 6
    (.start (.always ⟨0, some (.ok ())⟩) (.always ⟨0, some (.ok {})⟩)) false

/-- One event, and once it is sent two more and the close. -/
def calls : List (Courier.Move Event) :=
  [.trace ⟨"a", 1⟩] ++ Courier.works 11 ++ [.trace ⟨"b", 2⟩, .trace ⟨"c", 3⟩, .close] ++
    Courier.works 12

/-- What is on the wire in the end. -/
def wire : Bytes :=
  match tracer.moves calls with
  | some (_, c) => Header.write traceProtocol ++ (c.net.channel 0).accepted
  | none => []

/-- Cut inside the header and inside the first batch. -/
def pieces : List Bytes := [wire.take 20, (wire.drop 20).take 40, (wire.drop 20).drop 40]

def settings : Config.Collector := { listen := "127.0.0.1:4001", output := "t" }

/-- The file of the output, and the storage with it. -/
def file : Storage.File := ⟨["t"], false, 0⟩

def storage : Storage := ⟨[(["t"], .file [])]⟩

def collector : Server := .ofOutput settings (.ofFile settings.output file .rawDelimited)

/-- The output goes on while the stream arrives, and after the stop. -/
def collection : List Server.Move :=
  [.accept "tracer", .arrive 0 (.bytes (wire.take 20)), .work,
    .arrive 0 (.bytes ((wire.drop 20).take 40)), .drain 0, .drain 0, .work, .work, .work,
    .arrive 0 (.bytes ((wire.drop 20).drop 40)), .drain 0, .drain 0, .arrive 0 .eof, .shut] ++
    List.replicate 19 .work

/-- The same events on the spot. -/
def onTheSpot : List (Recorder.Move Event) :=
  [.trace ⟨"a", 1⟩, .trace ⟨"b", 2⟩, .trace ⟨"c", 3⟩, .close] ++ List.replicate 17 .work

def recorder : FileRecorder Event := .ofFile settings.output file .delimited

theorem openFile_eq :
    Storage.empty.openFile settings.output settings.append = .ok (file, storage) := by
  show Storage.empty.openFile "t" false = _
  rw [Storage.openFile, Storage.placeOf, Storage.names_letter (.inl rfl)]
  rfl

theorem start_eq : Server.start .isolated settings .empty = .ok (collector, storage) := by
  have hparse : Address.parse? settings.listen = some ⟨.v4 [127, 0, 0, 1], 4001⟩ := by
    decide +kernel
  have hbound : Network.isolated.resolve settings.listen >>= Network.isolated.listen = .ok () := by
    unfold Network.resolve
    rw [hparse]
    rfl
  unfold Server.start FileRecorder.start
  rw [hbound, openFile_eq]
  rfl

theorem start_recorder_eq :
    FileRecorder.start true .empty settings.output settings.append .delimited =
      .ok (recorder, storage) := by
  unfold FileRecorder.start
  rw [openFile_eq]
  rfl

theorem faultless : tracer.net.Faultless := by
  rintro reaction (h | rfl) plan hplan
  · cases h
  · cases hplan
    exact ChannelPlan.faultless_default

theorem flatten_pieces : pieces.flatten = wire := by
  rw [pieces, List.flatten_cons, List.flatten_cons, List.flatten_singleton, List.take_append_drop,
    List.take_append_drop]

end TwoBatches

open TwoBatches in
theorem end_to_end_twoBatches :
    ∃ ds c s f, Sending ⟨"remote", ⟨"peer", []⟩, traceProtocol, .ofSeconds 1, .ofSeconds 1⟩
        (.ofSeconds 0) .stored 6 tracer.net false calls ds c ∧
      Collecting .empty settings "tracer" pieces collection s storage ∧
      Recording .empty settings.output settings.append onTheSpot ds.accepted f storage ∧
      ds.sent = [[⟨"a", 1⟩], [⟨"b", 2⟩, ⟨"c", 3⟩]] ∧
      Delivered .empty settings calls ds c s (s.store storage) ∧
      f.store storage = s.store storage := by
  have hsent : (tracer.moves calls).map (fun (ds, c) => (c.isEnded, c.net.channels.size,
      ds.sent, ds.accepted)) = some (true, 1, [[⟨"a", 1⟩], [⟨"b", 2⟩, ⟨"c", 3⟩]],
        [⟨"a", 1⟩, ⟨"b", 2⟩, ⟨"c", 3⟩]) := by decide +kernel
  have hcollected : (collector.moves collection).map (·.output.loop.isEnded) = some true := by
    decide +kernel
  have hrecorded : (recorder.recorder.moves onTheSpot).map (fun (es, r) => (r.isEnded, es)) =
      some (true, [⟨"a", 1⟩, ⟨"b", 2⟩, ⟨"c", 3⟩]) := by decide +kernel
  rw [Option.map_eq_some_iff] at hsent hcollected hrecorded
  obtain ⟨⟨ds, c⟩, hmoves, hends⟩ := hsent
  obtain ⟨s, hcollection, hended⟩ := hcollected
  obtain ⟨⟨es, r⟩, honTheSpot, hrecorder⟩ := hrecorded
  simp only [Prod.mk.injEq] at hends hrecorder
  obtain ⟨hcourier, hsize, hsent, haccepted⟩ := hends
  obtain ⟨hrecorder, rfl⟩ := hrecorder
  have hsending : Sending ⟨"remote", ⟨"peer", []⟩, traceProtocol, .ofSeconds 1, .ofSeconds 1⟩
      (.ofSeconds 0) .stored 6 tracer.net false calls ds c :=
    ⟨rfl, rfl, faultless, Courier.Run.start.moves hmoves, Courier.isEnded_iff.mp hcourier,
      by rw [hsize]; nofun⟩
  have hcollecting : Collecting .empty settings "tracer" pieces collection s storage :=
    ⟨by decide, ⟨.isolated, {}, collector, ChannelPlan.faultless_default, start_eq,
      Server.Run.start.moves hcollection⟩, rfl, rfl, Recorder.isEnded_iff.mp hended⟩
  have hrecording : Recording .empty settings.output settings.append onTheSpot ds.accepted
      { recorder with recorder := r } storage :=
    ⟨⟨{}, recorder, ChannelPlan.faultless_default, start_recorder_eq, rfl,
      haccepted ▸ Recorder.Run.start.moves honTheSpot⟩, Recorder.isEnded_iff.mp hrecorder⟩
  have hwire : pieces.flatten = Header.write traceProtocol ++ (c.net.channel 0).accepted := by
    rw [flatten_pieces, wire, hmoves]
  have hadmits : ∀ events ∈ ds.sent, Batch.Admits settings.maxFrameSize events := by
    rw [hsent]
    unfold Batch.Admits
    decide +kernel
  obtain ⟨hdelivered, hsame⟩ :=
    end_to_end (Gzip.Method.sound_stored 6) hsending hcollecting hwire hadmits
  exact ⟨ds, c, s, _, hsending, hcollecting, hrecording, hsent, hdelivered, hsame _ _ _ hrecording⟩

end TraceRelay.EndToEnd
