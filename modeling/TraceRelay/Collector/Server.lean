import TraceRelay.Batch.Decoder
import TraceRelay.Collector.Failure
import TraceRelay.Config
import TraceRelay.Peer.Header
import TraceRelay.Recorder.File
import TraceRelay.Tcp.Network
import TraceRelay.Tracer

/-!
# A collector

A collector takes streams of remote tracers and traces every event that comes in, encoded as it is,
into one file. Each connection has a handler: it reads a header and turns away any protocol but that
of traces, then feeds a decoder and passes on the events of each batch that is complete.

A handler ends clean, if its stream ends where it may or the collector is stopped; rejected, if the
protocol is another one; and failed otherwise. `Server.arrive` and `Server.drain` are the steps of a
handler: what it reads, and one batch that it passes on.
-/

namespace TraceRelay.Collector

/-- What a handler reads from its connection, or is told. -/
inductive Arrival where
  | bytes (data : Bytes)
  | eof
  | broken (f : Fault)
  /-- The collector is being stopped. -/
  | stopped
  deriving Inhabited

inductive Ending where
  | clean
  | rejected
  | failed
  deriving DecidableEq, Repr, Inhabited

inductive Handler where
  /-- Bytes of a header that is not complete. -/
  | greeting (got : Bytes)
  | reading (d : Batch.Decoder)
  /-- There may be batches to pass on. -/
  | draining (d : Batch.Decoder)
  | ended (e : Ending)
  deriving Inhabited

structure Server where
  settings : Config.Collector
  census : Census
  file : Storage.File
  output : Tracer (Recorder Bytes)
  /-- The address of each connection, and its handler. -/
  handlers : Array (String × Handler)
  journal : Array Log.Record

namespace Server

def report (s : Server) (level : Log.Level) (message : String)
    (fields : List (String × Log.Value)) : Server :=
  { s with journal := s.journal.push ⟨level, .server, message, fields⟩ }

/-- A collector that has its address and its output. -/
def ofOutput (settings : Config.Collector) (output : FileRecorder Bytes) : Server :=
  let s : Server := ⟨settings, .zero, output.file, .start output.recorder, #[], #[]⟩
  s.report .info "trace collector listening"
    [("address", .text settings.listen), ("output", .text settings.output),
      ("append", .flag settings.append)]

/-- Listens, and opens the output. -/
def start (network : Network) (settings : Config.Collector) (storage : Storage)
    (plan : ChannelPlan := {}) : Except Failure (Server × Storage) :=
  match network.resolve settings.listen >>= network.listen with
  | .error f => .error (.unbound settings.listen f)
  | .ok () =>
    match FileRecorder.start true storage settings.output settings.append .rawDelimited plan with
    | .error f => .error (.output f)
    | .ok (output, storage) => .ok (ofOutput settings output, storage)

/-- A connection has been made. -/
def accept (s : Server) (peer : String) : Server :=
  { s with census := s.census.connectionOpened, handlers := s.handlers.push (peer, .greeting []) }

def setHandler (s : Server) (i : Nat) (peer : String) (h : Handler) : Server :=
  { s with handlers := s.handlers.setIfInBounds i (peer, h) }

/-- A handler is done with its connection. -/
def close (s : Server) (i : Nat) (peer : String) (e : Ending) : Server :=
  { s with census := s.census.connectionClosed }.setHandler i peer (.ended e)

/-- The stream ended where it may. -/
def endClean (s : Server) (i : Nat) (peer : String) : Server :=
  (s.report .debug "tracer stream ended" [("peer", .text peer)]).close i peer .clean

def endWith (s : Server) (i : Nat) (peer : String) (e : Ending) (f : Failure) : Server :=
  (s.report .warn "tracer stream failed"
    [("peer", .text peer), ("error", .text f.text)]).close i peer e

/-- The stream is of another protocol. -/
def reject (s : Server) (i : Nat) (peer protocol : String) : Server :=
  { s with census := s.census.streamRejected }.endWith i peer .rejected
    (.unsupportedProtocol protocol)

def fail (s : Server) (i : Nat) (peer : String) (f : Failure) : Server :=
  { s with census := s.census.streamError }.endWith i peer .failed f

/-- Bytes of the compressed stream have been read. -/
def feed (s : Server) (i : Nat) (peer : String) (d : Batch.Decoder) (data : Bytes) : Server :=
  match d.feed data with
  | (.error e, _) => s.fail i peer (.decode e)
  | (.ok (), d) => s.setHandler i peer (.draining d)

/-- More of a header has been read, and perhaps what comes after it. -/
def greet (s : Server) (i : Nat) (peer : String) (got : Bytes) : Server :=
  match Header.read (Source.ofBytes got) with
  | (.error (.io f), _) =>
    if f.kind = .unexpectedEof then s.setHandler i peer (.greeting got)
    else s.fail i peer (.header (.io f))
  | (.error f, _) => s.fail i peer (.header f)
  | (.ok protocol, rest) =>
    if protocol ≠ traceProtocol then s.reject i peer protocol
    else
      let s := s.report .debug "accepted tracer stream" [("peer", .text peer)]
      let d := Batch.Decoder.start.withLimit s.settings.maxFrameSize
      if rest.data.isEmpty then s.setHandler i peer (.reading d) else s.feed i peer d rest.data

/-- The connection ended inside a header. -/
def cutHeader (s : Server) (i : Nat) (peer : String) (got : Bytes) : Server :=
  match Header.read (Source.ofBytes got) with
  | (.error f, _) => s.fail i peer (.header f)
  | (.ok _, _) => s

/-- The connection ended after a header. -/
def finish (s : Server) (i : Nat) (peer : String) (d : Batch.Decoder) : Server :=
  match d.finish with
  | .ok () => s.endClean i peer
  | .error e => s.fail i peer (.decode e)

/-- Something arrives at handler `i`, which waits for it. -/
def arrive (s : Server) (i : Nat) (a : Arrival) : Server :=
  match s.handlers[i]?, a with
  | some (peer, .greeting got), .bytes data => s.greet i peer (got ++ data)
  | some (peer, .greeting got), .eof => s.cutHeader i peer got
  | some (peer, .greeting _), .broken f => s.fail i peer (.header (.io f))
  | some (peer, .reading d), .bytes data => s.feed i peer d data
  | some (peer, .reading d), .eof => s.finish i peer d
  | some (peer, .reading _), .broken f => s.fail i peer (.io f)
  | some (peer, .greeting _), .stopped | some (peer, .reading _), .stopped => s.endClean i peer
  | _, _ => s

/-- A batch is passed on. -/
def pass (s : Server) (peer : String) (batch : Batch) : Server :=
  let s := { s with census := s.census.batchReceived batch.entries.length }.report .trace
    "received trace batch" [("peer", .text peer), ("events", .number batch.entries.length)]
  { s with output.loop := batch.entries.foldl Recorder.trace s.output.loop }

/-- Handler `i` passes on the next batch, or goes back to reading. -/
def drain (s : Server) (i : Nat) : Server :=
  match s.handlers[i]? with
  | some (peer, .draining d) =>
    match d.next with
    | (.ok (some batch), d) => (s.setHandler i peer (.draining d)).pass peer batch
    | (.ok none, d) => s.setHandler i peer (.reading d)
    | (.error e, _) => s.fail i peer (.decode e)
  | _ => s

def isDraining (s : Server) (i : Nat) : Bool := s.handlers[i]?.any (·.2 matches .draining _)

/-- Whether handler `i` has not ended. -/
def isOpen (s : Server) (i : Nat) : Bool := s.handlers[i]?.any (!·.2 matches .ended _)

/-- Handler `i` passes on every batch that is there; `fuel` bounds their number. -/
def drainAll (s : Server) (i : Nat) : (fuel : Nat) → Server
  | 0 => s
  | fuel + 1 => if s.isDraining i then (s.drain i).drainAll i fuel else s

/-- Something arrives at handler `i` and is dealt with. -/
def handle (s : Server) (i : Nat) (a : Arrival) : Server :=
  let s := s.arrive i a
  match s.handlers[i]? with
  | some (_, .draining d) => s.drainAll i (d.held.size + 2)
  | _ => s

/-- The output takes what there is to write. -/
def write (s : Server) : Server :=
  { s with output.loop := Clocked.settle Clocked.patience s.output.loop }

/-- The output is closed. -/
def shut (s : Server) : Server := { s with output := s.output.beginShutdown.1 }

/-- The collector is stopped: every handler is told, the output is closed and written to its end. -/
def stop (s : Server) : Server :=
  let s := (List.range s.handlers.size).foldl (fun s i => s.handle i .stopped) s
  let s := s.shut.write
  let number (n : UInt64) : Log.Value := .number n.toNat
  s.report .info "trace collector stopped"
    [("connections", number s.census.opened), ("batches_received", number s.census.batches),
      ("events_received", number s.census.events),
      ("events_written", number s.output.loop.intake.tally.eventsWritten),
      ("stream_errors", number s.census.errors)]

/-- Everything that was reported, that of the output first. -/
def records (s : Server) : List Log.Record :=
  s.output.loop.intake.journal.toList ++ s.journal.toList

/-- The bytes that were written since they were last taken. -/
def takeWritten (s : Server) : Bytes × Server :=
  (s.output.loop.output.accepted, { s with output.loop.output.accepted := [] })

/-- What was reported since it was last taken. -/
def takeRecords (s : Server) : List Log.Record × Server :=
  (s.records, { s with journal := #[], output.loop.intake.journal := #[] })

/-- The storage with all that has been written. -/
def store (s : Server) (storage : Storage) : Storage :=
  (storage.write s.file s.output.loop.output.accepted).1

end Server

end TraceRelay.Collector
