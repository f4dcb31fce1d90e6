import TraceRelay.Batch
import TraceRelay.Connector
import TraceRelay.Gzip.Encoder
import TraceRelay.Intake

/-!
# Delivery to a collector

A courier is the write loop of a remote tracer. It opens a stream, waits for a wake, lets events
gather for a while, takes all of them, and sends them as one batch: one frame, compressed and flushed
so that the collector can read it at once. A batch whose sending fails is dropped; its stream is
reset and another one opened.

On a close, or a cancellation, what is queued goes out as the last batch; the compressed stream is
completed and the stream closed. What is still queued when there is no stream is dropped.

`Courier.work` is one step: it touches what the courier shares with its callers at most once, and
moves at most one piece of data. Callers, time and cancellations may come between any two steps.
-/

namespace TraceRelay

namespace Courier

/-- An open stream, by its number, and the compressed stream on it. -/
structure Session where
  stream : Nat
  gzip : Gzip.Encoder
  deriving Inhabited

/-- A batch on its way: its events, and the length of what is written for them. -/
structure Parcel where
  events : Nat
  size : Nat
  deriving Inhabited

inductive Phase where
  | starting
  /-- A stream is being opened. `closing`: the close has been seen; `again`: it is not the first. -/
  | opening (o : Opening) (closing again : Bool)
  | waiting (s : Session)
  /-- Events gather until `deadline`. -/
  | gathering (s : Session) (deadline : Nat)
  /-- The events are about to be taken, `last` for the last time. -/
  | collecting (s : Session) (last : Bool)
  | writing (s : Session) (last : Bool) (parcel : Parcel) (rest : Bytes)
  | flushing (s : Session) (last : Bool) (parcel : Parcel)
  /-- The end of the compressed stream is being written. -/
  | completing (stream : Nat) (rest : Bytes)
  | flushingEnd (stream : Nat)
  | closing (stream : Nat)
  /-- There is no stream any more: the buffer is about to be closed, then emptied. -/
  | leaving
  | discarding
  | ended
  deriving Inhabited

/-- Of two things that are ready at once, the one that a step looks at first. -/
inductive Pick where
  | former
  | latter
  deriving DecidableEq, Repr

/-- The first of two, or else the second, in the order picked. -/
def Pick.choose {β : Type} (pick : Pick) (a b : Option β) : Option β :=
  match pick with
  | .former => a <|> b
  | .latter => b <|> a

end Courier

structure Courier (α : Type) where
  connector : Connector
  batchWindow : Duration
  method : Gzip.Method
  compressionLevel : Nat
  intake : Intake α
  net : Net
  cancelled : Bool
  /-- Whether the connector was told to stop. -/
  stopped : Bool
  scratch : Array α
  /-- Whether a wake came while a stream was being opened. -/
  pendingWake : Bool
  phase : Courier.Phase
  deriving Inhabited

namespace Courier

variable {α : Type}

def start (connector : Connector) (batchWindow : Duration) (method : Gzip.Method)
    (compressionLevel : Nat) (net : Net) (cancelled : Bool) : Courier α :=
  ⟨connector, batchWindow, method, compressionLevel, .start connector.name .remote, net, cancelled,
    false, #[], false, .starting⟩

/-! ## Callers -/

def trace (c : Courier α) (e : α) : Courier α :=
  match c with
  | ⟨connector, window, method, level, intake, net, cancelled, stopped, scratch, wake, phase⟩ =>
    ⟨connector, window, method, level, intake.trace e, net, cancelled, stopped, scratch, wake, phase⟩

def close (c : Courier α) : Courier α := { c with intake := c.intake.close }

/-- The tracer is let go of. -/
def abandon (c : Courier α) : Courier α := { c with intake := c.intake.abandon }

def cancel (c : Courier α) : Courier α := { c with cancelled := true }

/-- Time goes on to `t`. -/
def advance (c : Courier α) (t : Nat) : Courier α := { c with net := { c.net with clock := t } }

def isEnded (c : Courier α) : Bool := c.phase matches .ended

/-! ## Opening a stream -/

def errorField (text : String) : String × Log.Value := ("error", .text text)

def peerField (c : Courier α) : String × Log.Value := ("peer", .text c.connector.target.peer)

/-- The opening is over. -/
def endOpening (c : Courier α) (again : Bool) : Except OpenFailure Nat → Courier α
  | .ok stream =>
    let intake := if again then c.intake.count .reconnect else c.intake
    { c with intake, phase := .waiting ⟨stream, .start c.method c.compressionLevel⟩ }
  | .error .closed =>
    { c with
      intake := c.intake.report .warn "closed before a trace stream could be opened" [c.peerField]
      phase := .leaving }
  | .error e =>
    { c with
      intake := c.intake.report .error "giving up on remote trace stream"
        [c.peerField, errorField e.text]
      phase := .leaving }

/-- The opening goes on by a step of the connector. -/
def workOpening (c : Courier α) (o : Opening) (closing again : Bool) : Option (Courier α) :=
  match o.result? with
  | some result => some (c.endOpening again result)
  | none => (c.connector.step c.cancelled c.stopped c.net o).map fun turn =>
    let intake := if turn.counted then c.intake.count .connectFailure else c.intake
    { c with
      intake := intake.logAll turn.records
      net := turn.net
      phase := .opening turn.opening closing again }

/-- A signal seen while a stream is being opened: a wake is kept for later, a close stops the
connector. -/
def noticeOpening (c : Courier α) (o : Opening) (closing again : Bool) : Option (Courier α) :=
  if closing then none
  else match c.intake.wait with
    | (_, none) => none
    | (intake, some .wake) => some { c with intake, pendingWake := true }
    | (intake, some .closed) =>
      some { c with intake, stopped := true, phase := .opening o true again }

/-! ## Waiting -/

/-- A wake lets events gather, a close does not. -/
def heed (c : Courier α) (s : Session) : Signal → Courier α
  | .wake => { c with phase := .gathering s (c.net.clock + c.batchWindow.ticks) }
  | .closed => { c with phase := .collecting s true }

def noticeSignal (c : Courier α) (s : Session) : Option (Courier α) :=
  match c.intake.wait with
  | (_, none) => none
  | (intake, some signal) => some ({ c with intake }.heed s signal)

/-- A cancellation closes the buffer, and counts as a close. -/
def noticeCancel (c : Courier α) (s : Session) : Option (Courier α) :=
  if c.cancelled then some ({ c with intake := c.intake.abandon }.heed s .closed) else none

/-! ## Sending -/

/-- The batch is done with and the stream sound. -/
def endBatch (c : Courier α) (s : Session) (last : Bool) : Courier α :=
  if last then { c with phase := .completing s.stream s.gzip.finish } else { c with phase := .waiting s }

/-- Takes what is queued; nothing is written if nothing is. -/
def collect [Message α] (c : Courier α) (s : Session) (last : Bool) : Courier α :=
  let (intake, taken) := c.intake.swap c.scratch
  let c := { c with intake, scratch := taken }
  if taken.isEmpty then c.endBatch s last
  else
    let (gzip, data) := s.gzip.flush (Batch.frame taken.toList)
    { c with phase := .writing { s with gzip } last ⟨taken.size, data.length⟩ data }

/-- The batch is on the stream. -/
def sent (c : Courier α) (s : Session) (last : Bool) (parcel : Parcel) : Courier α :=
  let intake := (c.intake.count (·.batchSent parcel.events parcel.size)).report .trace
    "sent trace batch" [("events", .number parcel.events), ("bytes", .number parcel.size)]
  { c with intake, scratch := #[] }.endBatch s last

/-- The batch is lost and the stream of no more use. -/
def lost (c : Courier α) (s : Session) (last : Bool) (parcel : Parcel) (f : Fault) : Courier α :=
  let intake := ((c.intake.count .batchFailed).count .writeError).report .error
    "failed to send trace batch, dropping it" [("events", .number parcel.events), errorField f.text]
  { c with
    intake
    scratch := #[]
    net := c.net.reset s.stream
    phase := if last then .leaving else .opening .start false true }

def write (c : Courier α) (s : Session) (last : Bool) (parcel : Parcel) (rest : Bytes) : Courier α :=
  match c.net.write s.stream rest with
  | (net, none) => { c with net }
  | (net, some (.error f)) => { c with net }.lost s last parcel f
  | (net, some (.ok 0)) => { c with net }.lost s last parcel .writeZero
  | (net, some (.ok n)) =>
    let rest := rest.drop n
    { c with net, phase := if rest.isEmpty then .flushing s last parcel else .writing s last parcel rest }

def flush (c : Courier α) (s : Session) (last : Bool) (parcel : Parcel) : Courier α :=
  match c.net.flush s.stream with
  | (net, .ok ()) => { c with net }.sent s last parcel
  | (net, .error f) => { c with net }.lost s last parcel f

/-! ## The end of a stream -/

def warnClose (c : Courier α) (f : Fault) : Courier α :=
  { c with intake := c.intake.report .warn "failed to close trace stream" [errorField f.text] }

/-- The stream could not be completed. -/
def spoiled (c : Courier α) (stream : Nat) (f : Fault) : Courier α :=
  { c.warnClose f with net := c.net.reset stream, phase := .leaving }

def complete (c : Courier α) (stream : Nat) (rest : Bytes) : Courier α :=
  match c.net.write stream rest with
  | (net, none) => { c with net }
  | (net, some (.error f)) => { c with net }.spoiled stream f
  | (net, some (.ok 0)) => { c with net }.spoiled stream .writeZero
  | (net, some (.ok n)) =>
    let rest := rest.drop n
    { c with net, phase := if rest.isEmpty then .flushingEnd stream else .completing stream rest }

def flushEnd (c : Courier α) (stream : Nat) : Courier α :=
  match c.net.flush stream with
  | (net, .ok ()) => { c with net := net.startClose stream, phase := .closing stream }
  | (net, .error f) => { c with net }.spoiled stream f

def closeStream (c : Courier α) (stream : Nat) : Courier α :=
  match c.net.close stream with
  | (net, none) => { c with net }
  | (net, some (.ok ())) => { c with net, phase := .leaving }
  | (net, some (.error f)) => { { c with net }.warnClose f with phase := .leaving }

/-! ## The end -/

/-- Drops what is still queued, and reports. -/
def discard (c : Courier α) : Courier α :=
  let (intake, left) := c.intake.swap c.scratch
  let intake :=
    if left.isEmpty then intake
    else (intake.count (·.abandoned left.size)).report .warn
      "dropping events that never reached the collector" [("events", .number left.size)]
  let t := intake.tally
  let number (n : UInt64) : Log.Value := .number n.toNat
  let intake := intake.report .info "remote tracer shutting down"
    [("events_traced", number t.eventsTraced), ("events_written", number t.eventsWritten),
      ("events_dropped", number t.eventsDropped), ("batches_sent", number t.batchesSent),
      ("batches_failed", number t.batchesFailed), ("bytes_written", number t.bytesWritten),
      ("reconnects", number t.reconnects)]
  { c with intake, scratch := #[], phase := .ended }

/-! ## Steps -/

/-- A step on a stream, once the stream answers. -/
def onStream (c : Courier α) (stream : Nat) (next : Courier α) : Option (Courier α) :=
  if c.net.isReady stream then some next else none

/-- One step; none while the courier has to wait, or has ended. -/
def work [Message α] (pick : Pick) (c : Courier α) : Option (Courier α) :=
  match c.phase with
  | .starting =>
    some { c with
      intake := c.intake.report .info "remote tracer starting" [c.peerField]
      phase := .opening .start false false }
  | .opening o closing again =>
    pick.choose (c.workOpening o closing again) (c.noticeOpening o closing again)
  | .waiting s =>
    if c.pendingWake then some ({ c with pendingWake := false }.heed s .wake)
    else pick.choose (c.noticeSignal s) (c.noticeCancel s)
  | .gathering s deadline =>
    if deadline ≤ c.net.clock then some { c with phase := .collecting s false } else none
  | .collecting s last => some (c.collect s last)
  | .writing s last parcel rest => c.onStream s.stream (c.write s last parcel rest)
  | .flushing s last parcel => c.onStream s.stream (c.flush s last parcel)
  | .completing stream rest => c.onStream stream (c.complete stream rest)
  | .flushingEnd stream => c.onStream stream (c.flushEnd stream)
  | .closing stream => c.onStream stream (c.closeStream stream)
  | .leaving => some { c with intake := c.intake.abandon, phase := .discarding }
  | .discarding => some c.discard
  | .ended => none

/-- When the courier goes on by itself. -/
def due (c : Courier α) : Option Nat :=
  match c.phase with
  | .opening o _ _ => o.due
  | .gathering _ deadline => some deadline
  | .writing s _ _ _ | .flushing s _ _ => (c.net.channel s.stream).due
  | .completing stream _ | .flushingEnd stream | .closing stream => (c.net.channel stream).due
  | _ => none

end Courier

end TraceRelay
