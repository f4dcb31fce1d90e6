import Std.Async.DNS
import Std.Async.Signal
import Std.Async.TCP
import Std.Sync.Mutex
import Std.Time
import TraceRelay.Program

/-!
# The collector as a program

Sets up a collector from its arguments, listens, and serves until it is interrupted. What is decided
here is only when the collector hears of something; all else is said by `Program` and
`Collector.Server`.
-/

namespace TraceRelay.Main

open Std.Async

/-- Bytes of one read of a connection. -/
def readSize : UInt64 := 65536

/-! ## Faults -/

def coded (kind : Fault.Kind) (code : UInt32) (text : String) : Fault :=
  ⟨kind, s!"{text} (os error {code})"⟩

/-- What the system reports, as a fault. -/
def faultOf : IO.Error → Fault
  | .noFileOrDirectory .. => Storage.missing
  | .inappropriateType _ code text => coded .isADirectory code text
  | .permissionDenied _ code text => coded .permissionDenied code text
  | .alreadyExists _ code text => coded .alreadyExists code text
  | .resourceBusy code text => coded .addrInUse code text
  | .resourceVanished code text => coded .brokenPipe code text
  | .interrupted _ code text => coded .interrupted code text
  | e => ⟨.other, toString e⟩

/-- What an action gives, or the fault that it ended with. -/
def attempt {α : Type} (action : IO α) : IO (Except Fault α) := do
  match ← action.toBaseIO with
  | .ok a => return .ok a
  | .error e => return .error (faultOf e)

/-! ## The log -/

/-- Where records go, and which. -/
structure Logger where
  settings : Config.Logging
  filter : Log.Filter
  write : String → IO Unit

def Logger.log (l : Logger) (r : Log.Record) : IO Unit := do
  if l.filter.passes r then
    let now := Std.Time.DateTime.ofTimestamp (← Std.Time.Timestamp.now) .UTC
    let time := now.format "uuuu-MM-dd'T'HH:mm:ss.SSSSSS'Z'"
    match l.settings.format with
    | .console => l.write s!"{time} {r.line}\n"
    | .json => l.write s!"{(r.timed time).render}\n"

def openLogger (c : Config) (given : CommandLine) : IO (Except Program.Exit Logger) := do
  let filter := Program.filterOf c given
  match c.log.output with
  | .stdout => return .ok ⟨c.log, filter, fun s => do IO.print s; (← IO.getStdout).flush⟩
  | .stderr => return .ok ⟨c.log, filter, IO.eprint⟩
  | .file path =>
    match ← attempt (IO.FS.Handle.mk path .append) with
    | .ok h => return .ok ⟨c.log, filter, fun s => do h.putStr s; h.flush⟩
    | .error f => return .error (Program.logFailure path f)

/-! ## The network -/

/-- An address as the system takes it. -/
def systemAddress (a : Address) : Option Std.Net.SocketAddress :=
  match a.host with
  | .v4 [p, q, r, s] =>
    some (.v4 ⟨.ofParts p.toUInt8 q.toUInt8 r.toUInt8 s.toUInt8, a.port.toUInt16⟩)
  | .v6 [p, q, r, s, t, u, v, w] _ =>
    some (.v6 ⟨.ofParts p.toUInt16 q.toUInt16 r.toUInt16 s.toUInt16 t.toUInt16 u.toUInt16 v.toUInt16
      w.toUInt16, a.port.toUInt16⟩)
  | _ => none

/-- The first address that a name stands for. -/
def lookUp (name : String) : IO (Except Fault Host) := do
  let answer : Except Fault (Array Std.Net.IPAddr) ← attempt (DNS.getAddrInfo name "").block
  match answer with
  | .error f => return .error (Network.lookUpFailed f.text)
  | .ok found =>
    match found.toList with
    | .v4 a :: _ => return .ok (.v4 (a.octets.toList.map UInt8.toNat))
    | .v6 a :: _ => return .ok (.v6 (a.segments.toList.map UInt16.toNat) 0)
    | [] => return .error (Network.lookUpFailed "Name or service not known")

/-- Looks up the name of an endpoint, if it has one, and listens on it. -/
def listen (endpoint : String) : IO (Except Fault TCP.Socket.Server) := do
  let found : Except Fault Host ← match Network.aroundColon endpoint with
    | some (name, _) => lookUp name
    | none => pure (.error Network.noAddress)
  match ({ Network.isolated with lookUp := fun _ => found }).resolve endpoint with
  | .error f => return .error f
  | .ok address =>
    match systemAddress address with
    | none => return .error Network.noAddress
    | some address =>
      attempt do
        let socket ← TCP.Socket.Server.mk
        socket.bind address
        socket.listen 1024
        return socket

/-! ## Serving -/

/-- A collector that is shared by its connections, its file and its log. -/
structure Service where
  server : Std.Mutex Collector.Server
  file : IO.FS.Handle
  logger : Logger

/-- Changes the collector, and writes and logs what comes of it. -/
def Service.update {β : Type} (s : Service) (change : Collector.Server → β × Collector.Server) :
    IO β :=
  s.server.atomically do
    let (result, server) := change (← get)
    let (written, server) := server.write.takeWritten
    let (records, server) := server.takeRecords
    set server
    unless written.isEmpty do
      s.file.write ⟨written.toArray⟩
      s.file.flush
    for r in records do s.logger.log r
    return result

def Service.handle (s : Service) (i : Nat) (a : Collector.Arrival) : IO Unit :=
  s.update fun server => ((), server.handle i a)

/-- Reads a connection until its handler has ended. -/
partial def Service.read (s : Service) (i : Nat) (client : TCP.Socket.Client) : Async Unit := do
  let got : Except Fault (Option ByteArray) ←
    tryCatch (do return .ok (← client.recv? readSize)) fun e => pure (.error (faultOf e))
  s.handle i (match got with
    | .ok (some data) => .bytes data.data.toList
    | .ok none => .eof
    | .error f => .broken f)
  if ← s.update fun server => (server.isOpen i, server) then s.read i client
  else tryCatch client.shutdown fun _ => pure ()

/-- Accepts connections until an interrupt. -/
partial def Service.run (s : Service) (socket : TCP.Socket.Server) (interrupt : Signal.Waiter) :
    Async Unit := do
  let client? : Option TCP.Socket.Client ← Selectable.one #[
    .case interrupt.selector fun _ => pure none,
    .case socket.acceptSelector fun client => pure (some client)]
  match client? with
  | none => pure ()
  | some client =>
    let address? : Option Std.Net.SocketAddress ←
      tryCatch (do return some (← client.getPeerName)) fun _ => pure none
    let peer := match address? with
      | some (.v4 a) => s!"{a.addr}:{a.port}"
      | some (.v6 a) => s!"[{a.addr}]:{a.port}"
      | none => ""
    let i ← s.update fun server => (server.handlers.size, server.accept peer)
    background (s.read i client)
    s.run socket interrupt

def finish (e : Program.Exit) : IO UInt32 := do
  IO.print e.stdout
  IO.eprint (if e.stderr.endsWith "\n" ∨ e.stderr = "" then e.stderr else e.stderr ++ "\n")
  return e.code.toUInt32

def serve (c : Config.Collector) (logger : Logger) : IO UInt32 := do
  match ← listen c.listen with
  | .error f => finish (Program.startFailure (.unbound c.listen f))
  | .ok socket =>
    match ← attempt (IO.FS.Handle.mk c.output (if c.append then .append else .write)) with
    | .error f => finish (Program.startFailure (.output (.unopened c.output f)))
    | .ok file =>
      let output := FileRecorder.ofFile c.output ⟨[], c.append, 0⟩ .rawDelimited
      let s : Service := ⟨← Std.Mutex.new (.ofOutput c output), file, logger⟩
      let interrupt ← Signal.Waiter.mk .sigint false
      s.update fun server => ((), server)
      (s.run socket interrupt).block
      logger.log Program.interrupted
      s.update fun server => ((), server.stop)
      return 0

end TraceRelay.Main

open TraceRelay in
def main (arguments : List String) : IO UInt32 := do
  match Program.requested arguments with
  | .error e => Main.finish e
  | .ok given =>
    let content ← match given.config? with
      | some path => Main.attempt (do return (← IO.FS.readBinFile path).data.toList)
      | none => pure (.ok [])
    match Program.configure given fun _ => content with
    | .error e => Main.finish e
    | .ok c =>
      match ← Main.openLogger c given with
      | .error e => Main.finish e
      | .ok logger => Main.serve c.collector logger
