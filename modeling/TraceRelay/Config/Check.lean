import TraceRelay.Address
import TraceRelay.Config.Failure
import TraceRelay.Text.Blank

/-!
# Checks of a configuration

Tracers that are not enabled are not looked at. The first thing wrong is reported, in the order of
the sections: JSON file, protobuf file, remote tracer, collector.
-/

namespace TraceRelay.Config

def FileTracer.check (name : String) (t : FileTracer) : Except Failure Unit :=
  if t.enabled ∧ t.path = "" then .error (.missingField "tracer" name "path") else .ok ()

/-- Levels go from 0, no compression, to 9. -/
def maxCompressionLevel : Nat := 9

def RemoteTracer.check (t : RemoteTracer) : Except Failure Unit :=
  let invalid (field message : String) : Except Failure Unit :=
    .error (.invalidValue "tracer" "remote" field message)
  if !t.enabled then .ok ()
  else if t.peer = "" then .error (.missingField "tracer" "remote" "peer_id")
  else if t.addresses = [] then .error (.missingField "tracer" "remote" "addrs")
  else match t.addresses.find? Text.isBlankText with
    | some address => invalid "addrs" s!"empty address '{address}'"
    | none =>
      if maxCompressionLevel < t.compressionLevel then
        invalid "compression_level" s!"{t.compressionLevel} is not between 0 and 9"
      else if t.attemptTimeout.isZero then invalid "attempt_timeout" "must be greater than zero"
      else .ok ()

def Collector.check (c : Collector) : Except Failure Unit :=
  let invalid (field message : String) : Except Failure Unit :=
    .error (.invalidValue "collector" "collector" field message)
  if (Address.parse? c.listen).isNone then invalid "listen" "invalid socket address syntax"
  else if c.maxFrameSize = 0 then invalid "max_frame_size" "must be greater than zero"
  else .ok ()

/-- The first thing wrong with a configuration. -/
def check (c : Config) : Except Failure Unit := do
  if let some t := c.tracers.json? then t.check "json"
  if let some t := c.tracers.protobuf? then t.check "protobuf"
  if let some t := c.tracers.remote? then t.check
  c.collector.check

end TraceRelay.Config
