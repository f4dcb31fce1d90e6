import TraceRelay.Duration

/-!
# Settings of TCP connections
-/

namespace TraceRelay.Tcp

structure Settings where
  /-- Whether small writes are sent at once. -/
  noDelay : Bool := true
  /-- How long a connection idles before it is probed; never, if none. -/
  keepAlive? : Option Duration := some (.ofSeconds 30)
  /-- How long a close waits for the peer to close its side. -/
  closeTimeout : Duration := .ofSeconds 5
  deriving DecidableEq, Repr, Inhabited

end TraceRelay.Tcp
