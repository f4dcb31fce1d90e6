import TraceRelay.Fault

/-!
# Why a tracer does not start
-/

namespace TraceRelay.Tracer

inductive Failure where
  | unopened (path : String) (f : Fault)
  | settings (reason : String)
  /-- There is nothing that would run the write loop. -/
  | noRuntime
  deriving DecidableEq, Repr, Inhabited

namespace Failure

def kind : Failure → String
  | unopened _ f => s!"Open:{f.kind.name}"
  | settings _ => "Config"
  | noRuntime => "NoRuntime"

def text : Failure → String
  | unopened path f => s!"failed to open trace file '{path}': {f.text}"
  | settings reason => s!"invalid tracer configuration: {reason}"
  | noRuntime => "tracers must be started within a tokio runtime"

end Failure

end TraceRelay.Tracer
