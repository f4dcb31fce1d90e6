import Mathlib.Data.List.Forall2
import TraceRelay.Proofs.Config.Check
import TraceRelay.Proofs.Storage
import TraceRelay.Tracer.Configured

/-!
# What a checked configuration starts

The start goes through the tracers of a configuration in order. `Outcome` says what has come of it so
far; each tracer keeps it (`Outcome.file`, `Outcome.remote`). Of a configuration that the check accepts, a
start that finds something to run on starts what is enabled, in order, or cannot open a file: it has no
objection of its own (`check_and_start_agree`).
-/

namespace TraceRelay

namespace Tracer

/-- A file was opened for a tracer. -/
def OpenedFor (t : Config.FileTracer) (file : Storage.File) : Prop :=
  ∃ s s' : Storage, s.openFile t.path t.append = .ok (file, s')

/-- What is started for a tracer, by its name. -/
inductive Starts (c : Config.Tracers) (net : Net) (cancelled : Bool) : String → Member → Prop where
  | json {t : Config.FileTracer} {file : Storage.File} (asked : c.json? = some t)
      (enabled : t.enabled = true) (opened : OpenedFor t file) :
      Starts c net cancelled "json" (.file (.ofFile t.path file .jsonLines))
  | protobuf {t : Config.FileTracer} {file : Storage.File} (asked : c.protobuf? = some t)
      (enabled : t.enabled = true) (opened : OpenedFor t file) :
      Starts c net cancelled "protobuf" (.file (.ofFile t.path file .delimited))
  | remote {t : Config.RemoteTracer} (asked : c.remote? = some t) (enabled : t.enabled = true) :
      Starts c net cancelled "remote" (.remote (t.delivery.courier t.target net cancelled))

/-- A file that is asked for could not be opened. -/
inductive Unopened (c : Config.Tracers) : Failure → Prop where
  | file {t : Config.FileTracer} {s : Storage} {f : Fault}
      (asked : c.json? = some t ∨ c.protobuf? = some t) (enabled : t.enabled = true)
      (unopened : s.openFile t.path t.append = .error f) : Unopened c (.unopened t.path f)

namespace Start

variable {c : Config.Tracers} {net : Net} {cancelled : Bool} {names : List String} {st : Start}

/-- What has come of a start: the tracers of these names are there, in this order, or a file could not be
opened. -/
def Outcome (c : Config.Tracers) (net : Net) (cancelled : Bool) (names : List String) (st : Start) :
    Prop :=
  (st.failure? = none ∧ List.Forall₂ (Starts c net cancelled) names st.members) ∨
    ∃ f, st.failure? = some f ∧ Unopened c f

theorem file_of_open {t : Config.FileTracer} {encoder : Encoder Event} {f : Storage.File} {s : Storage}
    (fine : st.failure? = none) (enabled : t.enabled = true)
    (h : st.storage.openFile t.path t.append = .ok (f, s)) : st.file (some t) encoder =
      { st with storage := s, members := st.members ++ [.file (.ofFile t.path f encoder)] } := by
  unfold Start.file FileRecorder.start
  rw [fine, Option.filter_some, if_pos enabled]
  dsimp only
  rw [h]
  rfl

/-- A section that asks for nothing names no tracer. -/
theorem any_of_filter_none {α : Type} {section? : Option α} {enabled : α → Bool}
    (h : section?.filter enabled = none) : section?.any enabled = false := by
  cases section? with
  | none => rfl
  | some t =>
    rw [Option.filter_some] at h
    split at h
    · cases h
    · next hdisabled => exact Bool.eq_false_iff.mpr hdisabled

theorem Outcome.file {name : String} {t? : Option Config.FileTracer} {encoder : Encoder Event}
    (h : Outcome c net cancelled names st) (asked : ∀ t, t? = some t → c.json? = some t ∨ c.protobuf? = some t)
    (starts : ∀ t file, t? = some t → t.enabled = true → OpenedFor t file →
      Starts c net cancelled name (.file (.ofFile t.path file encoder))) :
    Outcome c net cancelled (names ++ if t?.any (·.enabled) then [name] else []) (st.file t? encoder) := by
  unfold Start.file
  obtain ⟨hnone, hmembers⟩ | ⟨f, hfailed, hunopened⟩ := h
  · rw [hnone]
    cases hsection : t?.filter (·.enabled) with
    | none =>
      rw [any_of_filter_none hsection, if_neg Bool.false_ne_true, List.append_nil]
      exact .inl ⟨hnone, hmembers⟩
    | some t =>
      obtain ⟨rfl, henabled⟩ := Option.filter_eq_some_iff.mp hsection
      rw [Option.any_some, if_pos henabled]
      dsimp only [FileRecorder.start]
      cases hopen : st.storage.openFile t.path t.append with
      | error f => exact .inr ⟨_, rfl, .file (asked t rfl) henabled hopen⟩
      | ok opened =>
        refine .inl ⟨rfl, List.rel_append hmembers (.cons ?_ .nil)⟩
        exact starts t opened.1 rfl henabled ⟨_, _, hopen⟩
  · rw [hfailed]
    exact .inr ⟨f, hfailed, hunopened⟩

/-- A remote tracer that has addresses can always be started. -/
theorem Outcome.remote (h : Outcome c net cancelled names st)
    (addresses : ∀ t, c.remote? = some t → t.enabled = true → t.addresses ≠ []) :
    Outcome c net cancelled (names ++ if c.remote?.any (·.enabled) then ["remote"] else [])
      (st.remote c.remote? net cancelled) := by
  unfold Start.remote
  obtain ⟨hnone, hmembers⟩ | ⟨f, hfailed, hunopened⟩ := h
  · rw [hnone]
    cases hsection : c.remote?.filter (·.enabled) with
    | none =>
      rw [any_of_filter_none hsection, if_neg Bool.false_ne_true, List.append_nil]
      exact .inl ⟨hnone, hmembers⟩
    | some t =>
      obtain ⟨hasked, henabled⟩ := Option.filter_eq_some_iff.mp hsection
      rw [hasked, Option.any_some, if_pos henabled]
      dsimp only
      rw [if_neg (addresses t hasked henabled)]
      exact .inl ⟨rfl, List.rel_append hmembers (.cons (.remote hasked henabled) .nil)⟩
  · rw [hfailed]
    exact .inr ⟨f, hfailed, hunopened⟩

theorem outcome_ofConfig (storage : Storage)
    (addresses : ∀ t, c.remote? = some t → t.enabled = true → t.addresses ≠ []) :
    Outcome c net cancelled c.enabled (ofConfig true c storage net cancelled) := by
  have hnothing : Outcome c net cancelled [] ⟨storage, [], none⟩ := .inl ⟨rfl, .nil⟩
  have hjson := hnothing.file (fun t => .inl) fun t file => Starts.json
  have hprotobuf := hjson.file (fun t => .inr) fun t file => Starts.protobuf
  exact hprotobuf.remote addresses

end Start

end Tracer

namespace Config

open Tracer

/-- What the check of a configuration says, and what its start then does. -/
structure Agreed (c : Config) : Prop where
  /-- A configuration is accepted if what is enabled has what it needs, and only then. -/
  accepts : c.check = .ok () ↔ Sound c
  /-- It is refused for the first of its rules that is broken. -/
  refuses : ∀ f, c.check = .error f ↔ FirstBroken c.rules f
  /-- Whatever else is written of tracers that are not enabled, the verdict is the same. -/
  unread : ∀ c' : Config, c'.tracers.active = c.tracers.active → c'.collector = c.collector →
    c'.check = c.check
  /-- Once it is accepted, the tracers that are enabled are started, in order, or a file cannot be
  opened. -/
  starts : c.check = .ok () → ∀ (storage : Storage) (net : Net) (cancelled : Bool),
    Start.Outcome c.tracers net cancelled c.tracers.enabled
      (Start.ofConfig true c.tracers storage net cancelled)

/-- **The check and the start of a configuration agree.** -/
theorem check_and_start_agree (c : Config) : Agreed c where
  accepts := check_eq_ok
  refuses f := check_eq_error
  unread c' active collector := check_congr active collector
  starts := by
    intro haccepted storage net cancelled
    have hsound := check_eq_ok.mp haccepted
    exact Start.outcome_ofConfig storage fun t hremote henabled =>
      (hsound.remote t hremote henabled).addresses

/-- A file of JSON lines and a remote tracer; the other file tracer has no path, and is not enabled. -/
def sample : Config where
  tracers := {
    json? := some { path := "t" }
    protobuf? := some { enabled := false }
    remote? := some { peer := "peer", addresses := ["a:1", " b"] } }

/-- The other file tracer is enabled, and an address is blank. -/
def wanting : Config where
  tracers := {
    json? := some { path := "t" }
    protobuf? := some {}
    remote? := some { peer := "peer", addresses := ["a:1", " "] } }

/-- A host that does what it is asked at once. -/
def willing : Net := .start (.always ⟨0, some (.ok ())⟩) (.always ⟨0, some (.ok {})⟩)

theorem check_and_start_agree_sample :
    sample.check = .ok () ∧ Sound sample ∧
      (Start.ofConfig true sample.tracers .empty willing false).failure? = none ∧
      List.Forall₂ (Starts sample.tracers willing false) ["json", "remote"]
        (Start.ofConfig true sample.tracers .empty willing false).members ∧
      FirstBroken wanting.rules (.missingField "tracer" "protobuf" "path") := by
  have hcheck : sample.check = .ok () := by decide +kernel
  have hjson : (Start.mk .empty [] none).file sample.tracers.json? .jsonLines =
      ⟨⟨[(["t"], .file [])]⟩, [.file (.ofFile "t" ⟨["t"], false, 0⟩ .jsonLines)], none⟩ :=
    Start.file_of_open rfl rfl (Storage.openFile_letter (.inl rfl) false)
  have hstarted : (Start.ofConfig true sample.tracers .empty willing false).failure? = none := by
    show ((((Start.mk .empty [] none).file sample.tracers.json? .jsonLines).file
      sample.tracers.protobuf? .delimited).remote sample.tracers.remote? willing false).failure? = none
    rw [hjson]
    rfl
  have hwanting : wanting.check = .error (.missingField "tracer" "protobuf" "path") := by decide +kernel
  have hagreed := check_and_start_agree sample
  obtain ⟨-, hmembers⟩ | ⟨f, hfailed, -⟩ := hagreed.starts hcheck .empty willing false
  · exact ⟨hcheck, hagreed.accepts.mp hcheck, hstarted, hmembers,
      ((check_and_start_agree wanting).refuses _).mp hwanting⟩
  · rw [hstarted] at hfailed
    cases hfailed

end Config

end TraceRelay
