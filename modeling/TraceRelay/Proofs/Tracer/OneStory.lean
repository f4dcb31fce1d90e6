import TraceRelay.Proofs.Config.Start
import TraceRelay.Proofs.Courier.Delivered
import TraceRelay.Proofs.Framing.TraceFile
import TraceRelay.Proofs.Json.Lines
import TraceRelay.Proofs.Recorder.Complete
import TraceRelay.Proofs.Tracer.Fleet
import TraceRelay.Proofs.Tracer.Lineup

/-!
# The outputs of a configuration tell one story

The tracers of a configuration are fed together, and nothing that they use fails. When a shutdown of them
has returned, every output says the same: the events that were traced before the close (`one_story`).

1. `RemoteTold`: what a stream says, to those who read it.
2. `NothingFails`: what the tracers of a configuration may be run with. Then each can make a run of its own
   (`able_file`, `able_remote`).
3. `stored_all`: all outputs, when all tracers have ended.
-/

namespace TraceRelay

namespace Tracer

open Fleet

/-! ## What outputs say -/

/-- What the stream of a remote tracer says. -/
structure RemoteTold (es : List Event) (c : Courier Event) : Prop where
  one_stream : c.net.channels.size = 1
  closed : (c.net.channel 0).outcome = .closed
  /-- It carries the events in batches, which anybody reads who admits their frames. -/
  batches : ∃ batches : List (List Event), batches.flatten = es ∧
    (Gzip.Decoder.start.feedAll (c.net.channel 0).accepted).out.toList =
      (Courier.frames batches).flatten ∧
    ∀ (limit : Nat) (source : Source) (fuel : Nat), limit < UInt64.size →
      (∀ events ∈ batches, Batch.Admits limit events) → source.data = (c.net.channel 0).accepted →
      source.Calm → (Gzip.Decoder.start.feedAll (c.net.channel 0).accepted).out.size < fuel →
      ∃ read, Courier.readAll limit source fuel = (read, .ok ()) ∧ Batch.allEvents read = .ok es

theorem remoteTold_of_whole {method : Gzip.Method} {level : Nat} {ds : Courier.Deeds Event}
    {c : Courier Event} (sound : method.Sound level) (one_stream : c.net.channels.size = 1)
    (whole : Courier.Whole (.start method level) ds c) : RemoteTold ds.accepted c := by
  have hpast : Courier.Past (.start method level) ds.sent [] (c.net.channel 0) :=
    .ceased _ rfl (List.prefix_refl _) whole.accepted (by rw [whole.outcome]; nofun) fun _ => rfl
  refine ⟨one_stream, whole.outcome, ds.sent, whole.blocks, ?_, ?_⟩
  · rw [whole.accepted]
    exact (sound.completed _).2
  · intro limit source fuel hlimit admits hsource hcalm hfuel
    rw [← List.append_nil ds.sent] at admits
    obtain ⟨tail, v, -, hread, hclosed⟩ := hpast.read sound hlimit admits hsource hcalm hfuel
    obtain ⟨rfl, rfl⟩ := hclosed whole.outcome
    rw [List.append_nil] at admits hread
    have hlawful : ∀ events ∈ ds.sent, ∀ e ∈ events, Message.decode (Message.encode e) = .ok e := by
      intro events hevents e he
      have hentry := Batch.length_entry_le (b := .ofEvents events) (List.mem_map_of_mem he)
      have hadmits : (Batch.ofEvents events).encode.length ≤ limit := admits events hevents
      exact Event.decode_of_length (by omega)
    refine ⟨_, hread, ?_⟩
    rw [Batch.allEvents_ofEvents hlawful, whole.blocks]

/-! ## Tracers that are run -/

/-- A configured tracer with an output that takes a file's bytes in its own way, and with another method
of compression. -/
def Member.outfitted (plans : String → ChannelPlan) (method : Gzip.Method) : Member → Member
  | .file f => .file { f with recorder.output := .start "" (plans f.recorder.intake.name) }
  | .remote c => .remote { c with method }

/-- The place of the file, if the tracer has one. -/
def Member.place? : Member → Option Place
  | .file f => some f.file.place
  | .remote _ => none

/-- Nothing that the tracers of a configuration use fails. -/
structure NothingFails (config : Config.Tracers) (net : Net) (plans : String → ChannelPlan)
    (method : Gzip.Method) : Prop where
  outputs : ∀ path, (plans path).Faultless
  streams : net.Faultless
  /-- The host grants what a remote tracer asks for before its attempt runs out of time. -/
  host : ∀ t ∈ config.remotes, net.Willing t.attemptTimeout.ticks
  compression : ∀ t ∈ config.remotes, method.Sound t.compressionLevel

section

variable {config : Config.Tracers} {net : Net} {plans : String → ChannelPlan} {method : Gzip.Method}

theorem able_file {held : Bytes} {storage : Storage} {asked : Asked} {f : FileRecorder Event}
    (placed : Placed held storage asked f) (faultless : ∀ path, (plans path).Faultless)
    (fine : ∀ e, (asked.2 e).failure? = none) :
    Fared [] (Member.outfitted plans method (.file f)) (Member.outfitted plans method (.file f)) := by
  have hfresh := FileRecorder.fresh_ofFile asked.1.path f.file asked.2 {}
  rw [← placed.recorder] at hfresh
  have hsturdy : Sturdy { f with recorder.output := .start "" (plans f.recorder.intake.name) } := by
    refine ⟨⟨asked.2, plans f.recorder.intake.name, ?_, faultless _⟩, ?_⟩
    · exact ⟨hfresh.encoder, hfresh.phase, hfresh.buffer, hfresh.tally, rfl, hfresh.held⟩
    · intro e
      show (f.recorder.encoder e).failure? = none
      rw [hfresh.encoder]
      exact fine e
  exact .file hsturdy .start rfl rfl rfl

theorem able_remote {c : Courier Event} (asked : c ∈ config.couriers net)
    (fails : NothingFails config net plans method) (fresh : net.channels = #[]) :
    Fared [] (Member.outfitted plans method (.remote c))
      (Member.outfitted plans method (.remote c)) := by
  obtain ⟨t, ht, rfl⟩ := List.mem_map.mp asked
  exact .remote ⟨⟨_, _, method, _, net, rfl, fails.host t ht⟩, fresh, fails.streams,
    fails.compression t ht⟩ .start rfl rfl rfl rfl

end

/-! ## A shutdown that has returned -/

namespace Fleet

/-- The storage with all that file tracers have written. -/
def store (s : Fleet) (storage : Storage) : Storage := s.loops.foldl Member.store storage

variable {members : List Member} {ms : List Move} {s : Fleet}

/-- A tracer that has accepted what was traced before the close, and ended. -/
def Done (ms : List Move) (m₀ b : Member) : Prop := Fared ms m₀ b ∧ WriteLoop.isEnded b = true

theorem Kept.done (h : Kept members ms s) (all : s.noted.length = members.length) :
    List.Forall₂ (Done ms) members s.loops := by
  rw [loops, List.forall₂_map_right_iff]
  refine List.forall₂_of_length_eq_of_get h.length.symm fun i hi hi' => ?_
  have hat := List.getElem?_eq_getElem hi'
  obtain ⟨m₀, hm₀, hfared⟩ := h.fared i _ hat
  rw [List.getElem?_eq_getElem hi, Option.some.injEq] at hm₀
  subst hm₀
  exact ⟨hfared, h.ended i _ hat (all ▸ hi)⟩

/-- The entries are those of the tracers, in order. -/
theorem Kept.names (h : Kept members ms s) (all : s.noted.length = members.length) :
    s.noted.map Prod.fst = members.map WriteLoop.name := by
  refine List.ext_getElem (by rw [List.length_map, List.length_map, all]) fun i hi hi' => ?_
  rw [List.length_map] at hi hi'
  obtain ⟨m₀, n, hm₀, -, htells⟩ := h.tells i _ (List.getElem?_eq_getElem hi)
  rw [List.getElem?_eq_getElem hi', Option.some.injEq] at hm₀
  rw [List.getElem_map, List.getElem_map, htells.name, hm₀]

theorem Kept.counted (h : Kept members ms s) :
    List.Forall₂ (fun late report => Counted (early ms).length late report.2)
      (lateAtJoins ms) s.noted := by
  refine List.forall₂_of_length_eq_of_get h.joins fun i hi hi' => ?_
  obtain ⟨m₀, n, -, hn, htells⟩ := h.tells i _ (List.getElem?_eq_getElem hi')
  rw [List.getElem?_eq_getElem hi, Option.some.injEq] at hn
  subst hn
  exact htells.counted

/-! ## What the outputs hold -/

/-- The remote tracers among some. -/
def remotesOf (loops : List Member) : List (Courier Event) :=
  loops.filterMap fun
    | .file _ => none
    | .remote c => some c

theorem stored_files {plans : String → ChannelPlan} {method : Gzip.Method}
    {files : List (FileRecorder Event)} {loops : List Member}
    (h : List.Forall₂ (fun f b => Done ms (Member.outfitted plans method (.file f)) b) files loops)
    (storage : Storage) :
    loops.foldl Member.store storage =
        storage.writeAll (files.map fun f => (f.file, Recorder.records f.recorder.encoder (early ms))) ∧
      remotesOf loops = [] := by
  induction h generalizing storage with
  | nil => exact ⟨rfl, rfl⟩
  | @cons f b files loops first _ ih =>
    obtain ⟨r, rfl, haccepted, -⟩ := first.1.of_file first.2
    obtain ⟨hstored, hnone⟩ := ih (storage.write f.file r.output.accepted).1
    refine ⟨?_, hnone⟩
    rw [List.foldl_cons, Member.store, FileRecorder.store, hstored, haccepted]
    rfl

theorem Done.remoteTold {c₀ : Courier Event} {b : Member} (h : Done ms (.remote c₀) b) :
    ∃ c, b = .remote c ∧ RemoteTold (early ms) c := by
  have hsound : c₀.method.Sound c₀.compressionLevel := by
    cases h.1 with
    | remote welcome => exact welcome.sound
  obtain ⟨c, ds, rfl, haccepted, hsize, hwhole, -⟩ := h.1.of_remote h.2
  exact ⟨c, rfl, haccepted ▸ remoteTold_of_whole hsound hsize hwhole⟩

theorem stored_remotes {couriers : List (Courier Event)} {loops : List Member}
    (h : List.Forall₂ (fun c₀ b => Done ms (.remote c₀) b) couriers loops) (storage : Storage) :
    loops.foldl Member.store storage = storage ∧
      List.Forall₂ (fun _ c => RemoteTold (early ms) c) couriers (remotesOf loops) := by
  induction h with
  | nil => exact ⟨rfl, .nil⟩
  | cons first _ ih =>
    obtain ⟨c, rfl, htold⟩ := Done.remoteTold first
    exact ⟨ih.1, .cons htold ih.2⟩

/-! ## Joins that nobody disturbs -/

/-- Moves in which nobody traces anything refuse nothing. -/
theorem late_append_of_quiet (before : List Move) {after : List Move}
    (quiet : ∀ m ∈ after, Recorder.traced m.asked = []) : late (before ++ after) = late before := by
  induction after generalizing before with
  | nil => rw [List.append_nil]
  | cons m after ih =>
    have hone : late (before ++ [m]) = late before := by
      have hm := quiet m (List.mem_cons_self ..)
      cases hasked : m.asked with
      | nil => exact (early_idle before hasked).2.1
      | cons call rest =>
        have hrest : rest = [] := by cases m <;> cases hasked <;> rfl
        subst hrest
        rw [hasked] at hm
        rw [(early_call before hasked).2.1, hm, ite_self, List.append_nil]
    rw [List.append_cons, ih _ fun m' hmem => quiet m' (List.mem_cons_of_mem _ hmem), hone]

/-- If nobody traces anything from the first join on, every entry tells of all calls after the close. -/
theorem lateAtJoins_of_quiet {before after : List Move} (none_noted : lateAtJoins before = [])
    (quiet : ∀ m ∈ after, Recorder.traced m.asked = []) {n : Nat}
    (h : n ∈ lateAtJoins (before ++ after)) : n = (late (before ++ after)).length := by
  rw [late_append_of_quiet before quiet]
  induction after using List.reverseRecOn with
  | nil =>
    rw [List.append_nil, none_noted] at h
    cases h
  | append_singleton after m ih =>
    have hquiet : ∀ m' ∈ after, Recorder.traced m'.asked = [] := fun m' hmem =>
      quiet m' (List.mem_append_left _ hmem)
    rw [← List.append_assoc, lateAtJoins_concat, List.append_assoc,
      late_append_of_quiet before quiet] at h
    cases m with
    | shutdown => cases h
    | join =>
      rcases List.mem_append.mp h with hold | hnew
      · exact ih hquiet hold
      · exact List.mem_singleton.mp hnew
    | _ => exact ih hquiet h

end Fleet

/-! ## One story -/

/-- The names of the tracers of a configuration, in order. -/
def namesOf (config : Config.Tracers) : List String :=
  config.files.map (·.1.path) ++ config.remotes.map fun _ => "remote"

/-- What the outputs say when a shutdown of all tracers has returned, the first or a later one. The
storage was `storage` before the start, and is `stored` in the end. -/
structure OneStory (config : Config.Tracers) (storage stored : Storage) (ms : List Move) (s : Fleet)
    (reports : List (String × Tally)) : Prop where
  /-- Behind what was kept, the file of JSON lines holds a line for each event. -/
  json : ∀ t, config.json? = some t → t.enabled = true → ∃ lines,
    stored.read t.path = .ok (storage.held t.append t.path ++ lines) ∧
      Event.readLines? lines = some (early ms)
  /-- Behind what was kept, the file of messages holds a block for each event. -/
  protobuf : ∀ t, config.protobuf? = some t → t.enabled = true → ∃ file,
    stored.read t.path = .ok (storage.held t.append t.path ++ file) ∧
      ((∀ e ∈ early ms, (Message.encode e).length ≤ Frame.defaultLimit) →
        Frame.readEvents file = .ok (early ms))
  remote : List.Forall₂ (fun _ c => RemoteTold (early ms) c) config.remotes (remotesOf s.loops)
  names : reports.map Prod.fst = namesOf config
  /-- Each entry counts as dropped what was traced between the close and its join. -/
  counted : List.Forall₂ (fun late report => Counted (early ms).length late report.2)
    (lateAtJoins ms) reports
  /-- These are all calls after the close, unless somebody traces while the shutdown waits, when it has
  noted something. -/
  undisturbed : ∀ before after, ms = before ++ after → lateAtJoins before = [] →
    (∀ m ∈ after, Recorder.traced m.asked = []) → ∀ n ∈ lateAtJoins ms, n = (late ms).length

section

variable {config : Config.Tracers} {storage : Storage} {net : Net} {plans : String → ChannelPlan}
  {method : Gzip.Method} {st : Start}

theorem fine_of_asked {asked : Asked} (h : asked ∈ config.files) (e : Event) :
    (asked.2 e).failure? = none := by
  rw [Config.Tracers.files, List.mem_append, List.mem_map, List.mem_map] at h
  rcases h with ⟨t, -, rfl⟩ | ⟨t, -, rfl⟩ <;> rfl

theorem json_asked {t : Config.FileTracer} (h : config.json? = some t) (enabled : t.enabled = true) :
    (t, .jsonLines) ∈ config.files := by
  rw [Config.Tracers.files, h, Option.filter_some, if_pos enabled]
  exact List.mem_append_left _ (List.mem_singleton_self _)

theorem protobuf_asked {t : Config.FileTracer} (h : config.protobuf? = some t)
    (enabled : t.enabled = true) : (t, .delimited) ∈ config.files := by
  rw [Config.Tracers.files, h, Option.filter_some, if_pos enabled]
  exact List.mem_append_right _ (List.mem_singleton_self _)

theorem names_of_files {asked : List Asked} {files : List (FileRecorder Event)} {s : Storage}
    {held : Asked → Bytes} (h : List.Forall₂ (fun a f => Placed (held a) s a f) asked files) :
    files.map (fun f => WriteLoop.name (Member.outfitted plans method (.file f))) =
      asked.map (·.1.path) := by
  induction h with
  | nil => rfl
  | @cons a f asked files first _ ih =>
    have hname : f.recorder.intake.name = a.1.path := by
      rw [first.recorder]
      rfl
    rw [List.map_cons, List.map_cons, ih, ← hname]
    rfl

theorem names_of_placed {files : List (FileRecorder Event)} {s : Storage} {held : Asked → Bytes}
    (h : List.Forall₂ (fun a f => Placed (held a) s a f) config.files files) :
    ((files.map Member.file ++ (config.couriers net).map Member.remote).map
      (Member.outfitted plans method)).map WriteLoop.name = namesOf config := by
  rw [List.map_map, List.map_append, List.map_map, List.map_map, Config.Tracers.couriers, List.map_map,
    namesOf, ← names_of_files h]
  rfl

theorem filterMap_place? (files : List (FileRecorder Event)) (couriers : List (Courier Event)) :
    (files.map Member.file ++ couriers.map Member.remote).filterMap Member.place? =
      files.map (·.file.place) := by
  rw [List.filterMap_append, List.filterMap_map, List.filterMap_map,
    show Member.place? ∘ Member.file = some ∘ (·.file.place) from rfl,
    show Member.place? ∘ Member.remote = fun _ => none from rfl, List.filterMap_eq_map,
    List.filterMap_none, List.append_nil]

/-- What all tracers leave that were started for a configuration. -/
theorem stored_all {files : List (FileRecorder Event)} {loops : List Member} {ms : List Move}
    (members : st.members = files.map .file ++ (config.couriers net).map .remote)
    (h : List.Forall₂ (Done ms) (st.members.map (Member.outfitted plans method)) loops)
    (storage : Storage) :
    loops.foldl Member.store storage =
        storage.writeAll (files.map fun f => (f.file, Recorder.records f.recorder.encoder (early ms))) ∧
      List.Forall₂ (fun _ c => RemoteTold (early ms) c) config.remotes (remotesOf loops) := by
  rw [List.forall₂_map_left_iff, members] at h
  have hfiles := (List.forall₂_take_append _ _ _ h.flip).flip
  have hcouriers := (List.forall₂_drop_append _ _ _ h.flip).flip
  have hloops := (List.take_append_drop (files.map Member.file).length loops).symm
  generalize loops.take (files.map Member.file).length = written at hfiles hloops
  generalize loops.drop (files.map Member.file).length = sent at hcouriers hloops
  subst hloops
  rw [List.forall₂_map_left_iff] at hfiles hcouriers
  obtain ⟨hstored, hnone⟩ := stored_files hfiles storage
  have hcouriers : List.Forall₂ (fun c₀ b => Done ms (.remote c₀) b)
      (config.remotes.map fun t => { t.delivery.courier t.target net false with method }) sent := by
    rw [List.forall₂_map_left_iff]
    rwa [Config.Tracers.couriers, List.forall₂_map_left_iff] at hcouriers
  obtain ⟨hsame, htold⟩ := stored_remotes hcouriers (written.foldl Member.store storage)
  rw [List.forall₂_map_left_iff] at htold
  refine ⟨by rw [List.foldl_append, hsame, hstored], ?_⟩
  rwa [remotesOf, List.filterMap_append, ← remotesOf, ← remotesOf, hnone, List.nil_append]

/-- The tracers of a configuration were started, on a storage and a net, and were run. Nothing that they
use has failed, and the latest shutdown of them has returned. -/
structure Concluded (config : Config.Tracers) (storage : Storage) (net : Net)
    (plans : String → ChannelPlan) (method : Gzip.Method) (st : Start) (ms : List Move) (s : Fleet)
    (reports : List (String × Tally)) : Prop where
  configured : Start.ofConfig true config storage net false = st
  started : st.failure? = none
  fresh : net.channels = #[]
  fails : NothingFails config net plans method
  run : Fleet.Run (.start (st.members.map (Member.outfitted plans method))) ms s
  returned : s.noted? = some reports
  all : reports.length = st.members.length

/-- **What the outputs of a configuration say is one story.** Each tracer goes on in its own way, and
callers trace and close whenever they like. When a shutdown has returned, every output says what was
traced before the close, and so do the reports; an event that was traced later is in none. -/
theorem one_story {ms : List Move} {s : Fleet} {reports : List (String × Tally)}
    (concluded : Concluded config storage net plans method st ms s reports)
    (apart : (st.members.filterMap Member.place?).Nodup) :
    OneStory config storage (s.store st.storage) ms s reports := by
  obtain ⟨configured, started, fresh, fails, run, returned, all⟩ := concluded
  obtain ⟨files, hopens, hmembers⟩ := Start.ofConfig_spec configured started
  have hnodup : (files.map (·.file.place)).Nodup := by
    rwa [hmembers, filterMap_place?] at apart
  have hnoted : s.noted = reports := by rw [Fleet.noted, returned]; rfl
  subst hnoted
  have hable : ∀ m₀ ∈ st.members.map (Member.outfitted plans method), Fared [] m₀ m₀ := by
    intro m₀ hm₀
    obtain ⟨m, hm, rfl⟩ := List.mem_map.mp hm₀
    rw [hmembers, List.mem_append, List.mem_map, List.mem_map] at hm
    rcases hm with ⟨f, hf, rfl⟩ | ⟨c, hc, rfl⟩
    · obtain ⟨a, ha, hplaced⟩ := hopens.placed_of_mem hnodup hf
      exact able_file hplaced fails.outputs (fine_of_asked ha)
    · exact able_remote hc fails fresh
  have hkept := run.kept hable
  have hall : s.noted.length = (st.members.map (Member.outfitted plans method)).length := by
    rw [List.length_map, all]
  obtain ⟨hstored, hremotes⟩ := stored_all hmembers (hkept.done hall) st.storage
  have hread : ∀ a ∈ config.files, (s.store st.storage).read a.1.path =
      .ok (storage.held a.1.append a.1.path ++ Recorder.records a.2 (early ms)) := by
    intro a ha
    rw [Fleet.store, hstored]
    exact hopens.read_written hnodup ha fun encoder => Recorder.records encoder (early ms)
  refine ⟨?_, ?_, hremotes, ?_, hkept.counted, ?_⟩
  · intro t ht henabled
    exact ⟨_, hread (t, .jsonLines) (json_asked ht henabled), Event.readLines?_records _⟩
  · intro t ht henabled
    refine ⟨_, hread (t, .delimited) (protobuf_asked ht henabled), fun fits => ?_⟩
    rw [FileRecorder.records_delimited]
    exact Frame.readEvents_written fits fun e he =>
      Event.decode_of_length (Nat.lt_of_le_of_lt (fits e he) (by decide))
  · rw [hkept.names hall, hmembers]
    exact names_of_placed (hopens.placed hnodup)
  · rintro before after rfl hnoted hquiet n hn
    exact lateAtJoins_of_quiet hnoted hquiet hn

end

/-! ## Three outputs -/

namespace ThreeOutputs

/-- A host that takes a while to connect. -/
def net : Net := .start (.always ⟨5, some (.ok ())⟩) (.always ⟨0, some (.ok {})⟩)

/-- Nothing is written to one of the files without waiting. -/
def plans (path : String) : ChannelPlan := if path = "u" then Recorder.hesitating else {}

theorem fails {config : Config.Tracers}
    (patient : ∀ t ∈ config.remotes, t.attemptTimeout = .ofSeconds 60) :
    NothingFails config net plans .stored where
  outputs path := by
    unfold plans
    split
    · exact Recorder.faultless_hesitating
    · exact ChannelPlan.faultless_default
  streams := by
    rintro reaction (h | rfl) plan hplan
    · cases h
    · cases hplan
      exact ChannelPlan.faultless_default
  host t ht := by
    rw [patient t ht]
    refine ⟨?_, ?_⟩
    · rintro r (h | rfl)
      · cases h
      · exact ⟨by decide, (), rfl⟩
    · rintro r (h | rfl)
      · cases h
      · exact ⟨by decide, {}, rfl⟩
  compression t _ := Gzip.Method.sound_stored t.compressionLevel

def works (i n : Nat) : List Move := List.replicate n (.work i .former)

/-! A file of each form, and a remote tracer. -/

def remote : Config.RemoteTracer where
  peer := "peer"
  addresses := ["a"]
  batchWindow := .ofSeconds 0

def config : Config.Tracers where
  json? := some { path := "t" }
  protobuf? := some { path := "u" }
  remote? := some remote

def started : Start where
  storage := ⟨[(["u"], .file []), (["t"], .file [])]⟩
  members := [.file (.ofFile "t" ⟨["t"], false, 0⟩ .jsonLines),
    .file (.ofFile "u" ⟨["u"], false, 0⟩ .delimited),
    .remote (remote.delivery.courier remote.target net false)]
  failure? := none

/-- Two events, a shutdown, and one more event while it waits for the second file. -/
def moves : List Move :=
  List.flatten [[.trace ⟨"a", 1⟩], works 0 9, works 1 8, works 2 3, [.advance 5, .trace ⟨"b", 2⟩],
    works 2 12, [.shutdown], works 0 12, works 1 19, works 2 7,
    [.join, .trace ⟨"c", 3⟩, .advance 20], works 1 1, [.join, .join]]

/-- When the shutdown has returned, one more event and another shutdown. -/
def movesAgain : List Move := moves ++ [.trace ⟨"d", 4⟩, .shutdown, .join, .join, .join]

/-! A file of JSON lines that is added to. -/

def appending : Config.Tracers where
  json? := some { path := "t", append := true }

def kept : Bytes := Recorder.records .jsonLines [(⟨"old", 9⟩ : Event)]

def keeping : Storage := ⟨[(["t"], .file kept)]⟩

def startedAppending : Start where
  storage := keeping
  members := [.file (.ofFile "t" ⟨["t"], true, 0⟩ .jsonLines)]
  failure? := none

def movesAppending : List Move :=
  List.flatten [[.trace ⟨"a", 1⟩, .shutdown], works 0 13, [.join]]

/-! Two forms in one file. -/

def sharing : Config.Tracers where
  json? := some { path := "t" }
  protobuf? := some { path := "t" }

def startedSharing : Start where
  storage := ⟨[(["t"], .file [])]⟩
  members := [.file (.ofFile "t" ⟨["t"], false, 0⟩ .jsonLines),
    .file (.ofFile "t" ⟨["t"], false, 0⟩ .delimited)]
  failure? := none

def movesSharing : List Move :=
  List.flatten [[.trace ⟨"a", 1⟩, .shutdown], works 0 13, works 1 13, [.join, .join]]

/-- The block of the event, and what is left of its line. -/
def shared : Bytes :=
  Wire.block (Message.encode (⟨"a", 1⟩ : Event)) ++
    (Recorder.records .jsonLines [(⟨"a", 1⟩ : Event)]).drop 6

/-! ### The starts -/

/-- The file of JSON lines has been opened. -/
def first : Start where
  storage := ⟨[(["t"], .file [])]⟩
  members := [.file (.ofFile "t" ⟨["t"], false, 0⟩ .jsonLines)]
  failure? := none

theorem file_first : (Start.mk .empty [] none).file (some { path := "t" }) .jsonLines = first :=
  Start.file_of_open rfl rfl (Storage.openFile_letter (.inl rfl) false)

theorem configured : Start.ofConfig true config .empty net false = started := by
  have hprotobuf : first.file config.protobuf? .delimited =
      { started with members := started.members.take 2 } :=
    Start.file_of_open rfl rfl (Storage.openFile_letter (.inr rfl) false)
  show (((Start.mk .empty [] none).file (some { path := "t" }) .jsonLines).file config.protobuf?
    .delimited).remote config.remote? net false = _
  rw [file_first, hprotobuf]
  rfl

theorem configured_appending : Start.ofConfig true appending keeping net false = startedAppending := by
  have hjson : (Start.mk keeping [] none).file appending.json? .jsonLines = startedAppending :=
    Start.file_of_open rfl rfl (Storage.openFile_letter (.inl rfl) true)
  show (((Start.mk keeping [] none).file appending.json? .jsonLines).file none .delimited).remote none
    net false = _
  rw [hjson]
  rfl

theorem configured_sharing : Start.ofConfig true sharing .empty net false = startedSharing := by
  have hprotobuf : first.file sharing.protobuf? .delimited = startedSharing :=
    Start.file_of_open rfl rfl (Storage.openFile_letter (.inl rfl) false)
  show (((Start.mk .empty [] none).file (some { path := "t" }) .jsonLines).file sharing.protobuf?
    .delimited).remote none net false = _
  rw [file_first, hprotobuf]
  rfl

/-- What the entries of a run say of the events. -/
def entries (s : Fleet) : Option (List (UInt64 × UInt64 × UInt64)) :=
  s.noted?.map (·.map fun (_, t) => (t.eventsTraced, t.eventsWritten, t.eventsDropped))

theorem follow_moves : (moves.foldlM Fleet.move (.start (started.members.map
    (Member.outfitted plans .stored)))).map entries = some (some [(2, 2, 0), (2, 2, 1), (2, 2, 1)]) := by
  decide +kernel

theorem follow_movesAgain : (movesAgain.foldlM Fleet.move (.start (started.members.map
    (Member.outfitted plans .stored)))).map entries = some (some [(2, 2, 2), (2, 2, 2), (2, 2, 2)]) := by
  decide +kernel

/-- A run of all three, to the end. -/
theorem concluded {ms : List Move} {told : List (UInt64 × UInt64 × UInt64)} (all : told.length = 3)
    (follow : (ms.foldlM Fleet.move (.start (started.members.map
      (Member.outfitted plans .stored)))).map entries = some (some told)) :
    ∃ s reports, Concluded config .empty net plans .stored started ms s reports ∧
      entries s = some told := by
  obtain ⟨s, hfollow, hentries⟩ := Option.map_eq_some_iff.mp follow
  obtain ⟨reports, hreturned, hreports⟩ := Option.map_eq_some_iff.mp hentries
  have hall : reports.length = 3 := by rw [← List.length_map, hreports, all]
  refine ⟨s, reports, ⟨configured, rfl, rfl, fails ?_, Fleet.Run.start.follow hfollow, hreturned, hall⟩,
    hentries⟩
  intro t ht
  rw [List.mem_singleton.mp ht]
  rfl

/-- A run on files, of one tracer or more, and what the file `t` holds in the end. -/
theorem concluded_files {config : Config.Tracers} {storage : Storage} {st : Start} (ms : List Move)
    (content : Bytes) (configured : Start.ofConfig true config storage net false = st)
    (started : st.failure? = none) (files : config.remotes = [])
    (h : (ms.foldlM Fleet.move (.start (st.members.map (Member.outfitted plans .stored)))).map
      (fun s => (s.noted?.map List.length, (s.store st.storage).at? ["t"])) =
        some (some st.members.length, some (.file content))) :
    ∃ s reports, Concluded config storage net plans .stored st ms s reports ∧
      (s.store st.storage).read "t" = .ok content := by
  obtain ⟨s, hfollow, hends⟩ := Option.map_eq_some_iff.mp h
  rw [Prod.mk.injEq] at hends
  obtain ⟨reports, hreturned, hall⟩ := Option.map_eq_some_iff.mp hends.1
  have hpatient : ∀ t ∈ config.remotes, t.attemptTimeout = .ofSeconds 60 := by
    rw [files]
    nofun
  have hrun := Fleet.Run.start.follow hfollow
  exact ⟨s, reports, ⟨configured, started, rfl, fails hpatient, hrun, hreturned, hall⟩,
    Storage.read_letter (.inl rfl) hends.2⟩

end ThreeOutputs

open ThreeOutputs in
theorem one_story_three :
    (∃ s reports, Concluded config .empty net plans .stored started moves s reports ∧
      (started.members.filterMap Member.place?).Nodup ∧
      early moves = [⟨"a", 1⟩, ⟨"b", 2⟩] ∧ lateAtJoins moves = [0, 1, 1] ∧
      OneStory config .empty (s.store started.storage) moves s reports) ∧
    ∃ s reports, Concluded config .empty net plans .stored started movesAgain s reports ∧
      early movesAgain = [⟨"a", 1⟩, ⟨"b", 2⟩] ∧ lateAtJoins movesAgain = [2, 2, 2] ∧
      OneStory config .empty (s.store started.storage) movesAgain s reports := by
  have hapart : (started.members.filterMap Member.place?).Nodup := by decide
  obtain ⟨s, reports, hconcluded, -⟩ := concluded rfl follow_moves
  obtain ⟨s', reports', hconcluded', -⟩ := concluded rfl follow_movesAgain
  exact ⟨⟨s, reports, hconcluded, hapart, rfl, rfl, one_story hconcluded hapart⟩,
    s', reports', hconcluded', rfl, rfl, one_story hconcluded' hapart⟩

open ThreeOutputs in
/-- **Where the stories differ.** What a file held before is read as well, if it was kept; a file of two
forms can be read in neither; and a call that comes while a shutdown waits is counted only by the tracers
that it has not yet waited for. -/
theorem stories_differ :
    (∃ s reports,
      Concluded appending keeping net plans .stored startedAppending movesAppending s reports ∧
      early movesAppending = [⟨"a", 1⟩] ∧ ∃ content,
        (s.store startedAppending.storage).read "t" = .ok content ∧
        Event.readLines? content = some [⟨"old", 9⟩, ⟨"a", 1⟩]) ∧
    (∃ s reports, Concluded sharing .empty net plans .stored startedSharing movesSharing s reports ∧
      early movesSharing = [⟨"a", 1⟩] ∧ ∃ content,
        (s.store startedSharing.storage).read "t" = .ok content ∧
        Event.readLines? content = none ∧ Frame.readEvents content ≠ .ok [(⟨"a", 1⟩ : Event)]) ∧
    ∃ s reports, Concluded config .empty net plans .stored started moves s reports ∧
      entries s = some [(2, 2, 0), (2, 2, 1), (2, 2, 1)] := by
  obtain ⟨s, reports, hconcluded, hread⟩ := concluded_files movesAppending
    (Recorder.records .jsonLines [(⟨"old", 9⟩ : Event), ⟨"a", 1⟩]) configured_appending rfl rfl
    (by decide +kernel)
  obtain ⟨s', reports', hconcluded', hread'⟩ :=
    concluded_files movesSharing shared configured_sharing rfl rfl (by decide +kernel)
  exact ⟨⟨s, reports, hconcluded, rfl, _, hread, Event.readLines?_records _⟩,
    ⟨s', reports', hconcluded', rfl, _, hread', by decide +kernel, by decide +kernel⟩,
    concluded rfl follow_moves⟩

end Tracer

end TraceRelay
