import TraceRelay.Proofs.Recorder.File
import TraceRelay.Tracer.Configured

/-!
# The tracers that a configuration starts

A configuration asks for some files and for some remote tracers. If nothing fails, each file has been
opened, in order, and behind what it held before it takes what will be written to it (`Opens.placed`), and
the tracers are those that were asked for (`Start.ofConfig_spec`).
-/

namespace TraceRelay

namespace Config.Tracers

/-- The files that a configuration asks for, in order, and the form of their records. -/
def files (c : Config.Tracers) : List (FileTracer × Encoder Event) :=
  (c.json?.filter (·.enabled)).toList.map (·, .jsonLines) ++
    (c.protobuf?.filter (·.enabled)).toList.map (·, .delimited)

def remotes (c : Config.Tracers) : List RemoteTracer := (c.remote?.filter (·.enabled)).toList

/-- The write loops of the remote tracers. -/
def couriers (c : Config.Tracers) (net : Net) : List (Courier Event) :=
  c.remotes.map fun t => t.delivery.courier t.target net false

end Config.Tracers

namespace Tracer

/-- A file that a configuration asks for. -/
abbrev Asked := Config.FileTracer × Encoder Event

/-- Files are opened one after the other, for a recorder each. -/
inductive Opens (s : Storage) : List Asked → List (FileRecorder Event) → Storage → Prop where
  | none : Opens s [] [] s
  | one_more {asked : List Asked} {files : List (FileRecorder Event)} {s₁ s₂ : Storage}
      {t : Config.FileTracer} {encoder : Encoder Event} {file : Storage.File}
      (before : Opens s asked files s₁)
      (opened : s₁.openFile t.path t.append = .ok (file, s₂)) :
      Opens s (asked ++ [(t, encoder)]) (files ++ [.ofFile t.path file encoder]) s₂

/-- The recorder of a file that was asked for, and its file in a storage. -/
structure Placed (held : Bytes) (s : Storage) (asked : Asked) (f : FileRecorder Event) : Prop where
  recorder : f = .ofFile asked.1.path f.file asked.2
  ready : s.Ready asked.1.path f.file held

namespace Opens

variable {s s₁ : Storage} {asked : List Asked} {files : List (FileRecorder Event)}

theorem directory_before (h : Opens s asked files s₁) {p : Place} (now : s₁.at? p = some .directory) :
    s.at? p = some .directory := by
  induction h with
  | none => exact now
  | one_more _ opened ih => exact ih ((Storage.openFile_spec opened).directory_before now)

/-- What other files held before is as it was. -/
theorem before_other (h : Opens s asked files s₁) {append : Bool} {q : Place}
    (apart : q ∉ files.map (·.file.place)) : s₁.before append q = s.before append q := by
  induction h with
  | none => rfl
  | one_more _ opened ih =>
    rw [List.map_append, List.mem_append, not_or] at apart
    have hlast := List.ne_of_not_mem_cons apart.2
    rw [(Storage.openFile_spec opened).before_other hlast, ih apart.1]

/-- **Each file that was asked for holds what it held before**, if that is kept, and takes what is written
behind it. -/
theorem placed (h : Opens s asked files s₁) (nodup : (files.map (·.file.place)).Nodup) :
    List.Forall₂ (fun a f => Placed (s.held a.1.append a.1.path) s₁ a f) asked files := by
  induction h with
  | none => exact .nil
  | @one_more asked files s₁ s₂ t encoder file before opened ih =>
    have hopened := Storage.openFile_spec opened
    rw [List.map_append, List.nodup_append] at nodup
    obtain ⟨hnodup, -, hapart⟩ := nodup
    have hne : ∀ f ∈ files, f.file.place ≠ file.place := fun f hf =>
      hapart _ (List.mem_map_of_mem hf) _ (List.mem_singleton_self _)
    have hall := ih hnodup
    refine List.rel_append (List.forall₂_iff_zip.mpr ⟨hall.length_eq, fun hmem => ?_⟩)
      (.cons ⟨rfl, ?_⟩ .nil)
    · have hplaced := List.forall₂_zip hall hmem
      exact ⟨hplaced.recorder, hplaced.ready.open_other hopened (hne _ (List.of_mem_zip hmem).2)⟩
    · -- the path leads to the same place as before the others were opened
      obtain ⟨parts, hnames, hwalk⟩ := Storage.placeOf_eq_ok hopened.found
      have hbefore : s.walk [] parts = .ok file.place :=
        Storage.walk_of_directories (fun _ => before.directory_before) hwalk
      have happart : file.place ∉ files.map (·.file.place) := fun hmem =>
        have ⟨f, hf, hsame⟩ := List.mem_map.mp hmem
        hne f hf hsame
      have hready := hopened.ready
      rw [before.before_other happart, ← Storage.held_eq_before hnames hbefore] at hready
      exact hready

theorem placed_of_mem (h : Opens s asked files s₁) (nodup : (files.map (·.file.place)).Nodup)
    {f : FileRecorder Event} (mem : f ∈ files) :
    ∃ a ∈ asked, Placed (s.held a.1.append a.1.path) s₁ a f := by
  obtain ⟨hlength, hall⟩ := List.forall₂_iff_get.mp (h.placed nodup)
  obtain ⟨i, hi, rfl⟩ := List.getElem_of_mem mem
  exact ⟨_, List.getElem_mem (hlength ▸ hi), hall i (hlength ▸ hi) hi⟩

/-- **What is written to the files that were asked for** stands behind what they held before. -/
theorem read_written (h : Opens s asked files s₁) (nodup : (files.map (·.file.place)).Nodup) {a : Asked}
    (mem : a ∈ asked) (data : Encoder Event → Bytes) :
    (s₁.writeAll (files.map fun f => (f.file, data f.recorder.encoder))).read a.1.path =
      .ok (s.held a.1.append a.1.path ++ data a.2) := by
  obtain ⟨hlength, hall⟩ := List.forall₂_iff_get.mp (h.placed nodup)
  obtain ⟨i, hi, rfl⟩ := List.getElem_of_mem mem
  have hplaced := hall i hi (hlength ▸ hi)
  have hready : s₁.AllReady (files.map fun f => (f.file, data f.recorder.encoder)) := by
    rintro w hw
    obtain ⟨f, hf, rfl⟩ := List.mem_map.mp hw
    obtain ⟨a, -, hplaced⟩ := h.placed_of_mem nodup hf
    exact ⟨_, _, hplaced.ready⟩
  have hencoder : (files.get ⟨i, hlength ▸ hi⟩).recorder.encoder = asked[i].2 := by
    rw [hplaced.recorder]
    rfl
  rw [← hencoder]
  refine (hplaced.ready.writeAll hready ?_ (List.mem_map_of_mem (List.getElem_mem _))).read
  rw [List.map_map]
  exact nodup

end Opens

/-! ## The start -/

namespace Start

variable {s : Storage} {asked : List Asked} {st : Start} {t? : Option Config.FileTracer}
  {encoder : Encoder Event}

/-- A start that has come to nothing but files. -/
structure OnFiles (s : Storage) (asked : List Asked) (st : Start) : Prop where
  opened : ∃ files, Opens s asked files st.storage ∧ st.members = files.map .file

theorem failure?_of_file (h : (st.file t? encoder).failure? = none) : st.failure? = none := by
  cases hfailure : st.failure? with
  | none => rfl
  | some f => rw [file, hfailure] at h; rw [← h, hfailure]

theorem failure?_of_remote {r? : Option Config.RemoteTracer} {net : Net}
    (h : (st.remote r? net false).failure? = none) : st.failure? = none := by
  cases hfailure : st.failure? with
  | none => rfl
  | some f => rw [remote, hfailure] at h; rw [← h, hfailure]

theorem OnFiles.file (before : OnFiles s asked st) (h : (st.file t? encoder).failure? = none) :
    OnFiles s (asked ++ (t?.filter (·.enabled)).toList.map (·, encoder)) (st.file t? encoder) := by
  have hnone := failure?_of_file h
  unfold Start.file at h ⊢
  rw [hnone] at h ⊢
  cases ht : t?.filter (·.enabled) with
  | none =>
    rw [Option.toList_none, List.map_nil, List.append_nil]
    exact before
  | some t =>
    rw [ht] at h
    dsimp only at h ⊢
    cases hstart : FileRecorder.start true st.storage t.path t.append encoder with
    | error f => rw [hstart] at h; cases h
    | ok started =>
      obtain ⟨files, hopens, hmembers⟩ := before.opened
      unfold FileRecorder.start at hstart
      cases hopen : st.storage.openFile t.path t.append with
      | error f => rw [hopen] at hstart; cases hstart
      | ok opened =>
        rw [hopen] at hstart
        cases hstart
        refine ⟨files ++ [_], hopens.one_more hopen, ?_⟩
        rw [List.map_append, hmembers]
        rfl

/-- What there is when a remote tracer has been started too. -/
theorem OnFiles.remote {r? : Option Config.RemoteTracer} {net : Net} (before : OnFiles s asked st)
    (h : (st.remote r? net false).failure? = none) : ∃ files,
      Opens s asked files (st.remote r? net false).storage ∧
      (st.remote r? net false).members = files.map .file ++ (r?.filter (·.enabled)).toList.map fun t =>
        .remote (t.delivery.courier t.target net false) := by
  obtain ⟨files, hopens, hmembers⟩ := before.opened
  unfold Start.remote at h ⊢
  cases hfailure : st.failure? with
  | some f => rw [hfailure] at h; dsimp only at h; rw [hfailure] at h; cases h
  | none =>
    cases hr : r?.filter (·.enabled) with
    | none => exact ⟨files, hopens, by rw [hmembers]; exact (List.append_nil _).symm⟩
    | some t =>
      rw [hfailure, hr] at h
      dsimp only at h ⊢
      split at h
      · cases h
      · next haddresses =>
        rw [if_neg haddresses]
        exact ⟨files, hopens, congrArg (· ++ _) hmembers⟩

/-- **What a configuration starts.** If nothing has failed, its files have been opened and its tracers are
there, in order. -/
theorem ofConfig_spec {config : Config.Tracers} {net : Net} (h : ofConfig true config s net false = st)
    (started : st.failure? = none) : ∃ files, Opens s config.files files st.storage ∧
      st.members = files.map .file ++ (config.couriers net).map .remote := by
  subst h
  have hempty : OnFiles s [] ⟨s, [], none⟩ := ⟨[], .none, rfl⟩
  have hfiles : ((Start.mk s [] none).file config.json? .jsonLines |>.file config.protobuf? .delimited
      |>.remote config.remote? net false).failure? = none := started
  have hprotobuf := failure?_of_remote hfiles
  rw [Config.Tracers.couriers, List.map_map]
  exact ((hempty.file (failure?_of_file hprotobuf)).file hprotobuf).remote hfiles

end Start

end Tracer

end TraceRelay
