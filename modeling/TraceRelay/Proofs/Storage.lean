import Mathlib
import TraceRelay.Storage

/-!
# Files that are opened and written

A file that has just been opened holds what it held before, or nothing, and what is written to it
goes behind that (`Ready.write_eq`). It is found by the path that it was opened by
(`Opened.read_written`), whatever is done to other files.
-/

namespace TraceRelay.Storage

variable {s s' : Storage} {path : String} {append : Bool} {f : File}

/-- What an open file held before. -/
def before (s : Storage) (append : Bool) (place : Place) : Bytes :=
  match s.at? place, append with
  | some (.file content), true => content
  | _, _ => []

theorem before_false (s : Storage) (place : Place) : s.before false place = [] := by
  unfold before
  split
  · next hfalse => cases hfalse
  · rfl

/-- What it takes to open a file, and what comes of it. -/
structure Opened (s : Storage) (path : String) (append : Bool) (f : File) (s' : Storage) : Prop where
  found : s.placeOf path = .ok f.place
  no_directory : s.at? f.place ≠ some .directory
  mode : f.append = append
  position : f.position = 0
  storage : s' = s.set f.place (.file (s.before append f.place))

theorem openFile_spec (h : s.openFile path append = .ok (f, s')) : Opened s path append f s' := by
  cases hplace : s.placeOf path with
  | error e => rw [openFile, hplace] at h; cases h
  | ok place =>
    simp only [openFile, hplace, bind, Except.bind] at h
    split at h
    · cases h
    · next content hat =>
      cases h
      refine ⟨hplace, by rw [hat]; nofun, rfl, rfl, ?_⟩
      unfold before
      rw [hat]
      cases append <;> rfl
    · next hat =>
      cases h
      refine ⟨hplace, by rw [hat]; nofun, rfl, rfl, ?_⟩
      unfold before
      rw [hat]

namespace Opened

theorem place_ne_nil (h : Opened s path append f s') : f.place ≠ [] := fun hnil =>
  h.no_directory (by rw [hnil, at?, if_pos rfl])

theorem at?_place (h : Opened s path append f s') :
    s'.at? f.place = some (.file (s.before append f.place)) := by
  rw [h.storage, at?_set_self s _ h.place_ne_nil]

end Opened

/-! ## Paths -/

theorem lookup_filter_of_ne {place q : Place} (nodes : List (Place × Node)) (h : q ≠ place) :
    (nodes.filter (·.1 ≠ place)).lookup q = nodes.lookup q := by
  induction nodes with
  | nil => rfl
  | cons node nodes ih =>
    obtain ⟨p, n⟩ := node
    by_cases hp : p = place
    · subst hp
      rw [List.filter_cons_of_neg (by simp), ih, List.lookup_cons, beq_false_of_ne h]
    · rw [List.filter_cons_of_pos (by simp [hp]), List.lookup_cons, List.lookup_cons, ih]

theorem at?_set_of_ne {place q : Place} (node : Node) (h : q ≠ place) :
    (s.set place node).at? q = s.at? q := by
  unfold at? set
  by_cases hq : q = []
  · rw [if_pos hq, if_pos hq]
  · rw [if_neg hq, if_neg hq, List.lookup_cons, beq_false_of_ne h]
    exact lookup_filter_of_ne s.nodes h

/-- A path leads through directories only, so it leads the same way wherever these are directories. -/
theorem walk_of_directories {s₁ : Storage} {names : List String} {p q : Place}
    (stay : ∀ place, s.at? place = some .directory → s₁.at? place = some .directory)
    (h : s.walk p names = .ok q) : s₁.walk p names = .ok q := by
  induction names generalizing p with
  | nil => exact h
  | cons name names ih =>
    unfold walk at h ⊢
    cases hat : s.at? p with
    | none => rw [hat] at h; cases h
    | some found =>
      cases found with
      | file content => rw [hat] at h; cases h
      | directory =>
        rw [hat] at h
        rw [stay p hat]
        dsimp only at h ⊢
        split at h
        · next hstay => rw [if_pos hstay]; exact ih h
        · next hgo =>
          rw [if_neg hgo]
          split at h
          · next hup => rw [if_pos hup]; exact ih h
          · next hdown =>
            rw [if_neg hdown]
            split at h
            · cases h
            · next hname => rw [if_neg hname]; exact ih h

/-- A path to a file leads past none of the files. -/
theorem walk_set {place : Place} {names : List String} {p q : Place} (node : Node)
    (hplace : s.at? place ≠ some .directory) (h : s.walk p names = .ok q) :
    (s.set place node).walk p names = .ok q := by
  refine walk_of_directories (fun p' hat => ?_) h
  have hne : p' ≠ place := fun hp => hplace (by rw [← hp, hat])
  rw [at?_set_of_ne node hne, hat]

theorem placeOf_eq_ok {place : Place} (h : s.placeOf path = .ok place) :
    ∃ parts, names path = .ok parts ∧ s.walk [] parts = .ok place := by
  unfold placeOf at h
  cases hnames : names path with
  | error e => rw [hnames] at h; cases h
  | ok parts =>
    rw [hnames] at h
    refine ⟨parts, rfl, ?_⟩
    simp only [bind, Except.bind] at h
    split at h
    · split at h
      · cases h
      · cases h
    · exact h

/-- What the file of a path holds, if it is to be kept. -/
def held (s : Storage) (append : Bool) (path : String) : Bytes :=
  match append, s.read path with
  | true, .ok content => content
  | _, _ => []

theorem held_eq_before {place : Place} {parts : List String} (hnames : names path = .ok parts)
    (hwalk : s.walk [] parts = .ok place) : s.held append path = s.before append place := by
  unfold held before Storage.read
  simp only [hnames, hwalk, bind, Except.bind]
  cases s.at? place with
  | none => cases append <;> rfl
  | some node => cases node <;> cases append <;> rfl

/-- What is read from a path is what stands before all that is appended. -/
theorem Opened.before_of_read (h : Opened s path append f s') {content : Bytes}
    (read : s.read path = .ok content) : s.before true f.place = content := by
  obtain ⟨parts, hnames, hwalk⟩ := placeOf_eq_ok h.found
  rw [← held_eq_before hnames hwalk]
  unfold held
  rw [read]

/-- No directory is made when a file is opened. -/
theorem Opened.directory_before (h : Opened s path append f s') {p : Place}
    (now : s'.at? p = some .directory) : s.at? p = some .directory := by
  by_cases hp : p = f.place
  · rw [hp, h.at?_place] at now
    cases now
  · rwa [h.storage, at?_set_of_ne _ hp] at now

/-! ## Files that paths lead to -/

/-- A path leads to a file. -/
structure Leads (s : Storage) (path : String) (place : Place) (content : Bytes) : Prop where
  way : ∃ parts, names path = .ok parts ∧ s.walk [] parts = .ok place
  holds : s.at? place = some (.file content)

/-- A path leads to an open file, whose next write goes behind what it holds. -/
structure Ready (s : Storage) (path : String) (f : File) (content : Bytes) : Prop where
  leads : s.Leads path f.place content
  at_end : f.append = true ∨ f.position = content.length

variable {place q : Place} {content : Bytes}

theorem Leads.read (h : s.Leads path place content) : s.read path = .ok content := by
  obtain ⟨parts, hnames, hwalk⟩ := h.way
  simp only [Storage.read, hnames, hwalk, h.holds, bind, Except.bind]

theorem Leads.ne_nil (h : s.Leads path place content) : place ≠ [] := by
  rintro rfl
  have hroot := h.holds
  rw [at?, if_pos rfl] at hroot
  cases hroot

theorem Leads.no_directory (h : s.Leads path place content) : s.at? place ≠ some .directory := by
  rw [h.holds]
  nofun

theorem Leads.set_self (h : s.Leads path place content) (new : Bytes) :
    (s.set place (.file new)).Leads path place new where
  way := h.way.imp fun _ way => ⟨way.1, walk_set _ h.no_directory way.2⟩
  holds := at?_set_self s _ h.ne_nil

/-- What becomes of another file is nothing to this one. -/
theorem Leads.set_other (h : s.Leads path place content) (apart : place ≠ q)
    (no_directory : s.at? q ≠ some .directory) (new : Bytes) :
    (s.set q (.file new)).Leads path place content where
  way := h.way.imp fun _ way => ⟨way.1, walk_set _ no_directory way.2⟩
  holds := (at?_set_of_ne _ apart).trans h.holds

/-- **A file that was opened by a path is found by it.** -/
theorem Opened.ready (h : Opened s path append f s') : s'.Ready path f (s.before append f.place) where
  leads := by
    obtain ⟨parts, hnames, hwalk⟩ := placeOf_eq_ok h.found
    refine ⟨⟨parts, hnames, ?_⟩, h.at?_place⟩
    rw [h.storage]
    exact walk_set _ h.no_directory hwalk
  at_end := by
    rw [h.mode, h.position]
    cases append with
    | true => exact .inl rfl
    | false => exact .inr (by rw [before_false]; rfl)

/-- **What is written to a file that has just been opened** goes behind what it holds. -/
theorem Ready.write_eq (h : s.Ready path f content) (data : Bytes) :
    (s.write f data).1 = s.set f.place (.file (content ++ data)) := by
  rw [write, h.leads.holds]
  dsimp only
  cases hmode : f.append with
  | true => rw [if_pos rfl]
  | false =>
    rw [if_neg Bool.false_ne_true, h.at_end.resolve_left (by rw [hmode]; nofun), splice_end]

theorem Ready.write_self (h : s.Ready path f content) (data : Bytes) :
    (s.write f data).1.Leads path f.place (content ++ data) := by
  rw [h.write_eq]
  exact h.leads.set_self _

section

variable {path₁ : String} {f₁ : File} {content₁ : Bytes}

theorem Leads.write_other (h : s.Leads path place content) (other : s.Ready path₁ f₁ content₁)
    (apart : place ≠ f₁.place) (data : Bytes) : (s.write f₁ data).1.Leads path place content := by
  rw [other.write_eq]
  exact h.set_other apart other.leads.no_directory _

theorem Ready.write_other (h : s.Ready path f content) (other : s.Ready path₁ f₁ content₁)
    (apart : f.place ≠ f₁.place) (data : Bytes) : (s.write f₁ data).1.Ready path f content :=
  ⟨h.leads.write_other other apart data, h.at_end⟩

/-- A file stays ready while another one is opened. -/
theorem Ready.open_other (h : s.Ready path f content) (other : Opened s path₁ append f₁ s')
    (apart : f.place ≠ f₁.place) : s'.Ready path f content := by
  refine ⟨?_, h.at_end⟩
  rw [other.storage]
  exact h.leads.set_other apart other.no_directory _

end

/-- A file that was opened by a path holds what it held before and what was written. -/
theorem Opened.read_written (h : Opened s path append f s') (data : Bytes) :
    (s'.write f data).1.read path = .ok (s.before append f.place ++ data) :=
  (h.ready.write_self data).read

/-- What another file held before is the same when one has been opened. -/
theorem Opened.before_other {append₁ : Bool} (h : Opened s path append f s') (apart : q ≠ f.place) :
    s'.before append₁ q = s.before append₁ q := by
  unfold before
  rw [h.storage, at?_set_of_ne _ apart]

/-! ## Several files -/

/-- Writes to files one after the other. -/
def writeAll (s : Storage) (writes : List (File × Bytes)) : Storage :=
  writes.foldl (fun s (f, data) => (s.write f data).1) s

/-- Some files are ready, each under some path. -/
def AllReady (s : Storage) (writes : List (File × Bytes)) : Prop :=
  ∀ w ∈ writes, ∃ path content, s.Ready path w.1 content

theorem AllReady.write {w : File × Bytes} {writes : List (File × Bytes)}
    (h : s.AllReady (w :: writes)) (apart : w.1.place ∉ writes.map (·.1.place)) :
    (s.write w.1 w.2).1.AllReady writes := by
  intro w' hmem
  obtain ⟨path, content, hready⟩ := h w' (List.mem_cons_of_mem _ hmem)
  obtain ⟨path₁, content₁, hfirst⟩ := h w (List.mem_cons_self ..)
  refine ⟨path, content, hready.write_other hfirst (fun hsame => apart ?_) w.2⟩
  rw [← hsame]
  exact List.mem_map_of_mem hmem

/-- What is written to others is nothing to a file. -/
theorem Leads.writeAll {writes : List (File × Bytes)} (h : s.Leads path place content)
    (ready : s.AllReady writes) (nodup : (writes.map (·.1.place)).Nodup)
    (apart : place ∉ writes.map (·.1.place)) : (s.writeAll writes).Leads path place content := by
  induction writes generalizing s with
  | nil => exact h
  | cons w writes ih =>
    rw [List.map_cons, List.nodup_cons] at nodup
    rw [List.map_cons, List.mem_cons, not_or] at apart
    obtain ⟨_, _, hfirst⟩ := ready w (List.mem_cons_self ..)
    exact ih (h.write_other hfirst apart.1 w.2) (ready.write nodup.1) nodup.2 apart.2

/-- **Each of several files gets what is written to it**, if no two of them are one. -/
theorem Ready.writeAll {writes : List (File × Bytes)} {data : Bytes} (h : s.Ready path f content)
    (ready : s.AllReady writes) (nodup : (writes.map (·.1.place)).Nodup) (mem : (f, data) ∈ writes) :
    (s.writeAll writes).Leads path f.place (content ++ data) := by
  induction writes generalizing s with
  | nil => cases mem
  | cons w writes ih =>
    rw [List.map_cons, List.nodup_cons] at nodup
    cases mem with
    | head => exact (h.write_self data).writeAll (ready.write nodup.1) nodup.2 nodup.1
    | tail _ hmem =>
      obtain ⟨_, _, hfirst⟩ := ready w (List.mem_cons_self ..)
      have hapart : f.place ≠ w.1.place := fun hsame =>
        nodup.1 (hsame ▸ List.mem_map_of_mem (f := (·.1.place)) hmem)
      exact ih (h.write_other hfirst hapart w.2) (ready.write nodup.1) nodup.2 hmem

/-- The names of a path that is a single letter. -/
theorem names_letter {path : String} (h : path = "t" ∨ path = "u") : names path = .ok [path] := by
  have hsplit : path.splitOn "/" = [path] := by rcases h with rfl | rfl <;> cbv
  have hnul : path.contains '\x00' = false := by rcases h with rfl | rfl <;> cbv
  have hstarts : path.startsWith "/" = false := by rcases h with rfl | rfl <;> decide +kernel
  have hempty : path ≠ "" := by rcases h with rfl | rfl <;> decide
  have hsize : ¬ maxPath < path.utf8ByteSize := by rcases h with rfl | rfl <;> decide
  rw [names, hnul, if_neg Bool.false_ne_true, if_neg hempty, if_neg hsize, hsplit, hstarts]
  rfl

/-- A file in the working directory is opened. -/
theorem openFile_letter {path : String} (h : path = "t" ∨ path = "u") (append : Bool) :
    s.openFile path append = match s.at? [path] with
      | some .directory => .error isDirectory
      | some (.file content) =>
        .ok (⟨[path], append, 0⟩, s.set [path] (.file (if append then content else [])))
      | none => .ok (⟨[path], append, 0⟩, s.set [path] (.file [])) := by
  rw [openFile, placeOf, names_letter h]
  rcases h with rfl | rfl <;> rfl

theorem read_letter {path : String} (h : path = "t" ∨ path = "u")
    (holds : s.at? [path] = some (.file content)) : s.read path = .ok content := by
  have hwalk : s.walk [] [path] = .ok [path] := by rcases h with rfl | rfl <;> rfl
  exact (Leads.mk ⟨_, names_letter h, hwalk⟩ holds).read

end TraceRelay.Storage
