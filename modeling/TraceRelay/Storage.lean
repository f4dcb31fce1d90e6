import TraceRelay.Bytes
import TraceRelay.Fault

/-!
# Files and directories

The files below a working directory. A path is a run of names; `.` stays, `..` goes up, and nothing
lies above the working directory. On the way to its end a path must lead through directories.

A file is opened for writing either from its start, which empties it, or behind what it holds. A
writer in the first mode goes on where it stopped, one in the second always at the end.
-/

namespace TraceRelay

/-- The names that lead from the working directory to a place. -/
abbrev Place := List String

inductive Node where
  | directory
  | file (content : Bytes)
  deriving DecidableEq, Repr, Inhabited

structure Storage where
  nodes : List (Place × Node)
  deriving Repr, Inhabited

namespace Storage

def missing : Fault := ⟨.notFound, "No such file or directory (os error 2)"⟩

def notDirectory : Fault := ⟨.notADirectory, "Not a directory (os error 20)"⟩

def isDirectory : Fault := ⟨.isADirectory, "Is a directory (os error 21)"⟩

def nameTooLong : Fault := ⟨.invalidFilename, "File name too long (os error 36)"⟩

def nulInName : Fault := ⟨.invalidInput, "file name contained an unexpected NUL byte"⟩

/-- Bytes of the longest name. -/
def maxName : Nat := 255

/-- Bytes of the longest path. -/
def maxPath : Nat := 4095

def empty : Storage := ⟨[]⟩

/-- What is at a place. -/
def at? (s : Storage) (place : Place) : Option Node :=
  if place = [] then some .directory else s.nodes.lookup place

/-- Puts something at a place. -/
def set (s : Storage) (place : Place) (node : Node) : Storage :=
  ⟨(place, node) :: s.nodes.filter (·.1 ≠ place)⟩

/-- Follows names from a place. The last may lead to where nothing is yet. -/
def walk (s : Storage) (place : Place) : List String → Except Fault Place
  | [] => .ok place
  | name :: rest =>
    match s.at? place with
    | none => .error missing
    | some (.file _) => .error notDirectory
    | some .directory =>
      if name = "" ∨ name = "." then s.walk place rest
      else if name = ".." then s.walk place.dropLast rest
      else if maxName < name.utf8ByteSize then .error nameTooLong
      else s.walk (place ++ [name]) rest

/-- The names of a path. Only what is below the working directory can be found. -/
def names (path : String) : Except Fault (List String) :=
  if path.contains '\x00' then .error nulInName
  else if path = "" then .error missing
  else if maxPath < path.utf8ByteSize then .error nameTooLong
  else
    let names := path.splitOn "/"
    if path.startsWith "/" ∧ names.any (· ∉ ["", ".", ".."]) then .error missing else .ok names

/-- The content of the file that a path leads to. -/
def read (s : Storage) (path : String) : Except Fault Bytes := do
  let place ← s.walk [] (← names path)
  match s.at? place with
  | none => .error missing
  | some .directory => .error isDirectory
  | some (.file content) => .ok content

/-! ## Writing -/

/-- A file that is open for writing. -/
structure File where
  place : Place
  append : Bool
  /-- Where the next write goes, unless it goes to the end. -/
  position : Nat
  deriving DecidableEq, Repr, Inhabited

/-- The place of a file to be written. A name with a slash behind it is that of a directory. -/
def placeOf (s : Storage) (path : String) : Except Fault Place := do
  let parts ← names path
  let trimmed := (parts.reverse.dropWhile (· = "")).reverse
  if trimmed.length < parts.length ∧ trimmed.getLast? ∉ [some ".", some ".."] then
    let _ ← s.walk [] (trimmed.dropLast ++ ["."])
    .error isDirectory
  else s.walk [] parts

/-- Opens a file for writing; one that is not there is made. -/
def openFile (s : Storage) (path : String) (append : Bool) : Except Fault (File × Storage) := do
  let place ← s.placeOf path
  match s.at? place with
  | some .directory => .error isDirectory
  | some (.file content) =>
    .ok (⟨place, append, 0⟩, s.set place (.file (if append then content else [])))
  | none => .ok (⟨place, append, 0⟩, s.set place (.file []))

/-- What a file holds after `data` was written to it at `position`. -/
def splice (content : Bytes) (position : Nat) (data : Bytes) : Bytes :=
  (content ++ List.replicate (position - content.length) 0).take position ++ data ++
    content.drop (position + data.length)

/-- Writes to an open file. -/
def write (s : Storage) (f : File) (data : Bytes) : Storage × File :=
  match s.at? f.place with
  | some (.file content) =>
    if f.append then (s.set f.place (.file (content ++ data)), f)
    else
      (s.set f.place (.file (splice content f.position data)),
        { f with position := f.position + data.length })
  | _ => (s, f)

/-- Makes a directory, and those on the way to it. -/
def makeDirectory (s : Storage) (path : String) : Storage :=
  let place := (path.splitOn "/").filter (· ∉ ["", "."])
  (List.range place.length).foldl (fun s n => s.set (place.take (n + 1)) .directory) s

/-- Makes a file, and the directories on the way to it. -/
def put (s : Storage) (path : String) (content : Bytes) : Storage :=
  let place := (path.splitOn "/").filter (· ∉ ["", "."])
  let s := (List.range (place.length - 1)).foldl (fun s n => s.set (place.take (n + 1)) .directory) s
  s.set place (.file content)

@[simp] theorem at?_set_self (s : Storage) {place : Place} (node : Node) (h : place ≠ []) :
    (s.set place node).at? place = some node := by simp [at?, set, h]

theorem splice_end (content data : Bytes) :
    splice content content.length data = content ++ data := by
  simp [splice]

end Storage

end TraceRelay
