import Mathlib.Data.List.Nodup
import Mathlib.Logic.Function.Basic

/-!
# File systems

A file system as a process sees it: directories with named entries, a working directory, and the
directory that each path leads to, which is left open. A path names an entry of the directory
before its last slash, or of the working directory when it has none.
-/

namespace Paho

universe u

/-- The name of an entry of a directory. -/
abbrev FileName := List Char

abbrev Path := List Char

/-- What a directory has under a name. -/
inductive Entry (Byte : Type u) where
  | file (content : List Byte)
  | other
  deriving DecidableEq, Repr

/-- The entries of a directory, with their names in the order in which they are read. -/
structure Directory (Byte : Type u) where
  names : List FileName
  entry : FileName → Option (Entry Byte)
  nodup : names.Nodup
  mem_names : ∀ name, name ∈ names ↔ (entry name).isSome

namespace Directory

variable {Byte : Type u}

/-- An empty directory has no names. -/
theorem mem_names_nil (name : FileName) : name ∈ ([] : List FileName) ↔
    (none : Option (Entry Byte)).isSome := by
  simp

/-- Writes a file, a new one at the end. -/
def write (directory : Directory Byte) (name : FileName) (content : List Byte) :
    Directory Byte where
  names := if name ∈ directory.names then directory.names else directory.names ++ [name]
  entry := Function.update directory.entry name (some (.file content))
  nodup := by
    split_ifs with known
    · exact directory.nodup
    · apply List.Nodup.append directory.nodup (List.nodup_singleton name)
      simpa using known
  mem_names other := by
    by_cases same : other = name
    · subst same
      split_ifs with known
      · simpa using known
      · simp
    · rw [Function.update_of_ne same, ← directory.mem_names]
      split_ifs
      · rfl
      · simp [same]

def erase (directory : Directory Byte) (name : FileName) : Directory Byte where
  names := directory.names.erase name
  entry := Function.update directory.entry name none
  nodup := directory.nodup.erase name
  mem_names other := by
    rw [directory.nodup.mem_erase_iff]
    by_cases same : other = name
    · simp [same]
    · rw [Function.update_of_ne same, ← directory.mem_names]
      simp [same]

@[simp]
theorem entry_write (directory : Directory Byte) (name : FileName) (content : List Byte) :
    (directory.write name content).entry =
      Function.update directory.entry name (some (.file content)) :=
  rfl

@[simp]
theorem entry_erase (directory : Directory Byte) (name : FileName) :
    (directory.erase name).entry = Function.update directory.entry name none :=
  rfl

theorem write_write (directory : Directory Byte) (name : FileName) (first second : List Byte) :
    (directory.write name first).write name second = directory.write name second := by
  simp only [write, Function.update_idem]
  congr 1
  split_ifs <;> simp_all

end Directory

/-- The last slash of a path, if it has one: what is before it, and the name after it. -/
def splitLast : Path → Option (Path × FileName)
  | [] => none
  | letter :: path =>
      match splitLast path with
      | some (directory, name) => some (letter :: directory, name)
      | none => if letter = '/' then some ([], path) else none

theorem splitLast_of_notMem {name : FileName} (plain : '/' ∉ name) : splitLast name = none := by
  induction name with
  | nil => rfl
  | cons letter name ih =>
      rcases not_or.mp (List.mem_cons.not.mp plain) with ⟨first, rest⟩
      simp [splitLast, ih rest, Ne.symm first]

theorem splitLast_append {name : FileName} (plain : '/' ∉ name) (directory : Path) :
    splitLast (directory ++ '/' :: name) = some (directory, name) := by
  induction directory with
  | nil => simp [splitLast, splitLast_of_notMem plain]
  | cons letter directory ih => simp [splitLast, ih]

/-- What a process sees of the files. -/
structure FileSystem (Dir Byte : Type u) where
  directories : Dir → Directory Byte
  /-- The directory that a path leads to. -/
  resolve : Path → Option Dir
  /-- The current working directory. -/
  cwd : Dir

/-- What `unlink` and `remove` answer. -/
inductive Removal where
  | removed
  | missing
  | refused
  deriving DecidableEq, Repr

namespace FileSystem

variable {Dir Byte : Type u}

/-- The directory and the name that a path stands for. -/
def locate (files : FileSystem Dir Byte) (path : Path) : Option (Dir × FileName) :=
  match splitLast path with
  | some (directory, name) => (files.resolve directory).map fun dir => (dir, name)
  | none => some (files.cwd, path)

theorem locate_name (files : FileSystem Dir Byte) {name : FileName} (plain : '/' ∉ name) :
    files.locate name = some (files.cwd, name) := by
  simp [locate, splitLast_of_notMem plain]

theorem locate_append (files : FileSystem Dir Byte) {directory : Path} {dir : Dir}
    {name : FileName} (leads : files.resolve directory = some dir) (plain : '/' ∉ name) :
    files.locate (directory ++ '/' :: name) = some (dir, name) := by
  simp [locate, splitLast_append plain, leads]

/-- The entry at a path. -/
def entryAt (files : FileSystem Dir Byte) (path : Path) : Option (Entry Byte) :=
  (files.locate path).bind fun place => (files.directories place.1).entry place.2

/-- `lstat`: whether the path names a regular file, if it names anything. -/
def lstat (files : FileSystem Dir Byte) (path : Path) : Option Bool :=
  (files.locate path).bind fun place =>
    if place.2 = ['.'] ∨ place.2 = ['.', '.'] then some false
    else ((files.directories place.1).entry place.2).map fun entry =>
      match entry with
      | .file _ => true
      | .other => false

theorem lstat_regular {files : FileSystem Dir Byte} {path : Path} {dir : Dir} {name : FileName}
    (located : files.locate path = some (dir, name)) :
    files.lstat path = some true ↔ (name ≠ ['.'] ∧ name ≠ ['.', '.']) ∧
      ∃ content, (files.directories dir).entry name = some (.file content) := by
  simp only [lstat, located, Option.bind_some, ← not_or]
  by_cases dot : name = ['.'] ∨ name = ['.', '.']
  · simp [dot]
  · rcases (files.directories dir).entry name with _ | _ | _
    · simp [dot]
    · simp [dot]
    · simp [dot]

/-- `opendir` and `readdir` to the end. -/
def readdir (files : FileSystem Dir Byte) (path : Path) : Option (List FileName) :=
  (files.resolve path).map fun dir =>
    ['.'] :: ['.', '.'] :: (files.directories dir).names

section

variable [DecidableEq Dir]

/-- Changes the directory of a place. -/
def change (files : FileSystem Dir Byte) (dir : Dir)
    (changed : Directory Byte → Directory Byte) : FileSystem Dir Byte :=
  { files with
    directories := Function.update files.directories dir (changed (files.directories dir)) }

/-- `fopen` for writing: the file is created, or truncated. -/
def create (files : FileSystem Dir Byte) (path : Path) : Option (FileSystem Dir Byte) :=
  (files.locate path).bind fun place =>
    match (files.directories place.1).entry place.2 with
    | some .other => none
    | _ => some (files.change place.1 fun directory => directory.write place.2 [])

/-- `fwrite` at the end of a file. -/
def append (files : FileSystem Dir Byte) (path : Path) (bytes : List Byte) :
    FileSystem Dir Byte :=
  match files.locate path with
  | none => files
  | some place =>
      match (files.directories place.1).entry place.2 with
      | some (.file content) =>
          files.change place.1 fun directory => directory.write place.2 (content ++ bytes)
      | _ => files

/-- `unlink`, and `remove` of a file. -/
def unlink (files : FileSystem Dir Byte) (path : Path) : Removal × FileSystem Dir Byte :=
  match files.locate path with
  | none => (.missing, files)
  | some place =>
      match (files.directories place.1).entry place.2 with
      | none => (.missing, files)
      | some .other => (.refused, files)
      | some (.file _) =>
          (.removed, files.change place.1 fun directory => directory.erase place.2)

theorem unlink_file {files : FileSystem Dir Byte} {path : Path} {dir : Dir} {name : FileName}
    {content : List Byte} (located : files.locate path = some (dir, name))
    (present : (files.directories dir).entry name = some (.file content)) :
    files.unlink path = (.removed, files.change dir fun directory => directory.erase name) := by
  simp [unlink, located, present]

@[simp]
theorem resolve_change (files : FileSystem Dir Byte) (dir : Dir)
    (changed : Directory Byte → Directory Byte) :
    (files.change dir changed).resolve = files.resolve :=
  rfl

@[simp]
theorem cwd_change (files : FileSystem Dir Byte) (dir : Dir)
    (changed : Directory Byte → Directory Byte) : (files.change dir changed).cwd = files.cwd :=
  rfl

@[simp]
theorem locate_change (files : FileSystem Dir Byte) (dir : Dir)
    (changed : Directory Byte → Directory Byte) (path : Path) :
    (files.change dir changed).locate path = files.locate path :=
  rfl

@[simp]
theorem directories_change (files : FileSystem Dir Byte) (dir : Dir)
    (changed : Directory Byte → Directory Byte) :
    (files.change dir changed).directories dir = changed (files.directories dir) := by
  simp [change]

theorem directories_change_of_ne (files : FileSystem Dir Byte) {dir other : Dir}
    (differ : other ≠ dir) (changed : Directory Byte → Directory Byte) :
    (files.change dir changed).directories other = files.directories other := by
  simp [change, differ]

theorem change_change (files : FileSystem Dir Byte) (dir : Dir)
    (first second : Directory Byte → Directory Byte) :
    (files.change dir first).change dir second =
      files.change dir fun directory => second (first directory) := by
  simp [change]

/-- A file that is created and written piece by piece holds the pieces in order. -/
theorem foldl_append_change (files : FileSystem Dir Byte) {path : Path} {dir : Dir}
    {name : FileName} (located : files.locate path = some (dir, name)) (content : List Byte)
    (pieces : List (List Byte)) :
    pieces.foldl (fun files piece => files.append path piece)
        (files.change dir fun directory => directory.write name content) =
      files.change dir fun directory => directory.write name (content ++ pieces.flatten) := by
  induction pieces generalizing content with
  | nil => simp
  | cons piece pieces ih =>
      have written : (files.change dir fun directory => directory.write name content).append path
          piece = files.change dir fun directory => directory.write name (content ++ piece) := by
        simp [append, located, change_change, Directory.write_write]
      rw [List.foldl_cons, written, ih]
      simp

end

end FileSystem

end Paho
