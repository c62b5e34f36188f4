import Mathlib.Data.List.Basic
import Paho.Library.FileSystem

/-!
# Directory trees

Directories without links between them: each has one place, the names that lead to it from the
root. A path is followed name by name, from the root or from the working directory.
-/

namespace Paho

universe u

/-- One name of a path, from a place on. -/
def enter (place : List FileName) (name : FileName) : List FileName :=
  if name = [] ∨ name = ['.'] then place
  else if name = ['.', '.'] then place.dropLast
  else place ++ [name]

/-- The place that a path leads to from the working directory. -/
def follow (place : List FileName) (path : Path) : List FileName :=
  (path.splitOn '/').foldl enter (if path.head? = some '/' then [] else place)

/-- A name that is entered as it is. -/
def Ordinary (name : FileName) : Prop :=
  name ≠ [] ∧ name ≠ ['.'] ∧ name ≠ ['.', '.']

theorem enter_inj {place : List FileName} {first second : FileName} (ordinary : Ordinary first)
    (ordinary' : Ordinary second) : enter place first = enter place second ↔ first = second := by
  have named {name : FileName} (ordinary : Ordinary name) : enter place name = place ++ [name] := by
    simp [enter, ordinary.1, ordinary.2.1, ordinary.2.2]
  rw [named ordinary, named ordinary']
  simp

/-- The entries of a directory are entered from where the directory is. -/
theorem follow_entries (place : List FileName) (directory : Path) :
    ∃ base, ∀ name : FileName, '/' ∉ name → follow place (directory ++ '/' :: name) =
      enter base name := by
  refine ⟨(directory.splitOn '/').foldl enter
    (if (directory ++ ['/']).head? = some '/' then [] else place), fun name plain => ?_⟩
  have starts : (directory ++ '/' :: name).head? = (directory ++ ['/']).head? := by
    cases directory <;> rfl
  rw [follow, List.splitOn_append_cons_self, List.splitOn_eq_singleton plain, List.foldl_append,
    starts]
  rfl

/-- The directories are a tree: each has one place, and a path leads to the directory whose place is
found by following it. -/
structure FileSystem.Tree {Dir Byte : Type u} (files : FileSystem Dir Byte) where
  place : Dir → List FileName
  place_inj : ∀ {dir other}, place dir = place other → dir = other
  leads : ∀ {path dir}, files.resolve path = some dir → place dir = follow (place files.cwd) path

namespace FileSystem.Tree

variable {Dir Byte : Type u} {files : FileSystem Dir Byte} {path other : Path} {dir otherDir : Dir}

/-- Two paths lead to one directory when following them ends in one place. -/
theorem eq_iff (tree : files.Tree) (first : files.resolve path = some dir)
    (second : files.resolve other = some otherDir) :
    dir = otherDir ↔
      follow (tree.place files.cwd) path = follow (tree.place files.cwd) other := by
  rw [← tree.leads first, ← tree.leads second]
  exact ⟨congrArg tree.place, tree.place_inj⟩

theorem cwd_eq_iff (tree : files.Tree) (leads : files.resolve path = some dir) :
    files.cwd = dir ↔ tree.place files.cwd = follow (tree.place files.cwd) path := by
  rw [← tree.leads leads]
  exact ⟨congrArg tree.place, tree.place_inj⟩

end FileSystem.Tree

end Paho
