import Paho.Library.FileSystem
import Paho.Library.Run

/-!
# The default persistence

`MQTTPersistenceDefault.c`, in the build for Unix: each record is a file in the directory of the
client. `clearUnix` uses the names that it reads there without the directory, so that it looks for
them in the working directory.
-/

namespace Paho

namespace FileStore

abbrev Bytes := List UInt8

/-- `MESSAGE_FILENAME_EXTENSION`. -/
def messageFilenameExtension : FileName := ".msg".toList

/-- A key as the client builds them: a stem, which ends in a dash, and a number. -/
structure Key where
  text : FileName
  plain : '/' ∉ text
  undotted : '.' ∉ text
  deriving DecidableEq

/-- The directory of a client, as `pstopen` names it. -/
def clientDir (dataDir : Path) (clientID serverURI : FileName) : Path :=
  dataDir ++ '/' :: clientID ++ '-' :: serverURI.map fun letter =>
    if letter = ':' then '-' else letter

/-- The name of the file of a key. -/
def fileName (key : FileName) : FileName :=
  key ++ messageFilenameExtension

/-- The path of the file of a key. -/
def recordPath (handle : Path) (key : FileName) : Path :=
  handle ++ '/' :: fileName key

/-- A name up to the first extension, found by `strstr`. -/
def cutExtension : FileName → FileName
  | [] => []
  | letter :: name =>
      if messageFilenameExtension.isPrefixOf (letter :: name) then []
      else letter :: cutExtension name

section

variable {Dir : Type} [DecidableEq Dir] (files : FileSystem Dir UInt8) (handle : Path)

/-- `pstremove`; the result is whether the return code is 0. -/
def pstremove (key : FileName) : Bool × FileSystem Dir UInt8 :=
  let removal := files.unlink (recordPath handle key)
  (decide (removal.1 ≠ .refused), removal.2)

/-- `pstput`. -/
def pstput (key : FileName) (buffers : List Bytes) : Bool × FileSystem Dir UInt8 :=
  match files.create (recordPath handle key) with
  | some created =>
      (true, buffers.foldl (fun files buffer => files.append (recordPath handle key) buffer)
        created)
  | none => (false, files)

omit [DecidableEq Dir] in
/-- `pstget`. -/
def pstget (key : FileName) : Option Bytes :=
  match files.entryAt (recordPath handle key) with
  | some (.file content) => some content
  | _ => none

omit [DecidableEq Dir] in
/-- Whether an entry that was read in the directory of the client is a regular file there. -/
def isRecord (name : FileName) : Bool :=
  files.lstat (handle ++ '/' :: name) = some true

omit [DecidableEq Dir] in
/-- `containskeyUnix`. -/
def pstcontainskey (key : FileName) : Bool :=
  match files.readdir handle with
  | some names =>
      names.any fun name => isRecord files handle name && decide (cutExtension name = key)
  | none => false

omit [DecidableEq Dir] in
/-- `keysUnix`: the number of regular files, counted first, and the keys. -/
def pstkeys : Option (Nat × List FileName) :=
  (files.readdir handle).map fun names =>
    let nkeys := (names.filter (isRecord files handle)).length
    (nkeys, if nkeys = 0 then [] else (names.filter (isRecord files handle)).map cutExtension)

/-- The loop of `clearUnix` over the names that are read; it stops at the first error. -/
def clearLoop : List FileName → FileSystem Dir UInt8 → Bool × FileSystem Dir UInt8
  | [], files => (true, files)
  | name :: names, files =>
      if files.lstat name = some true then
        let removal := files.unlink name
        if removal.1 = .refused then (false, removal.2) else clearLoop names removal.2
      else clearLoop names files

/-- `clearUnix`. -/
def pstclear : Bool × FileSystem Dir UInt8 :=
  match files.readdir handle with
  | some names => clearLoop names files
  | none => (false, files)

end

/-- The operations on an open store. -/
inductive Operation where
  | put (key : Key) (buffers : List Bytes)
  | get (key : Key)
  | remove (key : Key)
  | containskey (key : Key)
  | keys
  | clear

/-- What an operation returns. -/
inductive Result where
  | code (success : Bool)
  | value (content : Option Bytes)
  | keys (keys : Option (Nat × List FileName))
  deriving DecidableEq, Repr

def perform {Dir : Type} [DecidableEq Dir] (handle : Path) (files : FileSystem Dir UInt8) :
    Operation → Result × FileSystem Dir UInt8
  | .put key buffers =>
      let result := pstput files handle key.text buffers
      (.code result.1, result.2)
  | .get key => (.value (pstget files handle key.text), files)
  | .remove key =>
      let result := pstremove files handle key.text
      (.code result.1, result.2)
  | .containskey key => (.code (pstcontainskey files handle key.text), files)
  | .keys => (.keys (pstkeys files handle), files)
  | .clear =>
      let result := pstclear files handle
      (.code result.1, result.2)

/-! ## The finite map -/

/-- The values of the live keys. -/
abbrev Contents := Key → Option Bytes

namespace Contents

/-- The map after an operation. -/
def after (contents : Contents) : Operation → Contents
  | .put key buffers => Function.update contents key (some buffers.flatten)
  | .remove key => Function.update contents key none
  | .clear => fun _ => none
  | _ => contents

/-- What an operation on the map answers; the keys may be listed in any order. -/
def Answers (contents : Contents) : Operation → Result → Prop
  | .put _ _, result => result = .code true
  | .get key, result => result = .value (contents key)
  | .remove _, result => result = .code true
  | .containskey key, result => result = .code (contents key).isSome
  | .keys, .keys (some (nkeys, keys)) =>
      nkeys = keys.length ∧ keys.Nodup ∧
        ∀ text, text ∈ keys ↔ ∃ key : Key, key.text = text ∧ (contents key).isSome
  | .keys, _ => False
  | .clear, result => result = .code true

end Contents

/-- The files of the directory `dir` are the records of the live keys, and nothing else. -/
structure Represents {Dir : Type} (dir : Dir) (contents : Contents)
    (files : FileSystem Dir UInt8) : Prop where
  records : ∀ name ∈ (files.directories dir).names, ∃ key : Key, name = fileName key.text
  content : ∀ key : Key,
    (files.directories dir).entry (fileName key.text) = (contents key).map .file

namespace Key

variable (key : Key)

theorem fileName_plain : '/' ∉ fileName key.text := by
  intro slash
  rcases List.mem_append.mp slash with inKey | inExtension
  · exact key.plain inKey
  · revert inExtension
    decide

theorem fileName_ne_dot : fileName key.text ≠ ['.'] := by
  intro same
  have lengths := congrArg List.length same
  simp [fileName, messageFilenameExtension] at lengths

theorem fileName_ne_dots : fileName key.text ≠ ['.', '.'] := by
  intro same
  have lengths := congrArg List.length same
  simp [fileName, messageFilenameExtension] at lengths

theorem ext_text {first second : Key} (same : first.text = second.text) : first = second := by
  cases first
  cases second
  simpa using same

theorem fileName_inj {first second : Key} :
    fileName first.text = fileName second.text ↔ first = second := by
  constructor
  · intro same
    exact ext_text (List.append_cancel_right same)
  · rintro rfl
    rfl

end Key

/-- The extension of the file of a key is the first one that is found in its name. -/
theorem cutExtension_fileName {text : FileName} (undotted : '.' ∉ text) :
    cutExtension (fileName text) = text := by
  induction text with
  | nil => rfl
  | cons letter text ih =>
      rcases not_or.mp (List.mem_cons.not.mp undotted) with ⟨first, rest⟩
      have notHere : messageFilenameExtension.isPrefixOf (letter :: fileName text) = false := by
        have other : ('.' == letter) = false := by simpa using first
        change (('.' == letter) && "msg".toList.isPrefixOf (fileName text)) = false
        rw [other, Bool.false_and]
      change cutExtension (letter :: fileName text) = letter :: text
      simp [cutExtension, notHere, ih rest]

section

variable {Dir : Type} [DecidableEq Dir] {files : FileSystem Dir UInt8} {handle : Path} {dir : Dir}
  {contents : Contents}

omit [DecidableEq Dir] in
theorem locate_recordPath (opened : files.resolve handle = some dir) (key : Key) :
    files.locate (recordPath handle key.text) = some (dir, fileName key.text) :=
  files.locate_append opened key.fileName_plain

omit [DecidableEq Dir] in
theorem isRecord_iff (opened : files.resolve handle = some dir)
    (represents : Represents dir contents files) (key : Key) :
    isRecord files handle (fileName key.text) = (contents key).isSome := by
  have located := locate_recordPath opened key
  simp only [recordPath] at located
  simp only [isRecord, FileSystem.lstat, located, Option.bind_some, key.fileName_ne_dot,
    key.fileName_ne_dots, or_self, if_false, represents.content]
  cases contents key <;> simp

omit [DecidableEq Dir] in
theorem not_isRecord_of_dot {name : FileName} (dot : name = ['.'] ∨ name = ['.', '.'])
    (opened : files.resolve handle = some dir) : isRecord files handle name = false := by
  have plain : '/' ∉ name := by
    rcases dot with rfl | rfl <;> simp
  simp [isRecord, FileSystem.lstat, files.locate_append opened plain, dot]

omit [DecidableEq Dir] in
theorem mem_names_iff (represents : Represents dir contents files) (name : FileName) :
    name ∈ (files.directories dir).names ↔
      ∃ key : Key, name = fileName key.text ∧ (contents key).isSome := by
  constructor
  · intro mem
    rcases represents.records name mem with ⟨key, rfl⟩
    refine ⟨key, rfl, ?_⟩
    have entry := ((files.directories dir).mem_names _).mp mem
    rw [represents.content, Option.isSome_map] at entry
    exact entry
  · rintro ⟨key, rfl, live⟩
    rw [(files.directories dir).mem_names, represents.content, Option.isSome_map]
    exact live

omit [DecidableEq Dir] in
/-- The regular files that are read are the records of the live keys. -/
theorem filter_isRecord (opened : files.resolve handle = some dir)
    (represents : Represents dir contents files) :
    (['.'] :: ['.', '.'] :: (files.directories dir).names).filter (isRecord files handle) =
      (files.directories dir).names := by
  rw [List.filter_cons_of_neg (by simp [not_isRecord_of_dot (Or.inl rfl) opened]),
    List.filter_cons_of_neg (by simp [not_isRecord_of_dot (Or.inr rfl) opened]),
    List.filter_eq_self]
  intro name mem
  rcases (mem_names_iff represents name).mp mem with ⟨key, rfl, live⟩
  rw [isRecord_iff opened represents, live]

omit [DecidableEq Dir] in
theorem readdir_eq (opened : files.resolve handle = some dir) :
    files.readdir handle = some (['.'] :: ['.', '.'] :: (files.directories dir).names) := by
  simp [FileSystem.readdir, opened]

omit [DecidableEq Dir] in
theorem nodup_keys (represents : Represents dir contents files) :
    ((files.directories dir).names.map cutExtension).Nodup := by
  apply List.Nodup.map_on _ (files.directories dir).nodup
  intro first mem second mem' same
  rcases represents.records first mem with ⟨key, rfl⟩
  rcases represents.records second mem' with ⟨key', rfl⟩
  rw [cutExtension_fileName key.undotted, cutExtension_fileName key'.undotted] at same
  rw [same]

omit [DecidableEq Dir] in
theorem mem_keys_iff (represents : Represents dir contents files) (text : FileName) :
    text ∈ (files.directories dir).names.map cutExtension ↔
      ∃ key : Key, key.text = text ∧ (contents key).isSome := by
  simp only [List.mem_map, mem_names_iff represents]
  constructor
  · rintro ⟨name, ⟨key, rfl, live⟩, rfl⟩
    exact ⟨key, (cutExtension_fileName key.undotted).symm, live⟩
  · rintro ⟨key, rfl, live⟩
    exact ⟨_, ⟨key, rfl, live⟩, cutExtension_fileName key.undotted⟩

/-! ## The operations -/

theorem pstput_eq (opened : files.resolve handle = some dir)
    (represents : Represents dir contents files) (key : Key) (buffers : List Bytes) :
    pstput files handle key.text buffers =
      (true, files.change dir fun directory =>
        directory.write (fileName key.text) buffers.flatten) := by
  have located := locate_recordPath opened key
  have created : files.create (recordPath handle key.text) =
      some (files.change dir fun directory => directory.write (fileName key.text) []) := by
    simp only [FileSystem.create, located, Option.bind_some, represents.content]
    cases contents key <;> rfl
  simp only [pstput, created]
  rw [files.foldl_append_change located, List.nil_append]

omit [DecidableEq Dir] in
theorem pstget_eq (opened : files.resolve handle = some dir)
    (represents : Represents dir contents files) (key : Key) :
    pstget files handle key.text = contents key := by
  simp only [pstget, FileSystem.entryAt, locate_recordPath opened key, Option.bind_some,
    represents.content]
  cases contents key <;> rfl

theorem pstremove_eq (opened : files.resolve handle = some dir)
    (represents : Represents dir contents files) (key : Key) :
    pstremove files handle key.text =
      (true, if (contents key).isSome then
        files.change dir fun directory => directory.erase (fileName key.text) else files) := by
  simp only [pstremove, FileSystem.unlink, locate_recordPath opened key, represents.content]
  cases contents key <;> simp

omit [DecidableEq Dir] in
theorem pstcontainskey_eq (opened : files.resolve handle = some dir)
    (represents : Represents dir contents files) (key : Key) :
    pstcontainskey files handle key.text = (contents key).isSome := by
  simp only [pstcontainskey, readdir_eq opened]
  rw [← List.any_filter, filter_isRecord opened represents, Bool.eq_iff_iff, List.any_eq_true]
  constructor
  · rintro ⟨name, mem, same⟩
    rcases (mem_names_iff represents name).mp mem with ⟨other, rfl, live⟩
    rw [cutExtension_fileName other.undotted] at same
    rw [← Key.ext_text (of_decide_eq_true same)]
    exact live
  · intro live
    refine ⟨fileName key.text, (mem_names_iff represents _).mpr ⟨key, rfl, live⟩, ?_⟩
    rw [cutExtension_fileName key.undotted]
    exact decide_eq_true rfl

omit [DecidableEq Dir] in
theorem pstkeys_eq (opened : files.resolve handle = some dir)
    (represents : Represents dir contents files) :
    pstkeys files handle = some ((files.directories dir).names.length,
      (files.directories dir).names.map cutExtension) := by
  simp only [pstkeys, readdir_eq opened, Option.map_some, filter_isRecord opened represents]
  congr 2
  split_ifs with none
  · rw [List.length_eq_zero_iff.mp none]
    rfl
  · rfl

/-- One round of the loop of `clearUnix`. -/
theorem clearLoop_cons {name : FileName} (plain : '/' ∉ name) (names : List FileName) :
    clearLoop (name :: names) files =
      clearLoop names
        (if files.lstat name = some true then
          files.change files.cwd fun directory => directory.erase name
        else files) := by
  rw [clearLoop]
  split_ifs with regular
  · have located := files.locate_name plain
    rcases (FileSystem.lstat_regular located).mp regular with ⟨-, content, present⟩
    simp [FileSystem.unlink_file located present]
  · rfl

/-- The loop of `clearUnix` changes the working directory at most. -/
theorem clearLoop_elsewhere (names : List FileName) (plain : ∀ name ∈ names, '/' ∉ name)
    {other : Dir} (differ : other ≠ files.cwd) :
    (clearLoop names files).2.directories other = files.directories other := by
  induction names generalizing files with
  | nil => rfl
  | cons name names ih =>
      rcases List.forall_mem_cons.mp plain with ⟨first, rest⟩
      rw [clearLoop_cons first]
      split_ifs
      · rw [ih rest (by simpa using differ), FileSystem.directories_change_of_ne _ differ]
      · exact ih rest differ

/-- The loop of `clearUnix` over files of the working directory. -/
theorem clearLoop_cwd (names : List FileName) (distinct : names.Nodup)
    (present : ∀ name ∈ names, '/' ∉ name ∧ files.lstat name = some true) :
    (clearLoop names files).1 = true ∧
      ∀ name, ((clearLoop names files).2.directories files.cwd).entry name =
          if name ∈ names then none else (files.directories files.cwd).entry name := by
  induction names generalizing files with
  | nil => simp [clearLoop]
  | cons name names ih =>
      rcases List.forall_mem_cons.mp present with ⟨⟨plain, regular⟩, rest⟩
      rcases List.nodup_cons.mp distinct with ⟨fresh, distinct⟩
      rw [clearLoop_cons plain, if_pos regular]
      have left : ∀ other ∈ names, '/' ∉ other ∧
          (files.change files.cwd fun directory => directory.erase name).lstat other =
            some true := by
        intro other mem
        rcases rest other mem with ⟨plain', regular'⟩
        have located := files.locate_name plain'
        rcases (FileSystem.lstat_regular located).mp regular' with ⟨notDot, content, entry⟩
        refine ⟨plain', ?_⟩
        have located' : (files.change files.cwd fun directory => directory.erase name).locate
            other = some (files.cwd, other) := located
        apply (FileSystem.lstat_regular located').mpr
        have differ : other ≠ name := fun same => fresh (same ▸ mem)
        exact ⟨notDot, content, by simp [differ, entry]⟩
      rcases ih distinct left with ⟨success, entries⟩
      refine ⟨success, fun other => ?_⟩
      rw [FileSystem.cwd_change] at entries
      rw [entries other, FileSystem.directories_change, Directory.entry_erase]
      by_cases same : other = name
      · simp [same]
      · simp [same]

theorem pstclear_eq (opened : files.resolve handle = some dir) :
    pstclear files handle = clearLoop (files.directories dir).names files := by
  have notRegular : ∀ name, name = ['.'] ∨ name = ['.', '.'] → files.lstat name ≠ some true := by
    intro name dot regular
    have plain : '/' ∉ name := by
      rcases dot with rfl | rfl <;> simp
    have notDot := ((FileSystem.lstat_regular (files.locate_name plain)).mp regular).1
    rcases dot with same | same
    · exact notDot.1 same
    · exact notDot.2 same
  simp only [pstclear, readdir_eq opened]
  rw [clearLoop_cons (by simp), if_neg (notRegular _ (Or.inl rfl)), clearLoop_cons (by simp),
    if_neg (notRegular _ (Or.inr rfl))]

theorem clearLoop_resolve (names : List FileName) (plain : ∀ name ∈ names, '/' ∉ name) :
    (clearLoop names files).2.resolve = files.resolve := by
  induction names generalizing files with
  | nil => rfl
  | cons name names ih =>
      rcases List.forall_mem_cons.mp plain with ⟨first, rest⟩
      rw [clearLoop_cons first]
      split_ifs
      · exact ih rest
      · exact ih rest

omit [DecidableEq Dir] in
theorem plain_of_mem_names (represents : Represents dir contents files) :
    ∀ name ∈ (files.directories dir).names, '/' ∉ name := by
  intro name mem
  rcases represents.records name mem with ⟨key, rfl⟩
  exact key.fileName_plain

omit [DecidableEq Dir] in
theorem represents_none (empty : ∀ name, (files.directories dir).entry name = none) :
    Represents dir (fun _ => none) files where
  records name mem := by
    rw [Directory.mem_names, empty] at mem
    cases mem
  content key := empty _

/-- A store in the working directory is cleared. -/
theorem pstclear_cwd (opened : files.resolve handle = some dir)
    (represents : Represents dir contents files) (here : files.cwd = dir) :
    (pstclear files handle).1 = true ∧
      Represents dir (fun _ => none) (pstclear files handle).2 := by
  have present : ∀ name ∈ (files.directories dir).names,
      '/' ∉ name ∧ files.lstat name = some true := by
    intro name mem
    have plain := plain_of_mem_names represents name mem
    rcases (mem_names_iff represents name).mp mem with ⟨key, rfl, live⟩
    rcases Option.isSome_iff_exists.mp live with ⟨content, isContent⟩
    refine ⟨plain, (FileSystem.lstat_regular (files.locate_name plain)).mpr ⟨?_, content, ?_⟩⟩
    · exact ⟨key.fileName_ne_dot, key.fileName_ne_dots⟩
    · rw [here, represents.content, isContent]
      rfl
  rw [pstclear_eq opened]
  rcases clearLoop_cwd _ (files.directories dir).nodup present with ⟨success, entries⟩
  refine ⟨success, represents_none fun name => ?_⟩
  rw [here] at entries
  rw [entries]
  split_ifs with mem
  · rfl
  · rw [Directory.mem_names, Option.not_isSome_iff_eq_none] at mem
    exact mem

theorem represents_write (represents : Represents dir contents files) (key : Key)
    (content : Bytes) :
    Represents dir (Function.update contents key (some content))
      (files.change dir fun directory => directory.write (fileName key.text) content) where
  records name mem := by
    rw [Directory.mem_names, FileSystem.directories_change, Directory.entry_write] at mem
    by_cases same : name = fileName key.text
    · exact ⟨key, same⟩
    · rw [Function.update_of_ne same, ← Directory.mem_names] at mem
      exact represents.records name mem
  content other := by
    rw [FileSystem.directories_change, Directory.entry_write]
    by_cases same : other = key
    · simp [same]
    · rw [Function.update_of_ne same,
        Function.update_of_ne (fun equal => same (Key.fileName_inj.mp equal))]
      exact represents.content other

theorem represents_erase (represents : Represents dir contents files) (key : Key) :
    Represents dir (Function.update contents key none)
      (files.change dir fun directory => directory.erase (fileName key.text)) where
  records name mem := by
    rw [Directory.mem_names, FileSystem.directories_change, Directory.entry_erase] at mem
    by_cases same : name = fileName key.text
    · exact ⟨key, same⟩
    · rw [Function.update_of_ne same, ← Directory.mem_names] at mem
      exact represents.records name mem
  content other := by
    rw [FileSystem.directories_change, Directory.entry_erase]
    by_cases same : other = key
    · simp [same]
    · rw [Function.update_of_ne same,
        Function.update_of_ne (fun equal => same (Key.fileName_inj.mp equal))]
      exact represents.content other

end

/-! ## Runs -/

/-- The files that the process sees, and the map that the store is to be. -/
structure State (Dir : Type) where
  files : FileSystem Dir UInt8
  contents : Contents

variable {Dir : Type} [DecidableEq Dir]

def step (handle : Path) (state : State Dir) (operation : Operation) : State Dir :=
  ⟨(perform handle state.files operation).2, state.contents.after operation⟩

/-- The operation does to the store what it does to the map, and nothing to other directories. -/
structure Correct (handle : Path) (dir : Dir) (state : State Dir) (operation : Operation) :
    Prop where
  result : state.contents.Answers operation (perform handle state.files operation).1
  records : Represents dir (state.contents.after operation)
    (perform handle state.files operation).2
  elsewhere : ∀ other, other ≠ dir →
    (perform handle state.files operation).2.directories other = state.files.directories other

/-- A store that is cleared is empty, or in the working directory. -/
def ClearsHere (dir : Dir) (state : State Dir) (operation : Operation) : Prop :=
  operation = .clear → state.files.cwd = dir ∨ ∀ key, state.contents key = none

section

variable {handle : Path} {dir : Dir} {state : State Dir}

/-- Every operation but `pstclear` is that of the map. -/
theorem correct_of_ne_clear (opened : state.files.resolve handle = some dir)
    (represents : Represents dir state.contents state.files) {operation : Operation}
    (other : operation ≠ .clear) : Correct handle dir state operation := by
  cases operation with
  | put key buffers =>
      have put := pstput_eq opened represents key buffers
      constructor
      · simp [perform, put, Contents.Answers]
      · simp only [perform, put]
        exact represents_write represents key _
      · intro elsewhere differ
        simp only [perform, put]
        exact FileSystem.directories_change_of_ne _ differ _
  | get key =>
      refine ⟨?_, represents, fun _ _ => rfl⟩
      simp [perform, pstget_eq opened represents, Contents.Answers]
  | remove key =>
      have removed := pstremove_eq opened represents key
      by_cases live : (state.contents key).isSome
      · rw [if_pos live] at removed
        constructor
        · simp [perform, removed, Contents.Answers]
        · simp only [perform, removed]
          exact represents_erase represents key
        · intro elsewhere differ
          simp only [perform, removed]
          exact FileSystem.directories_change_of_ne _ differ _
      · rw [if_neg live] at removed
        have absent : state.contents.after (.remove key) = state.contents := by
          rw [Option.not_isSome_iff_eq_none] at live
          rw [Contents.after, ← live, Function.update_eq_self]
        constructor
        · simp [perform, removed, Contents.Answers]
        · simpa only [perform, removed, absent] using represents
        · intro elsewhere differ
          simp only [perform, removed]
  | containskey key =>
      refine ⟨?_, represents, fun _ _ => rfl⟩
      simp [perform, pstcontainskey_eq opened represents, Contents.Answers]
  | keys =>
      refine ⟨?_, represents, fun _ _ => rfl⟩
      simp only [perform, pstkeys_eq opened represents, Contents.Answers, List.length_map, true_and]
      exact ⟨nodup_keys represents, mem_keys_iff represents⟩
  | clear => exact absurd rfl other

theorem clear_correct_iff (opened : state.files.resolve handle = some dir)
    (represents : Represents dir state.contents state.files) :
    Correct handle dir state .clear ↔
      (state.files.cwd = dir ∨ ∀ key, state.contents key = none) := by
  have plain := plain_of_mem_names represents
  constructor
  · intro correct
    by_cases here : state.files.cwd = dir
    · exact Or.inl here
    · -- the records are where they were, but the map is empty
      right
      intro key
      have kept := clearLoop_elsewhere (state.files.directories dir).names plain (Ne.symm here)
      have content := correct.records.content key
      simp only [perform, pstclear_eq opened, kept, Contents.after, represents.content] at content
      simpa using content
  · rintro (here | empty)
    · rcases pstclear_cwd opened represents here with ⟨success, cleared⟩
      refine ⟨by simp [perform, success, Contents.Answers], cleared, ?_⟩
      intro other differ
      rw [← here] at differ
      simp only [perform, pstclear_eq opened]
      exact clearLoop_elsewhere _ plain differ
    · have noNames : (state.files.directories dir).names = [] := by
        apply List.eq_nil_iff_forall_not_mem.mpr
        intro name mem
        rcases (mem_names_iff represents name).mp mem with ⟨key, -, live⟩
        rw [empty key] at live
        cases live
      have unchanged : pstclear state.files handle = (true, state.files) := by
        rw [pstclear_eq opened, noNames]
        rfl
      have same : state.contents.after .clear = state.contents := by
        funext key
        exact (empty key).symm
      refine ⟨by simp [perform, unchanged, Contents.Answers], ?_, fun _ _ => ?_⟩
      · rw [same]
        simpa only [perform, unchanged] using represents
      · simp only [perform, unchanged]

theorem correct_iff (opened : state.files.resolve handle = some dir)
    (represents : Represents dir state.contents state.files) (operation : Operation) :
    Correct handle dir state operation ↔ ClearsHere dir state operation := by
  by_cases clears : operation = .clear
  · subst clears
    rw [clear_correct_iff opened represents, ClearsHere, forall_prop_of_true rfl]
  · exact iff_of_true (correct_of_ne_clear opened represents clears)
      (fun same => absurd same clears)

theorem step_resolve (opened : state.files.resolve handle = some dir)
    (represents : Represents dir state.contents state.files) (operation : Operation) :
    (step handle state operation).files.resolve = state.files.resolve := by
  cases operation with
  | put key buffers => simp [step, perform, pstput_eq opened represents]
  | remove key =>
      simp only [step, perform, pstremove_eq opened represents]
      split_ifs <;> rfl
  | clear =>
      simp only [step, perform, pstclear_eq opened]
      exact clearLoop_resolve _ (plain_of_mem_names represents)
  | _ => rfl

end

/-- A store that was opened by `pstopen`, with the records that it has by then. -/
structure Opened (Dir : Type) where
  dataDir : Path
  clientID : FileName
  serverURI : FileName
  dir : Dir
  files : FileSystem Dir UInt8
  contents : Contents
  opened : files.resolve (clientDir dataDir clientID serverURI) = some dir
  represents : Represents dir contents files

namespace Opened

def handle (store : Opened Dir) : Path :=
  clientDir store.dataDir store.clientID store.serverURI

def state (store : Opened Dir) : State Dir :=
  ⟨store.files, store.contents⟩

/-- An empty store below the working directory. -/
def belowWorkingDirectory : Opened Bool where
  dataDir := ".".toList
  clientID := "c".toList
  serverURI := "h:1883".toList
  dir := true
  files :=
    { directories := fun _ =>
        { names := [], entry := fun _ => none, nodup := List.nodup_nil, mem_names := by simp }
      resolve := fun path => if path = "./c-h-1883".toList then some true else none
      cwd := false }
  contents := fun _ => none
  opened := by decide
  represents := represents_none fun _ => rfl

/-- The key of the first message that is sent. -/
def firstSent : Key where
  text := "s-1".toList
  plain := by decide
  undotted := by decide

end Opened

end FileStore

end Paho
