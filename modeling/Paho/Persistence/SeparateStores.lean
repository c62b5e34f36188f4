import Paho.Library.DirectoryTree
import Paho.Persistence.FileStore

/-!
# The stores of two clients

Two clients open their stores in one base directory. The directory of a store is named by the client
identifier, a dash and the server URI, whose colons have become dashes, so that two pairs may have
one directory; and `clearUnix` removes files of the working directory.
-/

namespace Paho

namespace FileStore

section

variable {Dir : Type} [DecidableEq Dir] {files files' : FileSystem Dir UInt8} {handle : Path}
  {dir : Dir}

/-- Two file systems in which a process finds the same directory. -/
structure Agree (dir : Dir) (files files' : FileSystem Dir UInt8) : Prop where
  resolve : files'.resolve = files.resolve
  cwd : files'.cwd = files.cwd
  directory : files'.directories dir = files.directories dir

omit [DecidableEq Dir] in
theorem Agree.refl (dir : Dir) (files : FileSystem Dir UInt8) : Agree dir files files :=
  ⟨rfl, rfl, rfl⟩

omit [DecidableEq Dir] in
theorem Agree.trans {files'' : FileSystem Dir UInt8} (first : Agree dir files files')
    (second : Agree dir files' files'') : Agree dir files files'' :=
  ⟨second.resolve.trans first.resolve, second.cwd.trans first.cwd,
    second.directory.trans first.directory⟩

omit [DecidableEq Dir] in
theorem Agree.symm (agree : Agree dir files files') : Agree dir files' files :=
  ⟨agree.resolve.symm, agree.cwd.symm, agree.directory.symm⟩

theorem Agree.change (agree : Agree dir files files')
    (changed : Directory UInt8 → Directory UInt8) :
    Agree dir (files.change dir changed) (files'.change dir changed) := by
  refine ⟨agree.resolve, agree.cwd, ?_⟩
  rw [FileSystem.directories_change, FileSystem.directories_change, agree.directory]

omit [DecidableEq Dir] in
theorem Agree.locate (agree : Agree dir files files') : files'.locate = files.locate := by
  funext path
  simp only [FileSystem.locate, agree.resolve, agree.cwd]

/-! ## The operations on any directory -/

theorem pstput_opened (opened : files.resolve handle = some dir) (key : Key)
    (buffers : List Bytes) :
    pstput files handle key.text buffers =
      if (files.directories dir).entry (fileName key.text) = some .other then (false, files)
      else (true, files.change dir fun directory =>
        directory.write (fileName key.text) buffers.flatten) := by
  have located := locate_recordPath opened key
  simp only [pstput, FileSystem.create, located, Option.bind_some]
  split
  next created isCreated =>
    split at isCreated
    · cases isCreated
    next notOther =>
      cases isCreated
      rw [files.foldl_append_change located, List.nil_append, if_neg notOther]
  next refused =>
    split at refused
    next isOther => rw [if_pos isOther]
    · cases refused

theorem pstremove_opened (opened : files.resolve handle = some dir) (key : Key) :
    pstremove files handle key.text =
      match (files.directories dir).entry (fileName key.text) with
      | none => (true, files)
      | some .other => (false, files)
      | some (.file _) =>
          (true, files.change dir fun directory => directory.erase (fileName key.text)) := by
  simp only [pstremove, FileSystem.unlink, locate_recordPath opened key]
  rcases (files.directories dir).entry (fileName key.text) with _ | _ | _ <;> rfl

omit [DecidableEq Dir] in
theorem isRecord_congr (agree : Agree dir files files') (opened : files.resolve handle = some dir)
    {name : FileName} (plain : '/' ∉ name) :
    isRecord files' handle name = isRecord files handle name := by
  simp only [isRecord, FileSystem.lstat, agree.locate, files.locate_append opened plain,
    Option.bind_some, agree.directory]

/-- The loop of `clearUnix` ends without an error, and leaves paths as they are. -/
theorem clearLoop_frame (names : List FileName) (plain : ∀ name ∈ names, '/' ∉ name) :
    (clearLoop names files).1 = true ∧ (clearLoop names files).2.resolve = files.resolve ∧
      (clearLoop names files).2.cwd = files.cwd := by
  induction names generalizing files with
  | nil => exact ⟨rfl, rfl, rfl⟩
  | cons name names ih =>
      rcases List.forall_mem_cons.mp plain with ⟨first, rest⟩
      rw [clearLoop_cons first]
      split_ifs
      · exact ih rest
      · exact ih rest

/-- A name that is read is gone from the working directory, or is no file there. -/
theorem clearLoop_gone (names : List FileName) (plain : ∀ name ∈ names, '/' ∉ name)
    {name : FileName} (gone : (files.directories files.cwd).entry name = none ∨
      (name ∈ names ∧ files.lstat name = some true)) :
    ((clearLoop names files).2.directories files.cwd).entry name = none := by
  induction names generalizing files with
  | nil =>
      rcases gone with gone | ⟨mem, -⟩
      · exact gone
      · cases mem
  | cons first names ih =>
      rcases List.forall_mem_cons.mp plain with ⟨plainFirst, rest⟩
      rw [clearLoop_cons plainFirst]
      split_ifs with regular
      · apply ih rest
        rw [FileSystem.cwd_change, FileSystem.directories_change, Directory.entry_erase]
        by_cases same : name = first
        · left
          rw [same, Function.update_self]
        · rw [Function.update_of_ne same]
          rcases gone with gone | ⟨mem, isFile⟩
          · exact .inl gone
          · have later := (List.mem_cons.mp mem).resolve_left same
            have located := files.locate_name (rest name later)
            rcases (FileSystem.lstat_regular located).mp isFile with ⟨notDot, content, entry⟩
            have located' : (files.change files.cwd fun directory =>
                directory.erase first).locate name = some (files.cwd, name) := located
            right
            refine ⟨later, (FileSystem.lstat_regular located').mpr ⟨notDot, content, ?_⟩⟩
            simp [same, entry]
      · apply ih rest
        rcases gone with gone | ⟨mem, isFile⟩
        · exact .inl gone
        · rcases List.mem_cons.mp mem with rfl | later
          · exact absurd isFile regular
          · exact .inr ⟨later, isFile⟩

/-- No operation changes another directory, unless it clears in the working directory. -/
theorem perform_elsewhere (opened : files.resolve handle = some dir)
    (plain : ∀ name ∈ (files.directories dir).names, '/' ∉ name) {other : Dir}
    (differ : other ≠ dir) (apart : other ≠ files.cwd) (operation : Operation) :
    Agree other files (perform handle files operation).2 := by
  have changed (change : Directory UInt8 → Directory UInt8) :
      Agree other files (files.change dir change) :=
    ⟨rfl, rfl, FileSystem.directories_change_of_ne _ differ _⟩
  cases operation with
  | put key buffers =>
      simp only [perform, pstput_opened opened]
      split_ifs
      · exact .refl other files
      · exact changed fun directory => directory.write (fileName key.text) buffers.flatten
  | remove key =>
      simp only [perform, pstremove_opened opened]
      split
      · exact .refl other files
      · exact .refl other files
      · exact changed fun directory => directory.erase (fileName key.text)
  | clear =>
      simp only [perform, pstclear_eq opened]
      rcases @clearLoop_frame _ _ files _ plain with ⟨-, resolve, cwd⟩
      exact ⟨resolve, cwd, clearLoop_elsewhere _ plain apart⟩
  | get key => exact .refl other files
  | containskey key => exact .refl other files
  | keys => exact .refl other files

/-- What an operation answers and does depends on its directory only. -/
theorem perform_congr (agree : Agree dir files files') (opened : files.resolve handle = some dir)
    (plain : ∀ name ∈ (files.directories dir).names, '/' ∉ name) (apart : dir ≠ files.cwd)
    (operation : Operation) :
    (perform handle files' operation).1 = (perform handle files operation).1 ∧
      Agree dir (perform handle files operation).2 (perform handle files' operation).2 := by
  have opened' : files'.resolve handle = some dir := agree.resolve ▸ opened
  have isRecord : ∀ name ∈ ['.'] :: ['.', '.'] :: (files.directories dir).names,
      isRecord files' handle name = isRecord files handle name := by
    intro name mem
    apply isRecord_congr agree opened
    simp only [List.mem_cons] at mem
    rcases mem with rfl | rfl | mem
    · simp
    · simp
    · exact plain name mem
  cases operation with
  | put key buffers =>
      simp only [perform, pstput_opened opened, pstput_opened opened', agree.directory]
      split_ifs
      · exact ⟨rfl, agree⟩
      · exact ⟨rfl, agree.change fun directory =>
          directory.write (fileName key.text) buffers.flatten⟩
  | remove key =>
      simp only [perform, pstremove_opened opened, pstremove_opened opened', agree.directory]
      split
      · exact ⟨rfl, agree⟩
      · exact ⟨rfl, agree⟩
      · exact ⟨rfl, agree.change fun directory => directory.erase (fileName key.text)⟩
  | get key =>
      refine ⟨?_, agree⟩
      simp only [perform, pstget, FileSystem.entryAt, agree.locate, locate_recordPath opened,
        Option.bind_some, agree.directory]
  | containskey key =>
      refine ⟨?_, agree⟩
      simp only [perform, pstcontainskey, readdir_eq opened, readdir_eq opened', agree.directory]
      congr 1
      rw [Bool.eq_iff_iff, List.any_eq_true, List.any_eq_true]
      apply exists_congr
      intro name
      apply and_congr_right
      intro mem
      rw [isRecord name mem]
  | keys =>
      refine ⟨?_, agree⟩
      simp only [perform, pstkeys, readdir_eq opened, readdir_eq opened', agree.directory,
        Option.map_some, List.filter_congr isRecord]
  | clear =>
      have plain' : ∀ name ∈ (files'.directories dir).names, '/' ∉ name :=
        agree.directory ▸ plain
      have apart' : dir ≠ files'.cwd := agree.cwd ▸ apart
      simp only [perform, pstclear_eq opened, pstclear_eq opened']
      rcases @clearLoop_frame _ _ files _ plain with ⟨success, resolve, cwd⟩
      rcases @clearLoop_frame _ _ files' _ plain' with ⟨success', resolve', cwd'⟩
      refine ⟨by rw [success, success'], ?_⟩
      refine ⟨resolve'.trans (agree.resolve.trans resolve.symm),
        cwd'.trans (agree.cwd.trans cwd.symm), ?_⟩
      rw [clearLoop_elsewhere _ plain' apart', clearLoop_elsewhere _ plain apart, agree.directory]

/-- The names in a directory stay free of slashes. -/
theorem perform_plain (opened : files.resolve handle = some dir)
    (plain : ∀ name ∈ (files.directories dir).names, '/' ∉ name) (apart : dir ≠ files.cwd)
    (operation : Operation) :
    ∀ name ∈ ((perform handle files operation).2.directories dir).names, '/' ∉ name := by
  cases operation with
  | put key buffers =>
      simp only [perform, pstput_opened opened]
      split_ifs
      · exact plain
      · intro name mem
        rw [Directory.mem_names, FileSystem.directories_change, Directory.entry_write] at mem
        by_cases same : name = fileName key.text
        · exact same ▸ key.fileName_plain
        · rw [Function.update_of_ne same, ← Directory.mem_names] at mem
          exact plain name mem
  | remove key =>
      simp only [perform, pstremove_opened opened]
      split
      · exact plain
      · exact plain
      · intro name mem
        rw [FileSystem.directories_change] at mem
        exact plain name (List.mem_of_mem_erase mem)
  | clear =>
      simp only [perform, pstclear_eq opened, clearLoop_elsewhere _ plain apart]
      exact plain
  | get key => exact plain
  | containskey key => exact plain
  | keys => exact plain

end

/-! ## Two clients -/

/-- The name of the directory of a client in the base directory. -/
def storeName (clientID serverURI : FileName) : FileName :=
  clientID ++ '-' :: serverURI.map fun letter => if letter = ':' then '-' else letter

theorem clientDir_eq (dataDir : Path) (clientID serverURI : FileName) :
    clientDir dataDir clientID serverURI = dataDir ++ '/' :: storeName clientID serverURI := by
  simp [clientDir, storeName]

/-- Two names are the same when one identifier is the other followed by a dash and the beginning of
the server URI, colons and dashes being the same. -/
theorem storeName_eq_iff (clientID clientID' serverURI serverURI' : FileName) :
    storeName clientID serverURI = storeName clientID' serverURI' ↔
      (clientID = clientID' ∧ storeName [] serverURI = storeName [] serverURI') ∨
        (∃ rest, clientID' = clientID ++ '-' :: rest ∧
          storeName [] serverURI = '-' :: storeName rest serverURI') ∨
        (∃ rest, clientID = clientID' ++ '-' :: rest ∧
          storeName [] serverURI' = '-' :: storeName rest serverURI) := by
  have split (first second : FileName) : storeName first second = first ++ storeName [] second := by
    simp [storeName]
  have dashed (uri : FileName) : ∃ tail, storeName [] uri = '-' :: tail := ⟨_, rfl⟩
  rw [split clientID, split clientID', List.append_eq_append_iff]
  constructor
  · rintro (⟨rest, longer, same⟩ | ⟨rest, longer, same⟩)
    · rcases rest with _ | ⟨letter, rest⟩
      · left
        exact ⟨by simpa using longer.symm, by simpa using same⟩
      · rcases dashed serverURI with ⟨tail, isDashed⟩
        have isDash : letter = '-' := by
          rw [isDashed] at same
          simpa using (List.cons.inj same).1.symm
        subst isDash
        right
        left
        refine ⟨rest, longer, ?_⟩
        rw [same, split rest]
        rfl
    · rcases rest with _ | ⟨letter, rest⟩
      · left
        exact ⟨by simpa using longer, by simpa using same.symm⟩
      · rcases dashed serverURI' with ⟨tail, isDashed⟩
        have isDash : letter = '-' := by
          rw [isDashed] at same
          simpa using (List.cons.inj same).1.symm
        subst isDash
        right
        right
        refine ⟨rest, longer, ?_⟩
        rw [same, split rest]
        rfl
  · rintro (⟨rfl, same⟩ | ⟨rest, rfl, same⟩ | ⟨rest, rfl, same⟩)
    · exact .inl ⟨[], by simp, by simpa using same⟩
    · exact .inl ⟨'-' :: rest, rfl, by rw [same, split rest]; rfl⟩
    · exact .inr ⟨'-' :: rest, rfl, by rw [same, split rest]; rfl⟩

/-- The stores of two clients, open in one base directory. -/
structure Stores (Dir : Type) where
  dataDir : Path
  clientID : Bool → FileName
  serverURI : Bool → FileName
  dir : Bool → Dir
  files : FileSystem Dir UInt8
  tree : files.Tree
  opened : ∀ client, files.resolve (clientDir dataDir (clientID client) (serverURI client)) =
    some (dir client)
  plain : ∀ client, ∀ name ∈ (files.directories (dir client)).names, '/' ∉ name

namespace Stores

variable {Dir : Type} [DecidableEq Dir]

def handle (stores : Stores Dir) (client : Bool) : Path :=
  clientDir stores.dataDir (stores.clientID client) (stores.serverURI client)

/-- The place of the directory of a client, and that of the working directory. -/
def place (stores : Stores Dir) (client : Bool) : List FileName :=
  follow (stores.tree.place stores.files.cwd) (stores.handle client)

def cwdPlace (stores : Stores Dir) : List FileName :=
  stores.tree.place stores.files.cwd

/-- A call of one of the clients. -/
abbrev Call := Bool × Operation

def step (stores : Stores Dir) (files : FileSystem Dir UInt8) (call : Call) :
    FileSystem Dir UInt8 :=
  (perform (stores.handle call.1) files call.2).2

/-- What the calls of one client return. -/
def results (stores : Stores Dir) (client : Bool) (files : FileSystem Dir UInt8) :
    List Call → List Result
  | [] => []
  | call :: calls =>
      if call.1 = client then
        (perform (stores.handle client) files call.2).1 ::
          stores.results client (stores.step files call) calls
      else stores.results client (stores.step files call) calls

/-- The directories are different, and in every run each client finds in its store, and is answered,
what it would be without the calls of the other one. -/
def Separate (stores : Stores Dir) : Prop :=
  stores.dir true ≠ stores.dir false ∧ ∀ (calls : List Call) (client : Bool),
    let own := calls.filter fun call => call.1 = client
    stores.results client stores.files calls = stores.results client stores.files own ∧
      (Machine.run stores.step stores.files calls).directories (stores.dir client) =
        (Machine.run stores.step stores.files own).directories (stores.dir client)

/-- The names of the two directories lead to different places, and neither of them is the working
directory. -/
def Apart (stores : Stores Dir) : Prop :=
  stores.place true ≠ stores.place false ∧ ∀ client, stores.cwdPlace ≠ stores.place client

section

variable {stores : Stores Dir}

omit [DecidableEq Dir] in
theorem dir_eq_iff : stores.dir true = stores.dir false ↔ stores.place true = stores.place false :=
  stores.tree.eq_iff (stores.opened true) (stores.opened false)

omit [DecidableEq Dir] in
theorem cwd_eq_iff (client : Bool) :
    stores.files.cwd = stores.dir client ↔ stores.cwdPlace = stores.place client :=
  stores.tree.cwd_eq_iff (stores.opened client)

omit [DecidableEq Dir] in
/-- Names without slashes lead to different places when they are different. -/
theorem place_eq_iff
    (plain : ∀ client, '/' ∉ stores.clientID client ∧ '/' ∉ stores.serverURI client) :
    stores.place true = stores.place false ↔
      storeName (stores.clientID true) (stores.serverURI true) =
        storeName (stores.clientID false) (stores.serverURI false) := by
  rcases follow_entries stores.cwdPlace stores.dataDir with ⟨base, entries⟩
  have named (client : Bool) : stores.place client =
      enter base (storeName (stores.clientID client) (stores.serverURI client)) := by
    rw [place, handle, clientDir_eq]
    apply entries
    simp only [storeName, List.mem_append, List.mem_cons, List.mem_map, not_or, not_exists, not_and]
    refine ⟨(plain client).1, by decide, fun letter mem => ?_⟩
    split_ifs
    · decide
    · rintro rfl
      exact (plain client).2 mem
  have ordinary (client : Bool) :
      Ordinary (storeName (stores.clientID client) (stores.serverURI client)) := by
    have dash : '-' ∈ storeName (stores.clientID client) (stores.serverURI client) := by
      simp [storeName]
    refine ⟨?_, ?_, ?_⟩ <;> intro same <;> simp [same] at dash
  rw [named, named, enter_inj (ordinary true) (ordinary false)]

/-- What stays as it is when the stores are used: where paths lead, and that no name has a slash. -/
structure Usable (stores : Stores Dir) (files : FileSystem Dir UInt8) : Prop where
  resolve : files.resolve = stores.files.resolve
  cwd : files.cwd = stores.files.cwd
  plain : ∀ client, ∀ name ∈ (files.directories (stores.dir client)).names, '/' ∉ name

omit [DecidableEq Dir] in
theorem Usable.opened {files : FileSystem Dir UInt8} (usable : stores.Usable files)
    (client : Bool) :
    files.resolve (stores.handle client) = some (stores.dir client) := by
  rw [usable.resolve]
  exact stores.opened client

variable (differ : stores.dir true ≠ stores.dir false)
  (apart : ∀ client, stores.dir client ≠ stores.files.cwd) {files files' : FileSystem Dir UInt8}
include differ apart

/-- A call leaves the directory of the other client as it is. -/
theorem step_elsewhere (usable : stores.Usable files) {client : Bool} {call : Call}
    (other : call.1 ≠ client) : Agree (stores.dir client) files (stores.step files call) := by
  apply perform_elsewhere (usable.opened call.1) (usable.plain call.1)
  · rcases call with ⟨_ | _, operation⟩ <;> cases client
    · exact absurd rfl other
    · exact differ
    · exact differ.symm
    · exact absurd rfl other
  · rw [usable.cwd]
    exact apart client

theorem step_usable (usable : stores.Usable files) (call : Call) :
    stores.Usable (stores.step files call) := by
  have elsewhere := step_elsewhere differ apart usable (show call.1 ≠ !call.1 by simp)
  refine ⟨elsewhere.resolve.trans usable.resolve, elsewhere.cwd.trans usable.cwd, ?_⟩
  intro client
  by_cases own : call.1 = client
  · subst own
    apply perform_plain (usable.opened call.1) (usable.plain call.1)
    rw [usable.cwd]
    exact apart call.1
  · rw [(step_elsewhere differ apart usable own).directory]
    exact usable.plain client

/-- A run, and the run without the calls of the other client, from files that agree. -/
theorem run_agree (usable : stores.Usable files) (usable' : stores.Usable files') {client : Bool}
    (agree : Agree (stores.dir client) files files') (calls : List Call) :
    let own := calls.filter fun call => call.1 = client
    stores.results client files' own = stores.results client files calls ∧
      Agree (stores.dir client) (Machine.run stores.step files calls)
        (Machine.run stores.step files' own) := by
  induction calls generalizing files files' with
  | nil => exact ⟨rfl, agree⟩
  | cons call calls ih =>
      by_cases own : call.1 = client
      · subst own
        have same := perform_congr agree (usable.opened call.1) (usable.plain call.1)
          (usable.cwd ▸ apart call.1) call.2
        have rest := ih (step_usable differ apart usable call)
          (step_usable differ apart usable' call) same.2
        simp only [List.filter_cons, decide_true, if_true, results, Machine.run_cons]
        exact ⟨by rw [same.1, rest.1], rest.2⟩
      · have rest := ih (step_usable differ apart usable call) usable'
          ((step_elsewhere differ apart usable own).symm.trans agree)
        simpa only [List.filter_cons, own, decide_false, Bool.false_eq_true, if_false, results,
          Machine.run_cons] using rest

end

section

variable {stores : Stores Dir}

omit [DecidableEq Dir] in
theorem exists_fresh (names : List FileName) : ∃ key : Key, fileName key.text ∉ names := by
  let text := List.replicate (names.flatten.length + 1) 'k'
  have letters : ∀ letter ∈ text, letter = 'k' := fun letter mem => List.eq_of_mem_replicate mem
  refine ⟨⟨text, fun slash => ?_, fun dot => ?_⟩, fun mem => ?_⟩
  · exact absurd (letters _ slash) (by decide)
  · exact absurd (letters _ dot) (by decide)
  · have shorter := (List.sublist_flatten_of_mem mem).length_le
    simp only [fileName, List.length_append, text, List.length_replicate] at shorter
    omega

omit [DecidableEq Dir] in
theorem entry_eq_none {directory : Directory UInt8} {name : FileName}
    (absent : name ∉ directory.names) : directory.entry name = none := by
  rw [Directory.mem_names, Option.not_isSome_iff_eq_none] at absent
  exact absent

/-- A store in the working directory loses a record when the other one is cleared. -/
theorem not_separate_of_cwd {client : Bool} (here : stores.files.cwd = stores.dir client) :
    ¬stores.Separate := by
  rintro ⟨differ, separate⟩
  have otherDir : stores.dir (!client) ≠ stores.dir client := by
    cases client
    · exact differ
    · exact differ.symm
  rcases exists_fresh ((stores.files.directories (stores.dir client)).names ++
    (stores.files.directories (stores.dir (!client))).names) with ⟨key, fresh⟩
  rcases not_or.mp (List.mem_append.not.mp fresh) with ⟨absent, absent'⟩
  let own : FileSystem Dir UInt8 := stores.files.change (stores.dir client) fun directory =>
    directory.write (fileName key.text) [].flatten
  let both : FileSystem Dir UInt8 := own.change (stores.dir (!client)) fun directory =>
    directory.write (fileName key.text) [].flatten
  have first : stores.step stores.files (client, .put key []) = own := by
    simp [step, perform, pstput_opened (stores.opened client), handle, entry_eq_none absent, own]
  have opened : own.resolve (stores.handle (!client)) = some (stores.dir (!client)) :=
    stores.opened (!client)
  have elsewhere : own.directories (stores.dir (!client)) =
      stores.files.directories (stores.dir (!client)) :=
    FileSystem.directories_change_of_ne _ otherDir _
  have second : stores.step own (!client, .put key []) = both := by
    simp [step, perform, pstput_opened opened, elsewhere, entry_eq_none absent', both]
  have kept : both.directories (stores.dir client) = own.directories (stores.dir client) :=
    FileSystem.directories_change_of_ne _ otherDir.symm _
  have written : (both.directories (stores.dir client)).entry (fileName key.text) =
      some (.file []) := by
    simp [kept, own]
  -- the record is found in the other store, and removed from the working directory
  have listed : fileName key.text ∈ (both.directories (stores.dir (!client))).names := by
    rw [Directory.mem_names]
    simp [both]
  have plain : ∀ name ∈ (both.directories (stores.dir (!client))).names, '/' ∉ name := by
    intro name mem
    rw [Directory.mem_names, FileSystem.directories_change, Directory.entry_write, elsewhere] at mem
    by_cases same : name = fileName key.text
    · exact same ▸ key.fileName_plain
    · rw [Function.update_of_ne same, ← Directory.mem_names] at mem
      exact stores.plain (!client) name mem
  have isCwd : both.cwd = stores.dir client := here
  have regular : both.lstat (fileName key.text) = some true := by
    rw [FileSystem.lstat_regular (both.locate_name key.fileName_plain), isCwd]
    exact ⟨⟨key.fileName_ne_dot, key.fileName_ne_dots⟩, [], written⟩
  have gone := clearLoop_gone _ plain (.inr ⟨listed, regular⟩)
  have same := (separate [(client, .put key []), (!client, .put key []), (!client, .clear)]
    client).2
  have cleared : stores.step both (!client, .clear) =
      (clearLoop (both.directories (stores.dir (!client))).names both).2 := by
    have opened : both.resolve (stores.handle (!client)) = some (stores.dir (!client)) :=
      stores.opened (!client)
    simp [step, perform, pstclear_eq opened]
  have filtered : [(client, Operation.put key []), (!client, .put key []), (!client, .clear)].filter
      (fun call => call.1 = client) = [(client, .put key [])] := by
    cases client <;> rfl
  rw [filtered] at same
  simp only [Machine.run_cons, Machine.run_nil, first, second, cleared] at same
  rw [isCwd, same] at gone
  simp [own] at gone

/--
The stores of two clients that are open in one base directory are separate exactly when their names
lead to different places and neither store is the working directory.
-/
theorem separate_iff (stores : Stores Dir) : stores.Separate ↔ stores.Apart := by
  constructor
  · intro separate
    refine ⟨fun same => separate.1 (dir_eq_iff.mpr same), fun client here => ?_⟩
    exact not_separate_of_cwd ((cwd_eq_iff client).mpr here) separate
  · rintro ⟨differ, apart⟩
    have differ : stores.dir true ≠ stores.dir false := fun same => differ (dir_eq_iff.mp same)
    have apart : ∀ client, stores.dir client ≠ stores.files.cwd :=
      fun client here => apart client ((cwd_eq_iff client).mp here.symm)
    refine ⟨differ, fun calls client => ?_⟩
    have usable : stores.Usable stores.files := ⟨rfl, rfl, stores.plain⟩
    have run := run_agree differ apart usable usable (.refl (stores.dir client) stores.files) calls
    exact ⟨run.1.symm, run.2.directory.symm⟩

end

/-- An empty directory for the clients `c` and `c-h`, and another one to work in. -/
def oneName : Stores Bool where
  dataDir := "/d".toList
  clientID client := if client then "c".toList else "c-h".toList
  serverURI client := if client then "h-x".toList else "x".toList
  dir _ := true
  files :=
    { directories := fun _ =>
        { names := []
          entry := fun _ => none
          nodup := List.nodup_nil
          mem_names := Directory.mem_names_nil }
      resolve := fun path => if path = "/d/c-h-x".toList then some true else none
      cwd := false }
  tree :=
    { place := fun dir => if dir then ["d".toList, "c-h-x".toList] else []
      place_inj := by
        intro dir other same
        cases dir <;> cases other <;> first | rfl | simp at same
      leads := by
        intro path dir leads
        change (if path = "/d/c-h-x".toList then some true else none) = some dir at leads
        split at leads
        next isStore =>
          cases leads
          subst isStore
          decide
        · cases leads }
  opened client := by cases client <;> decide
  plain _ name mem := by cases mem

/-- Two pairs with one directory: the record that one client puts is the other one's as well. -/
theorem not_separate :
    (oneName.clientID true, oneName.serverURI true) ≠
        (oneName.clientID false, oneName.serverURI false) ∧
      ¬oneName.Separate := by
  refine ⟨by decide, fun separate => ?_⟩
  have results := (separate.2 [(true, .put Opened.firstSent [[1]]), (false, .get Opened.firstSent)]
    false).1
  revert results
  decide

end Stores

end FileStore

end Paho
