import Paho.Persistence.RecordFiles
import Mathlib.Data.List.Perm.Basic
import Mathlib.Data.Set.List

/-!
# Files that stand for records

When the files of a directory are the records of a store: their names are the keys as text, and
their bytes are those of packets that are restored as the records.
-/

namespace Paho

open FileStore MQTTPacket PropertyReader

namespace RecordFiles

section Keys

variable {stem stem' : Stem} {v5 v5' : Bool} {rest rest' : FileName} {k k' : PersistenceKey}

/-- The stem of a key, from the letters before the dash. -/
def stemOf : FileName → Option (Stem × Bool)
  | ['s'] => some (.publishSent, false)
  | ['s', '5'] => some (.publishSent, true)
  | ['s', 'c'] => some (.pubrel, false)
  | ['s', 'c', '5'] => some (.pubrel, true)
  | ['r'] => some (.publishReceived, false)
  | ['r', '5'] => some (.publishReceived, true)
  | ['c'] => some (.command, false)
  | ['c', '5'] => some (.command, true)
  | ['q'] => some (.queue, false)
  | ['q', '5'] => some (.queue, true)
  | _ => none

theorem stemOf_stemText (stem : Stem) (v5 : Bool) (rest : FileName) :
    stemOf ((stemText stem v5 ++ rest).takeWhile (· ≠ '-')) = some (stem, v5) := by
  cases stem <;> cases v5 <;> simp [stemText, stemOf]

theorem stemText_append_inj (same : stemText stem v5 ++ rest = stemText stem' v5' ++ rest') :
    stem = stem' ∧ v5 = v5' ∧ rest = rest' := by
  have stems := stemOf_stemText stem v5 rest
  rw [same, stemOf_stemText, Option.some_inj, Prod.mk.injEq] at stems
  rcases stems with ⟨rfl, rfl⟩
  exact ⟨rfl, rfl, List.append_cancel_left same⟩

theorem hasStem_keyText : hasStem stem v5 (keyText k) = decide (stem = k.stem ∧ v5 = k.v5) := by
  rw [Bool.eq_iff_iff, hasStem, List.isPrefixOf_iff_prefix, decide_eq_true_iff]
  constructor
  · rintro ⟨rest, same⟩
    rcases stemText_append_inj same with ⟨isStem, isV5, -⟩
    exact ⟨isStem, isV5⟩
  · rintro ⟨rfl, rfl⟩
    exact List.prefix_append _ _

theorem keyText_inj : keyText k = keyText k' ↔ k = k' := by
  refine ⟨fun same => ?_, congrArg keyText⟩
  rcases stemText_append_inj same with ⟨isStem, isV5, digits⟩
  have number : k.number = k'.number := by
    rw [← @Nat.ofDigitChars_ten_toDigits k.number, digits, Nat.ofDigitChars_ten_toDigits]
  cases k
  cases k'
  simp_all

theorem letter_of_mem_keyText {c : Char} (mem : c ∈ keyText k) : c ≠ '/' ∧ c ≠ '.' := by
  rcases List.mem_append.mp mem with inStem | inDigits
  · revert inStem
    have all : ∀ stem v5, ∀ c ∈ stemText stem v5, c ≠ '/' ∧ c ≠ '.' := by
      intro stem v5
      cases stem <;> cases v5 <;> simp [stemText]
    exact all k.stem k.v5 c
  · have digit : c.isDigit = true := Nat.isDigit_of_mem_toDigits (by decide) (by decide) inDigits
    constructor
    · rintro rfl
      cases digit
    · rintro rfl
      cases digit

/-- The key of a file. -/
def fileKey (k : PersistenceKey) : Key where
  text := keyText k
  plain slash := (letter_of_mem_keyText slash).1 rfl
  undotted dot := (letter_of_mem_keyText dot).2 rfl

theorem fileKey_inj : fileKey k = fileKey k' ↔ k = k' := by
  rw [fileKey, fileKey, Key.mk.injEq, keyText_inj]

/-- A key of six digits at most is not cut off. -/
theorem writeKey_eq (fits : k.number < 10 ^ 6) : writeKey k = some (keyText k) := by
  have digits : (Nat.toDigits 10 k.number).length ≤ 6 :=
    (Nat.length_toDigits_le_iff (by decide) (by decide)).mpr fits
  have stem : ∀ stem v5, (stemText stem v5).length ≤ 4 := by
    intro stem v5
    cases stem <;> cases v5 <;> decide
  have := stem k.stem k.v5
  rw [writeKey, if_pos]
  rw [keyText, List.length_append, maxKeyLength]
  omega

theorem maxMsgId_lt {msgId : Nat} (fits : msgId ≤ maxMsgId) : msgId < 10 ^ 6 :=
  Nat.lt_of_le_of_lt fits (by decide)

theorem isInflightText_keyText : isInflightText (keyText k) = MQTTPersistence.isInflight k := by
  rcases k with ⟨stem, v5, number⟩
  simp only [isInflightText, hasStem_keyText]
  cases stem <;> cases v5 <;> rfl

end Keys

/-! ## Files that stand for records -/

/-- The bytes of a file stand for a record: they are those of a packet that is restored as the
record. Those of commands and of the message queue are not read here. -/
inductive Encodes (k : PersistenceKey) : Record → Bytes → Prop
  | publish {publish : Publish} {bytes : Bytes} {pack : PublishPacket} {payloadlen : Int}
      (stem : k.stem = .publishSent ∨ k.stem = .publishReceived)
      (restored : restorePacket (dataVersion k.v5) bytes =
        some (.pack (.publish pack payloadlen)))
      (same : sessionPublish pack = { publish with mqttVersion := pack.mqttVersion })
      (fits : publish.msgId ≤ maxMsgId) : Encodes k (.publish publish) bytes
  | pubrel {bytes : Bytes} {mqttVersion msgId : Nat} {header : UInt8} {rc : Option Nat}
      {properties : Option PropertyList} (stem : k.stem = .pubrel)
      (restored : restorePacket (dataVersion k.v5) bytes =
        some (.pack (.server ⟨mqttVersion, header, .ack (some msgId) rc properties⟩)))
      (fits : msgId ≤ maxMsgId) : Encodes k (.pubrel msgId) bytes
  | entry (record : Record) (bytes : Bytes) (stem : MQTTPersistence.isInflight k = false) :
      Encodes k record bytes

/-- The files of a directory are the records of a store. -/
structure Keeps {Dir : Type} (dir : Dir) (store : Store) (contents : Contents)
    (files : FileSystem Dir UInt8) : Prop where
  represents : Represents dir contents files
  fits : ∀ k ∈ store, k.number < 10 ^ 6
  record : ∀ k, Option.Rel (Encodes k) (store.lookup k) (contents (fileKey k))
  named : ∀ key, (contents key).isSome → ∃ k, key = fileKey k

/-- The store of a client is the directory `dir`; the others are as they were in `base`. -/
structure Stores {Dir : Type} (base : FileSystem Dir UInt8) (handle : Path) (dir : Dir)
    (store : Store) (files : FileSystem Dir UInt8) : Prop where
  opened : files.resolve handle = some dir
  keeps : ∃ contents, Keeps dir store contents files
  elsewhere : ∀ other, other ≠ dir → files.directories other = base.directories other

section Operations

variable {Dir : Type} [DecidableEq Dir] {base files : FileSystem Dir UInt8} {handle : Path}
  {dir : Dir} {store : Store} {k : PersistenceKey} {record : Record} {buffers : List Bytes}

theorem Stores.put (stores : Stores base handle dir store files) (fits : k.number < 10 ^ 6)
    (encodes : Encodes k record buffers.flatten) :
    ∃ files', pstput files handle (keyText k) buffers = (true, files') ∧
      Stores base handle dir (store.insert k record) files' := by
  rcases stores.keeps with ⟨contents, keeps⟩
  refine ⟨_, pstput_eq stores.opened keeps.represents (fileKey k) buffers, ?_⟩
  constructor
  · exact stores.opened
  · refine ⟨_, represents_write keeps.represents (fileKey k) buffers.flatten, ?_, ?_, ?_⟩
    · intro other mem
      rcases (AList.mem_insert _).mp mem with rfl | mem
      · exact fits
      · exact keeps.fits other mem
    · intro other
      by_cases same : other = k
      · subst same
        rw [AList.lookup_insert, Function.update_self]
        exact .some encodes
      · rw [AList.lookup_insert_ne same, Function.update_of_ne (mt fileKey_inj.mp same)]
        exact keeps.record other
    · intro key live
      by_cases same : key = fileKey k
      · exact ⟨k, same⟩
      · rw [Function.update_of_ne same] at live
        exact keeps.named key live
  · intro other differ
    rw [FileSystem.directories_change_of_ne _ differ]
    exact stores.elsewhere other differ

theorem Stores.remove (stores : Stores base handle dir store files) (k : PersistenceKey) :
    ∃ files', pstremove files handle (keyText k) = (true, files') ∧
      Stores base handle dir (store.erase k) files' := by
  rcases stores.keeps with ⟨contents, keeps⟩
  have removed := pstremove_eq stores.opened keeps.represents (fileKey k)
  refine ⟨_, removed, ?_, ⟨Function.update contents (fileKey k) none, ?_, ?_, ?_, ?_⟩, ?_⟩
  · split
    · exact stores.opened
    · exact stores.opened
  · split
    · exact represents_erase keeps.represents (fileKey k)
    next absent =>
      rw [Option.not_isSome_iff_eq_none] at absent
      rw [← absent, Function.update_eq_self]
      exact keeps.represents
  · intro other mem
    exact keeps.fits other (AList.mem_erase.mp mem).2
  · intro other
    by_cases same : other = k
    · subst same
      rw [AList.lookup_erase, Function.update_self]
      exact .none
    · rw [AList.lookup_erase_ne same, Function.update_of_ne (mt fileKey_inj.mp same)]
      exact keeps.record other
  · intro key live
    by_cases same : key = fileKey k
    · exact ⟨k, same⟩
    · rw [Function.update_of_ne same] at live
      exact keeps.named key live
  · intro other differ
    rw [← stores.elsewhere other differ]
    split
    · exact FileSystem.directories_change_of_ne _ differ _
    · rfl

omit [DecidableEq Dir] in
theorem Stores.get (stores : Stores base handle dir store files) (k : PersistenceKey) :
    Option.Rel (Encodes k) (store.lookup k) (pstget files handle (keyText k)) := by
  rcases stores.keeps with ⟨contents, keeps⟩
  have got := pstget_eq stores.opened keeps.represents (fileKey k)
  rw [show keyText k = (fileKey k).text from rfl, got]
  exact keeps.record k

theorem isSome_of_rel {Value Other : Type} {related : Value → Other → Prop} {value : Option Value}
    {other : Option Other} (rel : Option.Rel related value other) :
    other.isSome = value.isSome := by
  cases rel <;> rfl

omit [DecidableEq Dir] in
theorem Stores.containskey (stores : Stores base handle dir store files) (k : PersistenceKey) :
    pstcontainskey files handle (keyText k) = (store.lookup k).isSome := by
  rcases stores.keeps with ⟨contents, keeps⟩
  rw [← isSome_of_rel (keeps.record k)]
  exact pstcontainskey_eq stores.opened keeps.represents (fileKey k)

omit [DecidableEq Dir] in
/-- The keys that are listed are those of the store, in some order. -/
theorem Stores.keys (stores : Stores base handle dir store files) :
    ∃ keys : List PersistenceKey, keys.Perm store.keys ∧
      ∃ nkeys, pstkeys files handle = some (nkeys, keys.map keyText) := by
  rcases stores.keeps with ⟨contents, keeps⟩
  have listed := pstkeys_eq stores.opened keeps.represents
  have mem_texts := mem_keys_iff keeps.represents
  have distinct := nodup_keys keeps.represents
  generalize (files.directories dir).names.map cutExtension = texts at listed mem_texts distinct
  have live (k : PersistenceKey) : keyText k ∈ texts ↔ k ∈ store := by
    rw [mem_texts, ← AList.lookup_isSome, ← isSome_of_rel (keeps.record k)]
    constructor
    · rintro ⟨key, isText, live⟩
      rwa [Key.ext_text (show key.text = (fileKey k).text from isText)] at live
    · exact fun live => ⟨fileKey k, rfl, live⟩
  have named : texts ∈ Set.range (List.map keyText) := by
    rw [Set.range_list_map]
    intro text mem
    rcases (mem_texts text).mp mem with ⟨key, rfl, isLive⟩
    rcases keeps.named key isLive with ⟨k, rfl⟩
    exact ⟨k, rfl⟩
  rcases named with ⟨keys, rfl⟩
  refine ⟨keys, ?_, _, listed⟩
  apply (List.perm_ext_iff_of_nodup distinct.of_map store.keys_nodup).mpr
  intro k
  rw [← AList.mem_keys, ← live]
  constructor
  · exact List.mem_map_of_mem
  · intro mem
    rcases List.mem_map.mp mem with ⟨other, isMem, same⟩
    rwa [← keyText_inj.mp same]

theorem Stores.removeLoop {keys : List PersistenceKey}
    (stores : Stores base handle dir store files) (fits : ∀ k ∈ keys, k.number < 10 ^ 6) :
    ∃ files', removeLoop handle true keys files = (true, files') ∧
      Stores base handle dir (keys.foldl (fun s key => s.erase key) store) files' := by
  induction keys generalizing store files with
  | nil => exact ⟨files, rfl, stores⟩
  | cons k keys ih =>
      rcases List.forall_mem_cons.mp fits with ⟨first, others⟩
      rcases stores.remove k with ⟨files', removed, stores'⟩
      rcases ih stores' others with ⟨files'', looped, stores''⟩
      refine ⟨files'', ?_, stores''⟩
      rw [RecordFiles.removeLoop, writeKey_eq first]
      dsimp only
      rw [removed]
      exact looped

theorem Stores.unpersistLoop {keys : List PersistenceKey}
    (stores : Stores base handle dir store files) :
    ∃ files', unpersistLoop handle (keys.map keyText) files = (true, files') ∧
      Stores base handle dir ((keys.filter MQTTPersistence.isInflight).foldl
        (fun s key => s.erase key) store) files' := by
  induction keys generalizing store files with
  | nil => exact ⟨files, rfl, stores⟩
  | cons k keys ih =>
      rw [List.map_cons, RecordFiles.unpersistLoop, isInflightText_keyText]
      cases inflight : MQTTPersistence.isInflight k with
      | false =>
          rw [List.filter_cons_of_neg (by simp [inflight])]
          exact ih stores
      | true =>
          rcases stores.remove k with ⟨files', removed, stores'⟩
          rw [List.filter_cons_of_pos inflight, List.foldl_cons]
          dsimp only
          rw [removed]
          exact ih stores'

/-- Removing keys in any order leaves the same store. -/
theorem foldl_erase_perm {keys keys' : List PersistenceKey} (perm : keys.Perm keys') :
    keys.foldl (fun s key => s.erase key) store = keys'.foldl (fun s key => s.erase key) store := by
  have : RightCommutative fun (s : Store) key => s.erase key :=
    ⟨fun s first second => AList.erase_erase first second s⟩
  exact perm.foldl_eq store

theorem Stores.unpersistInflightMessages (stores : Stores base handle dir store files) :
    ∃ files', unpersistInflightMessages handle files = (true, files') ∧
      Stores base handle dir ((store.keys.filter MQTTPersistence.isInflight).foldl
        (fun s key => s.erase key) store) files' := by
  rcases stores.keys with ⟨keys, perm, nkeys, listed⟩
  rcases @unpersistLoop _ _ _ _ _ _ _ keys stores with ⟨files', looped, stores'⟩
  refine ⟨files', ?_, ?_⟩
  · rw [RecordFiles.unpersistInflightMessages, listed]
    exact looped
  · rwa [← foldl_erase_perm (perm.filter _)]

end Operations

end RecordFiles

end Paho
