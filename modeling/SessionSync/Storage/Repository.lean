import SessionSync.Storage.Objects
import SessionSync.Lib.Keyed

set_option autoImplicit false

namespace SessionSync.Storage

open SessionSync.Core Checked

inductive StorageObjectKindV4 where
  | whole
  | chunk
  | chunkManifest
  | thread
  | revisionRoot
  | snapshotOverlay
deriving DecidableEq, Repr, Ord

instance kindTrans : Std.TransOrd StorageObjectKindV4 where
  eq_swap {a b} := by cases a <;> cases b <;> rfl
  isLE_trans {a b c} := by cases a <;> cases b <;> cases c <;> decide

instance kindLawful : Std.LawfulEqOrd StorageObjectKindV4 where
  eq_of_compare {a b} same := by cases a <;> cases b <;> first | rfl | cases same

namespace StorageObjectKindV4

def remote : List StorageObjectKindV4 := [.whole, .chunk, .chunkManifest, .thread, .revisionRoot]

def all : List StorageObjectKindV4 := [.whole, .chunk, .chunkManifest, .thread, .revisionRoot, .snapshotOverlay]

def wireName : StorageObjectKindV4 → String
  | .whole => "whole"
  | .chunk => "chunk"
  | .chunkManifest => "chunkManifest"
  | .thread => "thread"
  | .revisionRoot => "revisionRoot"
  | .snapshotOverlay => "snapshotOverlay"

def maxBytes : StorageObjectKindV4 → UInt64
  | .whole => 64 * 1024 * 1024 * 1024
  | .chunk => chunkSizeV4.toUInt64
  | .chunkManifest | .thread | .revisionRoot | .snapshotOverlay => 16 * 1024 * 1024

end StorageObjectKindV4

-- The path of an object below objects/: its kind's directory and its digest.
abbrev ObjectName := StorageObjectKindV4 × String

instance nameTrans : Std.TransOrd ObjectName := inferInstance

instance nameLawful : Std.LawfulEqOrd ObjectName := inferInstance

structure StorageObjectRefV4 where
  kind : StorageObjectKindV4
  sha256 : String
  byteLength : UInt64
deriving DecidableEq, Repr

def StorageObjectRefV4.name (object : StorageObjectRefV4) : ObjectName := (object.kind, object.sha256)

abbrev Files := Std.ExtTreeMap ObjectName Bytes

section Store

variable (lib : Primitives)

-- object_path_by_id and the read of the file it names.
def objectFile (files : Files) (kind : StorageObjectKindV4) (sha256 : String) : Except String Bytes := do
  validateSha256V4 sha256
  found files[((kind, sha256) : ObjectName)]? "No such file or directory"

def readObject (files : Files) (kind : StorageObjectKindV4) (sha256 : String) : Except String Bytes := do
  let bytes ← objectFile files kind sha256
  ensure (fileLength bytes ≤ kind.maxBytes) (kind.wireName ++ " object exceeds size limit")
  ensure (digestBytes lib bytes = sha256) (kind.wireName ++ " object hash mismatch")
  return bytes

def readJson {α : Type} (decode : Bytes → Except String α) (files : Files) (kind : StorageObjectKindV4) (sha256 : String) :
    Except String α := do
  let bytes ← readObject lib files kind sha256
  decode bytes

-- An object that is there already stays as it is.
def installBytes (files : Files) (object : StorageObjectRefV4) (bytes : Bytes) : Except String Files := do
  validateSha256V4 object.sha256
  ensure (fileLength bytes = object.byteLength) "object length does not match declaration"
  ensure (fileLength bytes ≤ object.kind.maxBytes) "object exceeds kind size limit"
  ensure (digestBytes lib bytes = object.sha256) "object hash does not match declaration"
  match files[object.name]? with
  | some existing => do
      ensure (existing = bytes) "immutable object hash collision or corruption"
      return files
  | none => return files.insert object.name bytes

def storeJson (files : Files) (kind : StorageObjectKindV4) (value : Value) : Except String (StorageObjectRefV4 × Files) := do
  let bytes := canonicalJson lib value
  ensure (fileLength bytes ≤ kind.maxBytes) (kind.wireName ++ " object exceeds size limit")
  let object : StorageObjectRefV4 := { kind := kind, sha256 := digestBytes lib bytes, byteLength := fileLength bytes }
  let files ← installBytes lib files object bytes
  return (object, files)

theorem object_file_ok (files : Files) (kind : StorageObjectKindV4) (sha256 : String) (bytes : Bytes) :
    objectFile files kind sha256 = .ok bytes ↔ validSha256 sha256 = true ∧ files[((kind, sha256) : ObjectName)]? = some bytes := by
  simp only [objectFile, validateSha256V4, bind_ok, ensure_ok, found_ok, exists_const]

theorem read_object_ok (files : Files) (kind : StorageObjectKindV4) (sha256 : String) (bytes : Bytes) :
    readObject lib files kind sha256 = .ok bytes ↔ validSha256 sha256 = true ∧ files[((kind, sha256) : ObjectName)]? = some bytes ∧
      fileLength bytes ≤ kind.maxBytes ∧ digestBytes lib bytes = sha256 := by
  simp only [readObject, bind_ok, object_file_ok, ensure_ok, pure_ok]
  constructor
  · rintro ⟨read, ⟨valid, held⟩, _, small, _, digest, rfl⟩
    exact ⟨valid, held, small, digest⟩
  · rintro ⟨valid, held, small, digest⟩
    exact ⟨bytes, ⟨valid, held⟩, (), small, (), digest, rfl⟩

theorem read_json_ok {α : Type} (decode : Bytes → Except String α) (files : Files) (kind : StorageObjectKindV4) (sha256 : String)
    (value : α) : readJson lib decode files kind sha256 = .ok value ↔
      ∃ bytes, readObject lib files kind sha256 = .ok bytes ∧ decode bytes = .ok value := by
  rw [readJson, bind_ok]

-- Every object of one store is in the other, byte for byte.
def Extends (files later : Files) : Prop :=
  ∀ (name : ObjectName) (bytes : Bytes), files[name]? = some bytes → later[name]? = some bytes

theorem extends_refl (files : Files) : Extends files files := fun _ _ held => held

theorem extends_trans (files mid later : Files) (first : Extends files mid) (second : Extends mid later) : Extends files later :=
  fun name bytes held => second name bytes (first name bytes held)

theorem install_ok (files later : Files) (object : StorageObjectRefV4) (bytes : Bytes)
    (installed : installBytes lib files object bytes = .ok later) : Extends files later ∧ later[object.name]? = some bytes := by
  simp only [installBytes, validateSha256V4, bind_ok, ensure_ok] at installed
  obtain ⟨_, _, _, _, _, _, _, _, installed⟩ := installed
  cases present : files[object.name]? with
  | some existing =>
      simp only [present, bind_ok, ensure_ok, pure_ok] at installed
      obtain ⟨_, same, rfl⟩ := installed
      exact ⟨extends_refl files, same ▸ present⟩
  | none =>
      simp only [present, pure_ok] at installed
      subst installed
      refine ⟨fun name old held => ?_, by rw [Keyed.lookup_insert, if_pos rfl]⟩
      have other : name ≠ object.name := by
        rintro rfl
        rw [present] at held
        cases held
      rw [Keyed.lookup_insert, if_neg other, held]

theorem store_json_ok (files later : Files) (kind : StorageObjectKindV4) (value : Value) (object : StorageObjectRefV4)
    (stored : storeJson lib files kind value = .ok (object, later)) :
    object = ⟨kind, digestBytes lib (canonicalJson lib value), fileLength (canonicalJson lib value)⟩ ∧ Extends files later ∧
      readObject lib later kind object.sha256 = .ok (canonicalJson lib value) := by
  simp only [storeJson, bind_ok, ensure_ok, pure_ok, Prod.mk.injEq] at stored
  obtain ⟨_, small, after, installed, rfl, rfl⟩ := stored
  obtain ⟨kept, held⟩ := install_ok lib files after _ _ installed
  exact ⟨rfl, kept, (read_object_ok lib after kind _ _).mpr ⟨digest_bytes_valid lib _, held, small, rfl⟩⟩

theorem store_json_fresh (files : Files) (kind : StorageObjectKindV4) (value : Value)
    (small : fileLength (canonicalJson lib value) ≤ kind.maxBytes)
    (fresh : files[((kind, digestBytes lib (canonicalJson lib value)) : ObjectName)]? = none) :
    storeJson lib files kind value = .ok (⟨kind, digestBytes lib (canonicalJson lib value), fileLength (canonicalJson lib value)⟩,
      files.insert (kind, digestBytes lib (canonicalJson lib value)) (canonicalJson lib value)) := by
  simp only [storeJson, installBytes, validateSha256V4, StorageObjectRefV4.name, ensured _ _ _ small,
    ensured _ _ _ (digest_bytes_valid lib _), fresh]
  rfl

theorem read_object_extends (files later : Files) (kept : Extends files later) (kind : StorageObjectKindV4) (sha256 : String)
    (bytes : Bytes) (read : readObject lib files kind sha256 = .ok bytes) : readObject lib later kind sha256 = .ok bytes := by
  obtain ⟨valid, held, rest⟩ := (read_object_ok lib files kind sha256 bytes).mp read
  exact (read_object_ok lib later kind sha256 bytes).mpr ⟨valid, kept _ _ held, rest⟩

end Store

end SessionSync.Storage
