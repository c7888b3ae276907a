import BeetleMemory.Lib.Fallible
import BeetleMemory.Lib.FileSystem
import BeetleMemory.Store.Request

/-! Where the file backend keeps a document or a blob: a data file named by a digest of the
logical key, and a key index beside it that holds the key itself.
-/

namespace BeetleMemory.Store

open Std FileSystem

variable {Value : Type}

structure StorePathBudget where
  maxFileNameBytes : Nat
  maxDirectoryNameBytes : Nat
  maxRelativePathBytes : Nat
  physicalKeyDigestHexChars : Nat
deriving DecidableEq, Repr

def StorePathBudget.desktopLinux : StorePathBudget where
  maxFileNameBytes := 128
  maxDirectoryNameBytes := 128
  maxRelativePathBytes := 1024
  physicalKeyDigestHexChars := 24

structure FileStoreEngine where
  capacity : StoreCapacityBudget
  pathBudget : StorePathBudget
  admissionAuthority : Nat
deriving DecidableEq, Repr

/-- Documents and blobs live in separate trees below the root. -/
inductive Lane where
  | json
  | blob
deriving DecidableEq, Repr

def Lane.name : Lane → String
  | .json => "kv"
  | .blob => "blob"

def Lane.extension : Lane → String
  | .json => "json"
  | .blob => "bin"

theorem Lane.name_injective {lane lane' : Lane} (h : lane.name = lane'.name)
    : lane = lane' := by
  cases lane <;> cases lane' <;> simp_all [Lane.name]

structure PhysicalKeyPaths where
  dataPath : FilePath
  indexPath : FilePath
  legacyPath : FilePath
deriving DecidableEq, Repr

/-- The function that names the files of a key: lane, namespace, key and the number of
digits give the digest.
-/
abbrev KeyDigest := String → String → String → Nat → String

def hexDigit (n : Nat) : Char :=
  "0123456789abcdef".toList.getD n '0'

def hexEncode (bytes : Bytes) : String :=
  String.ofList (bytes.flatMap fun byte =>
    [hexDigit (byte.toNat / 16), hexDigit (byte.toNat % 16)])

/-- The value of one lower- or upper-case hexadecimal digit. -/
def hexValue (c : Char) : Option Nat :=
  if '0' ≤ c ∧ c ≤ '9' then some (c.toNat - '0'.toNat)
  else if 'a' ≤ c ∧ c ≤ 'f' then some (c.toNat - 'a'.toNat + 10)
  else if 'A' ≤ c ∧ c ≤ 'F' then some (c.toNat - 'A'.toNat + 10)
  else none

private def digestByte (hash byte : UInt64) : UInt64 :=
  (hash ^^^ byte) * 0x100000001b3

def digestParts (seed : UInt64) (parts : List Bytes) : UInt64 :=
  parts.foldl
    (fun hash part => digestByte (part.foldl (fun h b => digestByte h b.toUInt64) hash) 0xff)
    seed

/-- A 64-bit word in sixteen hexadecimal digits. -/
def hexWord (word : UInt64) : List Char :=
  (List.range 16).map fun i => hexDigit (word.toNat / 16 ^ (15 - i) % 16)

/-- The digest the source computes. -/
def physicalKeyDigest : KeyDigest := fun lane ns key hexChars =>
  let first := digestParts 0xcbf29ce484222325
    [textBytes "bm-store-file-v2", textBytes lane, textBytes ns, textBytes key]
  let second := digestParts 0x84222325cbf29ce4
    [textBytes "bm-store-file-v2-key", textBytes key, textBytes ns, textBytes lane]
  String.ofList ((hexWord first ++ hexWord second).take hexChars)

namespace FileStoreEngine

private def stage : String := "file_store_addressing"

def validateAddressingBudget (engine : FileStoreEngine) (extension : String)
    : Except Error Unit := do
  let budget := engine.pathBudget
  let digestChars := budget.physicalKeyDigestHexChars
  require (16 ≤ digestChars && digestChars ≤ 32)
    (.config stage s!"physical key digest hex chars {digestChars} outside 16..=32")
  require
    (digestChars + 1 + textLen extension ≤ budget.maxFileNameBytes
      && digestChars + 1 + textLen "json" ≤ budget.maxFileNameBytes)
    (.config stage
      s!"physical key digest length exceeds file name budget {budget.maxFileNameBytes}")

/-- A text that can be one component of a path. -/
def isPathComponent (value : String) : Bool :=
  !value.isEmpty && value.toList.all fun c => c != '/' && c != '\\'

def validateDirectoryComponent (engine : FileStoreEngine) (value stage : String)
    : Except Error Unit := do
  require (isPathComponent value)
    (.config stage s!"invalid file store directory component {value.quote}")
  require (textLen value ≤ engine.pathBudget.maxDirectoryNameBytes)
    (.config stage
      s!"directory component {value.quote} exceeds {engine.pathBudget.maxDirectoryNameBytes} bytes")

def validateFileName (engine : FileStoreEngine) (value : String) : Except Error Unit := do
  require (isPathComponent value)
    (.config stage s!"invalid file store file name {value.quote}")
  require (textLen value ≤ engine.pathBudget.maxFileNameBytes)
    (.config stage
      s!"file name {value.quote} exceeds {engine.pathBudget.maxFileNameBytes} bytes")

def validateRelativePath (engine : FileStoreEngine) (value : String) : Except Error Unit :=
  require (textLen value ≤ engine.pathBudget.maxRelativePathBytes)
    (.config stage
      s!"relative file store path exceeds {engine.pathBudget.maxRelativePathBytes} bytes")

/-- The digest of a key under the engine's budget. -/
def digestOf (engine : FileStoreEngine) (digest : KeyDigest) (lane : Lane)
    (address : Address)
    : String :=
  digest lane.name address.ns address.key engine.pathBudget.physicalKeyDigestHexChars

/-- The directory a digest falls into. -/
def shardOf (digest : String) : String :=
  String.ofList (digest.toList.take 2)

/-- The three files of a key, before any check. -/
def layout (engine : FileStoreEngine) (digest : KeyDigest) (lane : Lane) (address : Address)
    : PhysicalKeyPaths :=
  let name := engine.digestOf digest lane address
  { dataPath := ⟨[lane.name, address.ns, "_v2", shardOf name], name, lane.extension⟩
    indexPath := ⟨[lane.name, address.ns, "_keys", shardOf name], name, "json"⟩
    legacyPath :=
      ⟨[lane.name, address.ns], hexEncode (textBytes address.key), lane.extension⟩ }

/-- The text of a path relative to the root. -/
def relativePath (path : FilePath) : String :=
  "/".intercalate (path.dir ++ [path.fileName])

/-- The files of a key, once every component is within the path budget. -/
def physicalKeyPaths (engine : FileStoreEngine) (digest : KeyDigest) (lane : Lane)
    (address : Address)
    : Except Error PhysicalKeyPaths := do
  enforceLogicalKeyBudget engine.capacity address stage
  engine.validateAddressingBudget lane.extension
  let paths := engine.layout digest lane address
  engine.validateDirectoryComponent lane.name stage
  engine.validateDirectoryComponent address.ns stage
  engine.validateDirectoryComponent "_v2" stage
  engine.validateDirectoryComponent "_keys" stage
  engine.validateDirectoryComponent (shardOf (engine.digestOf digest lane address)) stage
  engine.validateFileName paths.dataPath.fileName
  engine.validateFileName paths.indexPath.fileName
  engine.validateRelativePath (relativePath paths.dataPath)
  engine.validateRelativePath (relativePath paths.indexPath)
  pure paths

section Layout

variable {engine : FileStoreEngine} {digest : KeyDigest} {lane lane' : Lane}
  {address address' : Address}

/-- Two keys of a lane that are kept in the same files. -/
def SameSlot (engine : FileStoreEngine) (digest : KeyDigest) (lane : Lane)
    (address address' : Address)
    : Prop :=
  address.ns = address'.ns
    ∧ engine.digestOf digest lane address = engine.digestOf digest lane address'

instance : Decidable (engine.SameSlot digest lane address address') :=
  inferInstanceAs (Decidable (_ ∧ _))

theorem layout_dataPath_eq_iff
    : (engine.layout digest lane address).dataPath
        = (engine.layout digest lane' address').dataPath
      ↔ lane = lane' ∧ engine.SameSlot digest lane address address' := by
  constructor
  · intro h
    simp only [layout, FilePath.mk.injEq, List.cons.injEq] at h
    obtain ⟨⟨name, ns, -⟩, same, -⟩ := h
    obtain rfl := Lane.name_injective name
    exact ⟨rfl, ns, same⟩
  · rintro ⟨rfl, ns, same⟩
    simp [layout, ns, same]

theorem layout_indexPath_eq_iff
    : (engine.layout digest lane address).indexPath
        = (engine.layout digest lane' address').indexPath
      ↔ lane = lane' ∧ engine.SameSlot digest lane address address' := by
  constructor
  · intro h
    simp only [layout, FilePath.mk.injEq, List.cons.injEq] at h
    obtain ⟨⟨name, ns, -⟩, same, -⟩ := h
    obtain rfl := Lane.name_injective name
    exact ⟨rfl, ns, same⟩
  · rintro ⟨rfl, ns, same⟩
    simp [layout, ns, same]

theorem layout_dataPath_ne_indexPath
    : (engine.layout digest lane address).dataPath
      ≠ (engine.layout digest lane' address').indexPath := by
  simp [layout]

theorem layout_dataPath_ne_tmp (path : FilePath)
    : (engine.layout digest lane address).dataPath ≠ path.tmp := by
  intro h
  have ext := congrArg FilePath.extension h
  cases lane <;> simp [layout, FilePath.tmp, FilePath.withExtension, Lane.extension] at ext

theorem layout_indexPath_ne_tmp (path : FilePath)
    : (engine.layout digest lane address).indexPath ≠ path.tmp := by
  intro h
  have ext := congrArg FilePath.extension h
  simp [layout, FilePath.tmp, FilePath.withExtension] at ext

end Layout

/-- Paths that pass the checks are the ones the layout gives. -/
theorem physicalKeyPaths_ok {engine : FileStoreEngine} {digest : KeyDigest} {lane : Lane}
    {address : Address} {paths : PhysicalKeyPaths}
    (h : engine.physicalKeyPaths digest lane address = .ok paths)
    : paths = engine.layout digest lane address := by
  unfold physicalKeyPaths at h
  simp only [Fallible.bind_eq_ok, Fallible.pure_eq_ok] at h
  obtain ⟨-, -, -, -, -, -, -, -, -, -, -, -, -, -, -, -, -, -, -, -, -, -, same⟩ := h
  exact same.symm

end FileStoreEngine

/-- The event log. -/
def eventsPath : FilePath :=
  ⟨["events"], "events", "jsonl"⟩

/-- The transaction journal. -/
def transactionMarkerPath : FilePath :=
  ⟨[], ".beetle-memory", "transaction"⟩

end BeetleMemory.Store
