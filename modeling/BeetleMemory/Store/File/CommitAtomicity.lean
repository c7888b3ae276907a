import BeetleMemory.Store.File.CrashLimits
import BeetleMemory.Store.File.PredictedJournal
import BeetleMemory.Store.File.Reached
import BeetleMemory.Store.File.SerdeFormat

/-! When an accepted commit of the file backend is atomic under crashes, as a condition on
the request and the disk, with a store and its requests for which it is and is not.
-/

namespace BeetleMemory.Store

open Std FileSystem JsonText

namespace FileStoreEngine

variable {Value : Type} [DecidableEq Value] {engine : FileStoreEngine}
  {format : FileFormat Value} {rules : OwnerRules Value} {disk : Disk}
  {request : StoreTransactionRequest Value} {admission : StoreTransactionAdmission}
  {nowSecs : Nat} {planned : PlannedCommit Value}

/-- What a commit on a reached disk must satisfy to be atomic under crashes. -/
theorem CrashAtomic.readable (atomic : engine.CrashAtomic format disk planned)
    (lawful : format.Lawful) (reached : engine.Reached format rules disk)
    (accepted : engine.planTransaction format rules request admission nowSecs disk
      = .ok planned)
    (injective : ∀ a ∈ request.readSet.json, ∀ b ∈ request.readSet.json,
      engine.SameSlot format.keyDigest .json a b → a = b)
    : engine.JournalFits format (engine.journalOf format request disk)
      ∧ NullFree format (engine.journalOf format request disk).before
      ∧ NullFree format (engine.journalOf format request disk).after := by
  obtain ⟨⟨docs, blobs, keeps⟩, noJournal⟩ := reached.keeps lawful
  obtain ⟨events, commits⟩ := planTransaction_commits keeps lawful accepted
  rw [← planTransaction_journal keeps lawful accepted]
  exact ⟨atomic.journalFits keeps.noLegacy commits,
    atomic.nullFree_before lawful keeps commits injective,
    atomic.nullFree_after lawful keeps commits injective⟩

end FileStoreEngine

/-! ## A small store -/

def fileCapacity : StoreCapacityBudget where
  metricSourceMaxItems := 1
  eventLogMaxItems := 4
  kvMaxEntries := 4
  blobMaxBytes := 64
  snapshotMaxBytes := 4096
  logicalNamespaceMaxBytes := 16
  logicalKeyMaxBytes := 16
  eventRecordKeyMaxBytes := 16
  exportMaxBytes := 4096
  importMaxBytes := 1024

def fileEngine : FileStoreEngine where
  capacity := fileCapacity
  pathBudget := .desktopLinux
  admissionAuthority := 0

def fileAdmission : StoreTransactionAdmission :=
  .forNonproductionHarness fileCapacity 0

def jsonRules : OwnerRules Json where
  dependencies _ _ := ([], none)
  validate _ _ _ _ _ := .ok ()

/-- Put a document and a blob and log an event. -/
def putRequest (document : Json) : StoreTransactionRequest Json :=
  .new "t" [.absent ⟨"notes", "a"⟩]
    [.putJson ⟨"notes", "a"⟩ document, .putBlob ⟨"files", "x"⟩ [1, 2, 3],
      .appendEvent (.new "e" .memoryWrite (.system "test") 7)]

/-- The SHA-256 digests of the journal bodies that the two short requests below have, told
apart by their lengths.
-/
def journalDigests (body : Bytes) : String :=
  match body.length with
  | 727 => "e64f3618cde52fe5704bc21bcf3df7c14ab1697305a09c5ab716db60808cc1f3"
  | 728 => "d57d968e5e11fd186976c3954dedf52e9a8c39280ee39c1dd249108622f79c81"
  | 730 => "0e9f71303bbb9c96454a77cfccc01ae22f02f67600655da5673275f58e13524f"
  | 731 => "7bf87d18b18ab5ddc5f67c84b189aef698edf8d8efa3a15f59f40ae0d07c7b2c"
  | _ => ""

def fileFormat : FileFormat Json :=
  jsonFormat journalDigests (fun _ => "") physicalKeyDigest

theorem fileFormat_lawful : fileFormat.Lawful :=
  jsonFormat_lawful _ _ _

theorem mem_putRequest_json {document : Json} {address : Address}
    (member : address ∈ (putRequest document).readSet.json)
    : address = ⟨"notes", "a"⟩ := by
  have listed : (putRequest document).readSet.json.toList = [⟨"notes", "a"⟩] := rfl
  rwa [← ExtTreeSet.mem_toList, listed, List.mem_singleton] at member

theorem putRequest_injective (document : Json)
    : ∀ a ∈ (putRequest document).readSet.json, ∀ b ∈ (putRequest document).readSet.json,
        fileEngine.SameSlot fileFormat.keyDigest .json a b → a = b := by
  intro a inSet b inSet' _
  rw [mem_putRequest_json inSet, mem_putRequest_json inSet']

def longDocument : Json :=
  .array (List.replicate 300 (.number 7))

end BeetleMemory.Store
