import BeetleMemory.Store.File.CommitPlan
import BeetleMemory.Store.InMemoryCommit

/-! The journal of an accepted commit as a function of the request and the disk alone: what
the disk reads at the read set, and what the request's mutations make of it.
-/

namespace BeetleMemory.Store

open Std FileSystem

variable {Value : Type}

/-- One mutation on the touched documents and blobs. -/
def mutateTouched (state : BackendTransactionState Value)
    : StoreEngineMutation Value → BackendTransactionState Value
  | .putJson address value => { state with json := state.json.insert address value }
  | .deleteJson address => { state with json := state.json.erase address }
  | .putBlob address value => { state with blobs := state.blobs.insert address value }
  | .deleteBlob address => { state with blobs := state.blobs.erase address }
  | .appendEvent event => { state with events := state.events ++ [event] }
  | .deleteJsonIfPresent _ _ | .deleteBlobIfPresent _ _ => state

/-- A planned mutation does this to the touched part. -/
theorem planMutation_next {capacity : StoreCapacityBudget} {plan next : PlanState Value}
    {mutation : StoreEngineMutation Value}
    (ok : planMutation capacity plan mutation = .ok next)
    : next.next = mutateTouched plan.next mutation := by
  cases mutation with
  | deleteJsonIfPresent address template => simp [planMutation] at ok
  | deleteBlobIfPresent address template => simp [planMutation] at ok
  | putJson _ _ | deleteJson _ | putBlob _ _ | deleteBlob _ | appendEvent _ =>
      simp only [planMutation, Fallible.bind_eq_ok, Fallible.pure_eq_ok] at ok
      obtain ⟨_, _, _, _, rfl⟩ := ok
      rfl

theorem planMutations_next {capacity : StoreCapacityBudget} {plan final : PlanState Value}
    {mutations : List (StoreEngineMutation Value)}
    (ok : mutations.foldlM (planMutation capacity) plan = .ok final)
    : final.next = mutations.foldl mutateTouched plan.next := by
  induction mutations generalizing plan with
  | nil =>
      simp only [List.foldlM_nil, Fallible.pure_eq_ok] at ok
      rw [ok, List.foldl_nil]
  | cons mutation rest ih =>
      rw [List.foldlM_cons, Fallible.bind_eq_ok] at ok
      obtain ⟨next, first, later⟩ := ok
      rw [ih later, planMutation_next first, List.foldl_cons]

/-- Two states that agree at a document address agree there after the same mutations. -/
theorem mutateTouched_json_congr {address : Address}
    {mutations : List (StoreEngineMutation Value)} {left right : BackendTransactionState Value}
    (same : left.json[address]? = right.json[address]?)
    : (mutations.foldl mutateTouched left).json[address]?
      = (mutations.foldl mutateTouched right).json[address]? := by
  induction mutations generalizing left right with
  | nil => exact same
  | cons mutation rest ih =>
      refine ih ?_
      cases mutation with
      | putJson _ _ => simp only [mutateTouched, ExtTreeMap.getElem?_insert, same]
      | deleteJson _ => simp only [mutateTouched, ExtTreeMap.getElem?_erase, same]
      | putBlob _ _ | deleteBlob _ | appendEvent _ | deleteJsonIfPresent _ _
      | deleteBlobIfPresent _ _ => exact same

theorem mutateTouched_blobs_congr {address : Address}
    {mutations : List (StoreEngineMutation Value)} {left right : BackendTransactionState Value}
    (same : left.blobs[address]? = right.blobs[address]?)
    : (mutations.foldl mutateTouched left).blobs[address]?
      = (mutations.foldl mutateTouched right).blobs[address]? := by
  induction mutations generalizing left right with
  | nil => exact same
  | cons mutation rest ih =>
      refine ih ?_
      cases mutation with
      | putBlob _ _ => simp only [mutateTouched, ExtTreeMap.getElem?_insert, same]
      | deleteBlob _ => simp only [mutateTouched, ExtTreeMap.getElem?_erase, same]
      | putJson _ _ | deleteJson _ | appendEvent _ | deleteJsonIfPresent _ _
      | deleteBlobIfPresent _ _ => exact same

/-- A request's conditional deletes look only at its read set. -/
theorem materializeConditionalMutations_congr (encoding : Encoding Value)
    {request : StoreTransactionRequest Value} {left right : BackendTransactionState Value}
    (json : ∀ a ∈ request.readSet.json, left.json[a]? = right.json[a]?)
    (blobs : ∀ a ∈ request.readSet.blobs, left.blobs[a]? = right.blobs[a]?)
    : materializeConditionalMutations encoding request.mutations left
      = materializeConditionalMutations encoding request.mutations right := by
  refine List.flatMap_congr fun mutation member => ?_
  have coversJson := request.coversJsonMutations mutation member
  have coversBlobs := request.coversBlobMutations mutation member
  cases mutation with
  | deleteJsonIfPresent address template =>
      rw [materializeMutation, json address (coversJson address rfl), materializeMutation]
  | deleteBlobIfPresent address template =>
      rw [materializeMutation, blobs address (coversBlobs address rfl), materializeMutation]
  | putJson _ _ | deleteJson _ | putBlob _ _ | deleteBlob _ | appendEvent _ => rfl

/-- An image depends on the documents and blobs of its read set only. -/
theorem transactionImage_congr {json json' : ExtTreeMap Address Value}
    {blobs blobs' : ExtTreeMap Address Bytes} {readSet : StoreTransactionReadSet}
    {events : FileTransactionEventsImage}
    (sameJson : ∀ a ∈ readSet.json, json[a]? = json'[a]?)
    (sameBlobs : ∀ a ∈ readSet.blobs, blobs[a]? = blobs'[a]?)
    : transactionImage json blobs readSet events
      = transactionImage json' blobs' readSet events := by
  have jsonEntries : ∀ a ∈ readSet.json.toList,
      (⟨a, json[a]?⟩ : FileTransactionValue Value) = ⟨a, json'[a]?⟩ := by
    intro a member
    rw [sameJson a (ExtTreeSet.mem_toList.mp member)]
  have blobEntries : ∀ a ∈ readSet.blobs.toList,
      (⟨a, blobs[a]?⟩ : FileTransactionValue Bytes) = ⟨a, blobs'[a]?⟩ := by
    intro a member
    rw [sameBlobs a (ExtTreeSet.mem_toList.mp member)]
  simp only [transactionImage, List.map_congr_left jsonEntries,
    List.map_congr_left blobEntries]

namespace FileStoreEngine

/-- The document a key reads as, if it reads. -/
def documentAt (engine : FileStoreEngine) (format : FileFormat Value) (disk : Disk)
    (address : Address)
    : Option Value :=
  match engine.getJsonValueUnlocked format disk address with
  | .ok found => found
  | .error _ => none

/-- The blob a key reads as, if it reads. -/
def blobAt (engine : FileStoreEngine) (format : FileFormat Value) (disk : Disk)
    (address : Address)
    : Option Bytes :=
  match engine.getBlobUnlocked format disk address with
  | .ok found => found
  | .error _ => none

/-- The values of a list of addresses. -/
def collect {α : Type} (read : Address → Option α) (addresses : List Address)
    : ExtTreeMap Address α :=
  addresses.foldl
    (fun found address =>
      match read address with
      | none => found
      | some value => found.insert address value) ∅

/-- What the disk reads at the read set. -/
def touchedState (engine : FileStoreEngine) (format : FileFormat Value) (disk : Disk)
    (readSet : StoreTransactionReadSet)
    : BackendTransactionState Value where
  json := collect (engine.documentAt format disk) readSet.json.toList
  blobs := collect (engine.blobAt format disk) readSet.blobs.toList
  events := []

/-- The journal of a request on a disk. -/
def journalOf (engine : FileStoreEngine) (format : FileFormat Value)
    (request : StoreTransactionRequest Value) (disk : Disk)
    : FileTransactionJournal Value :=
  let before := engine.touchedState format disk request.readSet
  let effective :=
    materializeConditionalMutations format.toEncoding request.mutations before
  let after := effective.foldl mutateTouched before
  let prefixLen := (disk.content eventsPath).length
  .new format request.transactionId
    (transactionImage before.json before.blobs request.readSet (.append prefixLen []))
    (transactionImage after.json after.blobs request.readSet
      (.append prefixLen (appendedEvents effective)))

/-! ## The planner's journal is this one -/

theorem collect_getElem? {α : Type} (read : Address → Option α) {addresses : List Address}
    {address : Address} (member : address ∈ addresses)
    : (collect read addresses)[address]? = read address := by
  have general : ∀ (addresses : List Address) (found : ExtTreeMap Address α),
      (address ∈ addresses ∨ found[address]? = read address)
      → (∀ value, found[address]? = some value → read address = some value)
      → (addresses.foldl (fun found a =>
          match read a with
          | none => found
          | some value => found.insert a value) found)[address]? = read address := by
    intro addresses
    induction addresses with
    | nil =>
        intro found here _
        simpa using here
    | cons a rest ih =>
        intro found here sound
        rw [List.foldl_cons]
        cases value : read a with
        | none =>
            refine ih found ?_ sound
            rcases here with member | same
            · rcases List.mem_cons.mp member with rfl | member
              · right
                cases bound : found[address]? with
                | none => exact value.symm
                | some v => exact (sound v bound).symm
              · exact .inl member
            · exact .inr same
        | some v =>
            by_cases same : a = address
            · subst same
              refine ih _ (.inr ?_) ?_ <;> simp [value]
            · have kept : (found.insert a v)[address]? = found[address]? := by
                simp [ExtTreeMap.getElem?_insert, same]
              refine ih _ ?_ (by rwa [kept])
              rw [kept]
              refine here.imp_left fun member => ?_
              exact (List.mem_cons.mp member).resolve_left (Ne.symm same)
  exact general addresses ∅ (.inl member) (by simp)

variable [DecidableEq Value] {engine : FileStoreEngine} {format : FileFormat Value}
  {disk : Disk} {docs : ExtTreeMap Address Value} {blobs : ExtTreeMap Address Bytes}

/-- An address that was read reads as what the disk keeps. -/
theorem ReadOk.documentAt (keeps : engine.KeepsState format disk docs blobs)
    (lawful : format.Lawful) {address : Address}
    (readOk : engine.ReadOk format disk .json (holdings format docs blobs .json address)
      address)
    : engine.getJsonValueUnlocked format disk address = .ok docs[address]? := by
  cases held : docs[address]? with
  | none =>
      have absent : holdings format docs blobs .json address = none := by simp [holdings, held]
      rw [getJsonValueUnlocked, keeps.readPhysical_of_free readOk.paths (readOk.free absent)
        (fun path missing => by rw [missing])]
      rfl
  | some value =>
      have holds : holdings format docs blobs .json address
          = some (format.toVecPretty value) := by simp [holdings, held]
      rw [getJsonValueUnlocked, keeps.readPhysical_of_held lawful holds
        (readOk.index (by simp [holds])) (by rw [keeps.data holds])]
      simp [Fallible.ok_bind, lawful.fromSlice_toVecPretty, atStage, Functor.map, Except.map]

theorem ReadOk.blobAt (keeps : engine.KeepsState format disk docs blobs)
    (lawful : format.Lawful) {address : Address}
    (readOk : engine.ReadOk format disk .blob (holdings format docs blobs .blob address)
      address)
    : engine.getBlobUnlocked format disk address = .ok blobs[address]? := by
  cases held : blobs[address]? with
  | none =>
      exact keeps.readPhysical_of_free readOk.paths (readOk.free held)
        (fun path missing => by rw [missing])
  | some bytes =>
      have holds : holdings format docs blobs .blob address = some bytes := held
      exact keeps.readPhysical_of_held lawful holds (readOk.index (by simp [holds]))
        (by rw [keeps.data holds])

/-- The journal of an accepted plan is the one computed from the request and the disk. -/
theorem planTransaction_journal {rules : OwnerRules Value}
    {request : StoreTransactionRequest Value} {admission : StoreTransactionAdmission}
    {nowSecs : Nat} {planned : PlannedCommit Value}
    (keeps : engine.KeepsState format disk docs blobs) (lawful : format.Lawful)
    (ok : engine.planTransaction format rules request admission nowSecs disk = .ok planned)
    : planned.journal = engine.journalOf format request disk := by
  obtain ⟨context, plan, final, loaded, facts, journal, -⟩ :=
    planTransaction_ok keeps lawful ok
  have json : ∀ a ∈ request.readSet.json, context.touched.json[a]?
      = (engine.touchedState format disk request.readSet).json[a]? := by
    intro a member
    rw [loaded.jsonShown.covers a member, touchedState,
      collect_getElem? _ (ExtTreeSet.mem_toList.mpr member), documentAt,
      (loaded.jsonRead a member).documentAt keeps lawful]
  have blobs : ∀ a ∈ request.readSet.blobs, context.touched.blobs[a]?
      = (engine.touchedState format disk request.readSet).blobs[a]? := by
    intro a member
    rw [loaded.blobsShown.covers a member, touchedState,
      collect_getElem? _ (ExtTreeSet.mem_toList.mpr member), blobAt,
      (loaded.blobsRead a member).blobAt keeps lawful]
  have effective := materializeConditionalMutations_congr format.toEncoding json blobs
  have nextTouched := planMutations_next facts.mutations
  rw [journal, journalOf, transactionImage_congr json blobs, facts.effective, effective,
    facts.nextTouched, nextTouched, effective,
    transactionImage_congr (fun a member => mutateTouched_json_congr (json a member))
      (fun a member => mutateTouched_blobs_congr (blobs a member))]

end FileStoreEngine

end BeetleMemory.Store
