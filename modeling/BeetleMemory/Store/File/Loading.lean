import BeetleMemory.Store.File.Commit
import BeetleMemory.Store.File.Slots
import BeetleMemory.Store.PlannerFacts

/-! What a commit of the file backend has read once its plan is accepted: the values the
store holds at every address of the read set, each under paths within the budget.
-/

namespace BeetleMemory.Store

open Std FileSystem

variable {Value : Type}

/-- Documents and blobs as the bytes of their data files. -/
def holdings (format : FileFormat Value) (docs : ExtTreeMap Address Value)
    (blobs : ExtTreeMap Address Bytes)
    : Holdings
  | .json, address => docs[address]?.map format.toVecPretty
  | .blob, address => blobs[address]?

namespace FileStoreEngine

/-- The disk keeps these documents and blobs. -/
abbrev KeepsState (engine : FileStoreEngine) (format : FileFormat Value) (disk : Disk)
    (docs : ExtTreeMap Address Value) (blobs : ExtTreeMap Address Bytes)
    : Prop :=
  engine.Keeps format disk (holdings format docs blobs)

/-- An address was read: its paths are within the budget, and if it holds nothing then no
other key sits in its files either; if it holds something, its index is readable.
-/
structure ReadOk (engine : FileStoreEngine) (format : FileFormat Value) (disk : Disk)
    (lane : Lane) (held : Option Bytes) (address : Address)
    : Prop where
  paths : engine.physicalKeyPaths format.keyDigest lane address
    = .ok (engine.layout format.keyDigest lane address)
  free : held = none
    → disk.files[(engine.layout format.keyDigest lane address).dataPath]? = none
  index : held ≠ none → engine.IndexFits format address.key

variable [DecidableEq Value] {engine : FileStoreEngine} {format : FileFormat Value}
  {disk : Disk} {docs : ExtTreeMap Address Value} {blobs : ExtTreeMap Address Bytes}
  {address : Address}

theorem Keeps.readOk {held : Holdings} (keeps : engine.Keeps format disk held)
    (lawful : format.Lawful) {lane : Lane}
    {readData : FilePath → Except Error (Option Bytes)} (faithful : ReadsFiles disk readData)
    {stage : String} {found : Option Bytes}
    (read : engine.readPhysical format disk lane address readData stage = .ok found)
    : found = held lane address ∧ engine.ReadOk format disk lane (held lane address) address := by
  obtain ⟨same, index, free⟩ := keeps.readPhysical_ok lawful faithful read
  obtain ⟨paths, addressed, -⟩ := Fallible.bind_eq_ok.mp read
  obtain rfl := physicalKeyPaths_ok addressed
  refine ⟨same, addressed, fun h => free (same.trans h), fun h => ?_⟩
  obtain ⟨bytes, holds⟩ := Option.ne_none_iff_exists'.mp h
  exact index bytes (same.trans holds)

/-- A bounded document read returns the document and its size within the bound. -/
theorem getJsonValueUnlockedBounded_ok (keeps : engine.KeepsState format disk docs blobs)
    (lawful : format.Lawful) {maxBytes : Nat} {found : Option (Value × Nat)}
    (read : engine.getJsonValueUnlockedBounded format disk address maxBytes = .ok found)
    : found = docs[address]?.map (fun value => (value, (format.toVec value).length))
      ∧ engine.ReadOk format disk .json (holdings format docs blobs .json address) address
      ∧ (∀ value, docs[address]? = some value → (format.toVec value).length ≤ maxBytes) := by
  obtain ⟨bytes, physical, read⟩ := Fallible.bind_eq_ok.mp read
  obtain ⟨same, readOk⟩ := keeps.readOk lawful (readsFiles_bounded _ _ _) physical
  cases held : docs[address]? with
  | none =>
      obtain rfl : bytes = none := by simpa [holdings, held] using same
      cases read
      exact ⟨rfl, readOk, by simp⟩
  | some value =>
      obtain rfl : bytes = some (format.toVecPretty value) := by
        simpa [holdings, held] using same
      obtain ⟨decoded, parse, sized⟩ := Fallible.bind_eq_ok.mp read
      rw [atStage_eq_ok, lawful.fromSlice_toVecPretty] at parse
      cases parse
      obtain ⟨_, within, result⟩ := Fallible.bind_eq_ok.mp sized
      cases result
      exact ⟨rfl, readOk, by simpa using within⟩

/-- A bounded blob read returns the blob and its size within the bound. -/
theorem getBlobUnlockedBounded_ok (keeps : engine.KeepsState format disk docs blobs)
    (lawful : format.Lawful) {maxBytes : Nat} {found : Option (Bytes × Nat)}
    (read : engine.getBlobUnlockedBounded format disk address maxBytes = .ok found)
    : found = blobs[address]?.map (fun bytes => (bytes, bytes.length))
      ∧ engine.ReadOk format disk .blob (holdings format docs blobs .blob address) address := by
  obtain ⟨bytes, physical, read⟩ := Fallible.bind_eq_ok.mp read
  obtain ⟨same, readOk⟩ := keeps.readOk lawful (readsFiles_bounded _ _ _) physical
  obtain rfl := Fallible.pure_eq_ok.mp read
  exact ⟨by rw [same, holdings], readOk⟩

/-! ## The touched part -/

/-- One more address read into the touched values keeps them faithful to the store. -/
theorem loadTouched_shows {α : Type} {whole : ExtTreeMap Address α} {maxBytes : Nat}
    {read : Address → Nat → Except Error (Option (α × Nat))} {size : α → Nat}
    {readOk : Address → Prop}
    (sound : ∀ a limit found, read a limit = .ok found
      → found = whole[a]?.map (fun value => (value, size value)) ∧ readOk a)
    {loaded next : ExtTreeMap Address α × Nat} {addresses : Address → Prop}
    (shows : Shows loaded.1 whole addresses)
    (step : loadTouched maxBytes read loaded address = .ok next)
    : Shows next.1 whole (fun a => addresses a ∨ a = address) ∧ readOk address := by
  obtain ⟨found, done, step⟩ := Fallible.bind_eq_ok.mp step
  obtain ⟨same, ok⟩ := sound address _ found done
  refine ⟨?_, ok⟩
  cases held : whole[address]? with
  | none =>
      obtain rfl : found = none := by simpa [held] using same
      cases step
      refine ⟨shows.within, ?_⟩
      rintro a (member | rfl)
      · exact shows.covers a member
      · rw [held]
        by_contra present
        obtain ⟨value, present⟩ := Option.ne_none_iff_exists'.mp present
        rw [shows.within _ _ present] at held
        cases held
  | some value =>
      obtain rfl : found = some (value, size value) := by simpa [held] using same
      cases step
      have inserted := shows.insert held
      refine ⟨inserted.within, ?_⟩
      rintro a (member | rfl)
      · exact inserted.covers a member
      · rw [held, ExtTreeMap.getElem?_insert_self]

/-- All addresses of a list read one after the other. Witness: induction on the list. -/
theorem foldlM_loadTouched_shows {α : Type} {whole : ExtTreeMap Address α} {maxBytes : Nat}
    {read : Address → Nat → Except Error (Option (α × Nat))} {size : α → Nat}
    {readOk : Address → Prop}
    (sound : ∀ a limit found, read a limit = .ok found
      → found = whole[a]?.map (fun value => (value, size value)) ∧ readOk a)
    {items : List Address} {loaded final : ExtTreeMap Address α × Nat}
    {addresses : Address → Prop} (shows : Shows loaded.1 whole addresses)
    (run : items.foldlM (loadTouched maxBytes read) loaded = .ok final)
    : Shows final.1 whole (fun a => addresses a ∨ a ∈ items) ∧ ∀ a ∈ items, readOk a := by
  induction items generalizing loaded addresses with
  | nil =>
      cases run
      exact ⟨⟨shows.within, fun a h => shows.covers a (by simpa using h)⟩, by simp⟩
  | cons item rest ih =>
      rw [List.foldlM_cons, Fallible.bind_eq_ok] at run
      obtain ⟨next, first, later⟩ := run
      obtain ⟨shown, ok⟩ := loadTouched_shows sound shows first
      obtain ⟨shown, others⟩ := ih shown later
      refine ⟨⟨shown.within, fun a h => shown.covers a ?_⟩, ?_⟩
      · rcases h with h | h
        · exact .inl (.inl h)
        · rcases List.mem_cons.mp h with rfl | h
          · exact .inl (.inr rfl)
          · exact .inr h
      · intro a member
        rcases List.mem_cons.mp member with rfl | member
        · exact ok
        · exact others a member

/-- Reading the keys under a prefix keeps the touched documents faithful. -/
theorem loadPrefix_shows (keeps : engine.KeepsState format disk docs blobs)
    (lawful : format.Lawful) {capacity : StoreCapacityBudget}
    {loaded final : ExtTreeMap Address Value × Nat} {prefixRead : Address}
    {addresses : Address → Prop} (shows : Shows loaded.1 docs addresses)
    (run : engine.loadPrefix format disk capacity loaded prefixRead = .ok final)
    : Shows final.1 docs addresses := by
  obtain ⟨keys, -, run⟩ := Fallible.bind_eq_ok.mp run
  refine Fallible.foldlM_invariant (fun loaded => Shows loaded.1 docs addresses) ?_ run shows
  intro loaded key next shows step
  split at step
  · cases step
    exact shows
  · have sound : ∀ a limit found,
        engine.getJsonValueUnlockedBounded format disk a limit = .ok found
        → found = docs[a]?.map (fun value => (value, (format.toVec value).length)) ∧ True :=
      fun a limit found read => ⟨(getJsonValueUnlockedBounded_ok keeps lawful read).1, trivial⟩
    have shown := (loadTouched_shows sound shows step).1
    exact ⟨shown.within, fun a h => shown.covers a (.inl h)⟩

theorem loadJson_ok (keeps : engine.KeepsState format disk docs blobs)
    (lawful : format.Lawful) {readSet : StoreTransactionReadSet}
    {capacity : StoreCapacityBudget} {json : ExtTreeMap Address Value}
    (run : engine.loadJson format disk readSet capacity = .ok json)
    : Shows json docs (· ∈ readSet.json)
      ∧ ∀ a ∈ readSet.json,
        engine.ReadOk format disk .json (holdings format docs blobs .json a) a := by
  obtain ⟨loaded, byAddress, run⟩ := Fallible.bind_eq_ok.mp run
  obtain ⟨final, byPrefix, result⟩ := Fallible.bind_eq_ok.mp run
  cases result
  have start : Shows (∅ : ExtTreeMap Address Value) docs (fun _ => False) :=
    ⟨OrderedMap.within_empty _, by simp⟩
  obtain ⟨shown, readOk⟩ := foldlM_loadTouched_shows
    (fun a limit found read =>
      have facts := getJsonValueUnlockedBounded_ok keeps lawful read
      ⟨facts.1, facts.2.1⟩) start byAddress
  refine ⟨?_, fun a member => readOk a (ExtTreeSet.mem_toList.mpr member)⟩
  refine Fallible.foldlM_invariant (fun loaded => Shows loaded.1 docs (· ∈ readSet.json))
    (fun _ _ _ shows step => loadPrefix_shows keeps lawful shows step) byPrefix ?_
  exact ⟨shown.within, fun a member => shown.covers a (.inr (ExtTreeSet.mem_toList.mpr member))⟩

theorem loadBlobs_ok (keeps : engine.KeepsState format disk docs blobs)
    (lawful : format.Lawful) {readSet : StoreTransactionReadSet}
    {capacity : StoreCapacityBudget} {touched : ExtTreeMap Address Bytes}
    (run : engine.loadBlobs format disk readSet capacity = .ok touched)
    : Shows touched blobs (· ∈ readSet.blobs)
      ∧ ∀ a ∈ readSet.blobs,
        engine.ReadOk format disk .blob (holdings format docs blobs .blob a) a := by
  obtain ⟨loaded, byAddress, result⟩ := Fallible.bind_eq_ok.mp run
  cases result
  have start : Shows (∅ : ExtTreeMap Address Bytes) blobs (fun _ => False) :=
    ⟨OrderedMap.within_empty _, by simp⟩
  obtain ⟨shown, readOk⟩ := foldlM_loadTouched_shows
    (fun a limit found read => getBlobUnlockedBounded_ok keeps lawful read) start byAddress
  exact ⟨⟨shown.within,
      fun a member => shown.covers a (.inr (ExtTreeSet.mem_toList.mpr member))⟩,
    fun a member => readOk a (ExtTreeSet.mem_toList.mpr member)⟩

/-! ## The context of an accepted plan -/

/-- What a commit has read from the disk when it plans. -/
structure LoadedFrom (engine : FileStoreEngine) (format : FileFormat Value) (disk : Disk)
    (docs : ExtTreeMap Address Value) (blobs : ExtTreeMap Address Bytes)
    (request : StoreTransactionRequest Value) (context : StoreTransactionContext Value)
    (prefixLen : Nat)
    : Prop where
  jsonShown : Shows context.touched.json docs (· ∈ request.readSet.json)
  blobsShown : Shows context.touched.blobs blobs (· ∈ request.readSet.blobs)
  jsonRead : ∀ a ∈ request.readSet.json,
    engine.ReadOk format disk .json (holdings format docs blobs .json a) a
  blobsRead : ∀ a ∈ request.readSet.blobs,
    engine.ReadOk format disk .blob (holdings format docs blobs .blob a) a
  noEvents : context.touched.events = []
  prefixLen : prefixLen = (disk.content eventsPath).length

theorem loadTransactionContext_ok (keeps : engine.KeepsState format disk docs blobs)
    (lawful : format.Lawful) {rules : OwnerRules Value}
    {request : StoreTransactionRequest Value} {capacity : StoreCapacityBudget}
    {context : StoreTransactionContext Value} {prefixLen : Nat}
    (run : engine.loadTransactionContext format rules request capacity disk
      = .ok (context, prefixLen))
    : engine.LoadedFrom format disk docs blobs request context prefixLen := by
  simp only [loadTransactionContext, Fallible.bind_eq_ok, Fallible.pure_eq_ok] at run
  obtain ⟨json, byAddress, expanded, expand, touchedBlobs, byBlob, ⟨count, existing, length⟩,
    usage, jsonEntries, -, blobEntries, -, blobBytes, -, result⟩ := run
  obtain ⟨events, -, result'⟩ := Fallible.bind_eq_ok.mp usage
  cases result'
  cases result
  obtain ⟨shown, jsonRead⟩ := loadJson_ok keeps lawful byAddress
  obtain ⟨shownBlobs, blobsRead⟩ := loadBlobs_ok keeps lawful byBlob
  have sound : ∀ a limit read,
      (do
        let found ← engine.getJsonValueUnlockedBounded format disk a limit
        pure (found.map Prod.fst) : Except Error (Option Value)) = .ok read
      → read = docs[a]? := by
    intro a limit read step
    obtain ⟨found, bounded, result⟩ := Fallible.bind_eq_ok.mp step
    cases result
    rw [(getJsonValueUnlockedBounded_ok keeps lawful bounded).1]
    cases docs[a]? <;> rfl
  exact {
    jsonShown := expandOwnerTransactionDependencies_shows sound expand shown
    blobsShown := shownBlobs
    jsonRead := jsonRead
    blobsRead := blobsRead
    noEvents := rfl
    prefixLen := rfl
  }

end FileStoreEngine

end BeetleMemory.Store
