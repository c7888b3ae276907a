import BeetleMemory.Store.File.CommitAtomicity

/-! Two logical keys of a lane can have the same physical files. What a successful commit
leaves readable then: a stored key is never overwritten by another one, but of two keys of
one request the later one takes the files.
-/

namespace BeetleMemory.Store

open Std FileSystem JsonText

variable {Value : Type}

/-! ## The value a plan ends with -/

/-- A document address that a mutation of the plan named is not changed by a later one, which
would be refused as a duplicate.
-/
theorem planMutation_json_settled {capacity : StoreCapacityBudget}
    {plan next : PlanState Value} {mutation : StoreEngineMutation Value} {address : Address}
    (ok : planMutation capacity plan mutation = .ok next) (named : address ∈ plan.mutatedJson)
    : next.next.json[address]? = plan.next.json[address]? ∧ address ∈ next.mutatedJson := by
  cases mutation with
  | putJson other _ | deleteJson other =>
      simp only [planMutation, rejectDuplicateMutation, Fallible.bind_eq_ok,
        Fallible.pure_eq_ok, require_eq_ok, OrderedMap.not_contains_iff] at ok
      obtain ⟨_, _, _, ⟨_, fresh, rfl⟩, rfl⟩ := ok
      have apart : other ≠ address := by
        rintro rfl
        exact fresh named
      simp [ExtTreeMap.getElem?_insert, ExtTreeMap.getElem?_erase, apart, named]
  | putBlob _ _ | deleteBlob _ | appendEvent _ =>
      simp only [planMutation, Fallible.bind_eq_ok, Fallible.pure_eq_ok] at ok
      obtain ⟨_, _, _, _, rfl⟩ := ok
      exact ⟨rfl, named⟩
  | deleteJsonIfPresent _ _ => simp [planMutation] at ok
  | deleteBlobIfPresent _ _ => simp [planMutation] at ok

theorem planMutation_blobs_settled {capacity : StoreCapacityBudget}
    {plan next : PlanState Value} {mutation : StoreEngineMutation Value} {address : Address}
    (ok : planMutation capacity plan mutation = .ok next) (named : address ∈ plan.mutatedBlobs)
    : next.next.blobs[address]? = plan.next.blobs[address]?
      ∧ address ∈ next.mutatedBlobs := by
  cases mutation with
  | putBlob other _ | deleteBlob other =>
      simp only [planMutation, rejectDuplicateMutation, Fallible.bind_eq_ok,
        Fallible.pure_eq_ok, require_eq_ok, OrderedMap.not_contains_iff] at ok
      obtain ⟨_, _, _, ⟨_, fresh, rfl⟩, rfl⟩ := ok
      have apart : other ≠ address := by
        rintro rfl
        exact fresh named
      simp [ExtTreeMap.getElem?_insert, ExtTreeMap.getElem?_erase, apart, named]
  | putJson _ _ | deleteJson _ | appendEvent _ =>
      simp only [planMutation, Fallible.bind_eq_ok, Fallible.pure_eq_ok] at ok
      obtain ⟨_, _, _, _, rfl⟩ := ok
      exact ⟨rfl, named⟩
  | deleteJsonIfPresent _ _ => simp [planMutation] at ok
  | deleteBlobIfPresent _ _ => simp [planMutation] at ok

/-- A fact that one mutation of the plan brings about and the later ones keep holds at the
end.
-/
theorem planMutations_after {capacity : StoreCapacityBudget} {P : PlanState Value → Prop}
    (step : ∀ plan mutation next, P plan → planMutation capacity plan mutation = .ok next
      → P next)
    {mutation : StoreEngineMutation Value}
    (brings : ∀ plan next, planMutation capacity plan mutation = .ok next → P next)
    {mutations : List (StoreEngineMutation Value)} (member : mutation ∈ mutations)
    {plan final : PlanState Value}
    (ok : mutations.foldlM (planMutation capacity) plan = .ok final)
    : P final := by
  obtain ⟨earlier, later, rfl⟩ := List.append_of_mem member
  rw [List.foldlM_append, Fallible.bind_eq_ok] at ok
  obtain ⟨middle, _, ok⟩ := ok
  rw [List.foldlM_cons, Fallible.bind_eq_ok] at ok
  obtain ⟨next, here, ok⟩ := ok
  exact Fallible.foldlM_invariant P step ok (brings _ _ here)

theorem planMutations_putJson {capacity : StoreCapacityBudget}
    {mutations : List (StoreEngineMutation Value)} {plan final : PlanState Value}
    {address : Address} {value : Value} (member : .putJson address value ∈ mutations)
    (ok : mutations.foldlM (planMutation capacity) plan = .ok final)
    : final.next.json[address]? = some value := by
  have settled := planMutations_after
    (P := fun plan => plan.next.json[address]? = some value ∧ address ∈ plan.mutatedJson)
    (fun plan _ next ⟨held, named⟩ first => by
      obtain ⟨same, named⟩ := planMutation_json_settled first named
      exact ⟨same.trans held, named⟩)
    (fun plan next here => by
      simp only [planMutation, rejectDuplicateMutation, Fallible.bind_eq_ok,
        Fallible.pure_eq_ok] at here
      obtain ⟨_, _, _, ⟨_, _, rfl⟩, rfl⟩ := here
      simp) member ok
  exact settled.1

theorem planMutations_putBlob {capacity : StoreCapacityBudget}
    {mutations : List (StoreEngineMutation Value)} {plan final : PlanState Value}
    {address : Address} {bytes : Bytes} (member : .putBlob address bytes ∈ mutations)
    (ok : mutations.foldlM (planMutation capacity) plan = .ok final)
    : final.next.blobs[address]? = some bytes := by
  have settled := planMutations_after
    (P := fun plan => plan.next.blobs[address]? = some bytes ∧ address ∈ plan.mutatedBlobs)
    (fun plan _ next ⟨held, named⟩ first => by
      obtain ⟨same, named⟩ := planMutation_blobs_settled first named
      exact ⟨same.trans held, named⟩)
    (fun plan next here => by
      simp only [planMutation, rejectDuplicateMutation, Fallible.bind_eq_ok,
        Fallible.pure_eq_ok] at here
      obtain ⟨_, _, _, ⟨_, _, rfl⟩, rfl⟩ := here
      simp) member ok
  exact settled.1

namespace FileStoreEngine

/-! ## Who holds a slot in the end -/

section TakeSlot

variable {α : Type} {engine : FileStoreEngine} {digest : KeyDigest} {lane : Lane}
  {entries : List (FileTransactionValue α)} {held : ExtTreeMap Address α} {address : Address}

/-- Entries of other slots leave a key alone. -/
theorem foldl_takeSlot_of_apart
    (apart : ∀ entry ∈ entries, ¬engine.SameSlot digest lane address entry.address)
    : (entries.foldl (engine.takeSlot digest lane) held)[address]? = held[address]? := by
  induction entries generalizing held with
  | nil => rfl
  | cons entry rest ih =>
      rw [List.foldl_cons, ih fun e member => apart e (List.mem_cons_of_mem _ member),
        takeSlot_getElem?, if_neg (apart entry List.mem_cons_self)]

/-- An entry of another key in the same slot removes a key that is not listed itself. -/
theorem foldl_takeSlot_of_taken
    (unlisted : ∀ entry ∈ entries, address ≠ entry.address)
    (taken : ∃ entry ∈ entries, engine.SameSlot digest lane address entry.address)
    : (entries.foldl (engine.takeSlot digest lane) held)[address]? = none := by
  induction entries generalizing held with
  | nil => simp at taken
  | cons entry rest ih =>
      have others : ∀ e ∈ rest, address ≠ e.address :=
        fun e member => unlisted e (List.mem_cons_of_mem _ member)
      rw [List.foldl_cons]
      by_cases later : ∃ e ∈ rest, engine.SameSlot digest lane address e.address
      · exact ih others later
      · have here : engine.SameSlot digest lane address entry.address := by
          obtain ⟨e, member, slot⟩ := taken
          rcases List.mem_cons.mp member with rfl | member
          · exact slot
          · exact absurd ⟨e, member, slot⟩ later
        rw [foldl_takeSlot_of_apart fun e member slot => later ⟨e, member, slot⟩,
          takeSlot_getElem?, if_pos here, if_neg (unlisted entry List.mem_cons_self)]

/-- A key that is not listed and whose slot, if it holds it, no entry has keeps its value. -/
theorem foldl_takeSlot_of_unlisted
    (unlisted : ∀ entry ∈ entries, address ≠ entry.address)
    (apart : held[address]? ≠ none
      → ∀ entry ∈ entries, ¬engine.SameSlot digest lane address entry.address)
    : (entries.foldl (engine.takeSlot digest lane) held)[address]? = held[address]? := by
  by_cases taken : ∃ entry ∈ entries, engine.SameSlot digest lane address entry.address
  · have absent : held[address]? = none := by
      by_contra holds
      obtain ⟨entry, member, slot⟩ := taken
      exact apart holds entry member slot
    rw [foldl_takeSlot_of_taken unlisted taken, absent]
  · exact foldl_takeSlot_of_apart fun entry member slot => taken ⟨entry, member, slot⟩

/-- An entry with a value keeps its slot exactly when no later address of the set, in the
order of addresses, has the same slot.
-/
theorem foldl_takeSlot_of_listed {addresses : ExtTreeSet Address}
    (listed : entries.map FileTransactionValue.address = addresses.toList)
    {value : α} (member : ⟨address, some value⟩ ∈ entries)
    : (entries.foldl (engine.takeSlot digest lane) held)[address]? = some value
      ↔ ∀ other ∈ addresses, compare address other = .lt
        → ¬engine.SameSlot digest lane address other := by
  obtain ⟨earlier, later, rfl⟩ := List.append_of_mem member
  have sorted := ExtTreeSet.ordered_toList (t := addresses)
  rw [← listed, List.map_append, List.map_cons, List.pairwise_append,
    List.pairwise_cons] at sorted
  obtain ⟨-, ⟨after, -⟩, before⟩ := sorted
  have taken : (engine.takeSlot digest lane (earlier.foldl (engine.takeSlot digest lane) held)
      ⟨address, some value⟩)[address]? = some value := by
    rw [takeSlot_getElem?, if_pos ⟨rfl, rfl⟩, if_pos rfl]
  rw [List.foldl_append, List.foldl_cons]
  constructor
  · intro kept other inSet greater slot
    rw [← ExtTreeSet.mem_toList, ← listed, List.map_append, List.map_cons] at inSet
    rcases List.mem_append.mp inSet with inEarlier | inLater
    · have less := before other inEarlier address List.mem_cons_self
      rw [OrientedOrd.eq_swap, less] at greater
      cases greater
    · rcases List.mem_cons.mp inLater with rfl | inLater
      · rw [compare_self] at greater
        cases greater
      · obtain ⟨entry, inList, rfl⟩ := List.mem_map.mp inLater
        rw [foldl_takeSlot_of_taken ?_ ⟨entry, inList, slot⟩] at kept
        · cases kept
        · rintro e inList rfl
          have less := after _ (List.mem_map_of_mem inList)
          rw [compare_self] at less
          cases less
  · intro apart
    rw [foldl_takeSlot_of_apart, taken]
    intro entry inLater
    refine apart _ ?_ (after _ (List.mem_map_of_mem inLater))
    rw [← ExtTreeSet.mem_toList, ← listed]
    exact List.mem_map_of_mem (List.mem_append_right _ (List.mem_cons_of_mem _ inLater))

end TakeSlot

/-! ## What is read after a commit -/

section Reading

variable [DecidableEq Value] {engine : FileStoreEngine} {format : FileFormat Value}
  {disk : Disk} {docs : ExtTreeMap Address Value} {blobs : ExtTreeMap Address Bytes}
  {address : Address}

/-- A document is read exactly when it is kept under a readable index. -/
theorem getJsonValueUnlocked_eq_some (keeps : engine.KeepsState format disk docs blobs)
    (lawful : format.Lawful) {value : Value}
    : engine.getJsonValueUnlocked format disk address = .ok (some value)
      ↔ docs[address]? = some value ∧ engine.IndexFits format address.key := by
  constructor
  · intro read
    obtain ⟨found, physical, decoded⟩ := Fallible.bind_eq_ok.mp read
    obtain ⟨held, fits, -⟩ :=
      keeps.readPhysical_ok lawful (readsFiles_whole disk) physical
    cases found with
    | none => cases decoded
    | some bytes =>
        obtain ⟨stored, holds, rfl⟩ := Option.map_eq_some_iff.mp held.symm
        refine ⟨?_, fits _ rfl⟩
        simp [lawful.fromSlice_toVecPretty, atStage, Functor.map, Except.map] at decoded
        rw [holds, decoded]
  · rintro ⟨held, fits⟩
    have holds : holdings format docs blobs .json address
        = some (format.toVecPretty value) := by simp [holdings, held]
    have readOk : engine.ReadOk format disk .json (holdings format docs blobs .json address)
        address := ⟨keeps.paths holds, by simp [holds], fun _ => fits⟩
    rw [readOk.documentAt keeps lawful, held]

theorem getBlobUnlocked_eq_some (keeps : engine.KeepsState format disk docs blobs)
    (lawful : format.Lawful) {bytes : Bytes}
    : engine.getBlobUnlocked format disk address = .ok (some bytes)
      ↔ blobs[address]? = some bytes ∧ engine.IndexFits format address.key := by
  constructor
  · intro read
    obtain ⟨held, fits, -⟩ := keeps.readPhysical_ok lawful (readsFiles_whole disk) read
    exact ⟨held.symm, fits _ rfl⟩
  · rintro ⟨held, fits⟩
    have holds : holdings format docs blobs .blob address = some bytes := held
    have readOk : engine.ReadOk format disk .blob (holdings format docs blobs .blob address)
        address := ⟨keeps.paths holds, by simp [holds], fun _ => fits⟩
    rw [readOk.blobAt keeps lawful, held]

/-- A key that was read does not have the slot of another key that is kept. -/
theorem ReadOk.apart_of_kept {lane : Lane} {other : Address}
    (read : engine.ReadOk format disk lane (holdings format docs blobs lane other) other)
    (keeps : engine.KeepsState format disk docs blobs) (lawful : format.Lawful) {bytes : Bytes}
    (holds : holdings format docs blobs lane address = some bytes) (distinct : address ≠ other)
    : ¬engine.SameSlot format.keyDigest lane address other := by
  intro slot
  cases held : holdings format docs blobs lane other with
  | none =>
      have free := read.free held
      rw [← layout_dataPath_eq_iff.mpr ⟨rfl, slot⟩, keeps.data holds] at free
      cases free
  | some bytes' => exact distinct (keeps.distinct lawful holds held slot)

end Reading

section Commit

variable [DecidableEq Value] {engine : FileStoreEngine} {format : FileFormat Value}
  {rules : OwnerRules Value} {disk : Disk} {docs : ExtTreeMap Address Value}
  {blobs : ExtTreeMap Address Bytes} {request : StoreTransactionRequest Value}
  {admission : StoreTransactionAdmission} {nowSecs : Nat} {planned : PlannedCommit Value}

theorem planTransaction_putJson (keeps : engine.KeepsState format disk docs blobs)
    (lawful : format.Lawful)
    (ok : engine.planTransaction format rules request admission nowSecs disk = .ok planned)
    {address : Address} {value : Value} (put : .putJson address value ∈ request.mutations)
    : ⟨address, some value⟩ ∈ planned.journal.after.json := by
  obtain ⟨context, plan, final, loaded, facts, journal, -⟩ :=
    planTransaction_ok keeps lawful ok
  have effective : .putJson address value ∈ materializeConditionalMutations format.toEncoding
      request.mutations context.touched :=
    List.mem_flatMap.mpr ⟨_, put, by simp [materializeMutation]⟩
  have listed : address ∈ request.readSet.json := request.coversJsonMutations _ put _ rfl
  rw [journal]
  refine List.mem_map.mpr ⟨address, ExtTreeSet.mem_toList.mpr listed, ?_⟩
  rw [facts.nextTouched, planMutations_putJson effective facts.mutations]

theorem planTransaction_putBlob (keeps : engine.KeepsState format disk docs blobs)
    (lawful : format.Lawful)
    (ok : engine.planTransaction format rules request admission nowSecs disk = .ok planned)
    {address : Address} {bytes : Bytes} (put : .putBlob address bytes ∈ request.mutations)
    : ⟨address, some bytes⟩ ∈ planned.journal.after.blobs := by
  obtain ⟨context, plan, final, loaded, facts, journal, -⟩ :=
    planTransaction_ok keeps lawful ok
  have effective : .putBlob address bytes ∈ materializeConditionalMutations format.toEncoding
      request.mutations context.touched :=
    List.mem_flatMap.mpr ⟨_, put, by simp [materializeMutation]⟩
  have listed : address ∈ request.readSet.blobs := request.coversBlobMutations _ put _ rfl
  rw [journal]
  refine List.mem_map.mpr ⟨address, ExtTreeSet.mem_toList.mpr listed, ?_⟩
  rw [facts.nextTouched, planMutations_putBlob effective facts.mutations]

/-- The index of a key can be read, and no address of the set after it has its slot. -/
def KeepsSlot (engine : FileStoreEngine) (format : FileFormat Value) (lane : Lane)
    (addresses : ExtTreeSet Address) (address : Address)
    : Prop :=
  engine.IndexFits format address.key
  ∧ ∀ other ∈ addresses, compare address other = .lt
    → ¬engine.SameSlot format.keyDigest lane address other

/-- What a commit without silent collisions leaves: every document and blob put reads back as
it was put, a key outside the request reads a value exactly when it read it before, and no
key put has the slot of another key that is put or stored.
-/
structure NoSilentCollision (engine : FileStoreEngine) (format : FileFormat Value)
    (request : StoreTransactionRequest Value) (before after : Disk)
    : Prop where
  putJson : ∀ a value, .putJson a value ∈ request.mutations
    → engine.getJsonValueUnlocked format after a = .ok (some value)
  putBlob : ∀ a bytes, .putBlob a bytes ∈ request.mutations
    → engine.getBlobUnlocked format after a = .ok (some bytes)
  otherJson : ∀ a, a ∉ request.readSet.json → ∀ value,
    engine.getJsonValueUnlocked format after a = .ok (some value)
      ↔ engine.getJsonValueUnlocked format before a = .ok (some value)
  otherBlobs : ∀ a, a ∉ request.readSet.blobs → ∀ bytes,
    engine.getBlobUnlocked format after a = .ok (some bytes)
      ↔ engine.getBlobUnlocked format before a = .ok (some bytes)
  jsonApart : ∀ a value, .putJson a value ∈ request.mutations → ∀ b ≠ a,
    (∃ other, .putJson b other ∈ request.mutations
      ∨ engine.getJsonValueUnlocked format before b = .ok (some other))
    → ¬engine.SameSlot format.keyDigest .json a b
  blobsApart : ∀ a bytes, .putBlob a bytes ∈ request.mutations → ∀ b ≠ a,
    (∃ other, .putBlob b other ∈ request.mutations
      ∨ engine.getBlobUnlocked format before b = .ok (some other))
    → ¬engine.SameSlot format.keyDigest .blob a b

/-- A document that was put is read back exactly when its key keeps its slot. -/
theorem Commits.putJson_reads_back_iff {readSet : StoreTransactionReadSet}
    {events : List MemoryStoreEvent} (keeps : engine.KeepsState format disk docs blobs)
    (lawful : format.Lawful)
    (commits : engine.Commits format disk docs blobs readSet events planned.journal)
    {address : Address} {value : Value}
    (listed : ⟨address, some value⟩ ∈ planned.journal.after.json)
    : engine.getJsonValueUnlocked format
        (run disk (engine.commitScript format planned).effects) address = .ok (some value)
      ↔ engine.KeepsSlot format .json readSet.json address := by
  rw [getJsonValueUnlocked_eq_some (commits.keeps keeps) lawful, imageDocs,
    foldl_takeSlot_of_listed commits.journaled.afterJson listed, KeepsSlot, and_comm]

theorem Commits.putBlob_reads_back_iff {readSet : StoreTransactionReadSet}
    {events : List MemoryStoreEvent} (keeps : engine.KeepsState format disk docs blobs)
    (lawful : format.Lawful)
    (commits : engine.Commits format disk docs blobs readSet events planned.journal)
    {address : Address} {bytes : Bytes}
    (listed : ⟨address, some bytes⟩ ∈ planned.journal.after.blobs)
    : engine.getBlobUnlocked format
        (run disk (engine.commitScript format planned).effects) address = .ok (some bytes)
      ↔ engine.KeepsSlot format .blob readSet.blobs address := by
  rw [getBlobUnlocked_eq_some (commits.keeps keeps) lawful, imageBlobs,
    foldl_takeSlot_of_listed commits.journaled.afterBlobs listed, KeepsSlot, and_comm]

theorem Commits.docs_of_unmentioned {readSet : StoreTransactionReadSet}
    {events : List MemoryStoreEvent} (keeps : engine.KeepsState format disk docs blobs)
    (lawful : format.Lawful)
    (commits : engine.Commits format disk docs blobs readSet events planned.journal)
    {address : Address} (unmentioned : address ∉ readSet.json)
    : (engine.imageDocs format.keyDigest docs planned.journal.after)[address]?
      = docs[address]? := by
  have member : ∀ entry ∈ planned.journal.after.json, entry.address ∈ readSet.json :=
    fun _ => commits.covers_after.mem_json
  refine foldl_takeSlot_of_unlisted ?_ ?_
  · rintro entry inImage rfl
    exact unmentioned (member entry inImage)
  · intro present entry inImage
    obtain ⟨value, held⟩ := Option.ne_none_iff_exists'.mp present
    have holds : holdings format docs blobs .json address
        = some (format.toVecPretty value) := by simp [holdings, held]
    refine (commits.jsonRead _ (member entry inImage)).apart_of_kept keeps lawful holds ?_
    rintro rfl
    exact unmentioned (member entry inImage)

theorem Commits.blobs_of_unmentioned {readSet : StoreTransactionReadSet}
    {events : List MemoryStoreEvent} (keeps : engine.KeepsState format disk docs blobs)
    (lawful : format.Lawful)
    (commits : engine.Commits format disk docs blobs readSet events planned.journal)
    {address : Address} (unmentioned : address ∉ readSet.blobs)
    : (engine.imageBlobs format.keyDigest blobs planned.journal.after)[address]?
      = blobs[address]? := by
  have member : ∀ entry ∈ planned.journal.after.blobs, entry.address ∈ readSet.blobs :=
    fun _ => commits.covers_after.mem_blobs
  refine foldl_takeSlot_of_unlisted ?_ ?_
  · rintro entry inImage rfl
    exact unmentioned (member entry inImage)
  · intro present entry inImage
    obtain ⟨bytes, holds⟩ := Option.ne_none_iff_exists'.mp present
    refine (commits.blobsRead _ (member entry inImage)).apart_of_kept keeps lawful holds ?_
    rintro rfl
    exact unmentioned (member entry inImage)

omit [DecidableEq Value] in
/-- Of two addresses with one slot, at most one keeps it. -/
theorem KeepsSlot.apart {lane : Lane} {addresses : ExtTreeSet Address} {a b : Address}
    (keepsA : engine.KeepsSlot format lane addresses a) (inA : a ∈ addresses)
    (keepsB : engine.KeepsSlot format lane addresses b) (inB : b ∈ addresses)
    (distinct : b ≠ a)
    : ¬engine.SameSlot format.keyDigest lane a b := by
  intro slot
  cases order : compare a b with
  | lt => exact keepsA.2 b inB order slot
  | eq => exact distinct (Std.compare_eq_iff_eq.mp order).symm
  | gt =>
      refine keepsB.2 a inA ?_ ⟨slot.1.symm, slot.2.symm⟩
      rw [OrientedOrd.eq_swap, order]
      rfl

/-- A document put by a successful commit is read back exactly when its key keeps its
slot.
-/
theorem commit_putJson_reads_back_iff (lawful : format.Lawful)
    (reached : engine.Reached format rules disk) {report : StoreTransactionReport}
    (ok : (engine.commitTransactionAdmitted format rules request admission nowSecs
      disk).result = .ok report)
    {address : Address} {value : Value} (put : .putJson address value ∈ request.mutations)
    : engine.getJsonValueUnlocked format
        (run disk (engine.commitTransactionAdmitted format rules request admission nowSecs
          disk).effects) address = .ok (some value)
      ↔ engine.KeepsSlot format .json request.readSet.json address := by
  obtain ⟨⟨docs, blobs, keeps⟩, noJournal⟩ := reached.keeps lawful
  obtain ⟨planned, accepted, effects⟩ := commitScript_result noJournal ok
  obtain ⟨events, commits⟩ := planTransaction_commits keeps lawful accepted
  rw [effects]
  exact commits.putJson_reads_back_iff keeps lawful
    (planTransaction_putJson keeps lawful accepted put)

end Commit

end FileStoreEngine

/-! ## Two new keys in one slot -/

instance {engine : FileStoreEngine} {format : FileFormat Value} {key : String}
    : Decidable (engine.IndexFits format key) :=
  inferInstanceAs (Decidable (_ ≤ _))

theorem mem_putRequest_blobs {document : Json} {address : Address}
    (member : address ∈ (putRequest document).readSet.blobs)
    : address = ⟨"files", "x"⟩ := by
  have listed : (putRequest document).readSet.blobs.toList = [⟨"files", "x"⟩] := rfl
  rwa [← ExtTreeSet.mem_toList, listed, List.mem_singleton] at member

/-- Every key of a namespace gets the same digest. -/
def constantDigest : KeyDigest := fun _ _ _ digits =>
  String.ofList (List.replicate digits '0')

def collidingFormat : FileFormat Json :=
  jsonFormat journalDigests (fun _ => "") constantDigest

def twoKeysRequest : StoreTransactionRequest Json :=
  .new "t" [] [.putJson ⟨"notes", "a"⟩ (.bool true), .putJson ⟨"notes", "b"⟩ (.bool false)]

end BeetleMemory.Store
