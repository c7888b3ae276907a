import BeetleMemory.Store.File.Collisions
import BeetleMemory.Store.File.Swept
import BeetleMemory.Store.SerialHistory

/-! Whole histories of a file store in which commits complete, fail, or are cut by a crash and
recovered, however often the recovery is cut as well. What such a store holds in the end is what
the requests that took effect mean, one after the other.
-/

namespace BeetleMemory.Store

open Std FileSystem

variable {Value : Type}

namespace FileStoreEngine

/-! ## What a commit means -/

/-- The keys a request reads lie in slots of their own. -/
structure SlotsApart (engine : FileStoreEngine) (digest : KeyDigest)
    (readSet : StoreTransactionReadSet)
    : Prop where
  json : ∀ a ∈ readSet.json, ∀ b ∈ readSet.json, engine.SameSlot digest .json a b → a = b
  blobs : ∀ a ∈ readSet.blobs, ∀ b ∈ readSet.blobs, engine.SameSlot digest .blob a b → a = b

variable {engine : FileStoreEngine} {format : FileFormat Value} {disk origin : Disk}
  {docs : ExtTreeMap Address Value} {blobs : ExtTreeMap Address Bytes}
  {readSet : StoreTransactionReadSet} {events : List MemoryStoreEvent}
  {planned : PlannedCommit Value}

/-- Entries in slots of their own hold what they say, and a key that is not listed keeps what it
holds if no listed key has its slot.
-/
theorem foldl_takeSlot_eq {α : Type} {lane : Lane} {addresses : ExtTreeSet Address}
    {held after : ExtTreeMap Address α} {next : Address → Option α}
    (apart : ∀ a ∈ addresses, ∀ b ∈ addresses, engine.SameSlot format.keyDigest lane a b → a = b)
    (free : ∀ a ∉ addresses, held[a]? ≠ none
      → ∀ b ∈ addresses, ¬engine.SameSlot format.keyDigest lane a b)
    (listed : ∀ a ∈ addresses, next a = after[a]?)
    (others : ∀ a ∉ addresses, held[a]? = after[a]?)
    : (addresses.toList.map fun a => (⟨a, next a⟩ : FileTransactionValue α)).foldl
        (engine.takeSlot format.keyDigest lane) held = after := by
  have entries : (addresses.toList.map fun a => (⟨a, next a⟩ : FileTransactionValue α)).map
      FileTransactionValue.address = addresses.toList := by
    simp [Function.comp_def]
  refine ExtTreeMap.ext_getElem? fun a => ?_
  by_cases member : a ∈ addresses
  · have last := lastInSlot_of_distinct entries apart
      (List.mem_map_of_mem (ExtTreeSet.mem_toList.mpr member))
    obtain ⟨earlier, later, whole, free⟩ := last
    rw [whole, List.foldl_append, List.foldl_cons, foldl_takeSlot_of_apart free,
      takeSlot_getElem?, if_pos ⟨rfl, rfl⟩, if_pos rfl, listed a member]
  · rw [foldl_takeSlot_of_unlisted, others a member]
    · rintro entry inList rfl
      obtain ⟨b, inSet, rfl⟩ := List.mem_map.mp inList
      exact member (ExtTreeSet.mem_toList.mp inSet)
    · intro holds entry inList
      obtain ⟨b, inSet, rfl⟩ := List.mem_map.mp inList
      exact free a member holds b (ExtTreeSet.mem_toList.mp inSet)

theorem foldl_mutateTouched_events (mutations : List (StoreEngineMutation Value))
    (touched : BackendTransactionState Value)
    : (mutations.foldl mutateTouched touched).events
      = touched.events ++ appendedEvents mutations := by
  induction mutations generalizing touched with
  | nil => simp [appendedEvents]
  | cons mutation rest ih =>
      rw [List.foldl_cons, ih]
      cases mutation <;> simp [mutateTouched, appendedEvents]

/-! ## Crashes of a disk with scratch files -/

theorem disturbed_swept (engine : FileStoreEngine) (format : FileFormat Value)
    (readSet : StoreTransactionReadSet) (disk : Disk)
    : engine.Disturbed format readSet (swept disk) disk where
  bystanders _ bystander := (swept_files_of_visible bystander.2.1).symm
  log := by rw [swept_content_eventsPath]

/-- Every cut short of the end is a crash point of the swept disk. -/
theorem Commits.crashPoint_of_swept (noLegacy : NoLegacy (swept disk))
    (idle : disk.files[transactionMarkerPath]? = none)
    (commits : engine.Commits format (swept disk) docs blobs readSet events planned.journal)
    {cut : Nat} (short : cut < (engine.commitScript format planned).effects.length)
    : engine.CrashPoint format readSet events (swept disk) planned.journal
        (engine.crashedAt format disk planned cut) := by
  have confined := writeTransactionJournal_confined format planned.journal
  rw [crashedAt]
  rw [commits.effects, ← List.append_assoc (engine.restoreEffects format _)] at short ⊢
  by_cases unprepared : cut < (writeTransactionJournal format planned.journal).length
  · rw [List.take_append_of_le_length unprepared.le]
    refine .unprepared ((atomicWrite_cut _ (by decide) disk unprepared).trans idle)
      ⟨fun path notMarker scratch _ => ?_, ?_⟩
    · rw [confined.run_take disk cut, swept_files_of_visible scratch]
      rintro (rfl | rfl)
      · exact notMarker rfl
      · exact scratch rfl
    · rw [swept_content_eventsPath, Disk.content, confined.run_take disk cut (by decide),
        Disk.content]
  · have prepared := (disturbed_swept engine format readSet disk).cut_journal noLegacy confined
      (writeTransactionJournal format planned.journal).length
    rw [List.take_length] at prepared
    simp only [List.length_append, List.length_singleton] at short
    rw [List.take_append, run_append, List.take_of_length_le (by omega),
      List.take_append_of_le_length (by simp only [List.length_append]; omega)]
    exact commits.crashPoint_of_prepared noLegacy (writeTransactionJournal_run _ disk) prepared _

/-- The whole commit restores the after image over the swept disk. -/
theorem Commits.done_of_swept (noLegacy : NoLegacy (swept disk))
    (commits : engine.Commits format (swept disk) docs blobs readSet events planned.journal)
    : (run disk (engine.commitScript format planned).effects).files[transactionMarkerPath]? = none
      ∧ engine.Restored format readSet (swept disk) planned.journal.after events
        (run disk (engine.commitScript format planned).effects) := by
  have start := (disturbed_swept engine format readSet disk).cut_journal noLegacy
    (writeTransactionJournal_confined format planned.journal)
    (writeTransactionJournal format planned.journal).length
  rw [List.take_length] at start
  have restored := start.restore noLegacy commits.covers_after commits.journaled.afterEvents
  rw [commits.effects, run_append, run_append, run_append]
  refine ⟨by simp [Effect.apply], ?_⟩
  exact (restored.journal (writeTransactionJournal_confined format _)).journal
    removeMarker_confined

/-- A recovery that runs to its end has restored its image and removed the journal. -/
theorem Recoverable.restores {text : Bytes} {image : FileTransactionImage Value}
    (r : engine.Recoverable format readSet origin text image events)
    (h : engine.Recovering format readSet origin text image events disk)
    : (run disk (engine.recoverTransactionIfNeeded format disk).effects).files[
          transactionMarkerPath]? = none
      ∧ engine.Restored format readSet origin image events
        (run disk (engine.recoverTransactionIfNeeded format disk).effects) := by
  rcases h with ⟨written, disturbed⟩ | ⟨missing, restored⟩
  · rw [r.recovers disk written, FileScript.issue, run_append]
    exact ⟨by simp [Effect.apply],
      (disturbed.restore r.noLegacy r.covers r.log).journal removeMarker_confined⟩
  · rw [recover_idle missing]
    exact ⟨missing, restored⟩

/-- The journal of the cut commit is marked committed. -/
def markedAt (engine : FileStoreEngine) (format : FileFormat Value) (disk : Disk)
    (planned : PlannedCommit Value) (cut : Nat)
    : Bool :=
  (engine.crashedAt format disk planned cut).files[transactionMarkerPath]?
    = some (format.journalToVec (planned.journal.markCommitted format))

theorem Commits.markedAt_last
    (commits : engine.Commits format origin docs blobs readSet events planned.journal) (disk : Disk)
    : engine.markedAt format disk planned
      ((engine.commitScript format planned).effects.length - 1) = true := by
  rw [markedAt, crashedAt, ← List.dropLast_eq_take, commits.effects, ← List.append_assoc,
    ← List.append_assoc, List.dropLast_concat, run_append, writeTransactionJournal_run]
  simp

/-! ## Histories -/

section Requests

variable [DecidableEq Value] {rules : OwnerRules Value} {request : StoreTransactionRequest Value}
  {admission : StoreTransactionAdmission} {nowSecs : Nat} {state : InMemoryStoreEngineState Value}

/-- The images of an accepted commit on a disk that keeps a state make of it what the request
means.
-/
theorem planTransaction_means (lawful : format.Lawful)
    (keeps : engine.KeepsState format disk state.json state.blobs)
    (apart : engine.SlotsApart format.keyDigest request.readSet)
    (ok : engine.planTransaction format rules request admission nowSecs disk = .ok planned)
    : ∃ events, engine.Commits format disk state.json state.blobs request.readSet events
          planned.journal
        ∧ engine.imageDocs format.keyDigest state.json planned.journal.after
          = (meaning format.toEncoding state [request]).json
        ∧ engine.imageBlobs format.keyDigest state.blobs planned.journal.after
          = (meaning format.toEncoding state [request]).blobs
        ∧ (meaning format.toEncoding state [request]).events = state.events ++ events := by
  obtain ⟨context, plan, final, loaded, facts, journal, -⟩ := planTransaction_ok keeps lawful ok
  obtain ⟨written, commits⟩ := planTransaction_commits keeps lawful ok
  obtain rfl : appendedEvents plan.effectiveMutations = written := by
    have logs := commits.journaled.afterEvents
    rw [journal] at logs
    exact (FileTransactionEventsImage.append.inj logs).2
  -- the plan, carried out on the whole state, is what the request means there
  have start : Simulates (ReadAt context.touched.json state.json)
      (ReadAt context.touched.blobs state.blobs) state
      ⟨context.touched, ∅, ∅, [], context.existingEventIds, ∅, ∅⟩ state :=
    ⟨loaded.jsonShown.within.part.edit, loaded.blobsShown.within.part.edit,
      by simp [loaded.noEvents], by simp [loaded.noEvents], by simp⟩
  obtain ⟨after, applied, simulated⟩ := start.run
    (fun m member => (materializeConditionalMutations_covered m member).mono
      loaded.jsonShown.covers loaded.blobsShown.covers) facts.mutations
  rw [materializeConditionalMutations_applied fun m member =>
    ⟨fun a named => loaded.jsonShown.covers a (request.coversJsonMutations m member a named),
      fun a named => loaded.blobsShown.covers a (request.coversBlobMutations m member a named)⟩]
    at applied
  obtain rfl : meaning format.toEncoding state [request] = after := (Prod.mk.inj applied).1
  refine ⟨_, commits, ?_, ?_, ?_⟩
  · rw [journal]
    refine foldl_takeSlot_eq apart.json (fun a unlisted held b member => ?_) (fun a member => ?_)
      fun a unlisted => ?_
    · obtain ⟨value, holds⟩ := Option.ne_none_iff_exists'.mp held
      have kept : holdings format state.json state.blobs .json a
          = some (format.toVecPretty value) := by simp [holdings, holds]
      exact (loaded.jsonRead b member).apart_of_kept keeps lawful kept
        fun same => unlisted (same ▸ member)
    · rw [facts.nextTouched]
      exact simulated.json.part.agree a (loaded.jsonShown.covers a member)
    · refine (foldl_mutate_json_frame fun m member named => unlisted ?_).symm
      exact request.coversJsonMutations m member a named
  · rw [journal]
    refine foldl_takeSlot_eq apart.blobs (fun a unlisted held b member => ?_) (fun a member => ?_)
      fun a unlisted => ?_
    · obtain ⟨bytes, kept⟩ := Option.ne_none_iff_exists'.mp held
      exact (loaded.blobsRead b member).apart_of_kept keeps lawful kept
        fun same => unlisted (same ▸ member)
    · rw [facts.nextTouched]
      exact simulated.blobs.part.agree a (loaded.blobsShown.covers a member)
    · refine (foldl_mutate_blobs_frame fun m member named => unlisted ?_).symm
      exact request.coversBlobMutations m member a named
  · rw [simulated.events, planMutations_next facts.mutations, foldl_mutateTouched_events,
      loaded.noEvents, List.nil_append, facts.effective]

/-- The disk, scratch files apart, keeps the documents and blobs of the state, its log has the
events of the state, and no commit is under way.
-/
structure Represents (engine : FileStoreEngine) (format : FileFormat Value) (disk : Disk)
    (state : InMemoryStoreEngineState Value)
    : Prop where
  keeps : engine.KeepsState format (swept disk) state.json state.blobs
  log : disk.content eventsPath = state.events.flatMap (eventLine format)
  idle : disk.files[transactionMarkerPath]? = none

/-- An accepted commit of a represented state: a disk with its after image represents what the
request means, and one that is the same store as before still represents the state.
-/
theorem Represents.plan (lawful : format.Lawful) (represents : engine.Represents format disk state)
    (apart : engine.SlotsApart format.keyDigest request.readSet)
    (ok : engine.planTransaction format rules request admission nowSecs disk = .ok planned)
    : ∃ events, engine.Commits format (swept disk) state.json state.blobs request.readSet events
          planned.journal
        ∧ (∀ later : Disk, later.files[transactionMarkerPath]? = none
          → engine.Restored format request.readSet (swept disk) planned.journal.after events later
          → engine.Represents format later (meaning format.toEncoding state [request]))
        ∧ ∀ later : Disk, later.files[transactionMarkerPath]? = none
          → SameStore later (swept disk) → engine.Represents format later state := by
  rw [← planTransaction_swept] at ok
  obtain ⟨events, commits, json, blobs, log⟩ :=
    planTransaction_means lawful represents.keeps apart ok
  have before : (swept disk).content eventsPath = state.events.flatMap (eventLine format) :=
    (swept_content_eventsPath disk).trans represents.log
  refine ⟨events, commits, fun later idle restored => ⟨?_, ?_, idle⟩,
    fun later idle same => ⟨represents.keeps.swept_of_same same, same.log.trans before, idle⟩⟩
  · have whole := commits.keeps represents.keeps
    rw [json, blobs] at whole
    exact whole.swept_of_same (restored.same (commits.done represents.keeps.noLegacy).2)
  · rw [restored.log, before, log, List.flatMap_append]

/-- Recovery can read the journal back as it is. -/
structure Readable (engine : FileStoreEngine) (format : FileFormat Value)
    (journal : FileTransactionJournal Value)
    : Prop where
  fits : engine.JournalFits format journal
  before : NullFree format journal.before
  after : NullFree format journal.after

/-- The histories of a store and the requests that took effect in them. A commit is refused,
completes, or is cut somewhere and then recovered, where the recovery may be cut any number of
times before it completes. A cut commit takes effect once its journal is marked committed.
-/
inductive History (engine : FileStoreEngine) (format : FileFormat Value) (rules : OwnerRules Value)
    : List (StoreTransactionRequest Value) → Disk → Prop where
  | opened (manifest : Bytes) : History engine format rules [] (openedDisk manifest)
  | refused {requests disk request admission nowSecs commit error}
      (earlier : History engine format rules requests disk)
      (called : engine.commitTransactionAdmitted format rules request admission nowSecs disk
        = commit) (failed : commit.result = .error error)
    : History engine format rules requests (run disk commit.effects)
  | completed {requests disk request admission nowSecs commit report}
      (earlier : History engine format rules requests disk)
      (apart : engine.SlotsApart format.keyDigest request.readSet)
      (called : engine.commitTransactionAdmitted format rules request admission nowSecs disk
        = commit) (ok : commit.result = .ok report)
    : History engine format rules (requests ++ [request]) (run disk commit.effects)
  | crashed {requests disk request admission nowSecs planned cut later}
      (earlier : History engine format rules requests disk)
      (apart : engine.SlotsApart format.keyDigest request.readSet)
      (accepted : engine.planTransaction format rules request admission nowSecs disk = .ok planned)
      (readable : engine.Readable format planned.journal)
      (short : cut < (engine.commitScript format planned).effects.length)
      (interrupted : engine.Interrupted format (engine.crashedAt format disk planned cut) later)
    : History engine format rules
        (requests ++ if engine.markedAt format disk planned cut then [request] else [])
        (run later (engine.recoverTransactionIfNeeded format later).effects)

/-- What a crash and its recoveries leave represents the state before the commit, or what the
request means once the journal is marked committed. The cases are the crash points.
-/
theorem Represents.crash {later : Disk} {cut : Nat} (lawful : format.Lawful)
    (represents : engine.Represents format disk state)
    (apart : engine.SlotsApart format.keyDigest request.readSet)
    (accepted : engine.planTransaction format rules request admission nowSecs disk = .ok planned)
    (readable : engine.Readable format planned.journal)
    (short : cut < (engine.commitScript format planned).effects.length)
    (interrupted : engine.Interrupted format (engine.crashedAt format disk planned cut) later)
    : engine.Represents format (run later (engine.recoverTransactionIfNeeded format later).effects)
        (meaning format.toEncoding state
          (if engine.markedAt format disk planned cut then [request] else [])) := by
  obtain ⟨events, commits, forward, back⟩ := represents.plan lawful apart accepted
  have noLegacy := represents.keeps.noLegacy
  cases commits.crashPoint_of_swept noLegacy represents.idle short with
  | unprepared missing same =>
      rw [if_neg (by simp [markedAt, missing]), interrupted.idle missing, recover_idle missing]
      exact back _ missing same
  | prepared written disturbed =>
      have differ := journalToVec_markCommitted_ne lawful commits.prepared
      have r := commits.recoverable_prepared lawful noLegacy readable.fits readable.before
      obtain ⟨idle, restored⟩ :=
        r.restores (r.interrupted (.inl ⟨written, disturbed⟩) interrupted)
      rw [if_neg (by simp [markedAt, written, differ])]
      exact back _ idle (restored.original commits.covers_before fun write member visible =>
        commits.before_true represents.keeps member visible)
  | committed written disturbed =>
      have r := commits.recoverable_committed lawful noLegacy readable.fits readable.after
      obtain ⟨idle, restored⟩ :=
        r.restores (r.interrupted (.inl ⟨written, disturbed⟩) interrupted)
      rw [if_pos (by simp [markedAt, written])]
      exact forward _ idle restored

/-- Every history represents what the requests that took effect mean, by induction on it. -/
theorem History.represents (lawful : format.Lawful)
    {requests : List (StoreTransactionRequest Value)}
    (history : engine.History format rules requests disk)
    : engine.Represents format disk (meaning format.toEncoding .empty requests) := by
  induction history with
  | opened manifest =>
      have log : (openedDisk manifest).files[eventsPath]? = none := by simp [openedDisk]; decide
      exact ⟨(openedDisk_keeps manifest).swept_of_same ⟨fun _ _ _ _ => rfl, rfl⟩,
        by simp [Disk.content, log, meaning, InMemoryStoreEngineState.empty],
        by simp [openedDisk]; decide⟩
  | refused _ called failed ih =>
      subst called
      unfold commitTransactionAdmitted at failed ⊢
      rw [recover_idle ih.idle] at failed ⊢
      simp only [FileScript.issue, FileScript.andThen, run_nil, List.nil_append] at failed ⊢
      split at failed
      · simpa using ih
      · next planned plan =>
          rw [← planTransaction_swept] at plan
          obtain ⟨_, commits⟩ := planTransaction_commits ih.keeps lawful plan
          have addressed := commits.addressed commits.journaled.afterJson
            commits.journaled.afterBlobs
          simp [commitScript, restoreTransactionImage_of_addressed addressed, FileScript.andThen,
            FileScript.issue] at failed
  | completed _ apart called ok ih =>
      subst called
      obtain ⟨planned, plan, effects⟩ := commitScript_result ih.idle ok
      obtain ⟨events, commits, forward, -⟩ := ih.plan lawful apart plan
      obtain ⟨idle, restored⟩ := commits.done_of_swept ih.keeps.noLegacy
      rw [effects, meaning_append]
      exact forward _ idle restored
  | crashed _ apart accepted readable short interrupted ih =>
      rw [meaning_append]
      exact ih.crash lawful apart accepted readable short interrupted

end Requests

end FileStoreEngine

end BeetleMemory.Store
