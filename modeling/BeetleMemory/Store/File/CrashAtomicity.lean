import BeetleMemory.Store.File.CrashStates

/-! A commit of the file backend that is cut anywhere, recovered, and cut again while it is
recovered, ends in the state before it or in the state after it. Two things can break this:
a journal too long to be read back, and a document that is JSON null, which the journal
cannot tell from an absent one.
-/

namespace BeetleMemory.Store

open Std FileSystem

variable {Value : Type}

namespace FileStoreEngine

/-! ## Reading the logical state -/

/-- The two disks hold the same documents, blobs and event log for every reader. -/
structure SameReads (engine : FileStoreEngine) (format : FileFormat Value)
    (disk disk' : Disk)
    : Prop where
  json : ∀ a, engine.getJsonValueUnlocked format disk a
    = engine.getJsonValueUnlocked format disk' a
  blobs : ∀ a, engine.getBlobUnlocked format disk a = engine.getBlobUnlocked format disk' a
  events : engine.readEventsUnlocked format disk = engine.readEventsUnlocked format disk'

variable {engine : FileStoreEngine} {format : FileFormat Value} {disk disk' : Disk}

private theorem SameStore.readKeyIndex (same : SameStore disk disk') (digest : KeyDigest)
    (lane : Lane) (address : Address) (stage : String)
    : engine.readKeyIndex format disk (engine.layout digest lane address).indexPath stage
      = engine.readKeyIndex format disk' (engine.layout digest lane address).indexPath stage := by
  have index := same.files (engine.layout digest lane address).indexPath
    (by simp [layout, transactionMarkerPath]) (by simp [layout])
    (by simp [layout, eventsPath])
  simp only [FileStoreEngine.readKeyIndex, readFileBounded, index]

private theorem SameStore.readPhysical (same : SameStore disk disk') (lane : Lane)
    (address : Address) (stage : String)
    : engine.readPhysical format disk lane address (fun path => .ok disk.files[path]?) stage
      = engine.readPhysical format disk' lane address (fun path => .ok disk'.files[path]?)
          stage := by
  cases addressed : engine.physicalKeyPaths format.keyDigest lane address with
  | error error => simp [FileStoreEngine.readPhysical, addressed, Fallible.error_bind]
  | ok paths =>
      obtain rfl := physicalKeyPaths_ok addressed
      have data := same.files (engine.layout format.keyDigest lane address).dataPath
        (by simp [layout, transactionMarkerPath])
        (by cases lane <;> simp [layout, Lane.extension]) (by simp [layout, eventsPath])
      have legacy := same.files (engine.layout format.keyDigest lane address).legacyPath
        (by simp [layout, transactionMarkerPath])
        (by cases lane <;> simp [layout, Lane.extension]) (by simp [layout, eventsPath])
      simp only [FileStoreEngine.readPhysical, addressed, Fallible.ok_bind, data, legacy,
        requireKeyIndexMatches, same.readKeyIndex]

/-- An empty log reads like a missing one. -/
private theorem readEventsUnlocked_eq (engine : FileStoreEngine) (format : FileFormat Value)
    (disk : Disk)
    : engine.readEventsUnlocked format disk
      = (require ((disk.content eventsPath).length ≤ engine.capacity.snapshotMaxBytes)
          (.config "store_event_log"
            "runtime metric event bytes exceed the active aggregate budget")
        >>= fun _ => (splitLines (disk.content eventsPath)).foldlM
          (pushBoundedEventLine format engine.capacity "store_event_log") []) := by
  unfold readEventsUnlocked readEventsJsonlBounded Disk.content
  cases disk.files[eventsPath]? with
  | some bytes => rfl
  | none => simp [require, Fallible.ok_bind, splitLines, pushBoundedEventLine, pure, Except.pure]

/-- Stores that agree on their files read the same. -/
theorem SameStore.reads (same : SameStore disk disk')
    : engine.SameReads format disk disk' where
  json a := by rw [getJsonValueUnlocked, getJsonValueUnlocked, same.readPhysical]
  blobs a := by rw [getBlobUnlocked, getBlobUnlocked, same.readPhysical]
  events := by rw [readEventsUnlocked_eq, readEventsUnlocked_eq, same.log]

/-! ## Crashes -/

/-- The disks that recoveries, each cut somewhere, lead to from a disk. -/
inductive Interrupted (engine : FileStoreEngine) (format : FileFormat Value) (start : Disk)
    : Disk → Prop where
  | here : Interrupted engine format start start
  | cut {disk : Disk} (h : Interrupted engine format start disk) (cut : Nat)
    : Interrupted engine format start
        (run disk ((engine.recoverTransactionIfNeeded format disk).effects.take cut))

/-- Recovery goes through, ends in the target's logical state, and a further recovery has
nothing to do.
-/
def RecoversTo (engine : FileStoreEngine) (format : FileFormat Value) (disk target : Disk)
    : Prop :=
  let recovery := engine.recoverTransactionIfNeeded format disk
  recovery.result = .ok ()
  ∧ engine.SameReads format (run disk recovery.effects) target
  ∧ engine.recoverTransactionIfNeeded format (run disk recovery.effects) = .issue []

/-- The disk when the commit stops after so many effects. -/
def crashedAt (engine : FileStoreEngine) (format : FileFormat Value) (disk : Disk)
    (planned : PlannedCommit Value) (cut : Nat)
    : Disk :=
  run disk ((engine.commitScript format planned).effects.take cut)

/-- The commit cut after so many effects: the journal is absent, prepared or committed, and
recovery, itself cut any number of times and then run to its end, leads back to the state
before the commit while the commit is not marked committed, and to the state after it from
then on.
-/
structure AtomicAt (engine : FileStoreEngine) (format : FileFormat Value) (disk : Disk)
    (planned : PlannedCommit Value) (cut : Nat)
    : Prop where
  journal :
    (engine.crashedAt format disk planned cut).files[transactionMarkerPath]?
      ∈ [none, some (format.journalToVec planned.journal),
        some (format.journalToVec (planned.journal.markCommitted format))]
  early : cut < (engine.commitScript format planned).effects.length
    → (engine.crashedAt format disk planned cut).files[transactionMarkerPath]?
      ∈ [none, some (format.journalToVec planned.journal)]
    → ∀ later, engine.Interrupted format (engine.crashedAt format disk planned cut) later
      → engine.RecoversTo format later disk
  late : cut = (engine.commitScript format planned).effects.length
      ∨ (engine.crashedAt format disk planned cut).files[transactionMarkerPath]?
        = some (format.journalToVec (planned.journal.markCommitted format))
    → ∀ later, engine.Interrupted format (engine.crashedAt format disk planned cut) later
      → engine.RecoversTo format later
        (run disk (engine.commitScript format planned).effects)

/-- A commit is atomic wherever it is cut. -/
def CrashAtomic (engine : FileStoreEngine) (format : FileFormat Value) (disk : Disk)
    (planned : PlannedCommit Value)
    : Prop :=
  ∀ cut ≤ (engine.commitScript format planned).effects.length,
    engine.AtomicAt format disk planned cut

/-! ## Recovery from any crash point -/

section Recovery

variable {origin : Disk} {readSet : StoreTransactionReadSet}
  {image : FileTransactionImage Value} {events : List MemoryStoreEvent} {text : Bytes}

/-- The writes of restoring an image over the read set. -/
def restoreEffects (engine : FileStoreEngine) (format : FileFormat Value)
    (image : FileTransactionImage Value)
    : List Effect :=
  engine.entryEffects format image ++ restoreEvents format image.events

/-- The journal text leads every recovery to restore the image and to remove the journal. -/
structure Recoverable (engine : FileStoreEngine) (format : FileFormat Value)
    (readSet : StoreTransactionReadSet) (origin : Disk) (text : Bytes)
    (image : FileTransactionImage Value) (events : List MemoryStoreEvent)
    : Prop where
  noLegacy : NoLegacy origin
  covers : Covers readSet image
  log : image.events = .append (origin.content eventsPath).length events
  recovers : ∀ disk : Disk, disk.files[transactionMarkerPath]? = some text
    → engine.recoverTransactionIfNeeded format disk
      = .issue (engine.restoreEffects format image ++ [.removeFile transactionMarkerPath])

/-- A recovery under way, or one that is through. -/
def Recovering (engine : FileStoreEngine) (format : FileFormat Value)
    (readSet : StoreTransactionReadSet) (origin : Disk) (text : Bytes)
    (image : FileTransactionImage Value) (events : List MemoryStoreEvent) (disk : Disk)
    : Prop :=
  (disk.files[transactionMarkerPath]? = some text
    ∧ engine.Disturbed format readSet origin disk)
  ∨ (disk.files[transactionMarkerPath]? = none
    ∧ engine.Restored format readSet origin image events disk)

theorem removeMarker_confined
    : Confined [.removeFile transactionMarkerPath]
        (fun p => p = transactionMarkerPath ∨ p = transactionMarkerPath.tmp) := by
  intro effect member path touched
  obtain rfl := List.mem_singleton.mp member
  exact .inl (by simpa [Effect.touched] using touched)

/-- Restoring an image stays off the journal. -/
theorem restoreEffects_off_marker (covers : Covers readSet image) {prefixLen : Nat}
    (log : image.events = .append prefixLen events)
    : Confined (engine.restoreEffects format image) (· ≠ transactionMarkerPath) := by
  rw [restoreEffects, log]
  refine Confined.append ?_ ((restoreEvents_confined _ _).mono ?_)
  · intro effect member path touched
    rintro rfl
    rcases entryEffects_touched covers member touched with scratch | slot | ⟨depth, -⟩
    · exact absurd scratch (by decide)
    · rcases slot with ⟨a, -, place | place⟩ | ⟨a, -, place | place⟩
      all_goals
        have depth := congrArg (fun p : FilePath => p.dir.length) place
        simp [transactionMarkerPath, layout] at depth
    · exact absurd depth (by decide)
  · rintro path rfl
    decide

/-- A beginning of a recovery leaves a recovery under way or through. -/
theorem Recoverable.cut
    (r : engine.Recoverable format readSet origin text image events)
    (h : engine.Recovering format readSet origin text image events disk) (cut : Nat)
    : engine.Recovering format readSet origin text image events
        (run disk ((engine.recoverTransactionIfNeeded format disk).effects.take cut)) := by
  rcases h with ⟨written, disturbed⟩ | ⟨missing, restored⟩
  · have off : Confined (engine.restoreEffects format image) (· ≠ transactionMarkerPath) :=
      restoreEffects_off_marker r.covers r.log
    rw [r.recovers disk written, FileScript.issue, List.take_append, run_append]
    by_cases short : cut ≤ (engine.restoreEffects format image).length
    · left
      rw [Nat.sub_eq_zero_of_le short, List.take_zero, run_nil]
      refine ⟨?_, disturbed.cut_restore r.noLegacy r.covers r.log cut⟩
      rw [off.run_take disk cut (by simp), written]
    · right
      have whole : (engine.restoreEffects format image).take cut
          = engine.restoreEffects format image := List.take_of_length_le (by omega)
      have last : ([.removeFile transactionMarkerPath] : List Effect).take
          (cut - (engine.restoreEffects format image).length)
          = [.removeFile transactionMarkerPath] := List.take_of_length_le (by simp; omega)
      rw [whole, last]
      refine ⟨by simp [Effect.apply], ?_⟩
      exact (disturbed.restore r.noLegacy r.covers r.log).journal removeMarker_confined
  · right
    rw [recoverTransactionIfNeeded, readTransactionJournalReadOnly_of_missing missing]
    exact ⟨by simpa [recoverValidatedTransaction, FileScript.issue] using missing,
      by simpa [recoverValidatedTransaction, FileScript.issue] using restored⟩

/-- So do any number of cut recoveries, by induction on them. -/
theorem Recoverable.interrupted
    (r : engine.Recoverable format readSet origin text image events)
    (h : engine.Recovering format readSet origin text image events disk) {later : Disk}
    (interrupted : engine.Interrupted format disk later)
    : engine.Recovering format readSet origin text image events later := by
  induction interrupted with
  | here => exact h
  | cut _ cut ih => exact r.cut ih cut

/-- A recovery that runs to its end restores the image, and there is nothing left to do. -/
theorem Recoverable.recoversTo
    (r : engine.Recoverable format readSet origin text image events)
    (h : engine.Recovering format readSet origin text image events disk) {target : Disk}
    (ends : ∀ d, engine.Restored format readSet origin image events d → SameStore d target)
    : engine.RecoversTo format disk target := by
  rcases h with ⟨written, disturbed⟩ | ⟨missing, restored⟩
  · have whole := disturbed.restore r.noLegacy r.covers r.log
    have through := whole.journal removeMarker_confined
    have missing : (run (run disk (engine.restoreEffects format image))
        [.removeFile transactionMarkerPath]).files[transactionMarkerPath]? = none := by
      simp [Effect.apply]
    rw [RecoversTo, r.recovers disk written, FileScript.issue, run_append]
    refine ⟨rfl, (ends _ through).reads, ?_⟩
    rw [recoverTransactionIfNeeded, readTransactionJournalReadOnly_of_missing missing]
    rfl
  · have idle : engine.recoverTransactionIfNeeded format disk = .issue [] := by
      rw [recoverTransactionIfNeeded, readTransactionJournalReadOnly_of_missing missing]
      rfl
    rw [RecoversTo, idle]
    exact ⟨rfl, (ends _ restored).reads, idle⟩

end Recovery

/-! ## The crash points of a commit -/

section Commit

variable {docs : ExtTreeMap Address Value} {blobs : ExtTreeMap Address Bytes}
  {readSet : StoreTransactionReadSet} {events : List MemoryStoreEvent}
  {planned : PlannedCommit Value} {journal : FileTransactionJournal Value}

theorem Commits.covers_before
    (commits : engine.Commits format disk docs blobs readSet events journal)
    : Covers readSet journal.before :=
  ⟨commits.journaled.beforeJson, commits.journaled.beforeBlobs⟩

theorem Commits.covers_after
    (commits : engine.Commits format disk docs blobs readSet events journal)
    : Covers readSet journal.after :=
  ⟨commits.journaled.afterJson, commits.journaled.afterBlobs⟩

/-- The effects of an accepted commit. -/
theorem Commits.effects
    (commits : engine.Commits format disk docs blobs readSet events planned.journal)
    : (engine.commitScript format planned).effects
      = writeTransactionJournal format planned.journal
        ++ (engine.restoreEffects format planned.journal.after
          ++ (writeTransactionJournal format (planned.journal.markCommitted format)
            ++ [.removeFile transactionMarkerPath])) := by
  have addressed := commits.addressed commits.journaled.afterJson commits.journaled.afterBlobs
  simp [commitScript, restoreTransactionImage_of_addressed addressed, FileScript.andThen,
    FileScript.issue, restoreEffects]

theorem writeTransactionJournal_confined (format : FileFormat Value)
    (journal : FileTransactionJournal Value)
    : Confined (writeTransactionJournal format journal)
        (fun p => p = transactionMarkerPath ∨ p = transactionMarkerPath.tmp) :=
  atomicWrite_confined _ _

theorem writeTransactionJournal_run (journal : FileTransactionJournal Value)
    (disk : Disk)
    : (run disk (writeTransactionJournal format journal)).files[transactionMarkerPath]?
      = some (format.journalToVec journal) := by
  rw [writeTransactionJournal, atomicWrite_settles _ (by decide)]
  simp [settle]

/-- A cut journal write leaves the old journal, a whole one leaves the new one. -/
private theorem writeTransactionJournal_cut (format : FileFormat Value)
    (journal : FileTransactionJournal Value) (disk : Disk) (cut : Nat)
    : (run disk ((writeTransactionJournal format journal).take cut)).files[
          transactionMarkerPath]?
      = if cut < (writeTransactionJournal format journal).length
        then disk.files[transactionMarkerPath]? else some (format.journalToVec journal) := by
  split
  next short => exact atomicWrite_cut _ (by decide) disk short
  next long => rw [List.take_of_length_le (by omega), writeTransactionJournal_run]

/-- Where a cut commit stands: before its first journal, between the two journals, past the
commit point, or at its end.
-/
inductive CrashPoint (engine : FileStoreEngine) (format : FileFormat Value)
    (readSet : StoreTransactionReadSet) (events : List MemoryStoreEvent) (origin : Disk)
    (journal : FileTransactionJournal Value) (crashed : Disk)
    : Prop where
  | unprepared (missing : crashed.files[transactionMarkerPath]? = none)
      (same : SameStore crashed origin)
  | prepared
      (written : crashed.files[transactionMarkerPath]? = some (format.journalToVec journal))
      (disturbed : engine.Disturbed format readSet origin crashed)
  | committed
      (written : crashed.files[transactionMarkerPath]?
        = some (format.journalToVec (journal.markCommitted format)))
      (disturbed : engine.Disturbed format readSet origin crashed)

/-- Past its first journal, a commit cut short of its end is prepared or committed. -/
theorem Commits.crashPoint_of_prepared {origin : Disk} (noLegacy : NoLegacy origin)
    (commits : engine.Commits format origin docs blobs readSet events journal)
    (written : disk.files[transactionMarkerPath]? = some (format.journalToVec journal))
    (disturbed : engine.Disturbed format readSet origin disk) (cut : Nat)
    : engine.CrashPoint format readSet events origin journal
        (run disk ((engine.restoreEffects format journal.after
          ++ writeTransactionJournal format (journal.markCommitted format)).take cut)) := by
  have off : Confined (engine.restoreEffects format journal.after)
      (· ≠ transactionMarkerPath) :=
    restoreEffects_off_marker commits.covers_after commits.journaled.afterEvents
  have kept : (run disk ((engine.restoreEffects format journal.after).take cut)).files[
      transactionMarkerPath]? = some (format.journalToVec journal) := by
    rw [off.run_take disk cut (by simp), written]
  have restored := disturbed.cut_restore noLegacy commits.covers_after
    commits.journaled.afterEvents cut
  have further := restored.cut_journal noLegacy
    (writeTransactionJournal_confined format (journal.markCommitted format))
    (cut - (engine.restoreEffects format journal.after).length)
  have marker := writeTransactionJournal_cut format (journal.markCommitted format)
    (run disk ((engine.restoreEffects format journal.after).take cut))
    (cut - (engine.restoreEffects format journal.after).length)
  rw [List.take_append, run_append]
  split at marker
  · exact .prepared (marker.trans kept) further
  · exact .committed marker further

/-- Every cut short of the end is one of these points. -/
theorem Commits.crashPoint (noLegacy : NoLegacy disk)
    (noJournal : disk.files[transactionMarkerPath]? = none)
    (commits : engine.Commits format disk docs blobs readSet events planned.journal)
    {cut : Nat} (short : cut < (engine.commitScript format planned).effects.length)
    : engine.CrashPoint format readSet events disk planned.journal
        (run disk ((engine.commitScript format planned).effects.take cut)) := by
  have confined := writeTransactionJournal_confined format planned.journal
  have marker := writeTransactionJournal_cut format planned.journal disk cut
  rw [commits.effects, ← List.append_assoc (engine.restoreEffects format _)] at short ⊢
  rw [List.take_append, run_append]
  split at marker
  next unprepared =>
    rw [Nat.sub_eq_zero_of_le (by omega), List.take_zero, run_nil]
    refine .unprepared (marker.trans noJournal) ⟨fun path notMarker scratch _ => ?_, ?_⟩
    · refine confined.run_take disk cut ?_
      rintro (rfl | rfl)
      · exact notMarker rfl
      · exact scratch rfl
    · rw [Disk.content, confined.run_take disk cut (by decide), Disk.content]
  next prepared =>
    have disturbed := (Disturbed.refl engine format readSet disk).cut_journal noLegacy confined
      cut
    simp only [List.length_append, List.length_singleton] at short
    rw [List.take_append_of_le_length (by simp only [List.length_append]; omega)]
    exact commits.crashPoint_of_prepared noLegacy marker disturbed _

/-- The whole commit restores the after image and leaves no journal. -/
theorem Commits.done (noLegacy : NoLegacy disk)
    (commits : engine.Commits format disk docs blobs readSet events planned.journal)
    : (run disk (engine.commitScript format planned).effects).files[transactionMarkerPath]?
        = none
      ∧ engine.Restored format readSet disk planned.journal.after events
        (run disk (engine.commitScript format planned).effects) := by
  have start := (Disturbed.refl engine format readSet disk).cut_journal noLegacy
    (writeTransactionJournal_confined format planned.journal)
    (writeTransactionJournal format planned.journal).length
  rw [List.take_length] at start
  have restored := start.restore noLegacy commits.covers_after commits.journaled.afterEvents
  rw [commits.effects, run_append, run_append, run_append]
  refine ⟨by simp [Effect.apply], ?_⟩
  exact (restored.journal (writeTransactionJournal_confined format _)).journal
    removeMarker_confined

end Commit

/-! ## When recovery works -/

section Condition

variable [DecidableEq Value] {docs : ExtTreeMap Address Value}
  {blobs : ExtTreeMap Address Bytes} {readSet : StoreTransactionReadSet}
  {events : List MemoryStoreEvent} {planned : PlannedCommit Value}
  {journal : FileTransactionJournal Value} {origin : Disk}

/-- Both texts of the journal are within what recovery reads. -/
def JournalFits (engine : FileStoreEngine) (format : FileFormat Value)
    (journal : FileTransactionJournal Value)
    : Prop :=
  (format.journalToVec journal).length ≤ engine.journalMaxBytes
  ∧ (format.journalToVec (journal.markCommitted format)).length ≤ engine.journalMaxBytes

instance : Decidable (engine.JournalFits format journal) :=
  inferInstanceAs (Decidable (_ ∧ _))

/-- No document of an image is JSON null. -/
def NullFree (format : FileFormat Value) (image : FileTransactionImage Value) : Prop :=
  ∀ entry ∈ image.json, entry.value ≠ some format.null

instance {image : FileTransactionImage Value} : Decidable (NullFree format image) :=
  inferInstanceAs (Decidable (∀ entry ∈ image.json, entry.value ≠ some format.null))

theorem NullFree.readBack {image : FileTransactionImage Value} (h : NullFree format image)
    : image.readBack format.null = image := by
  have entries : image.json.map (FileTransactionValue.readBack format.null)
      = image.json := by
    refine (List.map_congr_left fun entry member => ?_).trans (List.map_id _)
    obtain ⟨address, value⟩ := entry
    have kept : value ≠ some format.null := h _ member
    cases value with
    | none => rfl
    | some value =>
        simp only [FileTransactionValue.readBack, Option.filter_some]
        rw [if_pos (by simpa using kept)]
        rfl
  rw [FileTransactionImage.readBack, entries]

/-- The journals before and after the commit point have different texts. -/
theorem journalToVec_markCommitted_ne (lawful : format.Lawful)
    (prepared : journal.state = .prepared)
    : format.journalToVec journal ≠ format.journalToVec (journal.markCommitted format) := by
  intro same
  have first := lawful.journalFromSlice_journalToVec journal
  rw [same, lawful.journalFromSlice_journalToVec] at first
  have states := congrArg FileTransactionJournal.state (Except.ok.inj first)
  simp [FileTransactionJournal.readBack, FileTransactionJournal.markCommitted,
    FileTransactionJournal.refreshChecksum, prepared] at states

/-- Reading an image back keeps its addresses and its events. -/
theorem Covers.readBack {image : FileTransactionImage Value}
    (covers : Covers readSet image) (null : Value)
    : Covers readSet (image.readBack null) := by
  refine ⟨?_, covers.blobs⟩
  rw [← covers.json]
  simp [FileTransactionImage.readBack, FileTransactionValue.readBack, Function.comp_def]

/-- A prepared journal that fits is rolled back to its before image, as it is read back. -/
theorem Commits.recover_prepared (lawful : format.Lawful)
    (commits : engine.Commits format origin docs blobs readSet events journal)
    (written : disk.files[transactionMarkerPath]? = some (format.journalToVec journal))
    (fits : (format.journalToVec journal).length ≤ engine.journalMaxBytes)
    : engine.recoverTransactionIfNeeded format disk
      = .issue (engine.restoreEffects format (journal.before.readBack format.null)
        ++ [.removeFile transactionMarkerPath]) := by
  have covers := commits.covers_before.readBack format.null
  have addressed := commits.addressed covers.json covers.blobs
  rw [recoverTransactionIfNeeded, commits.journaled.read lawful written fits]
  simp [recoverValidatedTransaction, FileTransactionJournal.readBack, commits.prepared,
    restoreTransactionImage_of_addressed addressed, FileScript.andThen, FileScript.issue,
    restoreEffects]

/-- A committed journal that fits is carried out again, as it is read back. -/
theorem Commits.recover_committed (lawful : format.Lawful)
    (commits : engine.Commits format origin docs blobs readSet events journal)
    (written : disk.files[transactionMarkerPath]?
      = some (format.journalToVec (journal.markCommitted format)))
    (fits : (format.journalToVec (journal.markCommitted format)).length
      ≤ engine.journalMaxBytes)
    : engine.recoverTransactionIfNeeded format disk
      = .issue (engine.restoreEffects format (journal.after.readBack format.null)
        ++ [.removeFile transactionMarkerPath]) := by
  have covers := commits.covers_after.readBack format.null
  have addressed := commits.addressed covers.json covers.blobs
  rw [recoverTransactionIfNeeded, commits.journaled.markCommitted.read lawful written fits]
  simp [recoverValidatedTransaction, FileTransactionJournal.readBack,
    FileTransactionJournal.markCommitted, FileTransactionJournal.refreshChecksum,
    restoreTransactionImage_of_addressed addressed, FileScript.andThen, FileScript.issue,
    restoreEffects]

theorem Commits.recoverable_prepared (lawful : format.Lawful) (noLegacy : NoLegacy disk)
    (commits : engine.Commits format disk docs blobs readSet events journal)
    (fits : engine.JournalFits format journal) (before : NullFree format journal.before)
    : engine.Recoverable format readSet disk (format.journalToVec journal) journal.before
        [] where
  noLegacy := noLegacy
  covers := commits.covers_before
  log := commits.journaled.beforeEvents
  recovers d written := by
    rw [commits.recover_prepared lawful written fits.1, before.readBack]

theorem Commits.recoverable_committed (lawful : format.Lawful) (noLegacy : NoLegacy disk)
    (commits : engine.Commits format disk docs blobs readSet events journal)
    (fits : engine.JournalFits format journal) (after : NullFree format journal.after)
    : engine.Recoverable format readSet disk
        (format.journalToVec (journal.markCommitted format)) journal.after events where
  noLegacy := noLegacy
  covers := commits.covers_after
  log := commits.journaled.afterEvents
  recovers d written := by
    rw [commits.recover_committed lawful written fits.2, after.readBack]

omit [DecidableEq Value] in
/-- Without a journal a recovery does nothing, cut or not. -/
theorem recover_idle (missing : disk.files[transactionMarkerPath]? = none)
    : engine.recoverTransactionIfNeeded format disk = .issue [] := by
  rw [recoverTransactionIfNeeded, readTransactionJournalReadOnly_of_missing missing]
  rfl

omit [DecidableEq Value] in
theorem Interrupted.idle (missing : disk.files[transactionMarkerPath]? = none) {later : Disk}
    (interrupted : engine.Interrupted format disk later)
    : later = disk := by
  induction interrupted with
  | here => rfl
  | cut _ cut ih => rw [ih, recover_idle missing, FileScript.issue, List.take_nil, run_nil]

omit [DecidableEq Value] in
theorem RecoversTo.of_idle (missing : disk.files[transactionMarkerPath]? = none)
    {target : Disk} (same : SameStore disk target)
    : engine.RecoversTo format disk target := by
  rw [RecoversTo, recover_idle missing]
  exact ⟨rfl, same.reads, recover_idle missing⟩

/-- With a journal that fits and holds no null, every crash point recovers. -/
theorem Commits.crashAtomic (lawful : format.Lawful)
    (keeps : engine.KeepsState format disk docs blobs)
    (noJournal : disk.files[transactionMarkerPath]? = none)
    (commits : engine.Commits format disk docs blobs readSet events planned.journal)
    (fits : engine.JournalFits format planned.journal)
    (before : NullFree format planned.journal.before)
    (after : NullFree format planned.journal.after)
    : engine.CrashAtomic format disk planned := by
  intro cut _
  have differ := journalToVec_markCommitted_ne lawful commits.prepared
  obtain ⟨ended, done⟩ := commits.done keeps.noLegacy
  by_cases short : cut < (engine.commitScript format planned).effects.length
  · have notEnd := Nat.ne_of_lt short
    have point : engine.CrashPoint format readSet events disk planned.journal
        (engine.crashedAt format disk planned cut) :=
      commits.crashPoint keeps.noLegacy noJournal short
    cases point with
    | unprepared missing same =>
        refine ⟨by simp [missing], fun _ _ later interrupted => ?_, by simp [notEnd, missing]⟩
        rw [interrupted.idle missing]
        exact .of_idle missing same
    | prepared written disturbed =>
        have r := commits.recoverable_prepared lawful keeps.noLegacy fits before
        refine ⟨by simp [written], fun _ _ later interrupted => ?_,
          by simp [notEnd, written, differ]⟩
        exact r.recoversTo (r.interrupted (.inl ⟨written, disturbed⟩) interrupted)
          fun d restored => restored.original commits.covers_before
            fun write member visible => commits.before_true keeps member visible
    | committed written disturbed =>
        have r := commits.recoverable_committed lawful keeps.noLegacy fits after
        refine ⟨by simp [written], by simp [written, differ.symm],
          fun _ later interrupted => ?_⟩
        exact r.recoversTo (r.interrupted (.inl ⟨written, disturbed⟩) interrupted)
          fun d restored => restored.same done
  · have whole : engine.crashedAt format disk planned cut
        = run disk (engine.commitScript format planned).effects := by
      rw [crashedAt, List.take_of_length_le (by omega)]
    rw [← whole] at ended
    refine ⟨by simp [ended], fun h => absurd h short, fun _ later interrupted => ?_⟩
    rw [interrupted.idle ended, ← whole]
    exact .of_idle ended ⟨fun _ _ _ _ => rfl, rfl⟩

end Condition

end FileStoreEngine

end BeetleMemory.Store
