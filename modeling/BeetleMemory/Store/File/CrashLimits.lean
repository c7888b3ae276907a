import BeetleMemory.Store.File.CrashAtomicity

/-! The two limits of crash atomicity, and that there are no others. -/

namespace BeetleMemory.Store

open Std FileSystem

variable {Value : Type}

namespace FileStoreEngine

variable {engine : FileStoreEngine} {format : FileFormat Value} {disk : Disk}
  {docs : ExtTreeMap Address Value} {blobs : ExtTreeMap Address Bytes}
  {readSet : StoreTransactionReadSet} {events : List MemoryStoreEvent}
  {planned : PlannedCommit Value} {address : Address}

/-! ## A journal that is too long -/

/-- The cuts just after the prepared journal and just after the commit point. -/
theorem Commits.crash_disks (noLegacy : NoLegacy disk)
    (commits : engine.Commits format disk docs blobs readSet events planned.journal)
    : (∃ cut < (engine.commitScript format planned).effects.length,
        (engine.crashedAt format disk planned cut).files[transactionMarkerPath]?
          = some (format.journalToVec planned.journal)
        ∧ engine.Disturbed format readSet disk (engine.crashedAt format disk planned cut))
      ∧ (∃ cut < (engine.commitScript format planned).effects.length,
        (engine.crashedAt format disk planned cut).files[transactionMarkerPath]?
          = some (format.journalToVec (planned.journal.markCommitted format))
        ∧ engine.Disturbed format readSet disk
          (engine.crashedAt format disk planned cut)) := by
  have start := (Disturbed.refl engine format readSet disk).cut_journal noLegacy
    (writeTransactionJournal_confined format planned.journal)
    (writeTransactionJournal format planned.journal).length
  have restored := start.cut_restore noLegacy commits.covers_after
    commits.journaled.afterEvents (engine.restoreEffects format planned.journal.after).length
  have further := restored.cut_journal noLegacy
    (writeTransactionJournal_confined format (planned.journal.markCommitted format))
    (writeTransactionJournal format (planned.journal.markCommitted format)).length
  rw [← restoreEffects] at further
  simp only [List.take_length] at start further
  constructor
  · refine ⟨(writeTransactionJournal format planned.journal).length, ?_, ?_, ?_⟩
    · rw [commits.effects]
      simp only [List.length_append, List.length_singleton]
      omega
    all_goals
      rw [crashedAt, commits.effects, List.take_left]
    · exact writeTransactionJournal_run _ _
    · exact start
  · have split : (engine.commitScript format planned).effects
        = writeTransactionJournal format planned.journal
          ++ (engine.restoreEffects format planned.journal.after
            ++ writeTransactionJournal format (planned.journal.markCommitted format))
          ++ [.removeFile transactionMarkerPath] := by
      simp [commits.effects]
    refine ⟨(writeTransactionJournal format planned.journal
      ++ (engine.restoreEffects format planned.journal.after
        ++ writeTransactionJournal format (planned.journal.markCommitted format))).length,
      by simp [split], ?_, ?_⟩
    all_goals
      rw [crashedAt, split, List.take_left, run_append, run_append]
    · exact writeTransactionJournal_run _ _
    · exact further

/-- A journal that is too long cannot be recovered from. -/
theorem not_recoversTo_of_long {bytes : Bytes} {target : Disk}
    (written : disk.files[transactionMarkerPath]? = some bytes)
    (long : engine.journalMaxBytes < bytes.length)
    : ¬ engine.RecoversTo format disk target := by
  intro recovers
  obtain ⟨error, failed⟩ := readTransactionJournalReadOnly_of_long written long
  have result := recovers.1
  rw [recoverTransactionIfNeeded, failed] at result
  cases result

/-- An atomic commit has a journal that fits. -/
theorem CrashAtomic.journalFits (noLegacy : NoLegacy disk)
    (commits : engine.Commits format disk docs blobs readSet events planned.journal)
    (atomic : engine.CrashAtomic format disk planned)
    : engine.JournalFits format planned.journal := by
  obtain ⟨⟨cut, short, written, -⟩, ⟨cut', short', written', -⟩⟩ :=
    commits.crash_disks noLegacy
  constructor
  · by_contra long
    exact not_recoversTo_of_long written (Nat.lt_of_not_le long)
      ((atomic cut short.le).early short (by simp [written]) _ .here)
  · by_contra long
    exact not_recoversTo_of_long written' (Nat.lt_of_not_le long)
      ((atomic cut' short'.le).late (.inr written') _ .here)

/-! ## A document that is null -/

/-- A key none of whose files is there is read as absent. -/
theorem readPhysical_of_absent {lane : Lane} {stage : String}
    (paths : engine.physicalKeyPaths format.keyDigest lane address
      = .ok (engine.layout format.keyDigest lane address))
    (data : disk.files[(engine.layout format.keyDigest lane address).dataPath]? = none)
    (index : disk.files[(engine.layout format.keyDigest lane address).indexPath]? = none)
    (legacy : disk.files[(engine.layout format.keyDigest lane address).legacyPath]? = none)
    : engine.readPhysical format disk lane address (fun path => .ok disk.files[path]?) stage
      = .ok none := by
  rw [readPhysical, paths, Fallible.ok_bind, data, Fallible.ok_bind]
  simp [readKeyIndex_of_missing index, Fallible.ok_bind, require, legacy]

theorem getJsonValueUnlocked_of_absent
    (paths : engine.physicalKeyPaths format.keyDigest .json address
      = .ok (engine.layout format.keyDigest .json address))
    (data : disk.files[(engine.layout format.keyDigest .json address).dataPath]? = none)
    (index : disk.files[(engine.layout format.keyDigest .json address).indexPath]? = none)
    (legacy : disk.files[(engine.layout format.keyDigest .json address).legacyPath]? = none)
    : engine.getJsonValueUnlocked format disk address = .ok none := by
  rw [getJsonValueUnlocked, readPhysical_of_absent paths data index legacy]
  rfl

/-- A key whose data file is there is not read as absent. -/
theorem getJsonValueUnlocked_ne_none {bytes : Bytes}
    (data : disk.files[(engine.layout format.keyDigest .json address).dataPath]? = some bytes)
    : engine.getJsonValueUnlocked format disk address ≠ .ok none := by
  intro absent
  obtain ⟨found, physical, absent⟩ := Fallible.bind_eq_ok.mp absent
  obtain ⟨paths, addressed, physical⟩ := Fallible.bind_eq_ok.mp physical
  obtain rfl := physicalKeyPaths_ok addressed
  simp only [data, Fallible.ok_bind] at physical
  obtain ⟨_, _, result⟩ := Fallible.bind_eq_ok.mp physical
  cases result
  obtain ⟨value, _, result⟩ := Fallible.map_eq_ok.mp absent
  cases result

/-- After a restore of an image that lists a key as absent, the key is absent. -/
theorem Restored.getJsonValue_absent {origin : Disk} {image : FileTransactionImage Value}
    (restored : engine.Restored format readSet origin image events disk)
    (noLegacy : NoLegacy origin) (covers : Covers readSet image)
    (distinct : ∀ a ∈ readSet.json, ∀ b ∈ readSet.json,
      engine.SameSlot format.keyDigest .json a b → a = b)
    {entry : FileTransactionValue Value} (member : entry ∈ image.json)
    (absent : entry.value = none)
    (paths : engine.physicalKeyPaths format.keyDigest .json entry.address
      = .ok (engine.layout format.keyDigest .json entry.address))
    : engine.getJsonValueUnlocked format disk entry.address = .ok none := by
  have last := lastInSlot_of_distinct covers.json distinct member
  have settled := settle_imageWrites_json last fun p => origin.files[p]?
  have inSet := covers.mem_json member
  refine getJsonValueUnlocked_of_absent paths ?_ ?_ ?_
  · rw [restored.slots _ (.inl ⟨_, inSet, .inl rfl⟩), settled.1, absent, Option.map_none]
  · rw [restored.slots _ (.inl ⟨_, inSet, .inr rfl⟩), settled.2, absent, Option.map_none]
  · rw [restored.bystanders _ ?_]
    · exact noLegacy _ rfl
    · refine ⟨by simp [layout, transactionMarkerPath], by simp [layout, Lane.extension],
        by simp [layout, eventsPath], ?_⟩
      rintro (⟨a, -, place | place⟩ | ⟨a, -, place | place⟩)
      all_goals
        have depth := congrArg (fun p : FilePath => p.dir.length) place
        simp [layout] at depth

variable [DecidableEq Value]

private theorem readBack_member {image : FileTransactionImage Value}
    {entry : FileTransactionValue Value} (member : entry ∈ image.json) {null : Value}
    (isNull : entry.value = some null)
    : (⟨entry.address, none⟩ : FileTransactionValue Value) ∈ (image.readBack null).json := by
  refine List.mem_map.mpr ⟨entry, member, ?_⟩
  simp [FileTransactionValue.readBack, isNull]

/-- An atomic commit touches no document that was null: recovery would take it for absent
and remove it.
-/
theorem CrashAtomic.nullFree_before (lawful : format.Lawful)
    (keeps : engine.KeepsState format disk docs blobs)
    (commits : engine.Commits format disk docs blobs readSet events planned.journal)
    (distinct : ∀ a ∈ readSet.json, ∀ b ∈ readSet.json,
      engine.SameSlot format.keyDigest .json a b → a = b)
    (atomic : engine.CrashAtomic format disk planned)
    : NullFree format planned.journal.before := by
  intro entry member isNull
  obtain ⟨⟨cut, short, written, disturbed⟩, -⟩ := commits.crash_disks keeps.noLegacy
  have fits := atomic.journalFits keeps.noLegacy commits
  have recovers := (atomic cut short.le).early short (by simp [written]) _ .here
  have covers := commits.covers_before.readBack format.null
  have restored := (disturbed.restore keeps.noLegacy covers
    commits.journaled.beforeEvents).journal removeMarker_confined
  have removed := restored.getJsonValue_absent keeps.noLegacy covers distinct
    (readBack_member member isNull) rfl
    (commits.jsonRead _ (commits.covers_before.mem_json member)).paths
  have same := recovers.2.1.json entry.address
  rw [commits.recover_prepared lawful written fits.1, FileScript.issue, run_append,
    restoreEffects, removed] at same
  have holds : holdings format docs blobs .json entry.address
      = some (format.toVecPretty format.null) := by
    rw [holdings, ← commits.jsonBefore entry member, isNull, Option.map_some]
  exact getJsonValueUnlocked_ne_none (keeps.data holds) same.symm

/-- An atomic commit writes no document that is null. -/
theorem CrashAtomic.nullFree_after (lawful : format.Lawful)
    (keeps : engine.KeepsState format disk docs blobs)
    (commits : engine.Commits format disk docs blobs readSet events planned.journal)
    (distinct : ∀ a ∈ readSet.json, ∀ b ∈ readSet.json,
      engine.SameSlot format.keyDigest .json a b → a = b)
    (atomic : engine.CrashAtomic format disk planned)
    : NullFree format planned.journal.after := by
  intro entry member isNull
  obtain ⟨-, cut, short, written, disturbed⟩ := commits.crash_disks keeps.noLegacy
  have fits := atomic.journalFits keeps.noLegacy commits
  have recovers := (atomic cut short.le).late (.inr written) _ .here
  have covers := commits.covers_after.readBack format.null
  have restored := (disturbed.restore keeps.noLegacy covers
    commits.journaled.afterEvents).journal removeMarker_confined
  have removed := restored.getJsonValue_absent keeps.noLegacy covers distinct
    (readBack_member member isNull) rfl
    (commits.jsonRead _ (commits.covers_after.mem_json member)).paths
  have same := recovers.2.1.json entry.address
  rw [commits.recover_committed lawful written fits.2, FileScript.issue, run_append,
    restoreEffects, removed] at same
  have last := lastInSlot_of_distinct commits.covers_after.json distinct member
  have data := (commits.done keeps.noLegacy).2.slots _
    (.inl ⟨_, commits.covers_after.mem_json member, .inl rfl⟩)
  rw [(settle_imageWrites_json last _).1, isNull, Option.map_some] at data
  exact getJsonValueUnlocked_ne_none data same.symm

end FileStoreEngine

end BeetleMemory.Store
