import BeetleMemory.Store.File.CommitPlan

/-! The disks a cut commit or a cut recovery can leave, and what restoring an image makes of
any of them.
-/

namespace BeetleMemory.Store

open Std FileSystem

variable {Value : Type}

namespace FileStoreEngine

/-- A data or index file of an address of the read set. -/
def SlotFile (engine : FileStoreEngine) (format : FileFormat Value)
    (readSet : StoreTransactionReadSet) (path : FilePath)
    : Prop :=
  (∃ a ∈ readSet.json, path = (engine.layout format.keyDigest .json a).dataPath
    ∨ path = (engine.layout format.keyDigest .json a).indexPath)
  ∨ (∃ a ∈ readSet.blobs, path = (engine.layout format.keyDigest .blob a).dataPath
    ∨ path = (engine.layout format.keyDigest .blob a).indexPath)

/-- An image with one entry for each address of the read set. -/
structure Covers (readSet : StoreTransactionReadSet) (image : FileTransactionImage Value)
    : Prop where
  json : image.json.map FileTransactionValue.address = readSet.json.toList
  blobs : image.blobs.map FileTransactionValue.address = readSet.blobs.toList

variable {engine : FileStoreEngine} {format : FileFormat Value} {origin disk : Disk}
  {readSet : StoreTransactionReadSet} {image : FileTransactionImage Value}

theorem Covers.mem_json (covers : Covers readSet image) {entry : FileTransactionValue Value}
    (member : entry ∈ image.json)
    : entry.address ∈ readSet.json := by
  rw [← ExtTreeSet.mem_toList, ← covers.json]
  exact List.mem_map_of_mem member

theorem Covers.mem_blobs (covers : Covers readSet image) {entry : FileTransactionValue Bytes}
    (member : entry ∈ image.blobs)
    : entry.address ∈ readSet.blobs := by
  rw [← ExtTreeSet.mem_toList, ← covers.blobs]
  exact List.mem_map_of_mem member

/-- An effect of restoring one entry touches its own slot and scratch files, or removes a
file of the older layout.
-/
private theorem restoreFiles_touched {α : Type} {lane : Lane} {toBytes : α → Bytes}
    {entry : FileTransactionValue α} {effect : Effect}
    (member : effect ∈ restoreFiles format toBytes
      (engine.layout format.keyDigest lane entry.address) entry)
    {path : FilePath} (touched : path ∈ effect.touched)
    : path.extension = "tmp"
      ∨ (path = (engine.layout format.keyDigest lane entry.address).dataPath
        ∨ path = (engine.layout format.keyDigest lane entry.address).indexPath)
      ∨ (path.dir.length = 2 ∧ effect = .removeFile path) := by
  unfold restoreFiles at member
  cases present : entry.value with
  | some value =>
      simp only [present] at member
      rcases List.mem_append.mp member with member | member
      · rcases atomicWrite_confined _ _ effect member path touched with rfl | rfl
        · exact .inr (.inl (.inr rfl))
        · exact .inl rfl
      · rcases atomicWrite_confined _ _ effect member path touched with rfl | rfl
        · exact .inr (.inl (.inl rfl))
        · exact .inl rfl
  | none =>
      simp only [present, List.mem_cons, List.not_mem_nil, or_false] at member
      rcases member with rfl | rfl | rfl
      all_goals
        obtain rfl : path = _ := by simpa [Effect.touched] using touched
      · exact .inr (.inl (.inl rfl))
      · exact .inr (.inl (.inr rfl))
      · exact .inr (.inr ⟨rfl, rfl⟩)

theorem entryEffects_touched (covers : Covers readSet image) {effect : Effect}
    (member : effect ∈ engine.entryEffects format image) {path : FilePath}
    (touched : path ∈ effect.touched)
    : path.extension = "tmp" ∨ engine.SlotFile format readSet path
      ∨ (path.dir.length = 2 ∧ effect = .removeFile path) := by
  rcases List.mem_append.mp member with member | member
  · obtain ⟨entry, inImage, member⟩ := List.mem_flatMap.mp member
    exact (restoreFiles_touched member touched).imp_right
      (Or.imp_left fun place => .inl ⟨_, covers.mem_json inImage, place⟩)
  · obtain ⟨entry, inImage, member⟩ := List.mem_flatMap.mp member
    exact (restoreFiles_touched member touched).imp_right
      (Or.imp_left fun place => .inr ⟨_, covers.mem_blobs inImage, place⟩)

theorem slotFile_ne_eventsPath {path : FilePath} (slot : engine.SlotFile format readSet path)
    : path ≠ eventsPath := by
  rintro rfl
  rcases slot with ⟨a, -, place | place⟩ | ⟨a, -, place | place⟩
  all_goals
    have depth := congrArg (fun p : FilePath => p.dir.length) place
    simp [eventsPath, layout] at depth

/-- A file that is neither a journal, nor scratch, nor the log, nor a slot of the read set.
-/
def Bystander (engine : FileStoreEngine) (format : FileFormat Value)
    (readSet : StoreTransactionReadSet) (path : FilePath)
    : Prop :=
  path ≠ transactionMarkerPath ∧ path.extension ≠ "tmp" ∧ path ≠ eventsPath
    ∧ ¬ engine.SlotFile format readSet path

/-- The disk differs from the original in slots of the read set, in the journal and in what
follows the old log only.
-/
structure Disturbed (engine : FileStoreEngine) (format : FileFormat Value)
    (readSet : StoreTransactionReadSet) (origin disk : Disk)
    : Prop where
  bystanders : ∀ path, engine.Bystander format readSet path
    → disk.files[path]? = origin.files[path]?
  log : origin.content eventsPath <+: disk.content eventsPath

theorem Disturbed.refl (engine : FileStoreEngine) (format : FileFormat Value)
    (readSet : StoreTransactionReadSet) (origin : Disk)
    : engine.Disturbed format readSet origin origin :=
  ⟨fun _ _ => rfl, List.prefix_refl _⟩

/-- No file of the older layout. -/
def NoLegacy (disk : Disk) : Prop :=
  ∀ path : FilePath, path.dir.length = 2 → disk.files[path]? = none

/-- Effects that stay off the log and off bystanders, removals of files of the older layout
apart, disturb no more.
-/
theorem Disturbed.cut (h : engine.Disturbed format readSet origin disk)
    (noLegacy : NoLegacy origin) {effects : List Effect}
    (harmless : ∀ effect ∈ effects, ∀ path ∈ effect.touched,
      path ≠ eventsPath ∧ (engine.Bystander format readSet path
        → path.dir.length = 2 ∧ effect = .removeFile path)) (cut : Nat)
    : engine.Disturbed format readSet origin (run disk (effects.take cut)) := by
  constructor
  · intro path bystander
    refine run_take_invariant (fun d => d.files[path]? = origin.files[path]?) ?_
      (h.bystanders path bystander) cut
    intro effect member d same
    by_cases touched : path ∈ effect.touched
    · obtain ⟨depth, rfl⟩ := (harmless effect member path touched).2 bystander
      rw [noLegacy path depth]
      simp [Effect.apply]
    · rw [Effect.apply_untouched touched, same]
  · have kept : (run disk (effects.take cut)).content eventsPath
        = disk.content eventsPath := by
      have confined : Confined effects (· ≠ eventsPath) :=
        fun effect member path touched => (harmless effect member path touched).1
      rw [Disk.content, Disk.content, confined.run_take disk cut (by simp)]
    rw [kept]
    exact h.log

/-- Writing or removing a journal disturbs no more. -/
theorem Disturbed.cut_journal (h : engine.Disturbed format readSet origin disk)
    (noLegacy : NoLegacy origin) {effects : List Effect}
    (journal : Confined effects
      (fun p => p = transactionMarkerPath ∨ p = transactionMarkerPath.tmp)) (cut : Nat)
    : engine.Disturbed format readSet origin (run disk (effects.take cut)) := by
  refine h.cut noLegacy ?_ cut
  intro effect member path touched
  rcases journal effect member path touched with rfl | rfl
  · exact ⟨by decide, fun bystander => absurd rfl bystander.1⟩
  · exact ⟨by decide, fun bystander => absurd rfl bystander.2.1⟩

theorem Disturbed.cut_entries (h : engine.Disturbed format readSet origin disk)
    (noLegacy : NoLegacy origin) (covers : Covers readSet image) (cut : Nat)
    : engine.Disturbed format readSet origin
        (run disk ((engine.entryEffects format image).take cut)) := by
  refine h.cut noLegacy ?_ cut
  intro effect member path touched
  rcases entryEffects_touched covers member touched with scratch | slot | ⟨depth, removes⟩
  · refine ⟨?_, fun bystander => absurd scratch bystander.2.1⟩
    rintro rfl
    exact absurd scratch (by decide)
  · refine ⟨?_, fun bystander => absurd slot bystander.2.2.2⟩
    exact slotFile_ne_eventsPath slot
  · refine ⟨?_, fun _ => ⟨depth, removes⟩⟩
    rintro rfl
    exact absurd depth (by decide)

theorem Disturbed.cut_events (h : engine.Disturbed format readSet origin disk)
    (events : List MemoryStoreEvent) (cut : Nat)
    : engine.Disturbed format readSet origin
        (run disk ((restoreEvents format
          (.append (origin.content eventsPath).length events)).take cut)) := by
  refine ⟨?_, restoreEvents_keeps_log events h.log cut⟩
  intro path bystander
  rw [(restoreEvents_confined _ _).run_take disk cut bystander.2.2.1]
  exact h.bystanders path bystander

/-- Restoring an image over the read set disturbs no more, wherever it is cut. -/
theorem Disturbed.cut_restore (h : engine.Disturbed format readSet origin disk)
    (noLegacy : NoLegacy origin) (covers : Covers readSet image)
    {events : List MemoryStoreEvent}
    (log : image.events = .append (origin.content eventsPath).length events) (cut : Nat)
    : engine.Disturbed format readSet origin
        (run disk ((engine.entryEffects format image
          ++ restoreEvents format image.events).take cut)) := by
  rw [List.take_append, run_append, log]
  exact (h.cut_entries noLegacy covers cut).cut_events events _

/-! ## After a whole restore -/

/-- The slots of the read set are as the image says, everything else is as it was, and the
events follow the old log.
-/
structure Restored (engine : FileStoreEngine) (format : FileFormat Value)
    (readSet : StoreTransactionReadSet) (origin : Disk) (image : FileTransactionImage Value)
    (events : List MemoryStoreEvent) (disk : Disk)
    : Prop where
  slots : ∀ path, engine.SlotFile format readSet path
    → disk.files[path]?
      = settle (engine.imageWrites format image) (fun p => origin.files[p]?) path
  bystanders : ∀ path, engine.Bystander format readSet path
    → disk.files[path]? = origin.files[path]?
  log : disk.content eventsPath
    = origin.content eventsPath ++ events.flatMap (eventLine format)

private theorem mem_entryWrites {α : Type} {toBytes : α → Bytes} {paths : PhysicalKeyPaths}
    (entry : FileTransactionValue α) {path : FilePath}
    (place : path = paths.dataPath ∨ path = paths.indexPath)
    : path ∈ (entryWrites format toBytes paths entry).map Prod.fst := by
  unfold entryWrites
  cases entry.value <;> rcases place with rfl | rfl <;> simp

/-- Every slot of the read set is assigned by an image over it. -/
theorem Covers.assigns (covers : Covers readSet image) {path : FilePath}
    (slot : engine.SlotFile format readSet path)
    : path ∈ (engine.imageWrites format image).map Prod.fst := by
  rw [imageWrites, List.map_append, List.mem_append, List.map_flatMap, List.map_flatMap]
  rcases slot with ⟨a, member, place⟩ | ⟨a, member, place⟩
  · rw [← ExtTreeSet.mem_toList, ← covers.json] at member
    obtain ⟨entry, inImage, rfl⟩ := List.mem_map.mp member
    exact .inl (List.mem_flatMap.mpr ⟨entry, inImage, mem_entryWrites entry place⟩)
  · rw [← ExtTreeSet.mem_toList, ← covers.blobs] at member
    obtain ⟨entry, inImage, rfl⟩ := List.mem_map.mp member
    exact .inr (List.mem_flatMap.mpr ⟨entry, inImage, mem_entryWrites entry place⟩)

/-- From any disturbed disk, a whole restore ends in the state the image describes. -/
theorem Disturbed.restore (h : engine.Disturbed format readSet origin disk)
    (noLegacy : NoLegacy origin) (covers : Covers readSet image)
    {events : List MemoryStoreEvent}
    (log : image.events = .append (origin.content eventsPath).length events)
    : engine.Restored format readSet origin image events
        (run disk (engine.entryEffects format image ++ restoreEvents format image.events)) := by
  have whole := h.cut_restore noLegacy covers log
    (engine.entryEffects format image ++ restoreEvents format image.events).length
  rw [List.take_length] at whole
  refine ⟨?_, whole.bystanders, ?_⟩
  · intro path slot
    rw [run_append, log, (restoreEvents_confined _ _).run _ (slotFile_ne_eventsPath slot),
      entryEffects_settles]
    exact settle_congr (.inl (covers.assigns slot))
  · have entries := h.cut_entries noLegacy covers
      (engine.entryEffects format image).length
    rw [List.take_length] at entries
    rw [run_append, log, content_restoreEvents events entries.log]

/-- Writing or removing a journal leaves a restored store restored. -/
theorem Restored.journal {events : List MemoryStoreEvent}
    (h : engine.Restored format readSet origin image events disk) {effects : List Effect}
    (journal : Confined effects
      (fun p => p = transactionMarkerPath ∨ p = transactionMarkerPath.tmp))
    : engine.Restored format readSet origin image events (run disk effects) := by
  have kept : ∀ path : FilePath, path ≠ transactionMarkerPath
      → path ≠ transactionMarkerPath.tmp
      → (run disk effects).files[path]? = disk.files[path]? :=
    fun path marker scratch => journal.run disk (not_or.mpr ⟨marker, scratch⟩)
  refine ⟨?_, ?_, ?_⟩
  · intro path slot
    rw [kept path _ _, h.slots path slot]
    all_goals
      rintro rfl
      rcases slot with ⟨a, -, place | place⟩ | ⟨a, -, place | place⟩
      all_goals
        have depth := congrArg (fun p : FilePath => p.dir.length) place
        simp [transactionMarkerPath, layout, FilePath.tmp, FilePath.withExtension] at depth
  · intro path bystander
    rw [kept path bystander.1 _, h.bystanders path bystander]
    rintro rfl
    exact bystander.2.1 rfl
  · rw [Disk.content, kept eventsPath (by decide) (by decide)]
    exact h.log

/-! ## The logical state -/

/-- The disks agree on everything but the journal and scratch files; an empty log counts as
a missing one.
-/
structure SameStore (disk disk' : Disk) : Prop where
  files : ∀ path : FilePath, path ≠ transactionMarkerPath → path.extension ≠ "tmp"
    → path ≠ eventsPath → disk.files[path]? = disk'.files[path]?
  log : disk.content eventsPath = disk'.content eventsPath

/-- Two restores of one image end in the same store. -/
theorem Restored.same {events : List MemoryStoreEvent} {disk' : Disk}
    (h : engine.Restored format readSet origin image events disk)
    (h' : engine.Restored format readSet origin image events disk')
    : SameStore disk disk' := by
  refine ⟨?_, h.log.trans h'.log.symm⟩
  intro path marker scratch log
  by_cases slot : engine.SlotFile format readSet path
  · rw [h.slots path slot, h'.slots path slot]
  · have bystander : engine.Bystander format readSet path := ⟨marker, scratch, log, slot⟩
    rw [h.bystanders path bystander, h'.bystanders path bystander]

/-- A restore of what was there, with no new event, ends in the original store. -/
theorem Restored.original (h : engine.Restored format readSet origin image [] disk)
    (covers : Covers readSet image)
    (current : ∀ write ∈ engine.imageWrites format image, write.1.extension ≠ "tmp"
      → origin.files[write.1]? = write.2)
    : SameStore disk origin := by
  refine ⟨?_, by simpa using h.log⟩
  intro path marker scratch log
  by_cases slot : engine.SlotFile format readSet path
  · rw [h.slots path slot]
    refine settle_eq (covers.assigns slot) ?_
    rintro write member rfl
    exact (current write member scratch).symm
  · exact h.bystanders path ⟨marker, scratch, log, slot⟩

end FileStoreEngine

end BeetleMemory.Store
