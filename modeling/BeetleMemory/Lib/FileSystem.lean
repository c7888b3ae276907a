import BeetleMemory.Lib.OrderedMap

/-! A small file system: what single effects do to the files and directories below one
root, and how a list of effects that replaces whole files behaves when it is cut short
and when it is run again.
-/

namespace FileSystem

open Std

/-- A file below the root. Its name is the stem, a dot and the extension; the extension
holds no dot, so that the pair and the name determine each other.
-/
structure FilePath where
  dir : List String
  stem : String
  extension : String
deriving DecidableEq, Repr

namespace FilePath

instance : Ord FilePath :=
  ⟨compareLex (compareOn dir) (compareLex (compareOn stem) (compareOn extension))⟩

instance : TransOrd FilePath :=
  inferInstanceAs (TransCmp
    (compareLex (compareOn dir) (compareLex (compareOn stem) (compareOn extension))))

instance : LawfulEqOrd FilePath where
  eq_of_compare {a b} h := by
    obtain ⟨hdir, hstem, hext⟩ : compare a.dir b.dir = .eq ∧ compare a.stem b.stem = .eq
        ∧ compare a.extension b.extension = .eq := by
      simpa only [compare, compareLex, compareOn, Ordering.then_eq_eq] using h
    rw [Std.compare_eq_iff_eq] at hdir hstem hext
    cases a
    cases b
    simp_all

/-- The name of the file in its directory. -/
def fileName (path : FilePath) : String :=
  path.stem ++ "." ++ path.extension

/-- The same file with another extension. -/
def withExtension (path : FilePath) (extension : String) : FilePath :=
  { path with extension := extension }

/-- The scratch file an atomic write goes through. -/
def tmp (path : FilePath) : FilePath :=
  path.withExtension "tmp"

end FilePath

/-- The files and the directories below the root. -/
structure Disk where
  files : ExtTreeMap FilePath (List UInt8)
  dirs : ExtTreeSet (List String)
deriving DecidableEq

/-- A root nothing was written to. -/
def Disk.empty : Disk :=
  ⟨∅, ∅⟩

/-- The bytes of a file; a missing file has none. -/
def Disk.content (disk : Disk) (path : FilePath) : List UInt8 :=
  disk.files[path]?.getD []

/-- The names of the directories inside a directory. -/
def Disk.childDirs (disk : Disk) (dir : List String) : List String :=
  disk.dirs.toList.filterMap fun child =>
    if child.dropLast = dir then child.getLast? else none

/-- The files inside a directory. -/
def Disk.childFiles (disk : Disk) (dir : List String) : List FilePath :=
  disk.files.keys.filter fun path => path.dir = dir

/-- What happens to a disk in one piece: a crash falls between two effects. -/
inductive Effect where
  | createDirAll (dir : List String)
  | createFile (path : FilePath)
  | openOrCreate (path : FilePath)
  | appendByte (path : FilePath) (byte : UInt8)
  | rename (source target : FilePath)
  | removeFile (path : FilePath)
  | setLen (path : FilePath) (length : Nat)
deriving DecidableEq, Repr

/-- The disk after one effect. -/
def Effect.apply (disk : Disk) : Effect → Disk
  | .createDirAll dir => { disk with dirs := disk.dirs.insertMany dir.inits }
  | .createFile path => { disk with files := disk.files.insert path [] }
  | .openOrCreate path => { disk with files := disk.files.insertIfNew path [] }
  | .appendByte path byte =>
      { disk with files := disk.files.insert path (disk.content path ++ [byte]) }
  | .rename source target =>
      match disk.files[source]? with
      | none => disk
      | some bytes => { disk with files := (disk.files.erase source).insert target bytes }
  | .removeFile path => { disk with files := disk.files.erase path }
  | .setLen path length =>
      let bytes := disk.content path
      { disk with
        files := disk.files.insert path
          (bytes.take length ++ List.replicate (length - bytes.length) 0) }

/-- The disk after a list of effects. -/
def run (disk : Disk) (effects : List Effect) : Disk :=
  effects.foldl Effect.apply disk

@[simp]
theorem run_nil (disk : Disk)
    : run disk [] = disk :=
  rfl

@[simp]
theorem run_cons (disk : Disk) (effect : Effect) (effects : List Effect)
    : run disk (effect :: effects) = run (effect.apply disk) effects :=
  rfl

theorem run_append (disk : Disk) (first second : List Effect)
    : run disk (first ++ second) = run (run disk first) second :=
  List.foldl_append

/-- The bytes written one after the other at the end of a file. -/
def appendBytes (path : FilePath) (bytes : List UInt8) : List Effect :=
  bytes.map (.appendByte path)

/-- A file replaced as a whole: written under its scratch name, then renamed. -/
def atomicWrite (path : FilePath) (bytes : List UInt8) : List Effect :=
  .createDirAll path.dir :: .createFile path.tmp
    :: (appendBytes path.tmp bytes ++ [.rename path.tmp path])

/-! ## What effects leave alone -/

/-- The files an effect can change. -/
def Effect.touched : Effect → List FilePath
  | .createDirAll _ => []
  | .createFile path | .openOrCreate path | .appendByte path _ => [path]
  | .removeFile path | .setLen path _ => [path]
  | .rename source target => [source, target]

/-- A file an effect does not touch keeps its bytes. -/
theorem Effect.apply_untouched {disk : Disk} {effect : Effect} {path : FilePath}
    (h : path ∉ effect.touched)
    : (effect.apply disk).files[path]? = disk.files[path]? := by
  cases effect with
  | createDirAll dir => rfl
  | createFile target =>
      have ne : path ≠ target := by simpa [touched] using h
      simp [apply, ExtTreeMap.getElem?_insert, ne.symm]
  | openOrCreate target =>
      have ne : path ≠ target := by simpa [touched] using h
      simp [apply, ExtTreeMap.getElem?_insertIfNew, ne.symm]
  | appendByte target byte =>
      have ne : path ≠ target := by simpa [touched] using h
      simp [apply, ExtTreeMap.getElem?_insert, ne.symm]
  | removeFile target =>
      have ne : path ≠ target := by simpa [touched] using h
      simp [apply, ExtTreeMap.getElem?_erase, ne.symm]
  | setLen target length =>
      have ne : path ≠ target := by simpa [touched] using h
      simp [apply, ExtTreeMap.getElem?_insert, ne.symm]
  | rename source target =>
      obtain ⟨hs, ht⟩ : path ≠ source ∧ path ≠ target := by simpa [touched] using h
      simp only [apply]
      split
      · rfl
      · simp [ExtTreeMap.getElem?_insert, ExtTreeMap.getElem?_erase, hs.symm, ht.symm]

/-- Every effect of the list touches only files of the given set. -/
def Confined (effects : List Effect) (region : FilePath → Prop) : Prop :=
  ∀ effect ∈ effects, ∀ path ∈ effect.touched, region path

/-- What every effect of a list preserves, every beginning of the list preserves. Witness:
induction on the list.
-/
theorem run_take_invariant {effects : List Effect} (invariant : Disk → Prop)
    (preserves : ∀ effect ∈ effects, ∀ disk, invariant disk → invariant (effect.apply disk))
    {disk : Disk} (start : invariant disk) (cut : Nat)
    : invariant (run disk (effects.take cut)) := by
  induction effects generalizing disk cut with
  | nil => simpa using start
  | cons effect rest ih =>
      cases cut with
      | zero => simpa using start
      | succ cut =>
          exact ih (fun e member => preserves e (List.mem_cons_of_mem _ member))
            (preserves effect (by simp) disk start) cut

/-- However many effects of a confined list have happened, a file outside its region is
as it was.
-/
theorem Confined.run_take {effects : List Effect} {region : FilePath → Prop}
    (h : Confined effects region) (disk : Disk) (cut : Nat) {path : FilePath}
    (outside : ¬ region path)
    : (run disk (effects.take cut)).files[path]? = disk.files[path]? := by
  refine run_take_invariant (fun d => d.files[path]? = disk.files[path]?) ?_ rfl cut
  intro effect member d same
  rw [Effect.apply_untouched fun touched => outside (h effect member path touched), same]

theorem Confined.run {effects : List Effect} {region : FilePath → Prop}
    (h : Confined effects region) (disk : Disk) {path : FilePath} (outside : ¬ region path)
    : (FileSystem.run disk effects).files[path]? = disk.files[path]? := by
  simpa using h.run_take disk effects.length outside

theorem Confined.append {first second : List Effect} {region : FilePath → Prop}
    (hf : Confined first region) (hs : Confined second region)
    : Confined (first ++ second) region := by
  intro effect member
  rcases List.mem_append.mp member with member | member
  · exact hf effect member
  · exact hs effect member

theorem Confined.mono {effects : List Effect} {region wider : FilePath → Prop}
    (h : Confined effects region) (sub : ∀ path, region path → wider path)
    : Confined effects wider :=
  fun effect member path touched => sub path (h effect member path touched)

theorem appendBytes_confined (path : FilePath) (bytes : List UInt8)
    : Confined (appendBytes path bytes) (· = path) := by
  intro effect member
  obtain ⟨byte, -, rfl⟩ := List.mem_map.mp member
  simp [Effect.touched]

/-- An atomic write touches the file and its scratch file. -/
theorem atomicWrite_confined (path : FilePath) (bytes : List UInt8)
    : Confined (atomicWrite path bytes) (fun p => p = path ∨ p = path.tmp) := by
  intro effect member p touched
  simp only [atomicWrite, List.mem_cons, List.mem_append, List.not_mem_nil, or_false]
    at member
  rcases member with rfl | rfl | member | rfl
  · simp [Effect.touched] at touched
  · exact .inr (by simpa [Effect.touched] using touched)
  · exact .inr (appendBytes_confined _ _ _ member _ touched)
  · simpa [Effect.touched, or_comm] using touched

/-- Until its last effect an atomic write leaves the file as it was. -/
theorem atomicWrite_cut {path : FilePath} (bytes : List UInt8) (h : path ≠ path.tmp)
    (disk : Disk) {cut : Nat} (short : cut < (atomicWrite path bytes).length)
    : (run disk ((atomicWrite path bytes).take cut)).files[path]? = disk.files[path]? := by
  let scratch : List Effect :=
    .createDirAll path.dir :: .createFile path.tmp :: appendBytes path.tmp bytes
  have whole : atomicWrite path bytes = scratch ++ [.rename path.tmp path] := rfl
  have confined : Confined scratch (· = path.tmp) := by
    intro effect member p touched
    rcases List.mem_cons.mp member with rfl | member
    · simp [Effect.touched] at touched
    · rcases List.mem_cons.mp member with rfl | member
      · simpa [Effect.touched] using touched
      · exact appendBytes_confined _ _ _ member _ touched
  have before : cut ≤ scratch.length := by
    rw [whole, List.length_append, List.length_singleton] at short
    omega
  rw [whole, List.take_append_of_le_length before]
  exact confined.run_take disk cut h

/-! ## What effects leave behind -/

@[simp]
theorem content_createDirAll (disk : Disk) (dir : List String) (path : FilePath)
    : ((Effect.createDirAll dir).apply disk).content path = disk.content path :=
  rfl

@[simp]
theorem content_openOrCreate (disk : Disk) (path : FilePath)
    : ((Effect.openOrCreate path).apply disk).content path = disk.content path := by
  simp only [Effect.apply, Disk.content, ExtTreeMap.getElem?_insertIfNew]
  by_cases h : path ∈ disk.files
  · simp [h]
  · simp [h]

@[simp]
theorem content_appendByte (disk : Disk) (path : FilePath) (byte : UInt8)
    : ((Effect.appendByte path byte).apply disk).content path
      = disk.content path ++ [byte] := by
  simp [Effect.apply, Disk.content]

/-- Cutting a file back keeps the beginning that fills the new length. -/
theorem content_setLen {disk : Disk} {path : FilePath} {start : List UInt8}
    (h : start <+: disk.content path)
    : ((Effect.setLen path start.length).apply disk).content path = start := by
  obtain ⟨rest, h⟩ := h
  simp only [Effect.apply]
  rw [← h]
  simp [Disk.content]

theorem content_appendBytes (disk : Disk) (path : FilePath) (bytes : List UInt8)
    : (run disk (appendBytes path bytes)).content path = disk.content path ++ bytes := by
  induction bytes generalizing disk with
  | nil => simp [appendBytes]
  | cons byte rest ih => simpa [appendBytes] using ih ((Effect.appendByte path byte).apply disk)

/-- Appending bytes to a file that is there adds them at its end. -/
theorem getElem?_appendBytes {disk : Disk} {path : FilePath} {old : List UInt8}
    (bytes : List UInt8) (h : disk.files[path]? = some old)
    : (run disk (appendBytes path bytes)).files[path]? = some (old ++ bytes) := by
  induction bytes generalizing disk old with
  | nil => simpa [appendBytes] using h
  | cons byte rest ih =>
      have once : ((Effect.appendByte path byte).apply disk).files[path]?
          = some (old ++ [byte]) := by
        simp [Effect.apply, Disk.content, h]
      simpa [appendBytes] using ih once

/-- The files once the assignments are made in their order. -/
def settle (writes : List (FilePath × Option (List UInt8)))
    (before : FilePath → Option (List UInt8))
    : FilePath → Option (List UInt8) :=
  writes.foldl (fun files write => Function.update files write.1 write.2) before

theorem settle_append (first second : List (FilePath × Option (List UInt8)))
    (before : FilePath → Option (List UInt8))
    : settle (first ++ second) before = settle second (settle first before) :=
  List.foldl_append

/-- A file no assignment names is as it was. -/
theorem settle_of_notMem {writes : List (FilePath × Option (List UInt8))}
    {before : FilePath → Option (List UInt8)} {path : FilePath}
    (h : path ∉ writes.map Prod.fst)
    : settle writes before path = before path := by
  induction writes generalizing before with
  | nil => rfl
  | cons write rest ih =>
      obtain ⟨ne, later⟩ : path ≠ write.1 ∧ path ∉ rest.map Prod.fst := by
        simpa only [List.map_cons, List.mem_cons, not_or] using h
      have step : settle rest (Function.update before write.1 write.2) path = _ := ih later
      simpa [settle, Function.update_of_ne ne] using step

/-- What an assigned file holds does not depend on what was there before. Witness: the
last assignment decides; induction on the assignments.
-/
theorem settle_congr {writes : List (FilePath × Option (List UInt8))}
    {before before' : FilePath → Option (List UInt8)} {path : FilePath}
    (h : path ∈ writes.map Prod.fst ∨ before path = before' path)
    : settle writes before path = settle writes before' path := by
  induction writes generalizing before before' with
  | nil =>
      rcases h with member | same
      · simp at member
      · exact same
  | cons write rest ih =>
      apply ih
      by_cases assigned : path = write.1
      · subst assigned
        simp
      · rcases h with member | same
        · exact .inl ((List.mem_cons.mp member).resolve_left assigned)
        · exact .inr (by simp [Function.update_of_ne assigned, same])

/-- When every assignment to a file is the same, the file ends up with it. -/
theorem settle_eq {writes : List (FilePath × Option (List UInt8))}
    {before : FilePath → Option (List UInt8)} {path : FilePath}
    {bytes : Option (List UInt8)} (member : path ∈ writes.map Prod.fst)
    (same : ∀ write ∈ writes, write.1 = path → write.2 = bytes)
    : settle writes before path = bytes := by
  induction writes generalizing before with
  | nil => simp at member
  | cons write rest ih =>
      by_cases later : path ∈ rest.map Prod.fst
      · exact ih later fun w hw => same w (List.mem_cons_of_mem _ hw)
      · have here : path = write.1 := (List.mem_cons.mp member).resolve_right later
        calc settle (write :: rest) before path
            = Function.update before write.1 write.2 path := settle_of_notMem later
          _ = bytes := by simp [here, same write (by simp) here.symm]

/-- The effects come down to the assignments, whatever disk they run on. -/
def Settles (effects : List Effect) (writes : List (FilePath × Option (List UInt8)))
    : Prop :=
  ∀ disk : Disk, ∀ path : FilePath,
    (run disk effects).files[path]? = settle writes (fun p => disk.files[p]?) path

theorem Settles.nil : Settles [] [] :=
  fun _ _ => rfl

theorem Settles.append {first second : List Effect}
    {writes writes' : List (FilePath × Option (List UInt8))} (hf : Settles first writes)
    (hs : Settles second writes')
    : Settles (first ++ second) (writes ++ writes') := by
  intro disk path
  have start : (fun p => (run disk first).files[p]?)
      = settle writes (fun p => disk.files[p]?) := funext (hf disk)
  rw [run_append, hs, start, settle_append]

theorem removeFile_settles (path : FilePath)
    : Settles [.removeFile path] [(path, none)] := by
  intro disk p
  by_cases h : p = path
  · subst h
    simp [settle, Effect.apply]
  · simp [settle, Effect.apply, ExtTreeMap.getElem?_erase, Function.update_of_ne h,
      Ne.symm h]

/-- An atomic write leaves the new bytes and no scratch file. -/
theorem atomicWrite_settles {path : FilePath} (bytes : List UInt8) (h : path ≠ path.tmp)
    : Settles (atomicWrite path bytes) [(path.tmp, none), (path, some bytes)] := by
  intro disk p
  obtain ⟨created, hcreated⟩ : ∃ created, created = (Effect.createFile path.tmp).apply
      ((Effect.createDirAll path.dir).apply disk) := ⟨_, rfl⟩
  obtain ⟨written, hwritten⟩ : ∃ written,
      written = run created (appendBytes path.tmp bytes) := ⟨_, rfl⟩
  have whole : written.files[path.tmp]? = some bytes := by
    rw [hwritten]
    have started : created.files[path.tmp]? = some [] := by simp [hcreated, Effect.apply]
    simpa using getElem?_appendBytes bytes started
  have after : run disk (atomicWrite path bytes)
      = { written with files := (written.files.erase path.tmp).insert path bytes } := by
    simp only [atomicWrite, run_cons, run_append, run_nil, ← hcreated, ← hwritten]
    simp [Effect.apply, whole]
  rw [after]
  by_cases target : p = path
  · subst target
    simp [settle]
  · by_cases scratch : p = path.tmp
    · subst scratch
      simp [settle, h, Function.update_of_ne target]
    · have kept : written.files[p]? = disk.files[p]? := by
        rw [hwritten, (appendBytes_confined path.tmp bytes).run created scratch]
        simp [hcreated, Effect.apply, ExtTreeMap.getElem?_insert, Ne.symm scratch]
      simp [settle, ExtTreeMap.getElem?_insert, ExtTreeMap.getElem?_erase,
        Ne.symm target, Ne.symm scratch, Function.update_of_ne target,
        Function.update_of_ne scratch, kept]

end FileSystem
