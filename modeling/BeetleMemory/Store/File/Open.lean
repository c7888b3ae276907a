import BeetleMemory.Store.File.Commit

/-! A root as opening a new file store leaves it. -/

namespace BeetleMemory.Store

open Std FileSystem

def manifestPath : FilePath :=
  ⟨[], "manifest", "json"⟩

def transactionLockPath : FilePath :=
  ⟨[], ".beetle-memory", "lock"⟩

/-- A new store: the lock, the manifest and the four lanes. -/
def openedDisk (manifest : Bytes) : Disk where
  files := (ExtTreeMap.empty.insert transactionLockPath []).insert manifestPath manifest
  dirs := ExtTreeSet.ofList [[], ["events"], ["kv"], ["blob"], ["snapshots"]]

end BeetleMemory.Store
