import BeetleMemory.Store.Request

/-! The admission a commit carries and the fence every backend applies to it. -/

namespace BeetleMemory.Store

/-- What the runtime resource probe observed when the admission was issued. -/
structure ResourceSnapshot where
  stale : Bool
  observedAtUnixSecs : Nat
  ttlMs : Nat
deriving DecidableEq, Repr

/-- A clock before the observation also counts as expired. -/
def ResourceSnapshot.isExpired (self : ResourceSnapshot) (nowSecs : Nat) : Bool :=
  nowSecs < self.observedAtUnixSecs
    || (self.ttlMs + 999) / 1000 ≤ nowSecs - self.observedAtUnixSecs

/-- An issued admission. The authority is a token compared by identity; the runtime budget
authority answers with the id and the limits of its current, validated report.
-/
structure StoreTransactionAdmission where
  authority : Nat
  runtimeBudgetAuthority : Option (Nat → Except Error (String × StoreCapacityBudget))
  reportId : String
  operationCapacity : StoreCapacityBudget
  resourceSnapshot : Option ResourceSnapshot

namespace StoreTransactionAdmission

private def stage : String := "memory_write_transaction_resource_admission"

/-- The checks made under the backend's lock before anything is read. -/
def validateInsideEngineFence (self : StoreTransactionAdmission)
    (engineCapacity : StoreCapacityBudget) (authority nowSecs : Nat)
    : Except Error Unit := do
  require (self.authority = authority)
    (.config stage "transaction admission was issued by a different store authority")
  require
    (!self.resourceSnapshot.any (fun snapshot => snapshot.stale || snapshot.isExpired nowSecs))
    (.readmission stage .staleOrExpired)
  match self.runtimeBudgetAuthority with
  | none => pure ()
  | some currentReport => do
      let current ← currentReport nowSecs
      require (current.1 = self.reportId && current.2 = self.operationCapacity)
        (.readmission stage .superseded)
  require (engineCapacity.admitsRuntimeBudget self.operationCapacity)
    (.config stage "transaction admission exceeds the backend open capacity")

/-- The admission a test harness issues: no snapshot to expire and no report to compare. -/
def forNonproductionHarness (operationCapacity : StoreCapacityBudget) (authority : Nat)
    : StoreTransactionAdmission where
  authority := authority
  runtimeBudgetAuthority := none
  reportId := "nonproduction-replay-harness"
  operationCapacity := operationCapacity
  resourceSnapshot := none

end StoreTransactionAdmission

end BeetleMemory.Store
