import Mathlib

/-! Texts, errors, addresses and capacity budgets shared by every store backend.
Counters of the source are machine words that the store keeps far below their limit, so
they are natural numbers here; saturating subtraction is the subtraction of naturals.
-/

namespace BeetleMemory.Store

open Std

/-! ## Texts -/

/-- File contents, blobs and serialized documents. -/
abbrev Bytes := List UInt8

/-- The UTF-8 bytes of a text, which is what the source's texts are made of. -/
def textBytes (text : String) : Bytes :=
  text.toList.flatMap String.utf8EncodeChar

/-- The length of a text in UTF-8 bytes. -/
def textLen (text : String) : Nat :=
  (textBytes text).length

/-- The characters with the Unicode property White_Space, which text trimming removes. -/
def isWhitespace (c : Char) : Bool :=
  let n := c.toNat
  (0x9 ≤ n && n ≤ 0xD) || n == 0x20 || n == 0x85 || n == 0xA0 || n == 0x1680
    || (0x2000 ≤ n && n ≤ 0x200A) || n == 0x2028 || n == 0x2029 || n == 0x202F
    || n == 0x205F || n == 0x3000

/-- Trimming the text leaves nothing. -/
def trimIsEmpty (text : String) : Bool :=
  text.toList.all isWhitespace

/-- The text begins with the given characters. -/
def startsWith (text start : String) : Bool :=
  start.toList.isPrefixOf text.toList

/-- The text without the given beginning, when it has it. -/
def dropStart (text start : String) : Option String :=
  if startsWith text start then some (String.ofList (text.toList.drop start.toList.length))
  else none

/-! ## Errors -/

/-- Why an admission has to be issued again. -/
inductive RuntimeBudgetReadmissionRequired where
  | staleOrExpired
  | superseded
deriving DecidableEq, Repr

/-- The errors the store raises: the stage that failed and what it says. -/
inductive Error where
  | config (stage message : String)
  | conflict (stage message : String)
  | readmission (stage : String) (source : RuntimeBudgetReadmissionRequired)
deriving DecidableEq, Repr

/-- The structured error of every exceeded budget. -/
def storeBudgetError (message : String) : Error :=
  .config "store_budget_exceeded" message

/-- (require condition error) stops with the error unless the condition holds. -/
def require (condition : Bool) (error : Error) : Except Error Unit :=
  if condition then .ok () else .error error

@[simp]
theorem require_eq_ok {condition : Bool} {error : Error} {done : Unit}
    : require condition error = .ok done ↔ condition = true := by
  cases condition <;> simp [require]

/-- A sequence that begins with a check. -/
theorem require_bind {β : Type} {condition : Bool} {error : Error} {rest : Unit → Except Error β}
    : (require condition error >>= rest) = if condition then rest () else .error error := by
  cases condition <;> rfl

/-! ## Addresses -/

/-- The logical address of a document or a blob. -/
structure Address where
  ns : String
  key : String
deriving DecidableEq, Repr

/-- Addresses are ordered by namespace, then by key. -/
instance : Ord Address :=
  ⟨compareLex (compareOn Address.ns) (compareOn Address.key)⟩

instance : TransOrd Address :=
  inferInstanceAs (TransCmp (compareLex (compareOn Address.ns) (compareOn Address.key)))

instance : LawfulEqOrd Address where
  eq_of_compare {a b} h := by
    obtain ⟨hns, hkey⟩ : compare a.ns b.ns = .eq ∧ compare a.key b.key = .eq := by
      simpa only [compare, compareLex, compareOn, Ordering.then_eq_eq] using h
    cases a
    cases b
    simp_all

/-! ## Capacity -/

/-- The limits a store or one operation on it works under. -/
structure StoreCapacityBudget where
  metricSourceMaxItems : Nat
  eventLogMaxItems : Nat
  kvMaxEntries : Nat
  blobMaxBytes : Nat
  snapshotMaxBytes : Nat
  logicalNamespaceMaxBytes : Nat
  logicalKeyMaxBytes : Nat
  eventRecordKeyMaxBytes : Nat
  exportMaxBytes : Nat
  importMaxBytes : Nat
deriving DecidableEq, Repr

namespace StoreCapacityBudget

/-- An open store admits an operation whose limits are all within its own. -/
def admitsRuntimeBudget (self budget : StoreCapacityBudget) : Bool :=
  budget.metricSourceMaxItems ≤ self.metricSourceMaxItems
    && budget.eventLogMaxItems ≤ self.eventLogMaxItems
    && budget.kvMaxEntries ≤ self.kvMaxEntries
    && budget.blobMaxBytes ≤ self.blobMaxBytes
    && budget.snapshotMaxBytes ≤ self.snapshotMaxBytes
    && budget.logicalNamespaceMaxBytes ≤ self.logicalNamespaceMaxBytes
    && budget.logicalKeyMaxBytes ≤ self.logicalKeyMaxBytes
    && budget.eventRecordKeyMaxBytes ≤ self.eventRecordKeyMaxBytes
    && budget.exportMaxBytes ≤ self.exportMaxBytes
    && budget.importMaxBytes ≤ self.importMaxBytes

end StoreCapacityBudget

/-- A namespace and a key are within the logical limits; the label names the caller. -/
def enforceLogicalKeyBudget (capacity : StoreCapacityBudget) (address : Address)
    (label : String)
    : Except Error Unit := do
  require (textLen address.ns ≤ capacity.logicalNamespaceMaxBytes)
    (storeBudgetError
      s!"{label} namespace bytes {textLen address.ns} exceed {capacity.logicalNamespaceMaxBytes}")
  require (textLen address.key ≤ capacity.logicalKeyMaxBytes)
    (storeBudgetError
      s!"{label} logical key bytes {textLen address.key} exceed {capacity.logicalKeyMaxBytes}")

end BeetleMemory.Store
