import Mathlib

/-! A search that takes pending items one by one and finds others at each of them. What it visits
in the end is what can be reached, whatever the order in which the pending items are taken.
-/

namespace BeetleMemory.Worklist

open Relation (ReflTransGen)

variable {κ : Type} {start : κ → Prop} {links : κ → κ → Prop}

/-- The item can be reached from a start along the links. -/
def Reached (start : κ → Prop) (links : κ → κ → Prop) (a : κ) : Prop :=
  ∃ s, start s ∧ ReflTransGen links s a

theorem Reached.next {a b : κ} (reached : Reached start links a) (link : links a b)
    : Reached start links b := by
  obtain ⟨s, starts, path⟩ := reached
  exact ⟨s, starts, path.tail link⟩

/-- A search part of the way: what it knows is reachable, and what a visited item links to is
known.
-/
structure Explored (start : κ → Prop) (links : κ → κ → Prop) (visited pending : κ → Prop)
    : Prop where
  sound : ∀ a, visited a ∨ pending a → Reached start links a
  rooted : ∀ a, start a → visited a ∨ pending a
  closed : ∀ a b, visited a → links a b → visited b ∨ pending b

namespace Explored

variable {visited pending nextVisited nextPending : κ → Prop}

theorem begin (none : ∀ a, ¬ visited a) (starts : ∀ a, pending a ↔ start a)
    : Explored start links visited pending where
  sound := fun a known => ⟨a, (starts a).mp (known.resolve_left (none a)), .refl⟩
  rooted := fun a here => Or.inr ((starts a).mpr here)
  closed := fun a _ here => absurd here (none a)

/-- One pending item is visited, and what it links to becomes known. -/
theorem visit (explored : Explored start links visited pending) {a : κ} (taken : pending a)
    (visits : ∀ b, nextVisited b ↔ visited b ∨ b = a)
    (finds : ∀ b, nextVisited b ∨ nextPending b ↔ (visited b ∨ pending b) ∨ links a b)
    : Explored start links nextVisited nextPending where
  sound := by
    intro b known
    rcases (finds b).mp known with before | link
    · exact explored.sound b before
    · exact (explored.sound a (Or.inr taken)).next link
  rooted := fun b here => (finds b).mpr (Or.inl (explored.rooted b here))
  closed := by
    intro b c here link
    rcases (visits b).mp here with before | rfl
    · exact (finds c).mpr (Or.inl (explored.closed b c before link))
    · exact (finds c).mpr (Or.inr link)

/-- A pending item that was visited is dropped. -/
theorem drop (explored : Explored start links visited pending)
    (same : ∀ b, visited b ∨ nextPending b ↔ visited b ∨ pending b)
    : Explored start links visited nextPending where
  sound := fun b known => explored.sound b ((same b).mp known)
  rooted := fun b here => (same b).mpr (explored.rooted b here)
  closed := fun b c here link => (same c).mpr (explored.closed b c here link)

/-- With nothing pending exactly what can be reached is visited. -/
theorem finish (explored : Explored start links visited pending) (done : ∀ a, ¬ pending a) (a : κ)
    : visited a ↔ Reached start links a := by
  refine ⟨fun here => explored.sound a (Or.inl here), ?_⟩
  rintro ⟨s, starts, path⟩
  induction path with
  | refl => exact (explored.rooted s starts).resolve_right (done s)
  | tail _ link ih => exact (explored.closed _ _ ih link).resolve_right (done _)

end Explored

end BeetleMemory.Worklist
