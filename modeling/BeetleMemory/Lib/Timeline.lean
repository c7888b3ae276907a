import Mathlib

/-! Timelines: items that each hold for a half-open span of time, where every item ends at the
moment the next one begins. The last item may hold for ever.
-/

namespace BeetleMemory.Timeline

variable {τ : Type} [LinearOrder τ]

/-- The times from a start on, up to a stop if there is one. -/
structure Span (τ : Type) where
  start : τ
  stop : Option τ

def Span.Contains (span : Span τ) (t : τ) : Prop :=
  span.start ≤ t ∧ ∀ stop ∈ span.stop, t < stop

/-- A span that is not empty. -/
def Span.Proper (span : Span τ) : Prop :=
  ∀ stop ∈ span.stop, span.start < stop

theorem Span.Proper.contains_start {span : Span τ} (proper : span.Proper)
    : span.Contains span.start :=
  ⟨le_rfl, proper⟩

variable {α : Type} {span : α → Span τ} {items : List α}

/-- Each item ends exactly where the next one begins. -/
structure Tiles (span : α → Span τ) (items : List α) : Prop where
  proper : ∀ a ∈ items, (span a).Proper
  meets : items.IsChain fun a b => (span a).stop = some (span b).start

namespace Tiles

theorem tail {a : α} (tiles : Tiles span (a :: items)) : Tiles span items :=
  ⟨fun b member => tiles.proper b (List.mem_cons_of_mem a member), tiles.meets.tail⟩

/-- No item of a timeline begins before its first one has ended. -/
theorem stop_le_start {a b : α} (tiles : Tiles span (a :: items)) (later : b ∈ items)
    : ∃ stop, (span a).stop = some stop ∧ stop ≤ (span b).start := by
  induction items generalizing a with
  | nil => simp at later
  | cons next rest ih =>
      have stops : (span a).stop = some (span next).start := tiles.meets.rel
      refine ⟨(span next).start, stops, ?_⟩
      rcases List.mem_cons.mp later with rfl | later
      · exact le_rfl
      · obtain ⟨stop, stopsNext, reaches⟩ := ih tiles.tail later
        have grows := tiles.tail.proper next (by simp) stop stopsNext
        exact (grows.trans_le reaches).le

/-- No time is in the spans of two items. -/
theorem disjoint (tiles : Tiles span items)
    : items.Pairwise fun a b => ∀ t, ¬((span a).Contains t ∧ (span b).Contains t) := by
  induction items with
  | nil => exact List.Pairwise.nil
  | cons a rest ih =>
      refine List.pairwise_cons.mpr ⟨?_, ih tiles.tail⟩
      rintro b later t ⟨early, late⟩
      obtain ⟨stop, stops, reaches⟩ := tiles.stop_le_start later
      exact absurd (early.2 stop stops) (not_lt.mpr (reaches.trans late.1))

end Tiles

end BeetleMemory.Timeline
