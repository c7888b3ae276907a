import Mathlib

/-! Counting and summing over finite ordered maps.
A map that is edited through a part of itself changes its size and its weighted totals by
what the part gains minus what the part loses.
-/

namespace OrderedMap

open Std

variable {α β : Type} [Ord α] [TransOrd α]

/-- (total weight entries) adds a weight over every binding of the map. -/
def total (weight : α → β → Nat) (entries : ExtTreeMap α β) : Nat :=
  (entries.toList.map (fun entry => weight entry.1 entry.2)).sum

/-- The size of a map is its total at weight one. -/
theorem size_eq_total (entries : ExtTreeMap α β)
    : entries.size = total (fun _ _ => 1) entries := by
  simp [total]

variable [LawfulEqOrd α]

/-- (Part inside part whole) says that part holds exactly the bindings of whole that lie
inside the given domain.
-/
structure Part (inside : α → Prop) (part whole : ExtTreeMap α β) : Prop where
  agree : ∀ a, inside a → part[a]? = whole[a]?
  empty : ∀ a, ¬ inside a → part[a]? = none

/-- What one address contributes to a total: its weight, or nothing when it is unbound. -/
def share (weight : α → β → Nat) (entries : ExtTreeMap α β) (a : α) : Nat :=
  entries[a]?.elim 0 (weight a)

omit [LawfulEqOrd α] in
/-- The test of a set for a new element, as a membership. -/
theorem not_contains_iff {seen : ExtTreeSet α} {a : α}
    : (!seen.contains a) = true ↔ a ∉ seen := by
  rw [Bool.not_eq_true', ← Bool.not_eq_true, ExtTreeSet.contains_iff_mem]

theorem keys_nodup (entries : ExtTreeMap α β) : entries.keys.Nodup := by
  have distinct := ExtTreeMap.distinct_keys (t := entries)
  refine distinct.imp ?_
  intro a b hne heq
  subst heq
  exact hne compare_self

theorem toList_nodup (entries : ExtTreeSet α) : entries.toList.Nodup := by
  have distinct := ExtTreeSet.distinct_toList (t := entries)
  refine distinct.imp ?_
  intro a b hne heq
  subst heq
  exact hne compare_self

/-- A map is the map of its own entries. -/
theorem ofList_toList (entries : ExtTreeMap α β)
    : ExtTreeMap.ofList entries.toList = entries := by
  refine ExtTreeMap.ext_getElem? fun a => ?_
  cases held : entries[a]? with
  | some v =>
      exact ExtTreeMap.getElem?_ofList_of_mem ReflCmp.compare_self
        ExtTreeMap.distinct_keys_toList (ExtTreeMap.mem_toList_iff_getElem?_eq_some.mpr held)
  | none =>
      classical
      refine ExtTreeMap.getElem?_ofList_of_contains_eq_false ?_
      simp only [List.contains_eq_mem, decide_eq_false_iff_not, List.mem_map]
      rintro ⟨⟨k, v⟩, member, rfl⟩
      rw [ExtTreeMap.mem_toList_iff_getElem?_eq_some, held] at member
      cases member

section Totals

variable [DecidableEq α]

/-- The addresses a map binds, as a finite set. -/
def support (entries : ExtTreeMap α β) : Finset α :=
  entries.keys.toFinset

theorem mem_support {entries : ExtTreeMap α β} {a : α}
    : a ∈ support entries ↔ entries[a]?.isSome := by
  rw [support, List.mem_toFinset, ExtTreeMap.mem_keys, ExtTreeMap.mem_iff_isSome_getElem?]

/-- A total is the sum of the shares of the bound addresses, since the keys of a map are
distinct and each entry of the list is the binding of its key.
-/
theorem total_eq_sum_support (weight : α → β → Nat) (entries : ExtTreeMap α β)
    : total weight entries = ∑ a ∈ support entries, share weight entries a := by
  have hshare : entries.toList.map (fun entry => weight entry.1 entry.2)
      = entries.keys.map (share weight entries) := by
    rw [← ExtTreeMap.map_fst_toList_eq_keys, List.map_map]
    apply List.map_congr_left
    intro entry member
    have found := ExtTreeMap.mem_toList_iff_getElem?_eq_some.mp member
    simp [share, found]
  rw [total, hshare, support, List.sum_toFinset _ (keys_nodup entries)]

/-- Unbound addresses add nothing, so any finite set that covers the support may be summed
over instead.
-/
theorem total_eq_sum {weight : α → β → Nat} {entries : ExtTreeMap α β} {cover : Finset α}
    (covers : support entries ⊆ cover)
    : total weight entries = ∑ a ∈ cover, share weight entries a := by
  rw [total_eq_sum_support]
  apply Finset.sum_subset covers
  intro a _ outside
  have unbound : entries[a]? = none := by
    simpa [mem_support] using outside
  simp [share, unbound]

/-- Editing a whole through one of its parts: the total of the new whole plus the total of
the old part is the total of the old whole plus the total of the new part.
-/
theorem total_exchange {inside : α → Prop} {part part' whole whole' : ExtTreeMap α β}
    (weight : α → β → Nat) (before : Part inside part whole) (after : Part inside part' whole')
    (outside : ∀ a, ¬ inside a → whole'[a]? = whole[a]?)
    : total weight whole' + total weight part
      = total weight whole + total weight part' := by
  classical
  let cover := (support whole ∪ support whole') ∪ (support part ∪ support part')
  have cWhole : support whole ⊆ cover := by grind
  have cWhole' : support whole' ⊆ cover := by grind
  have cPart : support part ⊆ cover := by grind
  have cPart' : support part' ⊆ cover := by grind
  rw [total_eq_sum cWhole', total_eq_sum cPart, total_eq_sum cWhole, total_eq_sum cPart',
    ← Finset.sum_add_distrib, ← Finset.sum_add_distrib]
  apply Finset.sum_congr rfl
  intro a _
  by_cases ha : inside a
  · simp only [share, before.agree a ha, after.agree a ha]
    omega
  · simp only [share, before.empty a ha, after.empty a ha, outside a ha]

/-- A part never weighs more than its whole. -/
theorem Part.total_le {inside : α → Prop} {part whole : ExtTreeMap α β}
    (weight : α → β → Nat) (h : Part inside part whole)
    : total weight part ≤ total weight whole := by
  classical
  have cPart : support part ⊆ support part ∪ support whole := Finset.subset_union_left
  have cWhole : support whole ⊆ support part ∪ support whole := Finset.subset_union_right
  rw [total_eq_sum cPart, total_eq_sum cWhole]
  apply Finset.sum_le_sum
  intro a _
  by_cases ha : inside a
  · simp [share, h.agree a ha]
  · simp [share, h.empty a ha]

end Totals

/-- (Within part whole) says that every binding of part is a binding of whole. -/
def Within (part whole : ExtTreeMap α β) : Prop :=
  ∀ (a : α) (v : β), part[a]? = some v → whole[a]? = some v

omit [LawfulEqOrd α] in
theorem within_empty (whole : ExtTreeMap α β) : Within ∅ whole := by
  intro a v h
  simp at h

theorem Within.insert {part whole : ExtTreeMap α β} (h : Within part whole) {a : α} {v : β}
    (bound : whole[a]? = some v)
    : Within (part.insert a v) whole := by
  intro b w hb
  rw [ExtTreeMap.getElem?_insert] at hb
  split at hb
  next same =>
    rw [Std.compare_eq_iff_eq] at same
    grind
  next => exact h b w hb

omit [LawfulEqOrd α] in
/-- A submap that agrees with the whole wherever it binds anything is a part of it. -/
theorem Within.part {part whole : ExtTreeMap α β} (h : Within part whole)
    : Part (fun a => part[a]? = whole[a]?) part whole where
  agree _ same := same
  empty a differ := by
    cases found : part[a]? with
    | none => rfl
    | some v => exact absurd (found.trans (h a v found).symm) differ

/-- (copyInto target source addresses) overwrites target with the bindings that source has
at the given addresses, one after another.
-/
def copyInto (target source : ExtTreeMap α β) (addresses : List α) : ExtTreeMap α β :=
  addresses.foldl
    (fun target a =>
      match source[a]? with
      | none => target
      | some v => target.insert a v)
    target

/-- The bindings whose address passes the test. -/
def retain (test : α → Bool) (entries : ExtTreeMap α β) : ExtTreeMap α β :=
  copyInto ∅ entries (entries.keys.filter test)

/-- Copying never leaves the source: a submap stays a submap. -/
theorem Within.copyInto {target source : ExtTreeMap α β} (h : Within target source)
    (addresses : List α)
    : Within (copyInto target source addresses) source := by
  induction addresses generalizing target with
  | nil => exact h
  | cons a rest ih =>
      simp only [OrderedMap.copyInto, List.foldl_cons]
      cases found : source[a]? with
      | none => exact ih h
      | some v => exact ih (h.insert found)

/-- Every copied address holds what the source holds there, provided the target was a
submap to begin with.
-/
theorem copyInto_getElem? {target source : ExtTreeMap α β} (h : Within target source)
    {addresses : List α} {a : α} (member : a ∈ addresses ∨ target[a]? = source[a]?)
    : (copyInto target source addresses)[a]? = source[a]? := by
  induction addresses generalizing target with
  | nil => simpa [copyInto] using member
  | cons b rest ih =>
      simp only [copyInto, List.foldl_cons]
      cases found : source[b]? with
      | none =>
          refine ih h ?_
          rcases member with member | same
          · rcases List.mem_cons.mp member with rfl | later
            · right
              rw [found]
              cases bound : target[a]? with
              | none => rfl
              | some v => rw [h a v bound] at found; cases found
            · exact .inl later
          · exact .inr same
      | some v =>
          refine ih (h.insert found) ?_
          rcases member with member | same
          · rcases List.mem_cons.mp member with rfl | later
            · right
              rw [ExtTreeMap.getElem?_insert_self, found]
            · exact .inl later
          · right
            rw [ExtTreeMap.getElem?_insert]
            split
            next eq =>
              rw [Std.compare_eq_iff_eq] at eq
              subst eq
              exact found.symm
            next => exact same

/-- Copying leaves every other address as it was. -/
theorem copyInto_of_notMem {target source : ExtTreeMap α β} {addresses : List α} {a : α}
    (h : a ∉ addresses)
    : (copyInto target source addresses)[a]? = target[a]? := by
  induction addresses generalizing target with
  | nil => rfl
  | cons b rest ih =>
      obtain ⟨ne, later⟩ : a ≠ b ∧ a ∉ rest := by simpa only [List.mem_cons, not_or] using h
      simp only [copyInto, List.foldl_cons]
      cases source[b]? with
      | none => exact ih later
      | some v =>
          refine (ih later).trans ?_
          simp [ExtTreeMap.getElem?_insert, ne.symm]

theorem retain_getElem? (test : α → Bool) (entries : ExtTreeMap α β) (a : α)
    : (retain test entries)[a]? = if test a then entries[a]? else none := by
  split
  next passes =>
    by_cases bound : a ∈ entries
    · exact copyInto_getElem? (within_empty _)
        (.inl (List.mem_filter.mpr ⟨ExtTreeMap.mem_keys.mpr bound, passes⟩))
    · rw [retain, copyInto_of_notMem
        (fun member => bound (ExtTreeMap.mem_keys.mp (List.mem_filter.mp member).1))]
      rw [ExtTreeMap.getElem?_eq_none bound]
      rfl
  next fails =>
    rw [retain, copyInto_of_notMem (fun member => fails (List.mem_filter.mp member).2)]
    rfl

/-- (Edit inside whole part' whole') says that whole' was obtained from whole by edits
inside the domain only, and that part' shows exactly what whole' holds there.
-/
structure Edit (inside : α → Prop) (whole part' whole' : ExtTreeMap α β) : Prop where
  part : Part inside part' whole'
  frame : ∀ a, ¬ inside a → whole'[a]? = whole[a]?

omit [LawfulEqOrd α] in
/-- Before any edit, a part shows its whole. -/
theorem Part.edit {inside : α → Prop} {part whole : ExtTreeMap α β} (h : Part inside part whole)
    : Edit inside whole part whole :=
  ⟨h, fun _ _ => rfl⟩

/-- A binding written inside the domain is written to part and whole alike. -/
theorem Edit.insert {inside : α → Prop} {whole part' whole' : ExtTreeMap α β}
    (h : Edit inside whole part' whole') {a : α} (ha : inside a) (v : β)
    : Edit inside whole (part'.insert a v) (whole'.insert a v) := by
  refine ⟨⟨?_, ?_⟩, ?_⟩
  · intro b hb
    simp only [ExtTreeMap.getElem?_insert, h.part.agree b hb]
  · intro b hb
    have differ : a ≠ b := fun same => hb (same ▸ ha)
    simp [ExtTreeMap.getElem?_insert, differ, h.part.empty b hb]
  · intro b hb
    have differ : a ≠ b := fun same => hb (same ▸ ha)
    simp [ExtTreeMap.getElem?_insert, differ, h.frame b hb]

/-- A binding removed inside the domain is removed from part and whole alike. -/
theorem Edit.erase {inside : α → Prop} {whole part' whole' : ExtTreeMap α β}
    (h : Edit inside whole part' whole') {a : α} (ha : inside a)
    : Edit inside whole (part'.erase a) (whole'.erase a) := by
  refine ⟨⟨?_, ?_⟩, ?_⟩
  · intro b hb
    simp only [ExtTreeMap.getElem?_erase, h.part.agree b hb]
  · intro b hb
    simp [ExtTreeMap.getElem?_erase, h.part.empty b hb]
  · intro b hb
    have differ : a ≠ b := fun same => hb (same ▸ ha)
    simp [ExtTreeMap.getElem?_erase, differ, h.frame b hb]

/-- The accounting rule: the total of the edited whole is the total before, minus what the
part weighed, plus what it weighs now.
-/
theorem Edit.total_eq [DecidableEq α] {inside : α → Prop}
    {part whole part' whole' : ExtTreeMap α β} (weight : α → β → Nat)
    (before : Part inside part whole) (h : Edit inside whole part' whole')
    : total weight whole' = total weight whole - total weight part + total weight part' := by
  have exchange := total_exchange weight before h.part h.frame
  have bounded := before.total_le weight
  omega

theorem Edit.size_eq [DecidableEq α] {inside : α → Prop}
    {part whole part' whole' : ExtTreeMap α β} (before : Part inside part whole)
    (h : Edit inside whole part' whole')
    : whole'.size = whole.size - part.size + part'.size := by
  simpa only [size_eq_total] using h.total_eq (fun _ _ => 1) before

end OrderedMap
