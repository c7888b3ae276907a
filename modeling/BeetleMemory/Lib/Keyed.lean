import Mathlib

/-! Lists whose items carry a key, read as the map that inserting the items in order builds: a
later item takes the place of an earlier one with the same key. Sets that are built by inserting
are compared by their elements.
-/

namespace BeetleMemory.Keyed

variable {α κ : Type}

section Maps

variable [DecidableEq κ]

/-- What the map built from the items holds under a key. -/
def lookup (key : α → κ) (items : List α) (k : κ) : Option α :=
  items.reverse.find? fun a => key a = k

theorem lookup_eq_none_iff {key : α → κ} {items : List α} {k : κ}
    : lookup key items k = none ↔ ∀ a ∈ items, key a ≠ k := by
  simp [lookup]

theorem lookup_some {key : α → κ} {items : List α} {k : κ} {a : α}
    (found : lookup key items k = some a)
    : a ∈ items ∧ key a = k := by
  refine ⟨List.mem_reverse.mp (List.mem_of_find?_eq_some found), ?_⟩
  simpa using List.find?_some found

/-- With distinct keys the map holds exactly the items. -/
theorem lookup_eq_some_iff {key : α → κ} {items : List α} (distinct : (items.map key).Nodup)
    {k : κ} {a : α}
    : lookup key items k = some a ↔ a ∈ items ∧ key a = k := by
  refine ⟨lookup_some, ?_⟩
  rintro ⟨member, rfl⟩
  cases found : lookup key items (key a) with
  | none => exact absurd rfl (lookup_eq_none_iff.mp found a member)
  | some b =>
      obtain ⟨memberB, same⟩ := lookup_some found
      rw [List.inj_on_of_nodup_map distinct memberB member same]

/-- Items that do not have the key do not matter. -/
theorem lookup_filter {key : α → κ} {items : List α} {k : κ} {keep : α → Bool}
    (kept : ∀ a ∈ items, key a = k → keep a = true)
    : lookup key (items.filter keep) k = lookup key items k := by
  simp only [lookup, ← List.filter_reverse, List.find?_filter]
  refine List.find?_congr fun a member => ?_
  have inside := kept a (List.mem_reverse.mp member)
  by_cases same : key a = k <;> simp_all

theorem lookup_concat {key : α → κ} {items : List α} {k : κ} {a : α}
    : lookup key (items ++ [a]) k = if key a = k then some a else lookup key items k := by
  by_cases same : key a = k <;> simp [lookup, same]

/-- With distinct keys the order of the items does not matter. -/
theorem lookup_eq_of_perm {key : α → κ} {items other : List α}
    (distinct : (items.map key).Nodup) (perm : items.Perm other) (k : κ)
    : lookup key items k = lookup key other k := by
  have distinctOther : (other.map key).Nodup := (perm.map key).nodup_iff.mp distinct
  ext a
  rw [lookup_eq_some_iff distinct, lookup_eq_some_iff distinctOther, perm.mem_iff]

end Maps

/-- A search finds the only item that passes the test. -/
theorem find?_eq_some_of_unique {test : α → Bool} {items : List α} {a : α} (member : a ∈ items)
    (passes : test a = true) (unique : ∀ b ∈ items, test b = true → b = a)
    : items.find? test = some a := by
  cases found : items.find? test with
  | none => exact absurd passes (List.find?_eq_none.mp found a member)
  | some b => rw [unique b (List.mem_of_find?_eq_some found) (List.find?_some found)]

section Sorting

variable [LinearOrder κ]

/-- The items by increasing key. -/
def sortBy (key : α → κ) (items : List α) : List α :=
  items.insertionSort fun a b => key a ≤ key b

theorem sortBy_perm (key : α → κ) (items : List α) : (sortBy key items).Perm items :=
  List.perm_insertionSort _ _

theorem sortBy_sorted (key : α → κ) (items : List α)
    : (sortBy key items).Pairwise fun a b => key a ≤ key b := by
  have total : Std.Total fun a b : α => key a ≤ key b := ⟨fun a b => le_total (key a) (key b)⟩
  have transitive : IsTrans α fun a b => key a ≤ key b := ⟨fun _ _ _ h h' => h.trans h'⟩
  exact List.pairwise_insertionSort _ _

/-- Distinct keys leave one order only. -/
theorem sortBy_eq_of_perm {key : α → κ} {items other : List α}
    (distinct : (items.map key).Nodup) (perm : items.Perm other)
    : sortBy key items = sortBy key other := by
  have same : (sortBy key items).Perm (sortBy key other) :=
    (sortBy_perm key items).trans (perm.trans (sortBy_perm key other).symm)
  refine same.eq_of_pairwise ?_ (sortBy_sorted key items) (sortBy_sorted key other)
  intro a b ha hb below above
  have inA := (sortBy_perm key items).mem_iff.mp ha
  have inB := perm.mem_iff.mpr ((sortBy_perm key other).mem_iff.mp hb)
  exact List.inj_on_of_nodup_map distinct inA inB (below.antisymm above)

/-- Items that differ in key from their neighbours are sorted strictly. -/
theorem sortBy_strict {key : α → κ} {items : List α}
    (differ : (sortBy key items).IsChain fun a b => key a ≠ key b)
    : (sortBy key items).Pairwise fun a b => key a < key b := by
  have transitive : IsTrans α fun a b => key a < key b := ⟨fun _ _ _ h h' => h.trans h'⟩
  refine List.IsChain.pairwise ?_
  rw [List.isChain_iff_getElem] at differ ⊢
  have sorted := List.pairwise_iff_getElem.mp (sortBy_sorted key items)
  exact fun i inside => lt_of_le_of_ne (sorted i (i + 1) _ _ (Nat.lt_succ_self i))
    (differ i inside)

/-- The keys of a strictly sorted list are distinct. -/
theorem nodup_of_strict {key : α → κ} {items : List α}
    (strict : items.Pairwise fun a b => key a < key b)
    : (items.map key).Nodup :=
  List.pairwise_map.mpr (strict.imp fun below => below.ne)

/-- A relation between neighbours of a strictly sorted list holds between all of its items when it
also holds of any two with an item in between.
-/
theorem pairwise_of_neighbours {key : α → κ} {relation : α → α → Prop} {items : List α}
    (strict : items.Pairwise fun a b => key a < key b) (neighbours : items.IsChain relation)
    (apart : ∀ a ∈ items, ∀ b ∈ items, ∀ c ∈ items, key a < key b → key b < key c
      → relation a c)
    : items.Pairwise relation := by
  induction items with
  | nil => exact .nil
  | cons a rest ih =>
      obtain ⟨below, strictRest⟩ := List.pairwise_cons.mp strict
      have others : rest.Pairwise relation := by
        refine ih strictRest neighbours.tail fun x hx y hy z hz => ?_
        exact apart x (by simp [hx]) y (by simp [hy]) z (by simp [hz])
      refine List.pairwise_cons.mpr ⟨fun c member => ?_, others⟩
      cases rest with
      | nil => simp at member
      | cons b rest =>
          rcases List.mem_cons.mp member with rfl | later
          · exact (List.isChain_cons_cons.mp neighbours).1
          · have above := (List.pairwise_cons.mp strictRest).1 c later
            exact apart a (by simp) b (by simp) c (by simp [later]) (below b (by simp)) above

/-- Strictly sorted lists that hold the same map are the same list. -/
theorem eq_of_lookup_eq [DecidableEq κ] {key : α → κ} {items other : List α}
    (strict : items.Pairwise fun a b => key a < key b)
    (otherStrict : other.Pairwise fun a b => key a < key b)
    (same : ∀ k, lookup key items k = lookup key other k)
    : items = other := by
  have members : ∀ a, a ∈ items ↔ a ∈ other := by
    intro a
    have here := lookup_eq_some_iff (nodup_of_strict strict) (k := key a) (a := a)
    have there := lookup_eq_some_iff (nodup_of_strict otherStrict) (k := key a) (a := a)
    rw [same, there] at here
    simpa using here.symm
  have perm : items.Perm other := by
    rw [List.perm_ext_iff_of_nodup (nodup_of_strict strict).of_map
      (nodup_of_strict otherStrict).of_map]
    exact members
  exact perm.eq_of_pairwise (fun _ _ _ _ below above => absurd below (lt_asymm above)) strict
    otherStrict

theorem map_sortBy {β : Type} (f : β → α) (key : α → κ) (items : List β)
    : (sortBy (fun b => key (f b)) items).map f = sortBy key (items.map f) :=
  List.map_insertionSort _ _ f items fun _ _ _ _ => Iff.rfl

end Sorting

section Groups

variable [DecidableEq κ]

/-- The items with the keys of a list, one key after the other. -/
theorem flatMap_filter_perm (key : α → κ) (items : List α) {keys : List κ} (once : keys.Nodup)
    : (keys.flatMap fun k => items.filter fun a => key a = k).Perm
        (items.filter fun a => key a ∈ keys) := by
  induction keys with
  | nil => simp
  | cons k rest ih =>
      obtain ⟨fresh, others⟩ := List.nodup_cons.mp once
      have first : (items.filter fun a => key a ∈ k :: rest).filter (fun a => key a = k)
          = items.filter fun a => key a = k := by
        rw [List.filter_filter]
        refine List.filter_congr fun a _ => ?_
        by_cases same : key a = k <;> simp [same]
      have remaining : (items.filter fun a => key a ∈ k :: rest).filter (fun a => !(key a = k))
          = items.filter fun a => key a ∈ rest := by
        rw [List.filter_filter]
        refine List.filter_congr fun a _ => ?_
        by_cases same : key a = k <;> simp [same, fresh]
      have split := List.filter_append_perm (fun a => decide (key a = k))
        (items.filter fun a => key a ∈ k :: rest)
      rw [first, remaining] at split
      rw [List.flatMap_cons]
      exact ((ih others).append_left _).trans split

end Groups

section Sets

variable {β : Type} [DecidableEq β]

/-- Two sets built from lists are equal: they have the same elements. -/
def sameElements (left right : List β) : Bool :=
  left.all (right.contains ·) && right.all (left.contains ·)

theorem sameElements_iff {left right : List β}
    : sameElements left right = true ↔ ∀ b, b ∈ left ↔ b ∈ right := by
  simp only [sameElements, Bool.and_eq_true, List.all_eq_true, List.contains_iff_mem]
  exact ⟨fun h b => ⟨h.1 b, h.2 b⟩, fun h => ⟨fun b => (h b).mp, fun b => (h b).mpr⟩⟩

end Sets

section SortedSets

theorem mem_destutter' {α : Type} [DecidableEq α] {first other : α} {rest : List α}
    : other ∈ rest.destutter' (· ≠ ·) first ↔ other = first ∨ other ∈ rest := by
  induction rest generalizing first with
  | nil => simp
  | cons next rest ih =>
      by_cases same : first = next
      · subst same
        rw [List.destutter'_cons_neg _ (by simp), ih]
        simp
      · rw [List.destutter'_cons_pos _ same, List.mem_cons, ih, List.mem_cons]

theorem mem_destutter {α : Type} [DecidableEq α] {list : List α} {other : α}
    : other ∈ list.destutter (· ≠ ·) ↔ other ∈ list := by
  cases list with
  | nil => simp
  | cons first rest => rw [List.destutter_cons', mem_destutter', List.mem_cons]

/-- Sorting and leaving out repetitions gives an increasing list. -/
theorem sorted_destutter {α : Type} [LinearOrder α] [DecidableRel fun a b : α => a ≠ b]
    (items : List α)
    : ((items.insertionSort (· ≤ ·)).destutter (· ≠ ·)).Pairwise (· < ·) := by
  have sorted : ((items.insertionSort (· ≤ ·)).destutter (· ≠ ·)).Pairwise (· ≤ ·) :=
    (List.pairwise_insertionSort (· ≤ ·) items).sublist (List.destutter_sublist _ _)
  have differ : ((items.insertionSort (· ≤ ·)).destutter (· ≠ ·)).IsChain (· ≠ ·) :=
    List.isChain_destutter _ _
  refine List.IsChain.pairwise ?_
  rw [List.isChain_iff_getElem] at differ ⊢
  exact fun i inside => lt_of_le_of_ne
    (List.pairwise_iff_getElem.mp sorted i (i + 1) _ _ (Nat.lt_succ_self i)) (differ i inside)

variable [LinearOrder α]

/-- The distinct items in increasing order. -/
def distinctSorted (items : List α) : List α :=
  (items.insertionSort (· ≤ ·)).destutter (· ≠ ·)

@[simp]
theorem mem_distinctSorted {items : List α} {a : α} : a ∈ distinctSorted items ↔ a ∈ items := by
  rw [distinctSorted, mem_destutter, List.mem_insertionSort]

theorem distinctSorted_sorted (items : List α) : (distinctSorted items).Pairwise (· < ·) :=
  sorted_destutter items

theorem length_distinctSorted_le (items : List α) : (distinctSorted items).length ≤ items.length :=
  (List.destutter_sublist _ _).length_le.trans_eq (List.length_insertionSort _ _)

/-- Sets with the same elements are listed alike. -/
theorem distinctSorted_congr {items others : List α} (same : ∀ a, a ∈ items ↔ a ∈ others)
    : distinctSorted items = distinctSorted others := by
  have perm : (distinctSorted items).Perm (distinctSorted others) := by
    rw [List.perm_ext_iff_of_nodup ((distinctSorted_sorted items).imp ne_of_lt)
      ((distinctSorted_sorted others).imp ne_of_lt)]
    simp [same]
  exact perm.eq_of_pairwise (fun _ _ _ _ below above => absurd below (lt_asymm above))
    (distinctSorted_sorted items) (distinctSorted_sorted others)

end SortedSets

end BeetleMemory.Keyed
