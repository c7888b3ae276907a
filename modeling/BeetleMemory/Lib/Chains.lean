import Mathlib

/-! Records that each name at most one next record. The trail from a record is what is passed on
the way to one without a next; a check with a set of the seen ones tells whether there is an end.
-/

namespace BeetleMemory.Chains

open Relation (TransGen)

variable {κ : Type} {next prev : κ → Option κ}

/-- The first key comes next after the second. -/
def Follows (next : κ → Option κ) (b a : κ) : Prop :=
  next a = some b

/-- The keys from one on, up to one without a next. -/
inductive Trail (next : κ → Option κ) : κ → List κ → Prop where
  | last {a : κ} (ends : next a = none) : Trail next a [a]
  | step {a b : κ} {rest : List κ} (goes : next a = some b) (trail : Trail next b rest)
      : Trail next a (a :: rest)

theorem exists_trail {a : κ} (ends : Acc (Follows next) a) : ∃ chain, Trail next a chain := by
  induction ends with
  | intro a _ ih =>
      cases goes : next a with
      | none => exact ⟨[a], .last goes⟩
      | some b =>
          obtain ⟨chain, trail⟩ := ih b goes
          exact ⟨a :: chain, .step goes trail⟩

namespace Trail

variable {a b : κ} {chain other keys : List κ}

theorem unique (trail : Trail next a chain) (again : Trail next a other) : chain = other := by
  induction trail generalizing other with
  | last ends =>
      cases again with
      | last => rfl
      | step goes => simp [ends] at goes
  | step goes _ ih =>
      cases again with
      | last ends => simp [ends] at goes
      | step goesAgain rest =>
          cases goes.symm.trans goesAgain
          rw [ih rest]

theorem start_mem (trail : Trail next a chain) : a ∈ chain := by
  cases trail <;> simp

/-- From each of its keys on a trail is a trail. -/
theorem suffix (trail : Trail next a chain) (member : b ∈ chain)
    : ∃ tail, Trail next b tail ∧ tail <:+ chain := by
  induction trail with
  | last ends =>
      cases List.mem_singleton.mp member
      exact ⟨_, .last ends, List.suffix_refl _⟩
  | step goes rest ih =>
      rcases List.mem_cons.mp member with rfl | later
      · exact ⟨_, .step goes rest, List.suffix_refl _⟩
      · obtain ⟨tail, trail, isSuffix⟩ := ih later
        exact ⟨tail, trail, isSuffix.trans (List.suffix_cons _ _)⟩

theorem nodup (trail : Trail next a chain) : chain.Nodup := by
  induction trail with
  | last => simp
  | @step a b rest goes trail ih =>
      refine List.nodup_cons.mpr ⟨fun member => ?_, ih⟩
      -- A trail that comes back to its start would be longer than itself.
      obtain ⟨tail, again, isSuffix⟩ := trail.suffix member
      have same := again.unique (.step goes trail)
      have short := isSuffix.length_le
      rw [same, List.length_cons] at short
      omega

theorem acc (trail : Trail next a chain) : Acc (Follows next) a := by
  induction trail with
  | last ends =>
      refine ⟨_, fun b goes => ?_⟩
      rw [Follows, ends] at goes
      cases goes
  | step goes _ ih =>
      refine ⟨_, fun c goesAgain => ?_⟩
      cases goes.symm.trans goesAgain
      exact ih

/-- A key of a trail is its start or comes next after a key of it. -/
theorem mem_cases (trail : Trail next a chain) (member : b ∈ chain)
    : b = a ∨ ∃ c ∈ chain, next c = some b := by
  induction trail with
  | last => exact Or.inl (List.mem_singleton.mp member)
  | @step a c rest goes _ ih =>
      rcases List.mem_cons.mp member with rfl | later
      · exact Or.inl rfl
      · refine Or.inr ?_
        rcases ih later with rfl | ⟨d, listed, before⟩
        · exact ⟨a, by simp, goes⟩
        · exact ⟨d, by simp [listed], before⟩

/-- The last key has no next. -/
theorem exists_last (trail : Trail next a chain) : ∃ b ∈ chain, next b = none := by
  induction trail with
  | last ends => exact ⟨_, by simp, ends⟩
  | step _ _ ih =>
      obtain ⟨b, listed, ends⟩ := ih
      exact ⟨b, by simp [listed], ends⟩

theorem subset (trail : Trail next a chain) (inside : a ∈ keys)
    (closed : ∀ a ∈ keys, ∀ b, next a = some b → b ∈ keys)
    : chain ⊆ keys := by
  induction trail with
  | last => simpa using inside
  | step goes _ ih =>
      exact List.cons_subset.mpr ⟨inside, ih (closed _ inside _ goes)⟩

/-- When links go both ways, no other key ends and none comes back, the trail from a key without
a previous one passes all keys. Witness: the induction goes forward from a key to the common end,
and the previous keys lead back along the trail.
-/
theorem covers (trail : Trail next a chain) (inside : a ∈ keys) (first : prev a = none)
    (linked : ∀ a ∈ keys, ∀ b, next a = some b → b ∈ keys ∧ prev b = some a)
    (oneEnd : ∀ a ∈ keys, ∀ b ∈ keys, next a = none → next b = none → a = b)
    (ends : ∀ a ∈ keys, Acc (Follows next) a)
    : ∀ b ∈ keys, b ∈ chain := by
  have closed := trail.subset inside fun a listed b goes => (linked a listed b goes).1
  intro b listed
  induction ends b listed with
  | intro b _ ih =>
      cases goes : next b with
      | none =>
          obtain ⟨c, member, last⟩ := trail.exists_last
          rw [oneEnd b listed c (closed member) goes last]
          exact member
      | some c =>
          obtain ⟨inside, before⟩ := linked b listed c goes
          rcases trail.mem_cases (ih c goes inside) with rfl | ⟨d, member, goesAgain⟩
          · simp [first] at before
          · have back := (linked d (closed member) c goesAgain).2
            cases back.symm.trans before
            exact member

end Trail

/-! ## Neighbours in a list -/

section Neighbours

variable {α : Type} {relation : α → α → Prop} {items : List α} {a : α}

theorem head_or_before (chain : items.IsChain relation) (member : a ∈ items)
    : items.head? = some a ∨ ∃ b ∈ items, relation b a := by
  induction items with
  | nil => simp at member
  | cons first rest ih =>
      rcases List.mem_cons.mp member with rfl | later
      · exact Or.inl rfl
      · refine Or.inr ?_
        rcases ih chain.tail later with isHead | ⟨b, listed, related⟩
        · cases rest with
          | nil => simp at later
          | cons second rest =>
              cases Option.some.inj isHead
              exact ⟨first, by simp, (List.isChain_cons_cons.mp chain).1⟩
        · exact ⟨b, by simp [listed], related⟩

theorem last_or_after (chain : items.IsChain relation) (member : a ∈ items)
    : items.getLast? = some a ∨ ∃ b ∈ items, relation a b := by
  induction items with
  | nil => simp at member
  | cons first rest ih =>
      cases rest with
      | nil =>
          cases List.mem_singleton.mp member
          exact Or.inl rfl
      | cons second rest =>
          obtain ⟨related, later⟩ := List.isChain_cons_cons.mp chain
          rcases List.mem_cons.mp member with rfl | inside
          · exact Or.inr ⟨second, by simp, related⟩
          · rcases ih later inside with isLast | ⟨b, listed, after⟩
            · exact Or.inl (by rw [List.getLast?_cons_cons, isLast])
            · exact Or.inr ⟨b, by simp [listed], after⟩

/-- What neighbours share all share. -/
theorem eq_of_neighbours {β : Type} {value : α → β}
    (chain : items.IsChain fun a b => value a = value b)
    : ∀ a ∈ items, ∀ b ∈ items, value a = value b := by
  have transitive : IsTrans α fun a b => value a = value b := ⟨fun _ _ _ => Eq.trans⟩
  have symmetric : Std.Symm fun a b => value a = value b := ⟨fun _ _ => Eq.symm⟩
  exact fun a ha b hb => List.Pairwise.forall_of_forall (R := fun a b => value a = value b)
    (fun _ _ => rfl) chain.pairwise ha hb

end Neighbours

/-! ## Coming back -/

section Revisits

variable [DecidableEq κ]

/-- The walk with a set of the keys it has seen comes to one of them again. -/
def revisits (next : κ → Option κ) : Nat → List κ → Option κ → Bool
  | 0, _, _ => false
  | _, _, none => false
  | fuel + 1, seen, some current =>
      seen.contains current || revisits next fuel (current :: seen) (next current)

/-- With a step for each key that has a next, and two more, a walk that does not come back to a
key has an end.
-/
theorem acc_of_revisits_eq_false {keys : List κ} {fuel : Nat} {seen : List κ} {a : κ}
    (closed : ∀ a b, next a = some b → a ∈ keys)
    (enough : keys.length + 2 ≤ fuel + seen.length) (inside : seen ⊆ keys) (once : seen.Nodup)
    (not : revisits next fuel seen (some a) = false)
    : Acc (Follows next) a := by
  have short : seen.length ≤ keys.length := (List.subperm_of_subset once inside).length_le
  induction fuel generalizing seen a with
  | zero => omega
  | succ fuel ih =>
      simp only [revisits, Bool.or_eq_false_iff, List.contains_eq_mem,
        decide_eq_false_iff_not] at not
      refine ⟨_, fun b goes => ?_⟩
      have here := closed a b goes
      have fresh : (a :: seen).Nodup := List.nodup_cons.mpr ⟨not.1, once⟩
      have subset : a :: seen ⊆ keys := List.cons_subset.mpr ⟨here, inside⟩
      rw [Follows] at goes
      rw [goes] at not
      refine ih ?_ subset fresh not.2 (List.subperm_of_subset fresh subset).length_le
      simp only [List.length_cons]
      omega

theorem exists_cycle_of_revisits {fuel : Nat} {seen : List κ} {a : κ}
    (passed : ∀ b ∈ seen, TransGen (Follows next) a b)
    (back : revisits next fuel seen (some a) = true)
    : ∃ b, TransGen (Follows next) b b := by
  induction fuel generalizing seen a with
  | zero => simp [revisits] at back
  | succ fuel ih =>
      simp only [revisits, Bool.or_eq_true, List.contains_iff_mem] at back
      rcases back with again | later
      · exact ⟨a, passed a again⟩
      · cases goes : next a with
        | none => cases fuel <;> simp [goes, revisits] at later
        | some c =>
            rw [goes] at later
            refine ih ?_ later
            intro b member
            rcases List.mem_cons.mp member with rfl | before
            · exact .single goes
            · exact .head goes (passed b before)

end Revisits

theorem not_cycle_of_acc {a : κ} (ends : Acc (Follows next) a)
    : ¬ TransGen (Follows next) a a := by
  have whole := ends.transGen
  induction whole with
  | intro a _ ih => exact fun cycle => ih a cycle (ends.inv_of_transGen cycle) cycle

end BeetleMemory.Chains
