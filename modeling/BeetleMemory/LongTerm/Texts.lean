import BeetleMemory.LongTerm.Material

/-! What trimming and splitting do to a text: trimming only takes away, and a text is split at the
first place where the separator stands.
-/

namespace BeetleMemory.LongTerm

open Store (isWhitespace trimIsEmpty textLen textBytes dropStart startsWith)

/-! ## Trimming -/

theorem toList_trim (text : String)
    : (trim text).toList = (text.toList.dropWhile isWhitespace).rdropWhile isWhitespace := by
  rw [trim, String.toList_ofList, List.rdropWhile]

/-- Trimming takes characters away and adds none. -/
theorem trim_sublist (text : String) : (trim text).toList.Sublist text.toList := by
  rw [toList_trim]
  exact (List.rdropWhile_prefix isWhitespace _).sublist.trans (List.dropWhile_sublist _)

theorem trim_eq_of_length {text : String} (same : (trim text).toList.length = text.toList.length)
    : trim text = text :=
  String.toList_inj.mp ((trim_sublist text).eq_of_length same)

/-- A text is trimmed if neither end of it is white space. -/
theorem trim_eq_self {text : String} (first : ∀ c ∈ text.toList.head?, isWhitespace c = false)
    (last : ∀ c ∈ text.toList.getLast?, isWhitespace c = false)
    : trim text = text := by
  have front : text.toList.dropWhile isWhitespace = text.toList := by
    cases shape : text.toList with
    | nil => rfl
    | cons c rest =>
        exact List.dropWhile_cons_of_neg (by simpa using first c (by rw [shape]; rfl))
  have back : text.toList.rdropWhile isWhitespace = text.toList := by
    rw [List.rdropWhile_eq_self_iff]
    intro nonempty
    simpa using last _ (List.getLast?_eq_getLast_of_ne_nil nonempty)
  rw [← String.toList_inj, toList_trim, front, back]

/-- A trimmed text does not end in white space. -/
theorem getLast_trimmed {text : String} (trimmed : trim text = text)
    : ∀ c ∈ text.toList.getLast?, isWhitespace c = false := by
  intro c last
  have shape : text.toList
      = (text.toList.dropWhile isWhitespace).rdropWhile isWhitespace := by
    rw [← toList_trim, trimmed]
  rw [shape] at last
  have nonempty : (text.toList.dropWhile isWhitespace).rdropWhile isWhitespace ≠ [] := by
    intro empty
    simp [empty] at last
  have here := List.rdropWhile_last_not isWhitespace _ nonempty
  rw [List.getLast?_eq_getLast_of_ne_nil nonempty, Option.mem_some_iff] at last
  simpa [last] using here

/-- A trimmed text does not begin with white space. -/
theorem head_trimmed {text : String} (trimmed : trim text = text)
    : ∀ c ∈ text.toList.head?, isWhitespace c = false := by
  intro c first
  have shape : text.toList
      = (text.toList.dropWhile isWhitespace).rdropWhile isWhitespace := by
    rw [← toList_trim, trimmed]
  rw [shape] at first
  obtain ⟨rest, begins⟩ := List.head?_eq_some_iff.mp first
  have front : c :: rest <+: text.toList.dropWhile isWhitespace :=
    begins ▸ List.rdropWhile_prefix isWhitespace _
  obtain ⟨more, whole⟩ := front
  have head := List.head?_dropWhile_not isWhitespace text.toList
  rw [← whole] at head
  simpa using head

/-- Trimming keeps everything that is not white space. -/
theorem mem_trim {text : String} {c : Char} (inside : c ∈ text.toList)
    (visible : isWhitespace c = false)
    : c ∈ (trim text).toList := by
  have kept : ∀ {l : List Char}, c ∈ l → c ∈ l.dropWhile isWhitespace := by
    intro l member
    rw [← List.takeWhile_append_dropWhile (p := isWhitespace) (l := l), List.mem_append] at member
    rcases member with dropped | here
    · exact absurd (List.mem_takeWhile_imp dropped) (by simp [visible])
    · exact here
  rw [toList_trim, List.rdropWhile, List.mem_reverse]
  exact kept (List.mem_reverse.mpr (kept inside))

theorem trim_trim (text : String) : trim (trim text) = trim text := by
  have inner : (trim text).toList.dropWhile isWhitespace = (trim text).toList := by
    rw [toList_trim]
    cases shape : (text.toList.dropWhile isWhitespace).rdropWhile isWhitespace with
    | nil => rfl
    | cons c rest =>
        have begins : c :: rest <+: text.toList.dropWhile isWhitespace :=
          shape ▸ List.rdropWhile_prefix isWhitespace _
        obtain ⟨more, whole⟩ := begins
        have head := List.head?_dropWhile_not isWhitespace text.toList
        rw [← whole] at head
        exact List.dropWhile_cons_of_neg (by simpa using head)
  rw [← String.toList_inj, toList_trim, inner, toList_trim, List.rdropWhile_idempotent]

/-! ## Beginnings -/

theorem dropStart_append (start rest : String) : dropStart (start ++ rest) start = some rest := by
  have begins : startsWith (start ++ rest) start = true := by
    simp [startsWith, List.isPrefixOf_iff_prefix]
  simp [dropStart, begins]

theorem dropStart_eq_some {text start rest : String} (dropped : dropStart text start = some rest)
    : text = start ++ rest := by
  rw [dropStart] at dropped
  split_ifs at dropped with begins
  obtain rfl := Option.some.inj dropped
  obtain ⟨more, shape⟩ := List.isPrefixOf_iff_prefix.mp begins
  rw [← String.toList_inj, String.toList_append, String.toList_ofList, ← shape, List.drop_left]

/-! ## Lengths -/

theorem textLen_of_ascii {text : String} (ascii : ∀ c ∈ text.toList, c.toNat < 128)
    : textLen text = text.length := by
  have chars : ∀ {chars : List Char}, (∀ c ∈ chars, c.toNat < 128)
      → (chars.flatMap String.utf8EncodeChar).length = chars.length := by
    intro chars small
    induction chars with
    | nil => rfl
    | cons c rest ih =>
        have single : (String.utf8EncodeChar c).length = 1 := by
          rw [String.length_utf8EncodeChar, Char.utf8Size_eq_one_iff, UInt32.le_iff_toNat_le]
          exact Nat.le_of_lt_succ (small c (by simp))
        rw [List.flatMap_cons, List.length_append, single,
          ih fun d inside => small d (List.mem_cons_of_mem _ inside), List.length_cons,
          Nat.add_comm]
  rw [textLen, textBytes, chars ascii, String.length_toList]

/-! ## Splitting -/

variable {separator text before after : List Char}

theorem splitOnce_sound (split : splitOnce separator text = some (before, after))
    : text = before ++ (separator ++ after) := by
  induction text generalizing before with
  | nil =>
      rw [splitOnce] at split
      split_ifs at split with empty
      obtain ⟨rfl, rfl⟩ := Prod.mk.inj (Option.some.inj split)
      simpa using (List.isEmpty_iff.mp empty).symm
  | cons c rest ih =>
      rw [splitOnce] at split
      split_ifs at split with here
      · obtain ⟨rfl, rfl⟩ := Prod.mk.inj (Option.some.inj split)
        exact (List.prefix_append_drop (List.isPrefixOf_iff_prefix.mp here))
      · obtain ⟨⟨front, back⟩, later, parts⟩ := Option.map_eq_some_iff.mp split
        obtain ⟨rfl, rfl⟩ := Prod.mk.inj parts
        rw [ih later, List.cons_append]

/-- The split is at the first occurrence. -/
theorem splitOnce_first (split : splitOnce separator text = some (before, after))
    {front : List Char} (found : front ++ separator <+: text)
    : before.length ≤ front.length := by
  induction text generalizing before front with
  | nil =>
      rw [splitOnce] at split
      split_ifs at split
      obtain ⟨rfl, -⟩ := Prod.mk.inj (Option.some.inj split)
      exact Nat.zero_le _
  | cons c rest ih =>
      rw [splitOnce] at split
      split_ifs at split with here
      · obtain ⟨rfl, -⟩ := Prod.mk.inj (Option.some.inj split)
        exact Nat.zero_le _
      · obtain ⟨⟨start, back⟩, later, parts⟩ := Option.map_eq_some_iff.mp split
        obtain ⟨rfl, rfl⟩ := Prod.mk.inj parts
        cases front with
        | nil => exact absurd (List.isPrefixOf_iff_prefix.mpr found) here
        | cons d front =>
            rw [List.cons_append, List.cons_prefix_cons] at found
            exact Nat.succ_le_succ (ih later found.2)

theorem splitOnce_eq_none (some : separator ≠ [])
    : splitOnce separator text = none ↔ ¬ separator <:+: text := by
  induction text with
  | nil => simp [splitOnce, some]
  | cons c rest ih =>
      rw [splitOnce, List.infix_cons_iff, not_or]
      split_ifs with here
      · simpa using fun absent => absurd (List.isPrefixOf_iff_prefix.mp here) absent
      · rw [Option.map_eq_none_iff, ih]
        have absent := mt List.isPrefixOf_iff_prefix.mpr here
        exact ⟨fun later => ⟨absent, later⟩, fun both => both.2⟩

/-- What does not have the mark in it and begins a text ends before the mark. -/
theorem prefix_before_mark {mark : Char} {word front back : List Char} (unmarked : mark ∉ word)
    (begins : word <+: front ++ mark :: back)
    : word <+: front := by
  induction front generalizing word with
  | nil =>
      cases word with
      | nil => exact List.nil_prefix
      | cons c word =>
          obtain ⟨rfl, -⟩ := List.cons_prefix_cons.mp begins
          exact absurd (List.mem_cons_self) unmarked
  | cons d front ih =>
      cases word with
      | nil => exact List.nil_prefix
      | cons c word =>
          obtain ⟨same, rest⟩ := List.cons_prefix_cons.mp begins
          have later := ih (fun inside => unmarked (List.mem_cons_of_mem _ inside)) rest
          exact List.cons_prefix_cons.mpr ⟨same, later⟩

/-- What does not have the mark in it stands on one side of the mark. -/
theorem infix_append_mark {mark : Char} {word front back : List Char} (unmarked : mark ∉ word)
    : word <:+: front ++ mark :: back ↔ word <:+: front ∨ word <:+: back := by
  have start : word <+: mark :: back → word <+: [] := fun begins =>
    prefix_before_mark unmarked (List.nil_append (mark :: back) ▸ begins)
  induction front with
  | nil =>
      rw [List.nil_append, List.infix_cons_iff, List.infix_nil]
      constructor
      · rintro (begins | later)
        · exact .inl (List.prefix_nil.mp (start begins))
        · exact .inr later
      · rintro (rfl | later)
        · exact .inl List.nil_prefix
        · exact .inr later
  | cons c front ih =>
      have begins : word <+: c :: (front ++ mark :: back) ↔ word <+: c :: front :=
        ⟨fun begins => prefix_before_mark unmarked (List.cons_append ▸ begins),
          fun begins => begins.trans (List.prefix_append (c :: front) _)⟩
      rw [List.cons_append, List.infix_cons_iff, List.infix_cons_iff, begins, or_assoc]
      exact or_congr_right ih

/-- A separator whose first character does not come again in it is found where it was put, exactly
when it does not stand in what comes before.
-/
theorem splitOnce_append {mark : Char} {tail front back : List Char} (once : mark ∉ tail)
    : splitOnce (mark :: tail) (front ++ (mark :: tail ++ back)) = some (front, back)
      ↔ ¬ (mark :: tail) <:+: front := by
  constructor
  · rintro split ⟨start, finish, whole⟩
    have early : start ++ mark :: tail <+: front ++ (mark :: tail ++ back) :=
      ⟨finish ++ (mark :: tail ++ back), by rw [← whole]; simp⟩
    have short := splitOnce_first split early
    have lengths := congrArg List.length whole
    simp only [List.length_append, List.length_cons] at lengths
    omega
  · intro absent
    induction front with
    | nil => simp [splitOnce]
    | cons c front ih =>
        have later := ih fun inside => absent (List.infix_cons inside)
        rw [List.cons_append, splitOnce, later]
        rw [if_neg]
        · rfl
        · rw [List.isPrefixOf_iff_prefix]
          intro found
          -- the rest of the occurrence ends before the mark that was put there
          obtain ⟨rfl, rest⟩ := List.cons_prefix_cons.mp found
          exact absent (List.cons_prefix_cons.mpr ⟨rfl, prefix_before_mark once rest⟩).isInfix

end BeetleMemory.LongTerm
