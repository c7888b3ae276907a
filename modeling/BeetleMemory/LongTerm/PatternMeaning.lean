import BeetleMemory.LongTerm.TopicPattern
import BeetleMemory.LongTerm.Texts
import BeetleMemory.Lib.Globs

/-! Which topic patterns mean what they say. The test looks for a star at one end only and takes
every other star as a character, so that a star at both ends or between letters is not one.
-/

namespace BeetleMemory.LongTerm

open Globs (Matches matches_plain_iff matches_single_iff)
open Store (isWhitespace)

/-- What is used of the tables: letters are no separators and have a lower case of their own kind,
and a lower-case text stays as it is.
-/
structure CaseTables.Lawful (tables : CaseTables) : Prop where
  star_separates : isWord tables '*' = false
  underscore_separates : isWord tables '_' = false
  word_visible : ∀ c, isWord tables c = true → isWhitespace c = false
  lower_some : ∀ c, isWord tables c = true → tables.toLowercase c ≠ []
  lower_plain : ∀ c, isWord tables c = true → ∀ d ∈ tables.toLowercase c, d ≠ '*' ∧ d ≠ '_'
  lowered : ∀ text : String,
    (∀ c ∈ text.toList, c = 'a' ∨ ∃ other : String, c ∈ (tables.strToLowercase other).toList)
    → tables.strToLowercase text = text
  trimmed : ∀ text : String, trim text = text
    → trim (tables.strToLowercase text) = tables.strToLowercase text
  word_kept : ∀ text : String, (∃ c ∈ text.toList, isWord tables c = true)
    → ∃ c ∈ (tables.strToLowercase text).toList, isWord tables c = true

/-! ## The test for one end -/

/-- No star, or one star at one end. -/
def EndStar (pattern : List Char) : Prop :=
  ∃ word, '*' ∉ word ∧ (pattern = word ∨ pattern = word ++ ['*'] ∨ pattern = '*' :: word)

variable {pattern value : List Char}

theorem wildcardMatchNormalized_concat (word value : List Char)
    : wildcardMatchNormalized (word ++ ['*']) value = true ↔ word <+: value := by
  unfold wildcardMatchNormalized
  by_cases none : word = []
  · subst none
    simp
  · have long : word ++ ['*'] ≠ ['*'] := by simpa using none
    rw [if_neg long, if_pos (List.getLast?_concat), List.dropLast_concat,
      List.isPrefixOf_iff_prefix]

/-- For a pattern with a star at one end at most, the test is the meaning of the pattern. -/
theorem wildcardMatchNormalized_iff (star : EndStar pattern)
    : wildcardMatchNormalized pattern value = true ↔ Matches '*' pattern value := by
  obtain ⟨word, plain, rfl | rfl | rfl⟩ := star
  · rw [matches_plain_iff plain, wildcardMatchNormalized]
    have single : pattern ≠ ['*'] := fun same => plain (by simp [same])
    have last : pattern.getLast? ≠ some '*' := fun same => plain (List.mem_of_getLast? same)
    have head : pattern.head? ≠ some '*' := fun same => plain (List.mem_of_head? same)
    rw [if_neg single, if_neg last, if_neg head, beq_iff_eq, eq_comm]
  · rw [wildcardMatchNormalized_concat, matches_single_iff plain List.not_mem_nil]
    simp only [List.append_nil]
    exact ⟨fun ⟨rest, whole⟩ => ⟨rest, whole.symm⟩, fun ⟨rest, whole⟩ => ⟨rest, whole.symm⟩⟩
  · rw [← List.nil_append ('*' :: word), matches_single_iff List.not_mem_nil plain,
      List.nil_append, wildcardMatchNormalized]
    by_cases none : word = []
    · subst none
      simp
    · have last : ('*' :: word).getLast? ≠ some '*' := by
        rw [List.getLast?_cons_of_ne_nil none]
        exact fun same => plain (List.mem_of_getLast? same)
      rw [if_neg (by simpa using none), if_neg last, if_pos List.head?_cons, List.tail_cons,
        List.isSuffixOf_iff_suffix]
      exact ⟨fun ⟨part, whole⟩ => ⟨part, whole.symm⟩, fun ⟨part, whole⟩ => ⟨part, whole.symm⟩⟩

/-- The test is never passed by a value outside the language of the pattern. -/
theorem matches_of_wildcardMatchNormalized
    (passed : wildcardMatchNormalized pattern value = true)
    : Matches '*' pattern value := by
  unfold wildcardMatchNormalized at passed
  split_ifs at passed with single last head
  · subst single
    exact Matches.any value
  · obtain ⟨word, rfl⟩ := List.getLast?_eq_some_iff.mp last
    rw [List.dropLast_concat, List.isPrefixOf_iff_prefix] at passed
    obtain ⟨rest, rfl⟩ := passed
    exact (Matches.refl word).append (Matches.any rest)
  · obtain ⟨word, rfl⟩ := List.head?_eq_some_iff.mp head
    rw [List.tail_cons, List.isSuffixOf_iff_suffix] at passed
    obtain ⟨part, rfl⟩ := passed
    exact .star part (Matches.refl word)
  · rw [beq_iff_eq] at passed
    exact passed ▸ Matches.refl pattern

/-- For any other pattern, the value has to have a star in it. -/
theorem star_mem_of_not_endStar (inner : ¬ EndStar pattern)
    (passed : wildcardMatchNormalized pattern value = true)
    : '*' ∈ value := by
  unfold wildcardMatchNormalized at passed
  split_ifs at passed with single last head
  · exact absurd ⟨[], List.not_mem_nil, .inr (.inl single)⟩ inner
  · obtain ⟨word, rfl⟩ := List.getLast?_eq_some_iff.mp last
    rw [List.dropLast_concat, List.isPrefixOf_iff_prefix] at passed
    by_contra absent
    exact inner ⟨word, fun inside => absent (passed.subset inside), .inr (.inl rfl)⟩
  · obtain ⟨word, rfl⟩ := List.head?_eq_some_iff.mp head
    rw [List.tail_cons, List.isSuffixOf_iff_suffix] at passed
    by_contra absent
    exact inner ⟨word, fun inside => absent (passed.subset inside), .inr (.inr rfl)⟩
  · rw [beq_iff_eq] at passed
    by_contra absent
    exact inner ⟨pattern, fun inside => absent (passed ▸ inside), .inl rfl⟩

/-! ## Folding separators -/

section Folding

variable {tables : CaseTables}

/-- What the characters left add to a text; a blocked text takes no separator. -/
def emit (tables : CaseTables) (keepStars : Bool) : Bool → List Char → List Char
  | _, [] => []
  | blocked, ch :: rest =>
      if keepStars && ch == '*' then '*' :: emit tables keepStars true rest
      else if isWord tables ch then tables.toLowercase ch ++ emit tables keepStars false rest
      else if blocked then emit tables keepStars true rest
      else '_' :: emit tables keepStars true rest

theorem foldSeparators_eq (lawful : tables.Lawful) (keepStars : Bool)
    (rest out : List Char) (prevSep : Bool)
    : foldSeparators tables keepStars rest out prevSep
      = out ++ emit tables keepStars
          (prevSep || out.isEmpty || (keepStars && out.getLast? == some '*')) rest := by
  induction rest generalizing out prevSep with
  | nil => simp [foldSeparators, emit]
  | cons ch rest ih =>
      rw [foldSeparators, emit]
      by_cases star : (keepStars && ch == '*') = true
      · rw [if_pos star, if_pos star, ih]
        obtain ⟨rfl, -⟩ := Bool.and_eq_true_iff.mp star
        simp
      rw [if_neg star, if_neg star]
      by_cases word : isWord tables ch = true
      · rw [if_pos word, if_pos word, ih]
        obtain ⟨front, last, shape⟩ := List.eq_nil_or_concat (tables.toLowercase ch)
          |>.resolve_left (lawful.lower_some ch word)
        have plain := (lawful.lower_plain ch word last (by simp [shape])).1
        have opened : (false || (out ++ tables.toLowercase ch).isEmpty
            || (keepStars && (out ++ tables.toLowercase ch).getLast? == some '*')) = false := by
          rw [shape, List.concat_eq_append, ← List.append_assoc, List.getLast?_concat]
          simp [plain, List.isEmpty_eq_false_iff]
        rw [opened, List.append_assoc]
      rw [if_neg word, if_neg word]
      cases blocked : (prevSep || out.isEmpty || (keepStars && out.getLast? == some '*')) with
      | true =>
          have closed : ¬ (!prevSep && !out.isEmpty
              && !(keepStars && out.getLast? == some '*')) = true := by
            rw [← Bool.not_or, ← Bool.not_or, blocked]
            decide
          rw [if_neg closed, ih, blocked, if_pos rfl]
      | false =>
          have opened : (!prevSep && !out.isEmpty
              && !(keepStars && out.getLast? == some '*')) = true := by
            rw [← Bool.not_or, ← Bool.not_or, blocked]
            decide
          rw [if_pos opened, ih]
          simp

/-- A text without a star is folded the same in a pattern and in a topic. -/
theorem emit_plain {text : List Char} (plain : '*' ∉ text) (blocked : Bool)
    : emit tables true blocked text = emit tables false blocked text := by
  induction text generalizing blocked with
  | nil => rfl
  | cons ch rest ih =>
      rw [List.mem_cons, not_or] at plain
      have other : (ch == '*') = false := by simpa using Ne.symm plain.1
      simp only [emit, other, Bool.and_false, Bool.false_eq_true, if_false, ih plain.2]

/-- Whether the text takes a separator after these characters. -/
def leaves (tables : CaseTables) : Bool → List Char → Bool
  | blocked, [] => blocked
  | _, ch :: rest => leaves tables (!isWord tables ch) rest

theorem leaves_concat (front : List Char) (ch : Char) (blocked : Bool)
    : leaves tables blocked (front ++ [ch]) = !isWord tables ch := by
  induction front generalizing blocked with
  | nil => rfl
  | cons d front ih => exact ih _

theorem emit_append (front back : List Char) (blocked : Bool)
    : emit tables false blocked (front ++ back)
      = emit tables false blocked front
        ++ emit tables false (leaves tables blocked front) back := by
  induction front generalizing blocked with
  | nil => rfl
  | cons ch rest ih =>
      simp only [List.cons_append, emit, leaves, Bool.false_and, Bool.false_eq_true, if_false]
      split_ifs with word closed
      · rw [ih, word, Bool.not_true, List.append_assoc]
      · rw [ih, Bool.eq_false_of_not_eq_true word, Bool.not_false]
      · rw [ih, Bool.eq_false_of_not_eq_true word, Bool.not_false, List.cons_append]

/-- A pattern with one star in it, folded. -/
theorem emit_star {front back : List Char} (plain : '*' ∉ front)
    (plainBack : '*' ∉ back) (blocked : Bool)
    : emit tables true blocked (front ++ '*' :: back)
      = emit tables false blocked front ++ '*' :: emit tables false true back := by
  induction front generalizing blocked with
  | nil => simp [emit, emit_plain plainBack]
  | cons ch rest ih =>
      rw [List.mem_cons, not_or] at plain
      have other : (ch == '*') = false := by simpa using Ne.symm plain.1
      simp only [List.cons_append, emit, other, Bool.and_false, Bool.false_eq_true, if_false,
        ih plain.2]
      split_ifs <;> simp

theorem emit_separators {text : List Char} (separators : ∀ c ∈ text, isWord tables c = false)
    : emit tables false true text = [] := by
  induction text with
  | nil => rfl
  | cons ch rest ih =>
      obtain ⟨here, later⟩ := List.forall_mem_cons.mp separators
      simp [emit, here, ih later]

/-- A blocked text takes the same or all but a separator at the beginning. -/
theorem emit_blocked_suffix (tables : CaseTables) (text : List Char) (blocked : Bool)
    : emit tables false true text <:+ emit tables false blocked text := by
  cases blocked with
  | true => exact List.suffix_rfl
  | false =>
      cases text with
      | nil => exact List.suffix_rfl
      | cons ch rest =>
          simp only [emit, Bool.false_and, Bool.false_eq_true, if_false, if_true]
          split_ifs
          · exact List.suffix_rfl
          · exact List.suffix_cons _ _

theorem star_not_mem_emit (lawful : tables.Lawful) (text : List Char) (blocked : Bool)
    : '*' ∉ emit tables false blocked text := by
  induction text generalizing blocked with
  | nil => exact List.not_mem_nil
  | cons ch rest ih =>
      simp only [emit, Bool.false_and, Bool.false_eq_true, if_false]
      split_ifs with word closed
      · rw [List.mem_append, not_or]
        exact ⟨fun inside => (lawful.lower_plain ch word _ inside).1 rfl, ih false⟩
      · exact ih true
      · rw [List.mem_cons, not_or]
        exact ⟨by decide, ih true⟩

/-- A blocked text does not begin with a separator. -/
theorem head_emit (lawful : tables.Lawful) (text : List Char)
    : (emit tables false true text).head? ≠ some '_' := by
  induction text with
  | nil => simp [emit]
  | cons ch rest ih =>
      simp only [emit, Bool.false_and, Bool.false_eq_true, if_false, if_true]
      split_ifs with word
      · cases shape : tables.toLowercase ch with
        | nil => exact absurd shape (lawful.lower_some ch word)
        | cons d more =>
            have plain := (lawful.lower_plain ch word d (by simp [shape])).2
            simpa using plain
      · exact ih

/-- A text with a letter in it does not vanish. -/
theorem emit_ne_nil (lawful : tables.Lawful) {text : List Char} {c : Char} (inside : c ∈ text)
    (word : isWord tables c = true) (blocked : Bool)
    : emit tables false blocked text ≠ [] := by
  induction text generalizing blocked with
  | nil => exact absurd inside List.not_mem_nil
  | cons ch rest ih =>
      simp only [emit, Bool.false_and, Bool.false_eq_true, if_false]
      split_ifs with here closed
      · exact List.append_ne_nil_of_left_ne_nil (lawful.lower_some ch here) _
      · rcases List.mem_cons.mp inside with rfl | later
        · exact absurd word here
        · exact ih later true
      · exact List.cons_ne_nil _ _

/-! ## Normal forms -/

/-- Without the underscores at the end. -/
def trimEnd (text : List Char) : List Char :=
  text.rdropWhile (· == '_')

theorem trimEnd_append (front back : List Char)
    : trimEnd (front ++ back) = if trimEnd back = [] then trimEnd front else front ++ trimEnd back := by
  simp only [trimEnd, List.rdropWhile, List.reverse_append, List.dropWhile_append,
    List.isEmpty_iff, List.reverse_eq_nil_iff]
  split_ifs <;> simp

theorem trimEnd_star (text : List Char) : trimEnd ('*' :: text) = '*' :: trimEnd text := by
  have single : trimEnd ['*'] = ['*'] := by decide
  rw [← List.singleton_append, trimEnd_append]
  split_ifs with empty
  · rw [single, empty]
  · rfl

/-- A text whose last character is no underscore is kept whatever follows it. -/
theorem prefix_trimEnd {front : List Char} (back : List Char) (last : front.getLast? ≠ some '_')
    : front <+: trimEnd (front ++ back) := by
  rw [trimEnd_append]
  split_ifs with empty
  · have whole : trimEnd front = front := by
      rw [trimEnd, List.rdropWhile_eq_self_iff]
      intro nonempty
      rw [List.getLast?_eq_getLast_of_ne_nil nonempty] at last
      simpa using last
    rw [whole]
  · exact List.prefix_append _ _

/-- What does not vanish at the end is at the end. -/
theorem suffix_trimEnd (front back : List Char) : trimEnd back <:+ trimEnd (front ++ back) := by
  rw [trimEnd_append]
  split_ifs with empty
  · rw [empty]
    exact List.nil_suffix
  · exact List.suffix_append _ _

/-- The folded text, as far as the platform's tables go. -/
def folded (tables : CaseTables) (text : List Char) : List Char :=
  emit tables false true text

theorem folded_append (front back : List Char)
    : folded tables (front ++ back)
      = folded tables front ++ emit tables false (leaves tables true front) back :=
  emit_append front back true

theorem dropWhile_of_head {text : List Char} (head : text.head? ≠ some '_')
    : text.dropWhile (· == '_') = text := by
  cases text with
  | nil => rfl
  | cons c rest => exact List.dropWhile_cons_of_neg (by simpa using head)

theorem normalizePolicyMatchValue_eq (lawful : tables.Lawful) (value : List Char)
    : normalizePolicyMatchValue tables value = trimEnd (folded tables value) := by
  rw [normalizePolicyMatchValue, foldSeparators_eq lawful, trimUnderscores]
  exact congrArg trimEnd (dropWhile_of_head (head_emit lawful value))

theorem normalizeWildcardPattern_plain (lawful : tables.Lawful) {pattern : List Char}
    (plain : '*' ∉ pattern)
    : normalizeWildcardPattern tables pattern = trimEnd (folded tables pattern) := by
  rw [normalizeWildcardPattern, foldSeparators_eq lawful, trimUnderscores]
  change ((emit tables true true pattern).dropWhile _).rdropWhile _ = _
  rw [emit_plain plain]
  exact congrArg trimEnd (dropWhile_of_head (head_emit lawful pattern))

theorem normalizeWildcardPattern_star (lawful : tables.Lawful) {front back : List Char}
    (plain : '*' ∉ front) (plainBack : '*' ∉ back)
    : normalizeWildcardPattern tables (front ++ '*' :: back)
      = folded tables front ++ '*' :: trimEnd (folded tables back) := by
  rw [normalizeWildcardPattern, foldSeparators_eq lawful, trimUnderscores]
  change ((emit tables true true (front ++ '*' :: back)).dropWhile _).rdropWhile _ = _
  rw [emit_star plain plainBack]
  have head : (emit tables false true front ++ '*' :: emit tables false true back).head?
      ≠ some '_' := by
    rw [List.head?_append]
    cases shape : (emit tables false true front).head? with
    | none => simp
    | some c => simpa [shape] using head_emit lawful front
  rw [dropWhile_of_head head]
  change trimEnd _ = _
  rw [trimEnd_append, trimEnd_star, if_neg (List.cons_ne_nil _ _)]
  rfl

theorem star_not_mem_folded (lawful : tables.Lawful) (text : List Char)
    : '*' ∉ folded tables text :=
  star_not_mem_emit lawful text true

theorem star_not_mem_trimEnd (lawful : tables.Lawful) (text : List Char)
    : '*' ∉ trimEnd (folded tables text) := fun inside =>
  star_not_mem_folded lawful text ((List.rdropWhile_prefix _ _).subset inside)

/-- Folding keeps every star of a pattern. -/
theorem count_star_emit (lawful : tables.Lawful) (text : List Char) (blocked : Bool)
    : (emit tables true blocked text).count '*' = text.count '*' := by
  induction text generalizing blocked with
  | nil => rfl
  | cons ch rest ih =>
      simp only [emit, Bool.true_and, beq_iff_eq]
      split_ifs with star word closed
      · rw [star, List.count_cons_self, List.count_cons_self, ih]
      · have none : (tables.toLowercase ch).count '*' = 0 :=
          List.count_eq_zero.mpr fun inside => (lawful.lower_plain ch word _ inside).1 rfl
        rw [List.count_append, none, ih, List.count_cons_of_ne star, Nat.zero_add]
      · rw [ih, List.count_cons_of_ne star]
      · rw [List.count_cons_of_ne (by decide), ih, List.count_cons_of_ne star]

theorem count_star_trimUnderscores (text : List Char)
    : (trimUnderscores text).count '*' = text.count '*' := by
  have kept : ∀ l : List Char, (l.dropWhile (· == '_')).count '*' = l.count '*' := by
    intro l
    have none : (l.takeWhile (· == '_')).count '*' = 0 :=
      List.count_eq_zero.mpr fun inside => absurd (List.mem_takeWhile_imp inside) (by decide)
    conv_rhs => rw [← List.takeWhile_append_dropWhile (p := (· == '_')) (l := l)]
    rw [List.count_append, none, Nat.zero_add]
  rw [trimUnderscores, List.rdropWhile, List.count_reverse, kept, List.count_reverse, kept]

theorem count_star_normalizeWildcardPattern (lawful : tables.Lawful) (pattern : List Char)
    : (normalizeWildcardPattern tables pattern).count '*' = pattern.count '*' := by
  rw [normalizeWildcardPattern, count_star_trimUnderscores, foldSeparators_eq lawful]
  exact count_star_emit lawful pattern true

end Folding

theorem EndStar.count_le (star : EndStar pattern) : pattern.count '*' ≤ 1 := by
  obtain ⟨word, plain, rfl | rfl | rfl⟩ := star
  · rw [List.count_eq_zero.mpr plain]
    exact Nat.zero_le 1
  · simp [List.count_eq_zero.mpr plain]
  · simp [List.count_eq_zero.mpr plain]

/-- A single star between two parts is at an end only if one of them is empty. -/
theorem endStar_single {front back : List Char} (plain : '*' ∉ front) (plainBack : '*' ∉ back)
    : EndStar (front ++ '*' :: back) ↔ front = [] ∨ back = [] := by
  constructor
  · rintro ⟨word, absent, same | same | same⟩
    · exact absurd (same ▸ List.mem_append_right front List.mem_cons_self) absent
    · exact .inr ((List.append_cons_inj_of_notMem plain plainBack).mp same).2.2
    · rw [← List.nil_append ('*' :: word)] at same
      exact .inl ((List.append_cons_inj_of_notMem plain plainBack).mp same).1
  · rintro (rfl | rfl)
    · exact ⟨back, plainBack, .inr (.inr rfl)⟩
    · exact ⟨front, plain, .inr (.inl rfl)⟩

/-! ## Patterns that mean what they say -/

/-- The topic belongs to the language of the pattern, as they are in lower case or with their
separators folded.
-/
def Means (tables : CaseTables) (pattern topic : String) : Prop :=
  let pattern := (tables.strToLowercase (trim pattern)).toList
  let topic := (tables.strToLowercase (trim topic)).toList
  Matches '*' pattern topic
    ∨ Matches '*' (normalizeWildcardPattern tables pattern) (normalizePolicyMatchValue tables topic)

/-- There is no star, or one star that has only separators before it, nothing after it, or only
separators after it and a letter right before it.
-/
def StarAtEnd (tables : CaseTables) (pattern : List Char) : Prop :=
  '*' ∉ pattern
    ∨ ∃ front back, pattern = front ++ '*' :: back ∧ '*' ∉ front ∧ '*' ∉ back
      ∧ ((∀ c ∈ front, isWord tables c = false) ∨ back = []
        ∨ ((∀ c ∈ back, isWord tables c = false)
          ∧ ∃ c ∈ front.getLast?, isWord tables c = true))

section Meaning

variable {tables : CaseTables}

/-- What passes the test as it is passes it folded, if only separators come before the star. -/
theorem folded_of_separators_before (lawful : tables.Lawful) {front back topic : List Char}
    (plain : '*' ∉ front) (plainBack : '*' ∉ back)
    (separators : ∀ c ∈ front, isWord tables c = false)
    (matched : Matches '*' (front ++ '*' :: back) topic)
    : Matches '*' (normalizeWildcardPattern tables (front ++ '*' :: back))
        (normalizePolicyMatchValue tables topic) := by
  obtain ⟨part, rfl⟩ := (matches_single_iff plain plainBack).mp matched
  have vanishes : folded tables front = [] := emit_separators separators
  rw [normalizeWildcardPattern_star lawful plain plainBack, normalizePolicyMatchValue_eq lawful,
    vanishes, matches_single_iff List.not_mem_nil (star_not_mem_trimEnd lawful back)]
  -- the part after the star is folded as in the pattern, up to a separator before it
  obtain ⟨more, shape⟩ := emit_blocked_suffix tables back
    (leaves tables true (front ++ part))
  have whole : folded tables (front ++ (part ++ back))
      = (emit tables false true (front ++ part) ++ more) ++ folded tables back := by
    rw [← List.append_assoc, folded_append, ← shape, List.append_assoc]
    rfl
  obtain ⟨start, same⟩ := suffix_trimEnd (emit tables false true (front ++ part) ++ more)
    (folded tables back)
  exact ⟨start, by rw [whole, List.nil_append, same]⟩

/-- The same if only separators come after the star and a letter comes right before it. -/
theorem folded_of_separators_after (lawful : tables.Lawful) {front back topic : List Char}
    (plain : '*' ∉ front) (plainBack : '*' ∉ back)
    (separators : ∀ c ∈ back, isWord tables c = false)
    (letter : ∃ c ∈ front.getLast?, isWord tables c = true)
    (matched : Matches '*' (front ++ '*' :: back) topic)
    : Matches '*' (normalizeWildcardPattern tables (front ++ '*' :: back))
        (normalizePolicyMatchValue tables topic) := by
  obtain ⟨part, rfl⟩ := (matches_single_iff plain plainBack).mp matched
  have vanishes : trimEnd (folded tables back) = [] := by
    rw [folded, emit_separators separators]
    rfl
  rw [normalizeWildcardPattern_star lawful plain plainBack, normalizePolicyMatchValue_eq lawful,
    vanishes, matches_single_iff (star_not_mem_folded lawful front) List.not_mem_nil]
  obtain ⟨c, last, word⟩ := letter
  obtain ⟨start, rfl⟩ := List.getLast?_eq_some_iff.mp last
  have ends : (folded tables (start ++ [c])).getLast? ≠ some '_' := by
    obtain ⟨more, d, shape⟩ := List.eq_nil_or_concat (tables.toLowercase c)
      |>.resolve_left (lawful.lower_some c word)
    have plainLast := (lawful.lower_plain c word d (by simp [shape])).2
    have single : ∀ blocked, emit tables false blocked [c] = tables.toLowercase c := by
      simp [emit, word]
    rw [folded, emit_append, single, shape, List.concat_eq_append, ← List.append_assoc,
      List.getLast?_concat]
    simpa using plainLast
  obtain ⟨rest, same⟩ := prefix_trimEnd (emit tables false
    (leaves tables true (start ++ [c])) (part ++ back)) ends
  refine ⟨rest, ?_⟩
  rw [List.append_nil, same, folded_append]

/-- A pattern whose star is at an end means what it says. -/
theorem wildcardMatch_of_starAtEnd (lawful : tables.Lawful) {pattern : String}
    (atEnd : StarAtEnd tables (tables.strToLowercase (trim pattern)).toList) (topic : String)
    : wildcardMatch tables pattern topic = true ↔ Means tables pattern topic := by
  unfold wildcardMatch Means
  generalize (tables.strToLowercase (trim pattern)).toList = given at atEnd ⊢
  generalize (tables.strToLowercase (trim topic)).toList = value
  simp only [Bool.or_eq_true]
  rcases atEnd with plain | ⟨front, back, rfl, plain, plainBack, cases⟩
  · have folds : EndStar (normalizeWildcardPattern tables given) := by
      rw [normalizeWildcardPattern_plain lawful plain]
      exact ⟨_, star_not_mem_trimEnd lawful given, .inl rfl⟩
    rw [wildcardMatchNormalized_iff ⟨given, plain, .inl rfl⟩, wildcardMatchNormalized_iff folds]
  · have star := normalizeWildcardPattern_star lawful plain plainBack
    have folds : EndStar (normalizeWildcardPattern tables (front ++ '*' :: back)) := by
      rw [star, endStar_single (star_not_mem_folded lawful front)
        (star_not_mem_trimEnd lawful back)]
      rcases cases with separators | rfl | ⟨separators, -⟩
      · exact .inl (emit_separators separators)
      · exact .inr rfl
      · exact .inr (by rw [folded, emit_separators separators]; rfl)
    rw [wildcardMatchNormalized_iff folds]
    constructor
    · exact fun passed => passed.imp_left matches_of_wildcardMatchNormalized
    · rintro (matched | matched)
      · rcases cases with separators | rfl | ⟨separators, letter⟩
        · exact .inr (folded_of_separators_before lawful plain plainBack separators matched)
        · exact .inl ((wildcardMatchNormalized_iff ⟨front, plain, .inr (.inl rfl)⟩).mpr matched)
        · exact .inr (folded_of_separators_after lawful plain plainBack separators letter matched)
      · exact .inr matched

/-- A topic made of the pattern's own characters is compared as it is. -/
theorem lowered_topic (lawful : tables.Lawful) (pattern : String) {text : List Char}
    (own : ∀ c ∈ text, c = 'a' ∨ c ∈ (tables.strToLowercase (trim pattern)).toList)
    (first : ∀ c ∈ text.head?, isWhitespace c = false)
    (last : ∀ c ∈ text.getLast?, isWhitespace c = false)
    : (tables.strToLowercase (trim (String.ofList text))).toList = text := by
  have trimmed : trim (String.ofList text) = String.ofList text :=
    trim_eq_self (by rwa [String.toList_ofList]) (by rwa [String.toList_ofList])
  have lower : tables.strToLowercase (String.ofList text) = String.ofList text := by
    apply lawful.lowered
    intro c inside
    rw [String.toList_ofList] at inside
    exact (own c inside).imp_right fun member => ⟨_, member⟩
  rw [trimmed, lower, String.toList_ofList]

/-- A pattern in lower case has no white space at its ends. -/
theorem lowered_pattern (lawful : tables.Lawful) (pattern : String)
    : trim (tables.strToLowercase (trim pattern)) = tables.strToLowercase (trim pattern) :=
  lawful.trimmed _ (trim_trim pattern)

/-- The letter a in the place of every star. -/
def filled (pattern : List Char) : List Char :=
  pattern.map fun c => if c = '*' then 'a' else c

theorem mem_filled {pattern : List Char} {c : Char} (inside : c ∈ filled pattern)
    : (c = 'a' ∨ c ∈ pattern) ∧ c ≠ '*' := by
  obtain ⟨d, member, rfl⟩ := List.mem_map.mp inside
  split_ifs with star
  · exact ⟨.inl rfl, by decide⟩
  · exact ⟨.inr member, star⟩

/-- A filled pattern as a topic is compared as it is. -/
theorem lowered_filled (lawful : tables.Lawful) (pattern : String)
    : (tables.strToLowercase (trim (String.ofList
        (filled (tables.strToLowercase (trim pattern)).toList)))).toList
      = filled (tables.strToLowercase (trim pattern)).toList := by
  have trimmed := lowered_pattern lawful pattern
  have visible : ∀ d : Char, isWhitespace d = false
      → isWhitespace (if d = '*' then 'a' else d) = false := by
    intro d seen
    split_ifs
    · decide
    · exact seen
  refine lowered_topic lawful pattern (fun c inside => (mem_filled inside).1) ?_ ?_
  · intro c first
    rw [filled, List.head?_map] at first
    obtain ⟨d, here, rfl⟩ := Option.mem_map.mp first
    exact visible d (head_trimmed trimmed d here)
  · intro c last
    rw [filled, List.getLast?_map] at last
    obtain ⟨d, here, rfl⟩ := Option.mem_map.mp last
    exact visible d (getLast_trimmed trimmed d here)

/-- With a star that neither the pattern nor its folded form has at an end, the filled pattern is
a topic that is missed.
-/
theorem missed_of_not_endStar (lawful : tables.Lawful) {pattern : String}
    (inner : ¬ EndStar (tables.strToLowercase (trim pattern)).toList)
    (innerFolded : ¬ EndStar
      (normalizeWildcardPattern tables (tables.strToLowercase (trim pattern)).toList))
    : ∃ topic, Means tables pattern topic ∧ wildcardMatch tables pattern topic = false := by
  have lowered := lowered_filled lawful pattern
  refine ⟨String.ofList (filled (tables.strToLowercase (trim pattern)).toList), ?_, ?_⟩
  · unfold Means
    rw [lowered]
    exact .inl (Matches.map_star 'a' _)
  · simp only [wildcardMatch, lowered, Bool.or_eq_false_iff]
    refine ⟨Bool.eq_false_iff.mpr fun passed => ?_, Bool.eq_false_iff.mpr fun passed => ?_⟩
    · exact (mem_filled (star_mem_of_not_endStar inner passed)).2 rfl
    · have inside := star_mem_of_not_endStar innerFolded passed
      rw [normalizePolicyMatchValue_eq lawful] at inside
      exact star_not_mem_trimEnd lawful _ inside

/-- A text with a letter in it that ends in a separator is folded to one that does. -/
theorem getLast_folded {text : List Char} {c : Char} (inside : c ∈ text)
    (word : isWord tables c = true) (last : ∀ d ∈ text.getLast?, isWord tables d = false)
    : (folded tables text).getLast? = some '_' := by
  induction text using List.reverseRecOn with
  | nil => exact absurd inside List.not_mem_nil
  | append_singleton start d ih =>
      have separator : isWord tables d = false := last d (by simp)
      have earlier : c ∈ start := by
        rcases List.mem_append.mp inside with here | there
        · exact here
        · rw [List.mem_singleton.mp there, separator] at word
          exact absurd word (by decide)
      rw [folded_append]
      obtain ⟨before, e, whole⟩ := List.eq_nil_or_concat start
        |>.resolve_left (List.ne_nil_of_mem earlier)
      rw [List.concat_eq_append] at whole
      have state : leaves tables true start = !isWord tables e := by rw [whole, leaves_concat]
      cases kind : isWord tables e with
      | true =>
          rw [state, kind]
          simp [emit, separator]
      | false =>
          have previous := ih earlier (by
            intro f final
            rw [whole, List.getLast?_concat, Option.mem_some_iff] at final
            rw [← final, kind])
          rw [state, kind]
          simpa [emit, separator] using previous

/-- With a separator right before the star and only separators after it, the pattern without its
star is a topic that is missed.
-/
theorem missed_of_separator_before (lawful : tables.Lawful) {pattern : String}
    {front back : List Char}
    (shape : (tables.strToLowercase (trim pattern)).toList = front ++ '*' :: back)
    (plain : '*' ∉ front) (plainBack : '*' ∉ back) (more : back ≠ [])
    (separators : ∀ c ∈ back, isWord tables c = false) {c : Char} (inside : c ∈ front)
    (word : isWord tables c = true) (last : ∀ c ∈ front.getLast?, isWord tables c = false)
    : ∃ topic, Means tables pattern topic ∧ wildcardMatch tables pattern topic = false := by
  have trimmed := lowered_pattern lawful pattern
  have nonempty : front ≠ [] := List.ne_nil_of_mem inside
  have lowered : (tables.strToLowercase (trim (String.ofList (front ++ back)))).toList
      = front ++ back := by
    refine lowered_topic lawful pattern (fun d member => .inr ?_) ?_ ?_
    · rw [shape]
      rcases List.mem_append.mp member with here | there
      · exact List.mem_append_left _ here
      · exact List.mem_append_right _ (List.mem_cons_of_mem _ there)
    · have head := head_trimmed trimmed
      rw [shape, List.head?_append_of_ne_nil _ nonempty] at head
      rwa [List.head?_append_of_ne_nil _ nonempty]
    · have final := getLast_trimmed trimmed
      rw [shape, List.getLast?_append_of_ne_nil _ (List.cons_ne_nil _ _),
        List.getLast?_cons_of_ne_nil more] at final
      rwa [List.getLast?_append_of_ne_nil _ more]
  refine ⟨String.ofList (front ++ back), ?_, ?_⟩
  · unfold Means
    rw [lowered, shape]
    exact .inl ((matches_single_iff plain plainBack).mpr ⟨[], rfl⟩)
  · simp only [wildcardMatch, lowered, shape, Bool.or_eq_false_iff]
    refine ⟨Bool.eq_false_iff.mpr fun passed => ?_, Bool.eq_false_iff.mpr fun passed => ?_⟩
    · have inner : ¬ EndStar (front ++ '*' :: back) := by
        rw [endStar_single plain plainBack]
        exact fun either => either.elim nonempty more
      rcases List.mem_append.mp (star_mem_of_not_endStar inner passed) with here | there
      · exact plain here
      · exact plainBack there
    · -- the separator before the star is lost at the end of the topic
      obtain ⟨start, ends⟩ := List.getLast?_eq_some_iff.mp
        (getLast_folded inside word last)
      have vanishes : trimEnd (folded tables back) = [] := by
        rw [folded, emit_separators separators]
        rfl
      have closed : leaves tables true front = true := by
        obtain ⟨before, d, whole⟩ := List.eq_nil_or_concat front |>.resolve_left nonempty
        rw [List.concat_eq_append] at whole
        rw [whole, leaves_concat, last d (by rw [whole]; simp)]
        rfl
      rw [normalizeWildcardPattern_star lawful plain plainBack, vanishes,
        wildcardMatchNormalized_concat, normalizePolicyMatchValue_eq lawful, folded_append, closed,
        emit_separators separators, List.append_nil, ends, trimEnd_append,
        if_pos (by decide)] at passed
      have lengths := passed.length_le
      have short := (List.rdropWhile_prefix (· == '_') start).length_le
      simp only [List.length_append, List.length_singleton, trimEnd] at lengths short
      omega

theorem trimEnd_folded_ne_nil (lawful : tables.Lawful) {text : List Char} {c : Char}
    (inside : c ∈ text) (word : isWord tables c = true)
    : trimEnd (folded tables text) ≠ [] := by
  intro vanishes
  have all := List.rdropWhile_eq_nil_iff.mp vanishes
  cases shape : folded tables text with
  | nil => exact emit_ne_nil lawful inside word true shape
  | cons d rest =>
      have head := head_emit lawful text
      rw [show emit tables false true text = d :: rest from shape, List.head?_cons] at head
      exact head (congrArg some (by simpa using all d (by simp [shape])))

/-- A pattern that means what it says for every topic has its star at an end. -/
theorem starAtEnd_of_agreement (lawful : tables.Lawful) {pattern : String}
    (agrees : ∀ topic, wildcardMatch tables pattern topic = true ↔ Means tables pattern topic)
    : StarAtEnd tables (tables.strToLowercase (trim pattern)).toList := by
  have found : ¬ ∃ topic, Means tables pattern topic ∧ wildcardMatch tables pattern topic = false := by
    rintro ⟨topic, means, missed⟩
    rw [(agrees topic).mpr means] at missed
    exact absurd missed (by decide)
  by_contra inner
  simp only [StarAtEnd, not_or] at inner
  obtain ⟨star, inner⟩ := inner
  rw [not_not] at star
  by_cases several : 1 < (tables.strToLowercase (trim pattern)).toList.count '*'
  · refine found (missed_of_not_endStar lawful (fun atEnd => ?_) fun atEnd => ?_)
    · exact absurd atEnd.count_le (by omega)
    · have few := atEnd.count_le
      rw [count_star_normalizeWildcardPattern lawful] at few
      omega
  · obtain ⟨front, back, shape⟩ := List.append_of_mem star
    have once : front.count '*' + (back.count '*' + 1) ≤ 1 := by
      have count := congrArg (List.count '*') shape
      rw [List.count_append, List.count_cons_self] at count
      omega
    have plain : '*' ∉ front := List.count_eq_zero.mp (by omega)
    have plainBack : '*' ∉ back := List.count_eq_zero.mp (by omega)
    have cases : ¬ ((∀ c ∈ front, isWord tables c = false) ∨ back = []
        ∨ ((∀ c ∈ back, isWord tables c = false)
          ∧ ∃ c ∈ front.getLast?, isWord tables c = true)) :=
      fun atEnd => inner ⟨front, back, shape, plain, plainBack, atEnd⟩
    push Not at cases
    obtain ⟨⟨c, inside, word⟩, more, last⟩ := cases
    rw [ne_eq, Bool.not_eq_false] at word
    by_cases separators : ∀ d ∈ back, isWord tables d = false
    · exact found (missed_of_separator_before lawful shape plain plainBack more separators inside word
        fun d final => Bool.eq_false_of_not_eq_true (last separators d final))
    · push Not at separators
      obtain ⟨d, member, letter⟩ := separators
      rw [ne_eq, Bool.not_eq_false] at letter
      refine found (missed_of_not_endStar lawful (fun atEnd => ?_) fun atEnd => ?_)
      · rw [shape, endStar_single plain plainBack] at atEnd
        exact atEnd.elim (List.ne_nil_of_mem inside) more
      · rw [shape, normalizeWildcardPattern_star lawful plain plainBack,
          endStar_single (star_not_mem_folded lawful front) (star_not_mem_trimEnd lawful back)]
          at atEnd
        exact atEnd.elim (emit_ne_nil lawful inside word true)
          (trimEnd_folded_ne_nil lawful member letter)

/-- A letter of a pattern leaves a character in the folded pattern that is no star. -/
theorem exists_mem_normalizeWildcardPattern (lawful : tables.Lawful) {pattern : List Char}
    {c : Char} (inside : c ∈ pattern) (word : isWord tables c = true)
    : ∃ d ∈ normalizeWildcardPattern tables pattern, d ≠ '*' := by
  have emitted : ∀ (text : List Char) (blocked : Bool), c ∈ text
      → ∃ d ∈ emit tables true blocked text, d ≠ '*' ∧ d ≠ '_' := by
    intro text
    induction text with
    | nil => exact fun _ member => absurd member List.not_mem_nil
    | cons ch rest ih =>
        intro blocked member
        simp only [emit, Bool.true_and, beq_iff_eq]
        split_ifs with star here closed
        · have later : c ∈ rest := by
            rcases List.mem_cons.mp member with rfl | later
            · rw [star, lawful.star_separates] at word
              exact absurd word (by decide)
            · exact later
          obtain ⟨d, found, other⟩ := ih true later
          exact ⟨d, List.mem_cons_of_mem _ found, other⟩
        · cases shape : tables.toLowercase ch with
          | nil => exact absurd shape (lawful.lower_some ch here)
          | cons d more =>
              exact ⟨d, by simp, lawful.lower_plain ch here d (by simp [shape])⟩
        · have later : c ∈ rest := (List.mem_cons.mp member).resolve_left fun same =>
            here (same ▸ word)
          exact ih true later
        · have later : c ∈ rest := (List.mem_cons.mp member).resolve_left fun same =>
            here (same ▸ word)
          obtain ⟨d, found, other⟩ := ih true later
          exact ⟨d, List.mem_cons_of_mem _ found, other⟩
  obtain ⟨d, found, star, underscore⟩ := emitted pattern true inside
  have kept : ∀ {l : List Char}, d ∈ l → d ∈ l.dropWhile (· == '_') := by
    intro l member
    rw [← List.takeWhile_append_dropWhile (p := (· == '_')) (l := l), List.mem_append] at member
    rcases member with dropped | here
    · exact absurd (List.mem_takeWhile_imp dropped) (by simpa using underscore)
    · exact here
  refine ⟨d, ?_, star⟩
  rw [normalizeWildcardPattern, foldSeparators_eq lawful, trimUnderscores, List.rdropWhile,
    List.mem_reverse]
  exact kept (List.mem_reverse.mpr (kept found))

/-- A pattern with a letter in it does not match the empty topic. -/
theorem missed_of_letter (lawful : tables.Lawful) {pattern : String}
    (letter : ∃ c ∈ pattern.toList, isWord tables c = true)
    : wildcardMatch tables pattern "" = false := by
  obtain ⟨c, inside, word⟩ := letter
  obtain ⟨d, member, lower⟩ := lawful.word_kept (trim pattern)
    ⟨c, mem_trim inside (lawful.word_visible c word), word⟩
  have empty : (tables.strToLowercase (trim "")).toList = [] := by
    have trimmed : trim "" = "" := by decide
    rw [trimmed, lawful.lowered "" (by simp)]
    rfl
  simp only [wildcardMatch, empty, Bool.or_eq_false_iff]
  refine ⟨Bool.eq_false_iff.mpr fun passed => ?_, Bool.eq_false_iff.mpr fun passed => ?_⟩
  · have star := (matches_of_wildcardMatchNormalized passed).eq_star_of_nil d member
    rw [star, lawful.star_separates] at lower
    exact absurd lower (by decide)
  · obtain ⟨e, found, other⟩ := exists_mem_normalizeWildcardPattern lawful member lower
    exact other ((matches_of_wildcardMatchNormalized passed).eq_star_of_nil e found)

end Meaning

/-- A pattern agrees with its meaning on every topic exactly when its star is at an end, and a
pattern with a letter or a digit in it never matches every topic.
-/
theorem topic_patterns_mean (tables : CaseTables) (lawful : tables.Lawful)
    : (∀ pattern, (∀ topic, wildcardMatch tables pattern topic = true ↔ Means tables pattern topic)
        ↔ StarAtEnd tables (tables.strToLowercase (trim pattern)).toList)
      ∧ ∀ pattern : String, (∃ c ∈ pattern.toList, isWord tables c = true)
        → ∃ topic, wildcardMatch tables pattern topic = false :=
  ⟨fun _ => ⟨starAtEnd_of_agreement lawful, wildcardMatch_of_starAtEnd lawful⟩,
    fun _ letter => ⟨"", missed_of_letter lawful letter⟩⟩

/-- A selector whose pattern has its star at an end takes the candidates that agree with it in every
field it gives and whose topic the pattern means.
-/
theorem selectorMatchesCandidate_iff {tables : CaseTables} (lawful : tables.Lawful)
    {selector : MemoryGovernanceSelector} {candidate : GovernedCandidate}
    (atEnd : ∀ pattern ∈ selector.topicPattern,
      StarAtEnd tables (tables.strToLowercase (trim pattern)).toList)
    : selectorMatchesCandidate tables selector candidate = true
      ↔ (∀ space ∈ selector.memorySpaceId, candidate.memorySpaceId = some space)
        ∧ (∀ subject ∈ selector.subjectId, candidate.subjectId = some subject)
        ∧ (∀ kind ∈ selector.kind, candidate.kind = kind)
        ∧ (∀ chat ∈ selector.sourceChatId, candidate.sourceChatId = some chat)
        ∧ (∀ scope ∈ selector.sourceScope, candidate.sourceScope = scope)
        ∧ ∀ pattern ∈ selector.topicPattern, Means tables pattern candidate.topic := by
  have topics : selector.topicPattern.elim true
        (fun pattern => wildcardMatch tables pattern candidate.topic) = true
      ↔ ∀ pattern ∈ selector.topicPattern, Means tables pattern candidate.topic := by
    cases given : selector.topicPattern with
    | none => simp
    | some pattern =>
        simpa using wildcardMatch_of_starAtEnd lawful (atEnd pattern given) candidate.topic
  have given : ∀ {α : Type} [DecidableEq α] (field : Option α) (actual : Option α),
      ¬ field.any (some · != actual) = true ↔ ∀ value ∈ field, actual = some value := by
    intro α _ field actual
    cases field with
    | none => simp
    | some value => simpa using eq_comm
  have exact : ∀ {α : Type} [DecidableEq α] (field : Option α) (actual : α),
      ¬ field.any (· != actual) = true ↔ ∀ value ∈ field, actual = value := by
    intro α _ field actual
    cases field with
    | none => simp
    | some value => simpa using eq_comm
  rw [← given, ← given, ← exact, ← given, ← exact, ← topics, selectorMatchesCandidate]
  split_ifs <;> simp_all

/-- Tables for texts in lower-case letters. -/
def plainTables : CaseTables where
  isAlphanumeric c := 97 ≤ c.toNat && c.toNat ≤ 122
  toLowercase c := [c]
  strToLowercase text := text

theorem plainTables_lawful : plainTables.Lawful where
  star_separates := by decide
  underscore_separates := by decide
  word_visible c word := by
    simp [isWord, plainTables, isCjk, isWhitespace] at word ⊢
    omega
  lower_some c _ := List.cons_ne_nil c []
  lower_plain c word d inside := by
    obtain rfl := List.mem_singleton.mp inside
    constructor <;> rintro rfl <;> exact absurd word (by decide)
  lowered _ _ := rfl
  trimmed _ trimmed := trimmed
  word_kept _ letter := letter

/-- A star at both ends does not stand for what comes before the middle part. -/
theorem starred_pattern_misses
    : Means plainTables "*secret*" "my secret plan"
      ∧ wildcardMatch plainTables "*secret*" "my secret plan" = false := by
  refine ⟨.inl ?_, by decide +kernel⟩
  have parts : (plainTables.strToLowercase (trim "my secret plan")).toList
      = "my ".toList ++ ("secret".toList ++ (" plan".toList ++ [])) := by decide +kernel
  have pattern : (plainTables.strToLowercase (trim "*secret*")).toList
      = '*' :: ("secret".toList ++ ['*']) := by decide +kernel
  rw [parts, pattern]
  exact .star _ (((matches_plain_iff (by decide)).mpr rfl).append (.star _ .nil))

/-- A star at the end. -/
theorem temporary_pattern_means
    : (∀ topic, wildcardMatch plainTables "temporary-*" topic = true
        ↔ Means plainTables "temporary-*" topic)
      ∧ ∃ topic, wildcardMatch plainTables "temporary-*" topic = false := by
  obtain ⟨agrees, misses⟩ := topic_patterns_mean plainTables plainTables_lawful
  refine ⟨(agrees "temporary-*").mpr (.inr ⟨"temporary-".toList, [], by decide +kernel,
    by decide, List.not_mem_nil, .inr (.inl rfl)⟩), misses "temporary-*" ⟨'t', by decide, by decide⟩⟩

end BeetleMemory.LongTerm
