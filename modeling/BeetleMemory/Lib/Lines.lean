import Mathlib

/-! Texts cut into lines. A line ends at carriage return and line feed; a lenient reader also ends
it at one of the two alone. The lines of a lenient reader are those of the strict one, cut further.
-/

namespace BeetleMemory.Lines

/-- The characters that end a line when they stand alone. -/
structure Ends where
  lineFeed : Bool
  carriageReturn : Bool
deriving DecidableEq, Repr

def Ends.strict : Ends := ⟨false, false⟩

def Ends.has (ends : Ends) (c : Char) : Bool :=
  (ends.lineFeed && c == '\n') || (ends.carriageReturn && c == '\r')

def splitLines (ends : Ends) : List Char → List (List Char)
  | [] => [[]]
  | '\r' :: '\n' :: rest => [] :: splitLines ends rest
  | c :: rest =>
      if ends.has c then [] :: splitLines ends rest
      else (splitLines ends rest).modifyHead (c :: ·)

variable {ends : Ends} {c : Char} {text rest : List Char}

theorem splitLines_pair
    : splitLines ends ('\r' :: '\n' :: rest) = [] :: splitLines ends rest :=
  rfl

theorem splitLines_cons (alone : ¬ (c = '\r' ∧ rest.head? = some '\n'))
    : splitLines ends (c :: rest)
      = if ends.has c then [] :: splitLines ends rest
        else (splitLines ends rest).modifyHead (c :: ·) := by
  rw [splitLines]
  rintro tail rfl rfl
  exact alone ⟨rfl, rfl⟩

theorem strict_has (c : Char) : Ends.strict.has c = false :=
  rfl

/-- Cases of a text by its first character or pair. -/
theorem text_induction {motive : List Char → Prop} (nil : motive [])
    (pair : ∀ rest, motive rest → motive ('\r' :: '\n' :: rest))
    (single : ∀ c rest, ¬ (c = '\r' ∧ rest.head? = some '\n') → motive rest → motive (c :: rest))
    (text : List Char)
    : motive text := by
  have apart {c : Char} {rest : List Char}
      (other : ∀ tail, c = '\r' → rest = '\n' :: tail → False)
      : ¬ (c = '\r' ∧ rest.head? = some '\n') := by
    rintro ⟨first, second⟩
    obtain ⟨tail, rfl⟩ := List.head?_eq_some_iff.mp second
    exact other tail first rfl
  induction text using splitLines.induct Ends.strict with
  | case1 => exact nil
  | case2 rest ih => exact pair rest ih
  | case3 c rest other _ ih => exact single c rest (apart other) ih
  | case4 c rest other _ ih => exact single c rest (apart other) ih

theorem splitLines_ne_nil (ends : Ends) (text : List Char) : splitLines ends text ≠ [] := by
  induction text using text_induction with
  | nil => simp [splitLines]
  | pair rest ih => simp [splitLines_pair]
  | single c rest alone ih =>
      rw [splitLines_cons alone]
      split_ifs
      · simp
      · simpa using ih

/-- A line of the strict reader begins with a line feed only where the text does. -/
theorem head_of_strict {line : List Char} {others : List (List Char)}
    (split : splitLines .strict text = line :: others) (feed : line.head? = some '\n')
    : text.head? = some '\n' := by
  induction text using text_induction with
  | nil =>
      obtain ⟨rfl, -⟩ : [] = line ∧ [] = others := by simpa [splitLines] using split
      simp at feed
  | pair rest ih =>
      obtain ⟨rfl, -⟩ := List.cons.inj split
      simp at feed
  | single c rest alone ih =>
      obtain ⟨first, more, later⟩ := List.exists_cons_of_ne_nil (splitLines_ne_nil .strict rest)
      rw [splitLines_cons alone, strict_has, later] at split
      obtain ⟨rfl, -⟩ := List.cons.inj split
      simpa using feed

/-- A lenient reader cuts each line of the strict one. -/
theorem splitLines_eq_flatMap (ends : Ends) (text : List Char)
    : splitLines ends text = (splitLines .strict text).flatMap (splitLines ends) := by
  induction text using text_induction with
  | nil => rfl
  | pair rest ih =>
      rw [splitLines_pair, splitLines_pair, List.flatMap_cons, ← ih]
      rfl
  | single c rest alone ih =>
      obtain ⟨line, others, split⟩ := List.exists_cons_of_ne_nil (splitLines_ne_nil .strict rest)
      have aloneInLine : ¬ (c = '\r' ∧ line.head? = some '\n') := fun both =>
        alone ⟨both.1, head_of_strict split both.2⟩
      have strictSplit : splitLines .strict (c :: rest) = (c :: line) :: others := by
        rw [splitLines_cons alone, strict_has, split]
        rfl
      rw [split, List.flatMap_cons] at ih
      rw [strictSplit, List.flatMap_cons, splitLines_cons alone, splitLines_cons aloneInLine, ih]
      obtain ⟨piece, pieces, cut⟩ := List.exists_cons_of_ne_nil (splitLines_ne_nil ends line)
      split_ifs
      · rfl
      · rw [cut]
        rfl

/-- Characters that end no line stay in front of the first line. -/
theorem splitLines_append {start : List Char} (plain : ∀ c ∈ start, c ≠ '\r' ∧ c ≠ '\n')
    (rest : List Char)
    : splitLines ends (start ++ rest) = (splitLines ends rest).modifyHead (start ++ ·) := by
  induction start with
  | nil =>
      obtain ⟨line, others, split⟩ := List.exists_cons_of_ne_nil (splitLines_ne_nil ends rest)
      rw [List.nil_append, split]
      rfl
  | cons c start ih =>
      obtain ⟨⟨notReturn, notFeed⟩, later⟩ := List.forall_mem_cons.mp plain
      have ordinary : ends.has c = false := by simp [Ends.has, notReturn, notFeed]
      rw [List.cons_append, splitLines_cons (fun both => notReturn both.1), ordinary, ih later,
        if_neg Bool.false_ne_true, List.modifyHead_modifyHead]
      rfl

/-- The text of lines. -/
def joinLines : List (List Char) → List Char
  | [] => []
  | [line] => line
  | line :: rest => line ++ '\r' :: '\n' :: joinLines rest

theorem joinLines_cons {line : List Char} {others : List (List Char)} (more : others ≠ [])
    : joinLines (line :: others) = line ++ '\r' :: '\n' :: joinLines others := by
  cases others with
  | nil => exact absurd rfl more
  | cons => rfl

theorem joinLines_append {first second : List (List Char)} (some : first ≠ []) (more : second ≠ [])
    : joinLines (first ++ second) = joinLines first ++ '\r' :: '\n' :: joinLines second := by
  induction first with
  | nil => exact absurd rfl some
  | cons line rest ih =>
      cases rest with
      | nil => exact joinLines_cons more
      | cons next rest =>
          have whole : joinLines (line :: next :: rest)
              = line ++ '\r' :: '\n' :: joinLines (next :: rest) := rfl
          rw [List.cons_append, joinLines_cons (by simp), ih (by simp), whole]
          simp

theorem joinLines_splitLines (text : List Char)
    : joinLines (splitLines .strict text) = text := by
  induction text using text_induction with
  | nil => rfl
  | pair rest ih =>
      rw [splitLines_pair, joinLines_cons (splitLines_ne_nil _ _), ih]
      rfl
  | single c rest alone ih =>
      obtain ⟨line, others, split⟩ := List.exists_cons_of_ne_nil (splitLines_ne_nil .strict rest)
      rw [splitLines_cons alone, strict_has, if_neg Bool.false_ne_true, split, List.modifyHead_cons]
      rw [split] at ih
      cases others with
      | nil => exact congrArg (c :: ·) ih
      | cons => exact congrArg (c :: ·) ih

end BeetleMemory.Lines
