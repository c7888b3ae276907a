import Mathlib

/-! A list cut into pieces by a test of its items: the runs of items that pass, and the words
between blank items, joined with one blank item between two words.
-/

namespace BeetleMemory.Pieces

variable {α : Type}

/-! ## Runs -/

/-- The runs of items that pass, with a cut at every other item. The first run goes on from the
items given; runs may be empty.
-/
def runsFrom (inside : α → Bool) : List α → List α → List (List α)
  | run, [] => [run]
  | run, a :: rest =>
      if inside a then runsFrom inside (run ++ [a]) rest else run :: runsFrom inside [] rest

variable {inside : α → Bool}

/-- What stands on the two sides of a cut is cut apart from each other. -/
theorem runsFrom_append_cut {cut : α} (outside : inside cut = false) (run before after : List α)
    : runsFrom inside run (before ++ cut :: after)
      = runsFrom inside run before ++ runsFrom inside [] after := by
  induction before generalizing run with
  | nil => simp [runsFrom, outside]
  | cons a before ih =>
      rw [List.cons_append, runsFrom, runsFrom]
      split_ifs
      · exact ih _
      · rw [ih, List.cons_append]

theorem all_of_mem_runsFrom {run text piece : List α} (passed : ∀ a ∈ run, inside a)
    (member : piece ∈ runsFrom inside run text)
    : ∀ a ∈ piece, inside a := by
  induction text generalizing run with
  | nil =>
      rw [runsFrom, List.mem_singleton] at member
      exact member ▸ passed
  | cons a rest ih =>
      rw [runsFrom] at member
      split_ifs at member with passes
      · exact ih (List.forall_mem_append.mpr ⟨passed, by simpa using passes⟩) member
      · rcases List.mem_cons.mp member with rfl | later
        · exact passed
        · exact ih (by simp) later

/-- Two neighbours that are not the item in the middle are on one side of it. -/
theorem pair_infix_append_cons {a b cut : α} (first : a ≠ cut) (second : b ≠ cut)
    {before after : List α}
    : [a, b] <:+: before ++ cut :: after ↔ [a, b] <:+: before ∨ [a, b] <:+: after := by
  induction before with
  | nil => simp [List.infix_cons_iff, first]
  | cons c before ih =>
      rw [List.cons_append, List.infix_cons_iff, ih, List.infix_cons_iff]
      cases before with
      | nil => simp [second]
      | cons d before =>
          simp only [List.cons_append, List.cons_prefix_cons, List.nil_prefix]
          tauto

theorem two_le_length_iff {run : List α} (passed : ∀ a ∈ run, inside a)
    : 2 ≤ run.length ↔ ∃ a b, inside a ∧ inside b ∧ [a, b] <:+: run := by
  constructor
  · intro long
    match run, passed, long with
    | a :: b :: rest, passed, _ =>
        exact ⟨a, b, passed a (by simp), passed b (by simp), (List.prefix_append _ _).isInfix⟩
  · rintro ⟨a, b, -, -, found⟩
    simpa using found.length_le

/-- A run with two items is two neighbours that pass. -/
theorem long_run_iff {run text : List α} (passed : ∀ a ∈ run, inside a)
    : (∃ piece ∈ runsFrom inside run text, 2 ≤ piece.length)
      ↔ ∃ a b, inside a ∧ inside b ∧ [a, b] <:+: run ++ text := by
  induction text generalizing run with
  | nil =>
      simp only [runsFrom, List.mem_singleton, exists_eq_left, List.append_nil]
      exact two_le_length_iff passed
  | cons c rest ih =>
      rw [runsFrom]
      split_ifs with passes
      · rw [ih (List.forall_mem_append.mpr ⟨passed, by simpa using passes⟩), List.append_assoc,
          List.singleton_append]
      · rw [List.exists_mem_cons_iff, two_le_length_iff passed, ih (by simp), List.nil_append]
        have apart : ∀ {a}, inside a → a ≠ c := by
          rintro a inner rfl
          exact passes inner
        constructor
        · rintro (⟨a, b, first, second, found⟩ | ⟨a, b, first, second, found⟩)
          · exact ⟨a, b, first, second,
              (pair_infix_append_cons (apart first) (apart second)).mpr (.inl found)⟩
          · exact ⟨a, b, first, second,
              (pair_infix_append_cons (apart first) (apart second)).mpr (.inr found)⟩
        · rintro ⟨a, b, first, second, found⟩
          exact ((pair_infix_append_cons (apart first) (apart second)).mp found).imp
            (fun here => ⟨a, b, first, second, here⟩) (fun here => ⟨a, b, first, second, here⟩)

/-! ## Words -/

/-- The words of a list with one space between two of them: whether a word was there before, and
whether a blank item was seen since.
-/
def squeeze (blank : α → Bool) (space : α) : Bool → Bool → List α → List α
  | _, _, [] => []
  | started, pending, a :: rest =>
      if blank a then squeeze blank space started true rest
      else
        (if started && pending then [space] else []) ++ a :: squeeze blank space true false rest

variable {blank : α → Bool} {space : α}

/-- The words that follow others are each led by a space. -/
def led (space : α) (words : List (List α)) : List α :=
  words.flatMap (space :: ·)

theorem intercalate_cons (space : α) (word : List α) (words : List (List α))
    : [space].intercalate (word :: words) = word ++ led space words := by
  induction words generalizing word with
  | nil => simp [led]
  | cons next words ih =>
      rw [List.intercalate_cons_cons, ih, led, led, List.flatMap_cons, List.cons_append,
        List.append_assoc, List.singleton_append]

/-- Inside a word the word goes on; behind a blank item the words that follow are led by a space.
Both are shown together, since a blank item leads from the first case to the second.
-/
theorem squeeze_started (text : List α) {word : List α} {words : List (List α)}
    (cut : text.splitOnP blank = word :: words)
    : squeeze blank space true false text = word ++ led space (words.filter (· ≠ []))
      ∧ squeeze blank space true true text = led space ((word :: words).filter (· ≠ [])) := by
  induction text generalizing word words with
  | nil =>
      obtain ⟨rfl, rfl⟩ : [] = word ∧ [] = words := by simpa using cut
      simp [squeeze, led]
  | cons a rest ih =>
      obtain ⟨next, later, restCut⟩ := List.exists_cons_of_ne_nil (List.splitOnP_ne_nil blank rest)
      obtain ⟨inWord, behind⟩ := ih restCut
      rw [List.splitOnP_cons_eq_if_modifyHead, restCut] at cut
      by_cases isBlank : blank a = true
      · obtain ⟨rfl, rfl⟩ : [] = word ∧ next :: later = words := by simpa [isBlank] using cut
        simp only [squeeze, isBlank, if_true, behind]
        simp
      · obtain ⟨rfl, rfl⟩ : a :: next = word ∧ later = words := by simpa [isBlank] using cut
        simp [squeeze, isBlank, inWord, led]

/-- Joining the words is squeezing the text. -/
theorem intercalate_words (text : List α) (pending : Bool)
    : [space].intercalate ((text.splitOnP blank).filter (· ≠ []))
      = squeeze blank space false pending text := by
  induction text generalizing pending with
  | nil => simp [squeeze]
  | cons a rest ih =>
      obtain ⟨next, later, restCut⟩ := List.exists_cons_of_ne_nil (List.splitOnP_ne_nil blank rest)
      rw [List.splitOnP_cons_eq_if_modifyHead]
      by_cases isBlank : blank a = true
      · simpa [squeeze, isBlank] using ih true
      · have kept : ((a :: next) :: later).filter (· ≠ [])
            = (a :: next) :: later.filter (· ≠ []) := by simp
        rw [if_neg isBlank, restCut, List.modifyHead_cons, kept, intercalate_cons, squeeze,
          if_neg isBlank, (squeeze_started rest restCut).1]
        simp

theorem head_squeeze (text : List α) (pending : Bool)
    : ∀ a ∈ (squeeze blank space false pending text).head?, blank a = false := by
  induction text generalizing pending with
  | nil => simp [squeeze]
  | cons a rest ih =>
      by_cases isBlank : blank a = true
      · simpa only [squeeze, isBlank, if_true] using ih true
      · simp [squeeze, isBlank]

theorem getLast_squeeze (text : List α) (started pending : Bool)
    : ∀ a ∈ (squeeze blank space started pending text).getLast?, blank a = false := by
  induction text generalizing started pending with
  | nil => simp [squeeze]
  | cons a rest ih =>
      rw [squeeze]
      split_ifs with isBlank both
      · exact ih started true
      all_goals
        cases more : squeeze blank space true false rest with
        | nil => simpa using isBlank
        | cons b later => simpa [more] using ih true false

/-- A word of items that are not blank comes through as it is. -/
theorem squeeze_append_word {word : List α} (some : word ≠ [])
    (visible : ∀ a ∈ word, blank a = false) (started pending : Bool) (rest : List α)
    : squeeze blank space started pending (word ++ rest)
      = (if started && pending then [space] else []) ++ word
        ++ squeeze blank space true false rest := by
  induction word generalizing started pending with
  | nil => exact absurd rfl some
  | cons a word ih =>
      have here := visible a (by simp)
      cases word with
      | nil => simp [squeeze, here]
      | cons b word =>
          have later := ih (by simp) (fun c inside => visible c (List.mem_cons_of_mem _ inside))
            true false
          rw [List.cons_append, squeeze, later]
          simp [here]

end BeetleMemory.Pieces
