import BeetleMemory.Transcript.Search
import BeetleMemory.LongTerm.Texts
import BeetleMemory.Lib.Pieces
import BeetleMemory.Lib.Fallible

/-! Which messages a search can find. The terms of a text are its runs of ASCII letters, digits and
ideographs, so that whole words of a message have their terms among those of the message. A text
without such a run of two characters is one term as a whole, and that term is in no longer text.
-/

namespace BeetleMemory.Transcript

open BeetleMemory.Graph (TextTables TermLimits isCjk isAsciiAlphanumeric isAsciiDigit slices
  pushUniqueRetrievalTerm flushRun collectRuns collectRetrievalTerms normalizeRetrievalText
  splitWhitespace foldText)
open LongTerm (trim trim_sublist trim_eq_self)
open Pieces (runsFrom runsFrom_append_cut all_of_mem_runsFrom long_run_iff two_le_length_iff squeeze
  intercalate_words head_squeeze getLast_squeeze)
open Store (isWhitespace)

variable {tables : TextTables} {limits : TermLimits}

/-! ## Pushing terms -/

/-- The text is long enough for a term. -/
def Valid (limits : TermLimits) (term : String) : Prop :=
  term ≠ "" ∧ limits.minTermChars ≤ term.length

theorem pushUniqueRetrievalTerm_cases (limits : TermLimits) (out : List String) (term : String)
    : (pushUniqueRetrievalTerm limits out term = out
        ∧ (limits.maxTerms ≤ out.length ∨ ¬ Valid limits (trim term) ∨ trim term ∈ out))
      ∨ (pushUniqueRetrievalTerm limits out term = out ++ [trim term]
        ∧ Valid limits (trim term)) := by
  unfold pushUniqueRetrievalTerm Valid
  by_cases full : limits.maxTerms ≤ out.length
  · exact .inl ⟨if_pos full, .inl full⟩
  · rw [if_neg full]
    simp only [Bool.or_eq_true, String.isEmpty_iff, decide_eq_true_eq, List.contains_iff_mem]
    split_ifs with skipped
    · left
      refine ⟨rfl, .inr ?_⟩
      rcases skipped with (empty | short) | known
      · exact .inl fun valid => valid.1 empty
      · exact .inl fun valid => absurd valid.2 (by omega)
      · exact .inr known
    · right
      push Not at skipped
      exact ⟨rfl, skipped.1.1, skipped.1.2⟩

/-- All candidates are pushed in their order. -/
def pushAll (limits : TermLimits) (out : List String) (candidates : List (List Char))
    : List String :=
  candidates.foldl (fun out candidate => pushUniqueRetrievalTerm limits out (String.ofList candidate))
    out

theorem pushAll_append (out : List String) (first second : List (List Char))
    : pushAll limits out (first ++ second) = pushAll limits (pushAll limits out first) second := by
  rw [pushAll, List.foldl_append, ← pushAll, ← pushAll]

theorem pushAll_of_full {out : List String} (full : limits.maxTerms ≤ out.length)
    (candidates : List (List Char))
    : pushAll limits out candidates = out := by
  induction candidates with
  | nil => rfl
  | cons candidate rest ih =>
      rw [pushAll, List.foldl_cons, pushUniqueRetrievalTerm, if_pos full]
      exact ih

theorem prefix_pushAll (limits : TermLimits) (out : List String) (candidates : List (List Char))
    : out <+: pushAll limits out candidates := by
  induction candidates generalizing out with
  | nil => exact List.prefix_refl out
  | cons candidate rest ih =>
      rw [pushAll, List.foldl_cons]
      refine List.IsPrefix.trans ?_ (ih _)
      rcases pushUniqueRetrievalTerm_cases limits out (String.ofList candidate) with
        ⟨same, -⟩ | ⟨more, -⟩
      · rw [same]
      · rw [more]
        exact List.prefix_append _ _

/-- Only candidates get in. -/
theorem of_mem_pushAll {out : List String} {candidates : List (List Char)} {term : String}
    (member : term ∈ pushAll limits out candidates)
    : term ∈ out
      ∨ ∃ candidate ∈ candidates, term = trim (String.ofList candidate) ∧ Valid limits term := by
  induction candidates generalizing out with
  | nil => exact .inl member
  | cons candidate rest ih =>
      rw [pushAll, List.foldl_cons] at member
      rcases ih member with before | ⟨later, inside, shape⟩
      · rcases pushUniqueRetrievalTerm_cases limits out (String.ofList candidate) with
          ⟨same, -⟩ | ⟨more, valid⟩
        · exact .inl (same ▸ before)
        · rw [more, List.mem_append, List.mem_singleton] at before
          rcases before with known | rfl
          · exact .inl known
          · exact .inr ⟨candidate, List.mem_cons_self, rfl, valid⟩
      · exact .inr ⟨later, List.mem_cons_of_mem _ inside, shape⟩

/-- As long as there is room, every candidate gets in. -/
theorem mem_pushAll {out : List String} {candidates : List (List Char)} {candidate : List Char}
    (room : (pushAll limits out candidates).length < limits.maxTerms)
    (inside : candidate ∈ candidates) (valid : Valid limits (trim (String.ofList candidate)))
    : trim (String.ofList candidate) ∈ pushAll limits out candidates := by
  induction candidates generalizing out with
  | nil => cases inside
  | cons first rest ih =>
      rw [pushAll, List.foldl_cons] at room ⊢
      rcases List.mem_cons.mp inside with rfl | later
      · have kept := prefix_pushAll limits
          (pushUniqueRetrievalTerm limits out (String.ofList candidate)) rest
        refine kept.subset ?_
        rcases pushUniqueRetrievalTerm_cases limits out (String.ofList candidate) with
          ⟨same, full | bad | known⟩ | ⟨more, -⟩
        · have longer : out.length ≤ _ := (same ▸ kept).length_le
          exact absurd (full.trans longer) (Nat.not_le.mpr (same ▸ room))
        · exact absurd valid bad
        · rwa [same]
        · simp [more]
      · exact ih room later

/-! ## Runs and their candidates -/

/-- A character of which terms are made. -/
def isTermChar (ch : Char) : Bool :=
  isAsciiAlphanumeric ch || isCjk ch

theorem toNat_of_isAsciiAlphanumeric {ch : Char} (ascii : isAsciiAlphanumeric ch = true)
    : 48 ≤ ch.toNat ∧ ch.toNat ≤ 122 := by
  simp only [isAsciiAlphanumeric, isAsciiDigit, Bool.or_eq_true, Bool.and_eq_true,
    decide_eq_true_eq, Char.le_def, UInt32.le_iff_toNat_le] at ascii
  simp at ascii
  omega

theorem isCjk_of_isAsciiAlphanumeric {ch : Char} (ascii : isAsciiAlphanumeric ch = true)
    : isCjk ch = false := by
  obtain ⟨_, _⟩ := toNat_of_isAsciiAlphanumeric ascii
  simp only [isCjk, List.any_cons, List.any_nil]
  simp
  omega

/-- No term has white space in it. -/
theorem isWhitespace_of_isTermChar {ch : Char} (part : isTermChar ch = true)
    : isWhitespace ch = false := by
  rcases Bool.or_eq_true_iff.mp part with ascii | cjk
  · obtain ⟨_, _⟩ := toNat_of_isAsciiAlphanumeric ascii
    simp [isWhitespace]
    omega
  · simp only [isCjk, List.any_cons, List.any_nil] at cjk
    simp at cjk
    simp [isWhitespace]
    omega

/-- The texts that a run offers as terms: itself, and its windows if it has ideographs. -/
def candidatesOf (windows : List Nat) (run : List Char) : List (List Char) :=
  run :: if run.any isCjk then windows.flatMap fun window => slices window run else []

theorem sublist_of_mem_candidatesOf {windows : List Nat} {run candidate : List Char}
    (member : candidate ∈ candidatesOf windows run)
    : candidate.Sublist run := by
  rcases List.mem_cons.mp member with rfl | window
  · exact List.Sublist.refl _
  · split_ifs at window with cjk
    · obtain ⟨size, -, slice⟩ := List.mem_flatMap.mp window
      obtain ⟨tail, inTails, rfl⟩ := List.mem_map.mp slice
      have suffix := (List.mem_tails _ _).mp (List.mem_filter.mp inTails).1
      exact (List.take_sublist _ _).trans suffix.sublist
    · cases window

theorem pushUniqueRetrievalTerm_short {out : List String} {run : List Char}
    (short : run.length < limits.minTermChars ∨ run = [])
    : pushUniqueRetrievalTerm limits out (String.ofList run) = out := by
  have shrinks : (trim (String.ofList run)).length ≤ run.length := by
    simpa [String.length_toList] using (trim_sublist (String.ofList run)).length_le
  rcases pushUniqueRetrievalTerm_cases limits out (String.ofList run) with ⟨same, -⟩ | ⟨-, valid⟩
  · exact same
  · rcases short with short | rfl
    · exact absurd valid.2 (by omega)
    · exact absurd (by simpa using shrinks) valid.1

theorem slices_of_length_lt {window : Nat} {run : List Char} (short : run.length < window)
    : slices window run = [] := by
  rw [slices, List.map_eq_nil_iff, List.filter_eq_nil_iff]
  intro tail inTails long
  have := ((List.mem_tails _ _).mp inTails).length_le
  simp only [decide_eq_true_eq] at long
  omega

/-- Flushing a run pushes its candidates. -/
theorem flushRun_eq (out : List String) (run : List Char)
    : flushRun limits out run (run.any isCjk) = pushAll limits out (candidatesOf limits.cjkWindows run) := by
  by_cases empty : run = []
  · subst empty
    exact (pushUniqueRetrievalTerm_short (.inr rfl)).symm
  · rw [flushRun, if_neg (by simpa using empty), candidatesOf]
    split_ifs with cjk long
    · -- A window that is too long has no slices, and a full list takes no more terms.
      change limits.cjkWindows.foldl _ (pushUniqueRetrievalTerm limits out (String.ofList run))
        = pushAll limits (pushUniqueRetrievalTerm limits out (String.ofList run)) _
      generalize pushUniqueRetrievalTerm limits out (String.ofList run) = out
      induction limits.cjkWindows generalizing out with
      | nil => rfl
      | cons window windows ih =>
          rw [List.foldl_cons, List.flatMap_cons, pushAll_append, ih]
          congr 1
          split_ifs with skipped
          · rcases Bool.or_eq_true_iff.mp skipped with short | full
            · rw [slices_of_length_lt (by simpa using short)]
              rfl
            · exact (pushAll_of_full (by simpa using full) _).symm
          · rfl
    · rfl
    · exact (pushUniqueRetrievalTerm_short (.inl (by omega))).symm

/-- The loop over a text pushes the candidates of all its runs. -/
theorem collectRuns_eq (text : List Char) (out : List String) (run : List Char)
    : collectRuns limits text out run (run.any isCjk)
      = pushAll limits out ((runsFrom isTermChar run text).flatMap (candidatesOf limits.cjkWindows)) := by
  induction text generalizing out run with
  | nil =>
      rw [collectRuns, flushRun_eq, runsFrom, List.flatMap_cons, List.flatMap_nil, List.append_nil]
  | cons ch rest ih =>
      rw [collectRuns, runsFrom]
      by_cases ascii : isAsciiAlphanumeric ch = true
      · have kept : (run ++ [ch]).any isCjk = run.any isCjk := by
          simp [isCjk_of_isAsciiAlphanumeric ascii]
        rw [if_pos ascii, if_pos (by simp [isTermChar, ascii]), ← kept, ih]
      · rw [if_neg ascii]
        by_cases cjk : isCjk ch = true
        · have found : (run ++ [ch]).any isCjk = true := by simp [cjk]
          rw [if_pos cjk, if_pos (by simp [isTermChar, cjk]), ← found, ih]
        · have cut : ¬ isTermChar ch = true := by simp [isTermChar, ascii, cjk]
          rw [if_neg cjk, if_neg cut, flushRun_eq, List.flatMap_cons, pushAll_append]
          dsimp only
          split_ifs with full
          · exact (pushAll_of_full full _).symm
          · exact ih _ []

/-! ## Terms of a text -/

/-- Two neighbouring characters of the text are of those that terms are made of. -/
def HasTermPair (text : List Char) : Prop :=
  ∃ a b, isTermChar a ∧ isTermChar b ∧ [a, b] <:+: text

/-- What the runs of a text offer. -/
def candidatesIn (windows : List Nat) (text : List Char) : List (List Char) :=
  (runsFrom isTermChar [] text).flatMap (candidatesOf windows)

theorem all_of_mem_candidatesIn {windows : List Nat} {text candidate : List Char}
    (member : candidate ∈ candidatesIn windows text)
    : ∀ ch ∈ candidate, isTermChar ch := by
  obtain ⟨run, inRuns, offered⟩ := List.mem_flatMap.mp member
  intro ch inside
  exact all_of_mem_runsFrom (by simp) inRuns ch
    ((sublist_of_mem_candidatesOf offered).subset inside)

theorem trim_of_all {candidate : List Char} (all : ∀ ch ∈ candidate, isTermChar ch)
    : trim (String.ofList candidate) = String.ofList candidate := by
  apply trim_eq_self
  · intro ch first
    rw [String.toList_ofList] at first
    exact isWhitespace_of_isTermChar (all ch (List.mem_of_mem_head? first))
  · intro ch last
    rw [String.toList_ofList] at last
    exact isWhitespace_of_isTermChar (all ch (List.mem_of_mem_getLast? last))

/-- Every term from the runs is made of term characters, two at least. -/
theorem of_mem_collectRuns {text : List Char} {term : String}
    (member : term ∈ collectRuns limits text [] [] false)
    : ∃ candidate ∈ candidatesIn limits.cjkWindows text, term = String.ofList candidate
      ∧ limits.minTermChars ≤ candidate.length := by
  have runs : collectRuns limits text [] [] false = _ := collectRuns_eq text [] []
  rw [runs] at member
  rcases of_mem_pushAll member with none | ⟨candidate, offered, shape, valid⟩
  · cases none
  · rw [trim_of_all (all_of_mem_candidatesIn offered)] at shape
    subst shape
    exact ⟨candidate, offered, rfl, by simpa using valid.2⟩

/-- As long as there is room, what the runs offer are terms. -/
theorem mem_collectRuns {text candidate : List Char}
    (room : (collectRuns limits text [] [] false).length < limits.maxTerms)
    (offered : candidate ∈ candidatesIn limits.cjkWindows text) (positive : 0 < limits.minTermChars)
    (long : limits.minTermChars ≤ candidate.length)
    : String.ofList candidate ∈ collectRuns limits text [] [] false := by
  have runs : collectRuns limits text [] [] false = _ := collectRuns_eq text [] []
  have trimmed := trim_of_all (all_of_mem_candidatesIn offered)
  rw [runs] at room ⊢
  rw [← trimmed]
  refine mem_pushAll room offered ?_
  rw [trimmed]
  refine ⟨?_, by simpa using long⟩
  intro empty
  have : candidate = [] := by simpa using empty
  simp [this] at long
  omega

/-- Runs give terms exactly if two term characters are neighbours. -/
theorem collectRuns_eq_nil_iff {text : List Char} (two : limits.minTermChars = 2)
    (some : 0 < limits.maxTerms)
    : collectRuns limits text [] [] false = [] ↔ ¬ HasTermPair text := by
  have pairs : (∃ run ∈ runsFrom isTermChar [] text, 2 ≤ run.length) ↔ HasTermPair text :=
    long_run_iff (by simp)
  rw [← pairs]
  constructor
  · rintro none ⟨run, inRuns, long⟩
    have offered : run ∈ candidatesIn limits.cjkWindows text :=
      List.mem_flatMap.mpr ⟨run, inRuns, List.mem_cons_self⟩
    have member := mem_collectRuns (by simpa [none] using some) offered (by omega) (two ▸ long)
    simp [none] at member
  · intro short
    rw [List.eq_nil_iff_forall_not_mem]
    intro term member
    obtain ⟨candidate, offered, -, long⟩ := of_mem_collectRuns member
    obtain ⟨run, inRuns, inside⟩ := List.mem_flatMap.mp offered
    exact short ⟨run, inRuns, by
      have := (sublist_of_mem_candidatesOf inside).length_le
      omega⟩

/-- A text with neighbouring term characters has the terms of its runs. -/
theorem collectRetrievalTerms_of_pair {text : String} (two : limits.minTermChars = 2)
    (some : 0 < limits.maxTerms) (pair : HasTermPair (normalizeRetrievalText tables text).toList)
    : collectRetrievalTerms tables text limits
      = collectRuns limits (normalizeRetrievalText tables text).toList [] [] false := by
  have found : ¬ (collectRuns limits (normalizeRetrievalText tables text).toList [] [] false = []) :=
    fun none => (collectRuns_eq_nil_iff two some).mp none pair
  have nonempty : (normalizeRetrievalText tables text).isEmpty = false := by
    obtain ⟨a, b, -, -, inside⟩ := pair
    rw [Bool.eq_false_iff, ne_eq, String.isEmpty_iff]
    intro empty
    rw [empty] at inside
    simp at inside
  simp [collectRetrievalTerms, nonempty, found, Nat.ne_of_gt some]

/-- Any other text is its only term. -/
theorem collectRetrievalTerms_of_no_pair {text : String} (two : limits.minTermChars = 2)
    (some : 0 < limits.maxTerms)
    (none : ¬ HasTermPair (normalizeRetrievalText tables text).toList)
    : collectRetrievalTerms tables text limits
      = pushUniqueRetrievalTerm limits [] (normalizeRetrievalText tables text) := by
  have nothing := (collectRuns_eq_nil_iff two some).mpr none
  by_cases empty : (normalizeRetrievalText tables text) = ""
  · have skipped : pushUniqueRetrievalTerm limits [] (String.ofList []) = [] :=
      pushUniqueRetrievalTerm_short (.inr rfl)
    simpa [collectRetrievalTerms, empty] using skipped.symm
  · simp [collectRetrievalTerms, empty, nothing, Nat.ne_of_gt some]

/-! ## Whole words -/

theorem toList_normalizeRetrievalText (tables : TextTables) (text : String)
    : (normalizeRetrievalText tables text).toList
      = squeeze isWhitespace ' ' false false (foldText tables false text.toList) := by
  rw [normalizeRetrievalText, String.toList_ofList, splitWhitespace,
    intercalate_words _ false]

theorem trim_normalizeRetrievalText (tables : TextTables) (text : String)
    : trim (normalizeRetrievalText tables text) = normalizeRetrievalText tables text := by
  apply trim_eq_self
  · rw [toList_normalizeRetrievalText]
    exact head_squeeze _ false
  · rw [toList_normalizeRetrievalText]
    exact getLast_squeeze _ false false

theorem mem_push_iff {text term : String} (some : 0 < limits.maxTerms)
    : term ∈ pushUniqueRetrievalTerm limits [] (normalizeRetrievalText tables text)
      ↔ term = normalizeRetrievalText tables text ∧ Valid limits term := by
  have cases := pushUniqueRetrievalTerm_cases limits [] (normalizeRetrievalText tables text)
  rw [trim_normalizeRetrievalText] at cases
  rcases cases with ⟨same, full | bad | known⟩ | ⟨more, valid⟩
  · simp at full
    omega
  · rw [same]
    simp only [List.not_mem_nil, false_iff, not_and]
    rintro rfl
    exact bad
  · cases known
  · rw [more, List.nil_append, List.mem_singleton]
    constructor
    · rintro rfl
      exact ⟨rfl, valid⟩
    · exact fun both => both.1

/-- No term is empty, and trimming changes none. -/
theorem collectRetrievalTerms_trimmed {text term : String} (two : limits.minTermChars = 2)
    (some : 0 < limits.maxTerms) (member : term ∈ collectRetrievalTerms tables text limits)
    : term ≠ "" ∧ trim term = term := by
  by_cases pair : HasTermPair (normalizeRetrievalText tables text).toList
  · rw [collectRetrievalTerms_of_pair two some pair] at member
    obtain ⟨candidate, offered, rfl, long⟩ := of_mem_collectRuns member
    refine ⟨?_, trim_of_all (all_of_mem_candidatesIn offered)⟩
    intro empty
    have : candidate = [] := by simpa using empty
    simp [this] at long
    omega
  · rw [collectRetrievalTerms_of_no_pair two some pair] at member
    obtain ⟨rfl, valid⟩ := (mem_push_iff some).mp member
    exact ⟨valid.1, trim_normalizeRetrievalText tables text⟩

/-- The words stand in the text next to each other, with spaces or the ends around them. -/
def WholeWords (words text : List Char) : Prop :=
  ∃ before after, text = before ++ words ++ after
    ∧ (before = [] ∨ before.getLast? = some ' ') ∧ (after = [] ∨ after.head? = some ' ')

/-- The runs of whole words are runs of the text. -/
theorem runs_subset {words text : List Char} (whole : WholeWords words text)
    : runsFrom isTermChar [] words ⊆ runsFrom isTermChar [] text := by
  have space : isTermChar ' ' = false := by decide
  obtain ⟨before, after, rfl, front, back⟩ := whole
  have ends : runsFrom isTermChar [] words ⊆ runsFrom isTermChar [] (words ++ after) := by
    rcases back with rfl | spaced
    · simp
    · obtain ⟨rest, rfl⟩ := List.head?_eq_some_iff.mp spaced
      rw [runsFrom_append_cut space]
      exact List.subset_append_left _ _
  rcases front with rfl | spaced
  · simpa using ends
  · obtain ⟨start, rfl⟩ := List.getLast?_eq_some_iff.mp spaced
    rw [List.append_assoc, List.append_assoc, List.singleton_append, runsFrom_append_cut space]
    exact List.Subset.trans ends (List.subset_append_right _ _)

theorem mem_candidatesIn_of_words {windows : List Nat} {words text candidate : List Char}
    (whole : WholeWords words text) (offered : candidate ∈ candidatesIn windows words)
    : candidate ∈ candidatesIn windows text := by
  obtain ⟨run, inRuns, inside⟩ := List.mem_flatMap.mp offered
  exact List.mem_flatMap.mpr ⟨run, runs_subset whole inRuns, inside⟩

/-- The terms of the words come from runs, and the message has the same runs. -/
theorem found_of_pair {query content : String} {maxTerms enough : Nat}
    (whole : WholeWords (normalizeRetrievalText tables query).toList
      (normalizeRetrievalText tables content).toList)
    (pair : HasTermPair (normalizeRetrievalText tables query).toList)
    (some : collectRetrievalTerms tables query ⟨2, maxTerms, [2, 3]⟩ ≠ [])
    (room : (collectRetrievalTerms tables content ⟨2, enough, [2, 3]⟩).length < enough)
    : ∃ term ∈ collectRetrievalTerms tables query ⟨2, maxTerms, [2, 3]⟩,
        term ∈ collectRetrievalTerms tables content ⟨2, enough, [2, 3]⟩ := by
  have contentPair : HasTermPair (normalizeRetrievalText tables content).toList := by
    obtain ⟨a, b, first, second, inside⟩ := pair
    obtain ⟨before, after, shape, -, -⟩ := whole
    refine ⟨a, b, first, second, inside.trans ?_⟩
    rw [shape]
    exact List.infix_append _ _ _
  have positive : 0 < maxTerms := by
    rw [Nat.pos_iff_ne_zero]
    rintro rfl
    simp [collectRetrievalTerms] at some
  obtain ⟨term, member⟩ := List.exists_mem_of_ne_nil _ some
  refine ⟨term, member, ?_⟩
  rw [collectRetrievalTerms_of_pair rfl positive pair] at member
  rw [collectRetrievalTerms_of_pair rfl (Nat.zero_lt_of_lt room) contentPair] at room ⊢
  obtain ⟨candidate, offered, rfl, long⟩ := of_mem_collectRuns member
  exact mem_collectRuns room (mem_candidatesIn_of_words whole offered) Nat.two_pos long

/-- The words are their only term, which is a term of no other text. -/
theorem found_of_no_pair_iff {query : String} (content : String) {maxTerms enough : Nat}
    (none : ¬ HasTermPair (normalizeRetrievalText tables query).toList) (more : 0 < enough)
    (some : collectRetrievalTerms tables query ⟨2, maxTerms, [2, 3]⟩ ≠ [])
    : (∃ term ∈ collectRetrievalTerms tables query ⟨2, maxTerms, [2, 3]⟩,
        term ∈ collectRetrievalTerms tables content ⟨2, enough, [2, 3]⟩)
      ↔ normalizeRetrievalText tables content = normalizeRetrievalText tables query := by
  have positive : 0 < maxTerms := by
    rw [Nat.pos_iff_ne_zero]
    rintro rfl
    simp [collectRetrievalTerms] at some
  rw [collectRetrievalTerms_of_no_pair rfl positive none] at some ⊢
  constructor
  · rintro ⟨term, member, found⟩
    obtain ⟨rfl, -⟩ := (mem_push_iff positive).mp member
    by_cases pair : HasTermPair (normalizeRetrievalText tables content).toList
    · -- A term of the message's runs would be such a pair in the words.
      rw [collectRetrievalTerms_of_pair rfl more pair] at found
      obtain ⟨candidate, offered, shape, long⟩ := of_mem_collectRuns found
      have two := (two_le_length_iff (all_of_mem_candidatesIn offered)).mp long
      rw [shape, String.toList_ofList] at none
      exact absurd two none
    · rw [collectRetrievalTerms_of_no_pair rfl more pair] at found
      exact ((mem_push_iff more).mp found).1.symm
  · intro same
    obtain ⟨term, member⟩ := List.exists_mem_of_ne_nil _ some
    refine ⟨term, member, ?_⟩
    obtain ⟨rfl, valid⟩ := (mem_push_iff positive).mp member
    rw [← same] at none
    rw [collectRetrievalTerms_of_no_pair rfl more none]
    exact (mem_push_iff more).mpr ⟨same.symm, valid⟩

namespace TranscriptSearchNormalizerV1

theorem normalize_eq_ok {query : String} {accepted : NormalizedTranscriptSearchQueryV1}
    (normal : normalize tables query = .ok accepted)
    : accepted = ⟨1, normalizeRetrievalText tables query,
        collectRetrievalTerms tables query ⟨2, maxTranscriptSearchTerms, [2, 3]⟩⟩
      ∧ normalizeRetrievalText tables query ≠ ""
      ∧ collectRetrievalTerms tables query ⟨2, maxTranscriptSearchTerms, [2, 3]⟩ ≠ [] := by
  simp only [normalize, Fallible.bind_eq_ok, Store.require_eq_ok, Fallible.pure_eq_ok,
    exists_const] at normal
  obtain ⟨-, some, same⟩ := normal
  simp only [Bool.not_eq_true', Bool.or_eq_false_iff, List.isEmpty_eq_false_iff,
    String.isEmpty_eq_false_iff] at some
  exact ⟨same.symm, some⟩

theorem indexTerms_eq_ok {content : String} {maxTerms : Nat} {terms : List String}
    (indexed : indexTerms tables content maxTerms = .ok terms)
    : terms = collectRetrievalTerms tables content ⟨2, maxTerms + 1, [2, 3]⟩
      ∧ terms.length < maxTerms + 1 := by
  simp only [indexTerms, Fallible.bind_eq_ok, Store.require_eq_ok, Fallible.pure_eq_ok,
    exists_const] at indexed
  obtain ⟨-, few, rfl⟩ := indexed
  refine ⟨rfl, ?_⟩
  simp only [Bool.not_eq_true', decide_eq_false_iff_not] at few
  omega

/-- The message is a candidate for whole words of it exactly if two neighbouring characters of the
words are ASCII letters, digits or ideographs, or if the words are all of the message.
-/
theorem whole_words_found_iff {query content : String}
    {accepted : NormalizedTranscriptSearchQueryV1} {maxTerms : Nat} {terms : List String}
    (normal : normalize tables query = .ok accepted)
    (indexed : indexTerms tables content maxTerms = .ok terms)
    (whole : WholeWords accepted.normalized.toList
      (normalizeRetrievalText tables content).toList)
    : (∃ term ∈ accepted.terms, term ∈ terms)
      ↔ HasTermPair accepted.normalized.toList
        ∨ normalizeRetrievalText tables content = accepted.normalized := by
  obtain ⟨rfl, -, some⟩ := normalize_eq_ok normal
  obtain ⟨rfl, room⟩ := indexTerms_eq_ok indexed
  dsimp only at whole ⊢
  by_cases pair : HasTermPair (normalizeRetrievalText tables query).toList
  · have found := found_of_pair whole pair some room
    simp only [found, pair, true_or]
  · have onlyWhole := found_of_no_pair_iff content pair maxTerms.succ_pos some
    rw [onlyWhole]
    simp only [pair, false_or]

/-- Tables for small letters of the Latin and the Cyrillic script. -/
def smallLetters : TextTables where
  isAlphanumeric c := (97 ≤ c.toNat && c.toNat ≤ 122) || (0x430 ≤ c.toNat && c.toNat ≤ 0x44F)
  toLowercase c := [c]
  sha256 text := text

/-- The first of the two words of a message does not find it. -/
theorem cyrillic_word_missed
    : normalize smallLetters "привет" = .ok ⟨1, "привет", ["привет"]⟩
      ∧ indexTerms smallLetters "привет мир" 8192 = .ok ["привет мир"]
      ∧ WholeWords "привет".toList (normalizeRetrievalText smallLetters "привет мир").toList
      ∧ ¬ ∃ term ∈ ["привет"], term ∈ ["привет мир"] := by
  refine ⟨by decide +kernel, by decide +kernel, ⟨[], " мир".toList, ?_, .inl rfl, .inr ?_⟩, ?_⟩
  · decide +kernel
  · decide
  · decide

/-- A Latin word finds its message. -/
theorem latin_word_found
    : normalize smallLetters "note" = .ok ⟨1, "note", ["note"]⟩
      ∧ indexTerms smallLetters "a note" 8192 = .ok ["note"]
      ∧ ∃ term ∈ ["note"], term ∈ ["note"] := by
  have normal : normalize smallLetters "note" = .ok ⟨1, "note", ["note"]⟩ := by decide +kernel
  have indexed : indexTerms smallLetters "a note" 8192 = .ok ["note"] := by decide +kernel
  have text : (normalizeRetrievalText smallLetters "a note").toList
      = "a ".toList ++ "note".toList ++ [] := by decide +kernel
  refine ⟨normal, indexed, (whole_words_found_iff normal indexed ?_).mpr (.inl ?_)⟩
  · exact ⟨_, _, text, .inr (by decide), .inl rfl⟩
  · exact ⟨'n', 'o', by decide, by decide, [], "te".toList, by decide⟩

end TranscriptSearchNormalizerV1

end BeetleMemory.Transcript
