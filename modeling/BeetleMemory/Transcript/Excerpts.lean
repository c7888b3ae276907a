import BeetleMemory.Transcript.SearchTerms

/-! What an excerpt shows. The normalized text is that of the retrieval terms, with a place in the
message for each character; the places never go back, so that the characters a match comes from are
one slice of the message, and normalizing that slice gives the match again.
-/

namespace BeetleMemory.Transcript

open BeetleMemory.Graph (TextTables normalizeRetrievalText foldText)
open Pieces (squeeze squeeze_append_word)
open Store (isWhitespace)

/-- What is used of the tables: what stays in a text has a lower case, and that is visible. -/
structure LawfulTables (tables : TextTables) : Prop where
  lower_some : ∀ ch, staysInText tables ch = true → tables.toLowercase ch ≠ []
  lower_visible : ∀ ch, staysInText tables ch = true → ∀ lower ∈ tables.toLowercase ch,
    isWhitespace lower = false

variable {tables : TextTables}

/-! ## Normalized characters with their places -/

/-- The space between two words, at the place of the first separator. -/
def spaceBetween (started : Bool) (pending : Option Nat) : List (Char × Nat) :=
  if started then pending.toList.map fun space => (' ', space) else []

theorem of_mem_spaceBetween {started : Bool} {pending : Option Nat} {item : Char × Nat}
    (member : item ∈ spaceBetween started pending)
    : item.1 = ' ' ∧ pending = some item.2 := by
  rw [spaceBetween] at member
  split_ifs at member
  · obtain ⟨place, waits, rfl⟩ := List.mem_map.mp member
    exact ⟨rfl, Option.mem_toList.mp waits⟩
  · cases member

/-- The normalized characters of a part of a message: whether a word was there before, and the
place of the first separator since.
-/
def charsFrom (tables : TextTables)
    : Bool → Option Nat → List (Char × Nat) → List (Char × Nat)
  | _, _, [] => []
  | started, pending, (ch, index) :: rest =>
      if staysInText tables ch then
        spaceBetween started pending ++ (tables.toLowercase ch).map (fun lower => (lower, index))
          ++ charsFrom tables true none rest
      else charsFrom tables started (pending.or (some index)) rest

theorem charMapLoop_eq (lawful : LawfulTables tables) (text : List Char) (index : Nat)
    (pending : Option Nat) (out : List (Char × Nat))
    : charMapLoop tables text index pending out
      = out ++ charsFrom tables (!out.isEmpty) pending (text.zipIdx index) := by
  induction text generalizing index pending out with
  | nil => simp [charMapLoop, charsFrom]
  | cons ch rest ih =>
      rw [List.zipIdx_cons, charsFrom]
      by_cases stays : staysInText tables ch = true
      · have some : (tables.toLowercase ch).isEmpty = false := by
          simpa using lawful.lower_some ch stays
        cases pending <;> cases out <;> simp [charMapLoop, stays, ih, some, spaceBetween]
      · simp [charMapLoop, stays, ih]

theorem normalizeTranscriptTextWithCharMap_eq (lawful : LawfulTables tables) (input : String)
    : normalizeTranscriptTextWithCharMap tables input
      = charsFrom tables false none input.toList.zipIdx := by
  rw [normalizeTranscriptTextWithCharMap, charMapLoop_eq lawful]
  rfl

/-- Without their places, they are the folded text with its words joined. -/
theorem map_fst_charsFrom (lawful : LawfulTables tables) (text : List (Char × Nat))
    (started : Bool) (pending : Option Nat) {prevSpace : Bool}
    (seen : prevSpace = true → pending.isSome = true)
    : (charsFrom tables started pending text).map Prod.fst
      = squeeze isWhitespace ' ' started pending.isSome
          (foldText tables prevSpace (text.map Prod.fst)) := by
  induction text generalizing started pending prevSpace with
  | nil => simp [charsFrom, foldText, squeeze]
  | cons first rest ih =>
      obtain ⟨ch, index⟩ := first
      rw [charsFrom, List.map_cons, foldText]
      by_cases stays : staysInText tables ch = true
      · have kept : (tables.isAlphanumeric ch || Graph.isCjk ch) = true := stays
        rw [if_pos stays, if_pos kept, squeeze_append_word (lawful.lower_some ch stays)
          (lawful.lower_visible ch stays)]
        have later : (charsFrom tables true none rest).map Prod.fst
            = squeeze isWhitespace ' ' true false
                (foldText tables false (rest.map Prod.fst)) := ih true none (by simp)
        rw [← later]
        cases started <;> cases pending <;> simp [Function.comp_def, spaceBetween]
      · have dropped : ¬ (tables.isAlphanumeric ch || Graph.isCjk ch) = true := stays
        rw [if_neg stays, if_neg dropped]
        have later : (charsFrom tables started (pending.or (some index)) rest).map Prod.fst
            = squeeze isWhitespace ' ' started (pending.or (some index)).isSome
                (foldText tables true (rest.map Prod.fst)) := ih _ _ (by simp)
        have waits : (pending.or (some index)).isSome = true := by simp
        rw [later, waits]
        cases prevSpace with
        | false => simp [squeeze, isWhitespace]
        | true => simp [seen rfl]

/-- Normalizing with places is normalizing. -/
theorem toList_normalizeRetrievalText_eq (lawful : LawfulTables tables) (text : List Char)
    (index : Nat)
    : (normalizeRetrievalText tables (String.ofList text)).toList
      = (charsFrom tables false none (text.zipIdx index)).map Prod.fst := by
  have folded : (charsFrom tables false none (text.zipIdx index)).map Prod.fst
      = squeeze isWhitespace ' ' false false
          (foldText tables false ((text.zipIdx index).map Prod.fst)) :=
    map_fst_charsFrom lawful _ false none (by simp)
  rw [toList_normalizeRetrievalText, folded, List.zipIdx_map_fst, String.toList_ofList]

/-! ## Parts of a message -/

/-- The place of the separator that is pending behind a part. -/
def pendingAfter (tables : TextTables) : Option Nat → List (Char × Nat) → Option Nat
  | pending, [] => pending
  | pending, (ch, index) :: rest =>
      if staysInText tables ch then pendingAfter tables none rest
      else pendingAfter tables (pending.or (some index)) rest

theorem charsFrom_append (started : Bool) (pending : Option Nat) (first second : List (Char × Nat))
    : charsFrom tables started pending (first ++ second)
      = charsFrom tables started pending first
        ++ charsFrom tables (started || first.any fun item => staysInText tables item.1)
            (pendingAfter tables pending first) second := by
  induction first generalizing started pending with
  | nil => simp [charsFrom, pendingAfter]
  | cons item rest ih =>
      obtain ⟨ch, index⟩ := item
      by_cases stays : staysInText tables ch = true
      · simp [charsFrom, pendingAfter, stays, ih]
      · simp [charsFrom, pendingAfter, stays, ih]

theorem pendingAfter_word {ch : Char} (stays : staysInText tables ch = true) (index : Nat)
    (pending : Option Nat) (first : List (Char × Nat))
    : pendingAfter tables pending (first ++ [(ch, index)]) = none := by
  induction first generalizing pending with
  | nil => simp [pendingAfter, stays]
  | cons item rest ih =>
      obtain ⟨other, place⟩ := item
      rw [List.cons_append, pendingAfter]
      split_ifs
      · exact ih none
      · exact ih _

theorem pendingAfter_place {pending : Option Nat} {text : List (Char × Nat)} {place : Nat}
    (after : pendingAfter tables pending text = some place)
    : pending = some place ∨ ∃ ch, (ch, place) ∈ text := by
  induction text generalizing pending with
  | nil => exact .inl after
  | cons item rest ih =>
      obtain ⟨ch, index⟩ := item
      rw [pendingAfter] at after
      split_ifs at after
      · rcases ih after with none | ⟨other, inside⟩
        · cases none
        · exact .inr ⟨other, List.mem_cons_of_mem _ inside⟩
      · rcases ih after with pendingHere | ⟨other, inside⟩
        · cases pending with
          | none =>
              obtain rfl : index = place := by simpa using pendingHere
              exact .inr ⟨ch, List.mem_cons_self⟩
          | some earlier => exact .inl (by simpa using pendingHere)
        · exact .inr ⟨other, List.mem_cons_of_mem _ inside⟩

/-- A normalized character is a space, or it comes from a character that stays. -/
theorem of_mem_charsFrom {started : Bool} {pending : Option Nat} {text : List (Char × Nat)}
    {item : Char × Nat} (member : item ∈ charsFrom tables started pending text)
    : (pending = some item.2 ∨ ∃ ch, (ch, item.2) ∈ text)
      ∧ (item.1 = ' ' ∨ ∃ ch, (ch, item.2) ∈ text ∧ staysInText tables ch = true) := by
  induction text generalizing started pending with
  | nil => simp [charsFrom] at member
  | cons first rest ih =>
      obtain ⟨ch, index⟩ := first
      have tail : ∀ {p : Char → Prop}, (∃ c, (c, item.2) ∈ rest ∧ p c)
          → ∃ c, (c, item.2) ∈ (ch, index) :: rest ∧ p c :=
        fun ⟨c, inside, known⟩ => ⟨c, List.mem_cons_of_mem _ inside, known⟩
      rw [charsFrom] at member
      by_cases stays : staysInText tables ch = true
      · rw [if_pos stays, List.mem_append, List.mem_append] at member
        rcases member with (space | lower) | later
        · obtain ⟨blank, waits⟩ := of_mem_spaceBetween space
          exact ⟨.inl waits, .inl blank⟩
        · obtain ⟨c, -, rfl⟩ := List.mem_map.mp lower
          exact ⟨.inr ⟨ch, List.mem_cons_self⟩, .inr ⟨ch, List.mem_cons_self, stays⟩⟩
        · obtain ⟨none | ⟨c, inside⟩, source⟩ := ih later
          · cases none
          · exact ⟨.inr ⟨c, List.mem_cons_of_mem _ inside⟩, source.imp_right tail⟩
      · rw [if_neg stays] at member
        obtain ⟨waits | ⟨c, inside⟩, source⟩ := ih member
        · refine ⟨?_, source.imp_right tail⟩
          cases pending with
          | none =>
              obtain rfl : index = item.2 := by simpa using waits
              exact .inr ⟨ch, List.mem_cons_self⟩
          | some earlier => exact .inl (by simpa using waits)
        · exact ⟨.inr ⟨c, List.mem_cons_of_mem _ inside⟩, source.imp_right tail⟩

/-- The places never go back. -/
theorem charsFrom_sorted (started : Bool) {pending : Option Nat} {text : List (Char × Nat)}
    (increasing : text.Pairwise fun a b => a.2 < b.2)
    (earlier : ∀ place ∈ pending, ∀ item ∈ text, place < item.2)
    : (charsFrom tables started pending text).Pairwise fun a b => a.2 ≤ b.2 := by
  induction text generalizing started pending with
  | nil => simp [charsFrom]
  | cons first rest ih =>
      obtain ⟨ch, index⟩ := first
      obtain ⟨before, increasing⟩ := List.pairwise_cons.mp increasing
      rw [charsFrom]
      by_cases stays : staysInText tables ch = true
      · have later : (charsFrom tables true none rest).Pairwise fun a b => a.2 ≤ b.2 :=
          ih true increasing (by simp)
        have behind : ∀ item ∈ charsFrom tables true none rest, index < item.2 := by
          intro item member
          obtain ⟨none | ⟨c, inside⟩, -⟩ := of_mem_charsFrom member
          · cases none
          · exact before (c, item.2) inside
        have space : ∀ item ∈ spaceBetween started pending, item.2 < index := fun item member =>
          earlier item.2 (of_mem_spaceBetween member).2 (ch, index) List.mem_cons_self
        have lower : ∀ item ∈ (tables.toLowercase ch).map (fun lower => (lower, index)),
            item.2 = index := by simp
        rw [if_pos stays, List.pairwise_append, List.pairwise_append]
        refine ⟨⟨?_, ?_, ?_⟩, later, ?_⟩
        · apply List.pairwise_of_forall_mem_list
          intro a first b second
          have same := (of_mem_spaceBetween first).2.symm.trans (of_mem_spaceBetween second).2
          exact (Option.some.inj same).le
        · apply List.pairwise_of_forall_mem_list
          intro a first b second
          rw [lower a first, lower b second]
        · intro a first b second
          rw [lower b second]
          exact (space a first).le
        · intro a first b second
          rcases List.mem_append.mp first with blank | letter
          · exact ((space a blank).trans (behind b second)).le
          · rw [lower a letter]
            exact (behind b second).le
      · rw [if_neg stays]
        apply ih started increasing
        intro place waits item inside
        cases pending with
        | none =>
            obtain rfl : index = place := by simpa using waits
            exact before item inside
        | some known =>
            obtain rfl : known = place := by simpa using waits
            exact earlier known rfl item (List.mem_cons_of_mem _ inside)

/-- The characters from one place up to another. -/
def sliceOf (text : List Char) (first stop : Nat) : List Char :=
  (text.drop first).take (stop - first)

/-- A slice that begins and ends with characters that stay is normalized as it is inside the whole
text: around it there are characters of other places only.
-/
theorem charsFrom_slice (before after : List Char) {part : List Char} {initial final : Char}
    (begins : part.head? = some initial) (initialStays : staysInText tables initial = true)
    (ends : part.getLast? = some final) (finalStays : staysInText tables final = true)
    : ∃ front back,
        charsFrom tables false none (before ++ part ++ after).zipIdx
          = front ++ charsFrom tables false none (part.zipIdx before.length) ++ back
        ∧ (∀ item ∈ front, item.2 < before.length)
        ∧ ∀ item ∈ back, before.length + part.length ≤ item.2 := by
  have closed : ∀ pending, pendingAfter tables pending (part.zipIdx before.length) = none := by
    intro pending
    obtain ⟨inner, rfl⟩ := List.getLast?_eq_some_iff.mp ends
    rw [List.zipIdx_append]
    exact pendingAfter_word finalStays _ pending _
  have led : ∀ started pending,
      charsFrom tables started pending (part.zipIdx before.length)
        = spaceBetween started pending
          ++ charsFrom tables false none (part.zipIdx before.length) := by
    intro started pending
    obtain ⟨rest, rfl⟩ := List.head?_eq_some_iff.mp begins
    simp [charsFrom, initialStays, spaceBetween]
  have places : (before ++ part ++ after).zipIdx
      = before.zipIdx ++ (part.zipIdx before.length
          ++ after.zipIdx (before.length + part.length)) := by
    rw [List.zipIdx_append, List.zipIdx_append, List.length_append, Nat.zero_add, Nat.zero_add,
      List.append_assoc]
  rw [places, charsFrom_append, charsFrom_append, closed, led]
  generalize (false || before.zipIdx.any fun item => staysInText tables item.1) = started
  generalize (started || _) = startedBehind
  refine ⟨charsFrom tables false none before.zipIdx
      ++ spaceBetween started (pendingAfter tables none before.zipIdx),
    charsFrom tables startedBehind none (after.zipIdx (before.length + part.length)),
    by simp only [List.append_assoc], ?_, ?_⟩
  · intro item member
    rcases List.mem_append.mp member with inFront | space
    · obtain ⟨none | ⟨ch, inside⟩, -⟩ := of_mem_charsFrom inFront
      · cases none
      · simpa using List.snd_lt_of_mem_zipIdx inside
    · have waits := (of_mem_spaceBetween space).2
      obtain none | ⟨ch, inside⟩ := pendingAfter_place waits
      · cases none
      · simpa using List.snd_lt_of_mem_zipIdx inside
  · intro item member
    obtain ⟨none | ⟨ch, inside⟩, -⟩ := of_mem_charsFrom member
    · cases none
    · simpa using List.le_snd_of_mem_zipIdx inside

theorem places_increasing (text : List Char) : text.zipIdx.Pairwise fun a b => a.2 < b.2 := by
  have indices : (text.zipIdx.map Prod.snd).Pairwise (· < ·) := by
    rw [List.zipIdx_map_snd]
    exact List.pairwise_lt_range'
  exact List.pairwise_map.mp indices

/-- Places that never go back lie between the first and the last. -/
theorem between_ends {part : List (Char × Nat)} (sorted : part.Pairwise fun a b => a.2 ≤ b.2)
    {first last : Char × Nat} (begins : part.head? = some first)
    (ends : part.getLast? = some last)
    : ∀ item ∈ part, first.2 ≤ item.2 ∧ item.2 ≤ last.2 := by
  intro item inside
  constructor
  · obtain ⟨rest, rfl⟩ := List.head?_eq_some_iff.mp begins
    rcases List.mem_cons.mp inside with rfl | later
    · exact Nat.le_refl _
    · exact (List.pairwise_cons.mp sorted).1 item later
  · obtain ⟨front, rfl⟩ := List.getLast?_eq_some_iff.mp ends
    rcases List.mem_append.mp inside with earlier | final
    · exact (List.pairwise_append.mp sorted).2.2 item earlier last List.mem_cons_self
    · obtain rfl := List.mem_singleton.mp final
      exact Nat.le_refl _

/-- A part of the normalized text that begins and ends visibly comes from a slice of the message,
and the normalized slice has it.
-/
theorem part_in_slice (lawful : LawfulTables tables) {content : List Char}
    {part : List (Char × Nat)} (inside : part <:+: charsFrom tables false none content.zipIdx)
    {first last : Char × Nat} (begins : part.head? = some first)
    (ends : part.getLast? = some last) (firstVisible : first.1 ≠ ' ') (lastVisible : last.1 ≠ ' ')
    : first.2 ≤ last.2 ∧ last.2 < content.length
      ∧ part.map Prod.fst
        <:+: (normalizeRetrievalText tables
          (String.ofList (sliceOf content first.2 (last.2 + 1)))).toList := by
  have sorted : part.Pairwise fun a b => a.2 ≤ b.2 :=
    (charsFrom_sorted false (places_increasing content) (by simp)).sublist inside.sublist
  have between := between_ends sorted begins ends
  have letterAt : ∀ item ∈ part, item.1 ≠ ' '
      → ∃ ch, content[item.2]? = some ch ∧ staysInText tables ch = true := by
    intro item member visible
    obtain ⟨ch, here, stays⟩ :=
      (of_mem_charsFrom (inside.subset member)).2.resolve_left visible
    exact ⟨ch, by simpa using List.mem_zipIdx_iff_getElem?.mp here, stays⟩
  obtain ⟨initial, initialHere, initialStays⟩ :=
    letterAt first (List.mem_of_mem_head? begins) firstVisible
  obtain ⟨final, finalHere, finalStays⟩ :=
    letterAt last (List.mem_of_mem_getLast? ends) lastVisible
  have order : first.2 ≤ last.2 := (between first (List.mem_of_mem_head? begins)).2
  have bound : last.2 < content.length := (List.getElem?_eq_some_iff.mp finalHere).1
  refine ⟨order, bound, ?_⟩
  -- The message around the slice.
  have shape : content.take first.2 ++ sliceOf content first.2 (last.2 + 1)
      ++ content.drop (last.2 + 1) = content := by
    have rest : (content.drop first.2).drop (last.2 + 1 - first.2) = content.drop (last.2 + 1) := by
      rw [List.drop_drop]
      congr 1
      omega
    rw [sliceOf, List.append_assoc, ← rest, List.take_append_drop, List.take_append_drop]
  have frontLength : (content.take first.2).length = first.2 := by
    rw [List.length_take]
    omega
  have sliceLength : (sliceOf content first.2 (last.2 + 1)).length = last.2 + 1 - first.2 := by
    rw [sliceOf, List.length_take, List.length_drop]
    omega
  have head : (sliceOf content first.2 (last.2 + 1)).head? = some initial := by
    rw [sliceOf, List.head?_take, if_neg (by omega), List.head?_drop, initialHere]
  have getLast : (sliceOf content first.2 (last.2 + 1)).getLast? = some final := by
    rw [List.getLast?_eq_getElem?, sliceLength, sliceOf, List.getElem?_take_of_lt (by omega),
      List.getElem?_drop, ← finalHere]
    congr 1
    omega
  obtain ⟨front, back, whole, frontPlaces, backPlaces⟩ := charsFrom_slice
    (content.take first.2) (content.drop (last.2 + 1)) head initialStays getLast finalStays
  rw [shape, frontLength] at whole
  rw [frontLength] at frontPlaces backPlaces
  -- Of all places, those of the slice are kept on both sides.
  have kept := inside.filter fun item => first.2 ≤ item.2 ∧ item.2 < last.2 + 1
  have partKept : part.filter (fun item => first.2 ≤ item.2 ∧ item.2 < last.2 + 1) = part := by
    refine List.filter_eq_self.mpr fun item member => ?_
    have := between item member
    simp only [decide_eq_true_eq]
    omega
  have frontGone : front.filter (fun item => first.2 ≤ item.2 ∧ item.2 < last.2 + 1) = [] := by
    refine List.filter_eq_nil_iff.mpr fun item member => ?_
    have := frontPlaces item member
    simp only [decide_eq_true_eq]
    omega
  have backGone : back.filter (fun item => first.2 ≤ item.2 ∧ item.2 < last.2 + 1) = [] := by
    refine List.filter_eq_nil_iff.mpr fun item member => ?_
    have := backPlaces item member
    simp only [decide_eq_true_eq]
    omega
  have sliceKept : (charsFrom tables false none
        ((sliceOf content first.2 (last.2 + 1)).zipIdx first.2)).filter
          (fun item => first.2 ≤ item.2 ∧ item.2 < last.2 + 1)
      = charsFrom tables false none ((sliceOf content first.2 (last.2 + 1)).zipIdx first.2) := by
    refine List.filter_eq_self.mpr fun item member => ?_
    obtain ⟨none | ⟨ch, here⟩, -⟩ := of_mem_charsFrom member
    · cases none
    · have low := List.le_snd_of_mem_zipIdx here
      have high := List.snd_lt_of_mem_zipIdx here
      simp only [decide_eq_true_eq]
      omega
  rw [whole, List.filter_append, List.filter_append, partKept, frontGone, backGone, sliceKept,
    List.nil_append, List.append_nil] at kept
  rw [toList_normalizeRetrievalText_eq lawful _ first.2]
  exact kept.map Prod.fst

/-! ## Matches -/

namespace TranscriptSearchNormalizerV1

/-- The whole query, or a term of it. -/
def IsNeedle (query : NormalizedTranscriptSearchQueryV1) (needle : List Char) : Prop :=
  needle = query.normalized.toList ∨ ∃ term ∈ query.terms, needle = term.toList

/-- The slice of the message that a part of the normalized text comes from, where the part is the
query or a term of it.
-/
def IsMatch (tables : TextTables) (content : String) (query : NormalizedTranscriptSearchQueryV1)
    (range : Nat × Nat)
    : Prop :=
  ∃ part first last, IsNeedle query (part.map Prod.fst)
    ∧ part <:+: normalizeTranscriptTextWithCharMap tables content
    ∧ part.head? = some first ∧ part.getLast? = some last ∧ range = (first.2, last.2 + 1)

/-- The ends of a window that lies inside the list. -/
theorem window_ends {items : List (Char × Nat)} {start size : Nat} (some : 0 < size)
    (fits : start + size ≤ items.length)
    : ((items.drop start).take size).head? = items[start]?
      ∧ ((items.drop start).take size).getLast? = items[start + size - 1]? := by
  have length : ((items.drop start).take size).length = size := by
    rw [List.length_take, List.length_drop]
    omega
  constructor
  · rw [List.head?_take, if_neg (by omega), List.head?_drop]
  · rw [List.getLast?_eq_getElem?, length, List.getElem?_take_of_lt (by omega),
      List.getElem?_drop]
    congr 1
    omega

theorem mem_needleRanges_iff {normalized : List (Char × Nat)} {needle : List Char}
    {range : Nat × Nat}
    : range ∈ needleRanges normalized needle
      ↔ ∃ part first last, part.map Prod.fst = needle ∧ part <:+: normalized
        ∧ part.head? = some first ∧ part.getLast? = some last ∧ range = (first.2, last.2 + 1) := by
  constructor
  · intro member
    rw [needleRanges] at member
    split_ifs at member with skipped
    · cases member
    simp only [Bool.or_eq_true, List.isEmpty_iff, decide_eq_true_eq, not_or, not_lt] at skipped
    have some : 0 < needle.length := List.length_pos_iff.mpr skipped.1
    obtain ⟨start, inRange, found⟩ := List.mem_filterMap.mp member
    split_ifs at found with same
    · have fits : start + needle.length ≤ normalized.length := by
        have := List.mem_range.mp inRange
        omega
      obtain ⟨head, last⟩ := window_ends some fits
      obtain ⟨first, firstHere, found⟩ := Option.bind_eq_some_iff.mp found
      obtain ⟨final, finalHere, found⟩ := Option.bind_eq_some_iff.mp found
      refine ⟨_, first, final, same, ?_, head.trans firstHere, last.trans finalHere,
        (Option.some.inj found).symm⟩
      exact (List.take_prefix _ _).isInfix.trans (List.drop_suffix _ _).isInfix
  · rintro ⟨part, first, last, rfl, ⟨before, after, rfl⟩, begins, ends, rfl⟩
    have some : 0 < part.length := List.length_pos_iff.mpr fun empty => by simp [empty] at begins
    have window : ((before ++ part ++ after).drop before.length).take part.length = part := by
      simp
    have fits : before.length + part.length ≤ (before ++ part ++ after).length := by simp
    obtain ⟨head, final⟩ := window_ends some fits
    rw [window] at head final
    rw [needleRanges, if_neg (by
      simp only [List.length_map, Bool.or_eq_true, List.isEmpty_iff, List.map_eq_nil_iff,
        decide_eq_true_eq, not_or, not_lt]
      exact ⟨List.length_pos_iff.mp some, by omega⟩)]
    refine List.mem_filterMap.mpr ⟨before.length, List.mem_range.mpr ?_, ?_⟩
    · simp only [List.length_map]
      omega
    · rw [List.length_map, window, if_pos rfl, ← head, begins, ← final, ends]
      rfl

theorem mem_foldl_needles {terms : List String} {known : List (List Char)} {needle : List Char}
    : needle ∈ terms.foldl
        (fun needles term =>
          if !term.toList.isEmpty && !needles.contains term.toList then needles ++ [term.toList]
          else needles) known
      ↔ needle ∈ known ∨ ∃ term ∈ terms, term ≠ "" ∧ needle = term.toList := by
  induction terms generalizing known with
  | nil => simp
  | cons term terms ih =>
      rw [List.foldl_cons, ih]
      simp only [List.mem_cons, exists_eq_or_imp]
      split_ifs with new
      · have some : term ≠ "" := by
          rintro rfl
          simp at new
        simp only [List.mem_append, List.mem_singleton, some, ne_eq, not_false_eq_true, true_and]
        tauto
      · -- An empty term, or one that is known.
        have old : term ≠ "" → term.toList ∈ known := by
          intro some
          simpa [some] using new
        constructor
        · tauto
        · rintro (here | ⟨some, rfl⟩ | later)
          · exact .inl here
          · exact .inl (old some)
          · exact .inr later

theorem mem_rawRanges_iff {content : String} {query : NormalizedTranscriptSearchQueryV1}
    {range : ℕ ×ₗ ℕ}
    : range ∈ rawRanges tables content query ↔ IsMatch tables content query (ofLex range) := by
  rw [rawRanges, Keyed.mem_distinctSorted, List.mem_map]
  simp only [List.mem_flatMap, needles, (Keyed.sortBy_perm _ _).mem_iff, mem_foldl_needles,
    List.mem_singleton, mem_needleRanges_iff]
  constructor
  · rintro ⟨pair, ⟨needle, isNeedle, part, first, last, rfl, inside, begins, ends, rfl⟩, rfl⟩
    exact ⟨part, first, last, isNeedle.imp_right fun ⟨term, member, _, same⟩ => ⟨term, member, same⟩,
      inside, begins, ends, rfl⟩
  · rintro ⟨part, first, last, isNeedle, inside, begins, ends, same⟩
    refine ⟨ofLex range, ⟨_, ?_, part, first, last, rfl, inside, begins, ends, same⟩, rfl⟩
    refine isNeedle.imp_right fun ⟨term, member, text⟩ => ⟨term, member, ?_, text⟩
    rintro rfl
    simp [show part = [] by simpa using text] at begins

/-- The query and its terms are trimmed and not empty. -/
theorem needle_ends {text : String} {query : NormalizedTranscriptSearchQueryV1}
    (normal : normalize tables text = .ok query) {needle : List Char}
    (isNeedle : IsNeedle query needle)
    : needle ≠ [] ∧ (∀ ch ∈ needle.head?, isWhitespace ch = false)
      ∧ ∀ ch ∈ needle.getLast?, isWhitespace ch = false := by
  obtain ⟨rfl, some, -⟩ := normalize_eq_ok normal
  simp only [IsNeedle] at isNeedle
  have trimmed : ∃ kept : String, needle = kept.toList ∧ kept ≠ "" ∧ LongTerm.trim kept = kept := by
    rcases isNeedle with rfl | ⟨term, member, rfl⟩
    · exact ⟨_, rfl, some, trim_normalizeRetrievalText tables text⟩
    · have shape := collectRetrievalTerms_trimmed rfl (Nat.succ_pos 23) member
      exact ⟨term, rfl, shape⟩
  obtain ⟨kept, rfl, nonempty, trimmed⟩ := trimmed
  exact ⟨by simpa using nonempty, LongTerm.head_trimmed trimmed, LongTerm.getLast_trimmed trimmed⟩

/-! ## Excerpts -/

/-- The excerpt is as long as the limit and the text allow. -/
theorem excerptStart_window (length maxChars : Nat) (focus : ℕ ×ₗ ℕ)
    : excerptStart length maxChars focus ≤ length
      ∧ min (excerptStart length maxChars focus + maxChars) length
          = excerptStart length maxChars focus + min maxChars length := by
  rw [excerptStart]
  split_ifs <;> omega

/-- The first match is shown, and all of it if it fits. -/
theorem excerptStart_focus {length maxChars : Nat} {focus : ℕ ×ₗ ℕ} (some : 0 < maxChars)
    (nonempty : (ofLex focus).1 < (ofLex focus).2) (within : (ofLex focus).2 ≤ length)
    : (max (ofLex focus).1 (excerptStart length maxChars focus)
          < min (ofLex focus).2 (excerptStart length maxChars focus + min maxChars length))
      ∧ ((ofLex focus).2 - (ofLex focus).1 ≤ maxChars
        → excerptStart length maxChars focus ≤ (ofLex focus).1
          ∧ (ofLex focus).2 ≤ excerptStart length maxChars focus + min maxChars length) := by
  rw [excerptStart]
  split_ifs <;> omega

/-- What an excerpt says of the message, with what was cut off before and after it. -/
structure Faithful (tables : TextTables) (content : String)
    (query : NormalizedTranscriptSearchQueryV1) (maxChars : Nat)
    (excerpt : TranscriptSearchExcerpt) (before after : List Char)
    : Prop where
  slice : content.toList = before ++ excerpt.text.toList ++ after
  length : excerpt.text.length = min maxChars content.length
  cutBefore : excerpt.truncatedBefore = true ↔ before ≠ []
  cutAfter : excerpt.truncatedAfter = true ↔ after ≠ []
  inside : ∀ highlight ∈ excerpt.highlights,
    highlight.startChar < highlight.endChar ∧ highlight.endChar ≤ excerpt.text.length
  sorted : excerpt.highlights.Pairwise fun a b =>
    toLex (a.startChar, a.endChar) < toLex (b.startChar, b.endChar)
  /-- A highlight is a match as far as the excerpt shows it; if that is all of it, the highlighted
  characters normalize to a text with the query or a term of it.
  -/
  covers : ∀ highlight ∈ excerpt.highlights, ∃ range, IsMatch tables content query range
    ∧ before.length + highlight.startChar = max range.1 before.length
    ∧ before.length + highlight.endChar = min range.2 (before.length + excerpt.text.length)
    ∧ (before.length ≤ range.1 → range.2 ≤ before.length + excerpt.text.length
      → ∃ needle, IsNeedle query needle ∧ needle <:+: (normalizeRetrievalText tables (String.ofList
          (sliceOf excerpt.text.toList highlight.startChar highlight.endChar))).toList)
  /-- If the query or a term of it is anywhere in the normalized message, the excerpt has a
  highlight, and the first match is shown whole if it fits.
  -/
  found : (∃ needle, IsNeedle query needle
      ∧ needle <:+: (normalizeRetrievalText tables content).toList)
    → excerpt.highlights ≠ []
      ∧ ∃ range, IsMatch tables content query range
        ∧ (∀ other, IsMatch tables content query other → toLex range ≤ toLex other)
        ∧ (range.2 - range.1 ≤ maxChars
          → ∃ highlight ∈ excerpt.highlights,
              before.length + highlight.startChar = range.1
              ∧ before.length + highlight.endChar = range.2)

/-- A match is a slice of the message whose normalized text has the query or a term of it. -/
theorem match_shown (lawful : LawfulTables tables) {text content : String}
    {query : NormalizedTranscriptSearchQueryV1} (normal : normalize tables text = .ok query)
    {range : Nat × Nat} (isMatch : IsMatch tables content query range)
    : range.1 < range.2 ∧ range.2 ≤ content.length
      ∧ ∃ needle, IsNeedle query needle ∧ needle <:+: (normalizeRetrievalText tables
          (String.ofList (sliceOf content.toList range.1 range.2))).toList := by
  obtain ⟨part, first, last, isNeedle, inside, begins, ends, rfl⟩ := isMatch
  obtain ⟨-, head, final⟩ := needle_ends normal isNeedle
  rw [normalizeTranscriptTextWithCharMap_eq lawful] at inside
  have visible : ∀ {ch : Char}, isWhitespace ch = false → ch ≠ ' ' := by
    rintro ch seen rfl
    simp [isWhitespace] at seen
  obtain ⟨order, bound, shown⟩ := part_in_slice lawful inside begins ends
    (visible (head _ (by simp [begins]))) (visible (final _ (by simp [ends])))
  exact ⟨Nat.lt_succ_of_le order, bound, _, isNeedle, shown⟩

/-- What is somewhere in the normalized message is a match. -/
theorem exists_match (lawful : LawfulTables tables) {text content : String}
    {query : NormalizedTranscriptSearchQueryV1} (normal : normalize tables text = .ok query)
    {needle : List Char} (isNeedle : IsNeedle query needle)
    (inside : needle <:+: (normalizeRetrievalText tables content).toList)
    : ∃ range, IsMatch tables content query range := by
  have places : (normalizeRetrievalText tables content).toList
      = (normalizeTranscriptTextWithCharMap tables content).map Prod.fst := by
    have whole := toList_normalizeRetrievalText_eq lawful content.toList 0
    rwa [String.ofList_toList, ← normalizeTranscriptTextWithCharMap_eq lawful] at whole
  obtain ⟨nonempty, -, -⟩ := needle_ends normal isNeedle
  rw [places, List.infix_map_iff] at inside
  obtain ⟨part, inside, rfl⟩ := inside
  have some : part ≠ [] := by simpa using nonempty
  exact ⟨_, part, part.head some, part.getLast some, isNeedle, inside,
    List.head?_eq_some_head some, List.getLast?_eq_getLast_of_ne_nil some, rfl⟩

theorem excerpt_eq_ok {text : String} (content : String)
    {query : NormalizedTranscriptSearchQueryV1} (normal : normalize tables text = .ok query)
    {maxChars : Nat} (some : 0 < maxChars) (allowed : maxChars ≤ maxTranscriptSearchExcerptChars)
    : ∃ start, start = excerptStart content.length maxChars
          ((rawRanges tables content query).head?.getD (toLex (0, 0)))
      ∧ excerpt tables content query maxChars = .ok (excerptOf content.toList
          (rawRanges tables content query) start (start + min maxChars content.length)) := by
  obtain ⟨shape, nonempty, terms⟩ := normalize_eq_ok normal
  refine ⟨_, rfl, ?_⟩
  rw [excerpt, Store.require_bind, if_pos]
  · simp only [String.length_toList, (excerptStart_window _ _ _).2]
    rfl
  · have version : query.schemaVersion = 1 := by rw [shape]
    have whole : query.normalized ≠ "" := by simpa only [shape] using nonempty
    have someTerm : query.terms ≠ [] := by simpa only [shape] using terms
    simp [version, whole, someTerm, Nat.ne_of_gt some, Nat.not_lt.mpr allowed]

theorem mem_highlights_iff {contentChars : List Char} {ranges : List (ℕ ×ₗ ℕ)} {start stop : Nat}
    {highlight : TranscriptTextHighlight}
    : highlight ∈ (excerptOf contentChars ranges start stop).highlights
      ↔ ∃ range ∈ ranges, max (ofLex range).1 start < min (ofLex range).2 stop
        ∧ highlight = ⟨max (ofLex range).1 start - start, min (ofLex range).2 stop - start⟩ := by
  simp only [excerptOf, List.mem_map, Keyed.mem_distinctSorted, List.mem_filterMap, clipped]
  constructor
  · rintro ⟨shown, ⟨range, member, clip⟩, rfl⟩
    split_ifs at clip with nonempty
    obtain rfl := Option.some.inj clip
    exact ⟨range, member, nonempty, rfl⟩
  · rintro ⟨range, member, nonempty, rfl⟩
    exact ⟨_, ⟨range, member, if_pos nonempty⟩, rfl⟩

/-- If there is a match, there is a first one. -/
theorem exists_first_match {content : String} {query : NormalizedTranscriptSearchQueryV1}
    (some : ∃ range, IsMatch tables content query range)
    : ∃ range, IsMatch tables content query range
      ∧ ∀ other, IsMatch tables content query other → toLex range ≤ toLex other := by
  obtain ⟨range, isMatch⟩ := some
  have member : toLex range ∈ rawRanges tables content query := mem_rawRanges_iff.mpr isMatch
  obtain ⟨first, rest, shape⟩ := List.exists_cons_of_ne_nil (List.ne_nil_of_mem member)
  refine ⟨ofLex first, mem_rawRanges_iff.mp (shape ▸ List.mem_cons_self), ?_⟩
  intro other otherMatch
  have inside : toLex other ∈ rawRanges tables content query := mem_rawRanges_iff.mpr otherMatch
  rw [shape] at inside
  rcases List.mem_cons.mp inside with same | later
  · exact same.symm.le
  · have sorted : (rawRanges tables content query).Pairwise (· < ·) :=
      Keyed.distinctSorted_sorted _
    rw [shape] at sorted
    exact ((List.pairwise_cons.mp sorted).1 _ later).le

/-- The first match is what the excerpt is made around. -/
theorem head_rawRanges {content : String} {query : NormalizedTranscriptSearchQueryV1}
    {range : Nat × Nat} (isMatch : IsMatch tables content query range)
    (first : ∀ other, IsMatch tables content query other → toLex range ≤ toLex other)
    : (rawRanges tables content query).head?.getD (toLex (0, 0)) = toLex range := by
  have sorted : (rawRanges tables content query).Pairwise (· < ·) := Keyed.distinctSorted_sorted _
  have member : toLex range ∈ rawRanges tables content query := mem_rawRanges_iff.mpr isMatch
  obtain ⟨head, rest, shape⟩ := List.exists_cons_of_ne_nil (List.ne_nil_of_mem member)
  have headMatch : IsMatch tables content query (ofLex head) :=
    mem_rawRanges_iff.mp (shape ▸ List.mem_cons_self)
  rw [shape] at member sorted ⊢
  rcases List.mem_cons.mp member with same | later
  · exact same.symm
  · have below := (List.pairwise_cons.mp sorted).1 _ later
    exact absurd (first _ headMatch) (not_le_of_gt below)

theorem sliceOf_sliceOf (text : List Char) {start stop first last : Nat}
    (inside : start + last ≤ stop)
    : sliceOf (sliceOf text start stop) first last = sliceOf text (start + first) (start + last) := by
  rw [sliceOf, sliceOf, sliceOf, List.drop_take, List.drop_drop, List.take_take]
  congr 1
  omega

/-- The excerpt between two places, where the second is the limit or the end of the message. -/
theorem faithful_of_window (lawful : LawfulTables tables) {text content : String}
    {query : NormalizedTranscriptSearchQueryV1} (normal : normalize tables text = .ok query)
    {maxChars start : Nat} (window : start + min maxChars content.length ≤ content.length)
    (shows : ∀ range, IsMatch tables content query range
      → (∀ other, IsMatch tables content query other → toLex range ≤ toLex other)
      → max range.1 start < min range.2 (start + min maxChars content.length)
        ∧ (range.2 - range.1 ≤ maxChars
          → start ≤ range.1 ∧ range.2 ≤ start + min maxChars content.length))
    : Faithful tables content query maxChars
        (excerptOf content.toList (rawRanges tables content query) start
          (start + min maxChars content.length))
        (content.toList.take start)
        (content.toList.drop (start + min maxChars content.length)) := by
  have total : content.toList.length = content.length := String.length_toList
  have frontLength : (content.toList.take start).length = start := by
    rw [List.length_take]
    omega
  have shownText : (excerptOf content.toList (rawRanges tables content query) start
      (start + min maxChars content.length)).text.toList
        = sliceOf content.toList start (start + min maxChars content.length) :=
    String.toList_ofList
  have shownLength : (excerptOf content.toList (rawRanges tables content query) start
      (start + min maxChars content.length)).text.length = min maxChars content.length := by
    rw [← String.length_toList, shownText, sliceOf, List.length_take, List.length_drop]
    omega
  constructor
  case slice =>
    rw [shownText, sliceOf, List.append_assoc, Nat.add_sub_cancel_left, ← List.drop_drop,
      List.take_append_drop, List.take_append_drop]
  case length => exact shownLength
  case cutBefore =>
    rw [← List.length_pos_iff, frontLength]
    exact decide_eq_true_iff
  case cutAfter =>
    rw [← List.length_pos_iff, List.length_drop, Nat.sub_pos_iff_lt]
    exact decide_eq_true_iff
  case inside =>
    intro highlight member
    obtain ⟨range, -, nonempty, rfl⟩ := mem_highlights_iff.mp member
    rw [shownLength]
    dsimp only
    omega
  case sorted => exact List.pairwise_map.mpr (Keyed.distinctSorted_sorted _)
  case covers =>
    intro highlight member
    obtain ⟨range, inRanges, nonempty, rfl⟩ := mem_highlights_iff.mp member
    have isMatch := mem_rawRanges_iff.mp inRanges
    obtain ⟨-, -, needle, isNeedle, shown⟩ := match_shown lawful normal isMatch
    rw [frontLength, shownLength, shownText]
    refine ⟨ofLex range, isMatch, by dsimp only; omega, by dsimp only; omega, ?_⟩
    intro low high
    refine ⟨needle, isNeedle, ?_⟩
    dsimp only
    rw [sliceOf_sliceOf _ (by omega), Nat.max_eq_left low, Nat.min_eq_left high,
      Nat.add_sub_cancel' low, Nat.add_sub_cancel' (by omega)]
    exact shown
  case found =>
    rintro ⟨needle, isNeedle, inside⟩
    obtain ⟨range, isMatch, first⟩ :=
      exists_first_match (exists_match lawful normal isNeedle inside)
    obtain ⟨visible, whole⟩ := shows range isMatch first
    have shown : ⟨max range.1 start - start,
          min range.2 (start + min maxChars content.length) - start⟩
        ∈ (excerptOf content.toList (rawRanges tables content query) start
            (start + min maxChars content.length)).highlights :=
      mem_highlights_iff.mpr ⟨toLex range, mem_rawRanges_iff.mpr isMatch, visible, rfl⟩
    refine ⟨List.ne_nil_of_mem shown, range, isMatch, first, ?_⟩
    intro fits
    obtain ⟨low, high⟩ := whole fits
    refine ⟨_, shown, ?_, ?_⟩
    · rw [frontLength]
      dsimp only
      omega
    · rw [frontLength]
      dsimp only
      omega

/-- An excerpt is a slice of the message as long as possible, says what was cut off, and highlights
matches, with the first of them shown.
-/
theorem excerpt_faithful (lawful : LawfulTables tables) {text : String} (content : String)
    {query : NormalizedTranscriptSearchQueryV1} (normal : normalize tables text = .ok query)
    {maxChars : Nat} (some : 0 < maxChars) (allowed : maxChars ≤ maxTranscriptSearchExcerptChars)
    : ∃ shown before after, excerpt tables content query maxChars = .ok shown
      ∧ Faithful tables content query maxChars shown before after := by
  obtain ⟨start, startEq, shape⟩ := excerpt_eq_ok content normal some allowed
  obtain ⟨inside, window⟩ := excerptStart_window content.length maxChars
    ((rawRanges tables content query).head?.getD (toLex (0, 0)))
  rw [← startEq] at inside window
  refine ⟨_, _, _, shape, faithful_of_window lawful normal (by omega) ?_⟩
  intro range isMatch first
  obtain ⟨nonempty, within, -⟩ := match_shown lawful normal isMatch
  rw [startEq, head_rawRanges isMatch first]
  exact excerptStart_focus some nonempty within

theorem smallLetters_lawful : LawfulTables smallLetters where
  lower_some ch _ := List.cons_ne_nil ch []
  lower_visible ch stays lower member := by
    obtain rfl := List.mem_singleton.mp member
    rcases Bool.or_eq_true_iff.mp stays with letter | cjk
    · simp [smallLetters] at letter
      simp [isWhitespace]
      omega
    · exact isWhitespace_of_isTermChar (by simp [isTermChar, cjk])

/-- Nine characters around a word. -/
theorem excerpt_of_words
    : normalize smallLetters "cat" = .ok ⟨1, "cat", ["cat"]⟩
      ∧ ∃ shown before after,
          excerpt smallLetters "so, the cat sat" ⟨1, "cat", ["cat"]⟩ 9 = .ok shown
          ∧ Faithful smallLetters "so, the cat sat" ⟨1, "cat", ["cat"]⟩ 9 shown before after := by
  have normal : normalize smallLetters "cat" = .ok ⟨1, "cat", ["cat"]⟩ := by decide +kernel
  exact ⟨normal, excerpt_faithful smallLetters_lawful _ normal (by decide) (by decide)⟩

end TranscriptSearchNormalizerV1

end BeetleMemory.Transcript
