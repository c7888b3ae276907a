import BeetleMemory.Util.Scrub

/-! What a scrubbed line shows of its secret. The value is read here as a reader of the line would: a
string with its escapes, a token behind the name of a scheme and any number of spaces, or the run up
to the next delimiter. The scrubber ends a string at an escaped quote, looks for a token only behind
one space, and shows the beginning of the trimmed string.
-/

namespace BeetleMemory.Util

open LongTerm (splitOnce)
open Store (isWhitespace)

variable {line other closing : List Char} {pos : Nat}

/-! ## Reading a value -/

/-- The body of a string up to the quote that closes it, and what follows. -/
def readString (quote : Char) : List Char → List Char × List Char
  | '\\' :: c :: rest => ('\\' :: c :: (readString quote rest).1, (readString quote rest).2)
  | c :: rest =>
      if c = quote then ([], c :: rest) else (c :: (readString quote rest).1, (readString quote rest).2)
  | [] => ([], [])

/-- The name of a scheme, the spaces behind the first one, the token and what follows. -/
def readScheme (text : List Char) : Option (List Char × List Char × List Char × List Char) := do
  let (name, rest) ← splitOnce [' '] text
  let spaces := rest.takeWhile (· = ' ')
  let behind := rest.dropWhile (· = ' ')
  let token := behind.takeWhile (!isDelimiter ·)
  if (eqIgnoreAsciiCase name "bearer" || eqIgnoreAsciiCase name "basic") && !token.isEmpty then
    some (name, spaces, token, behind.dropWhile (!isDelimiter ·))
  else none

inductive Reading where
  | quoted (quote : Char) (string closing : List Char)
  | scheme (name spaces token closing : List Char)
  | run (value closing : List Char)

def readValue : List Char → Reading
  | [] => .run [] []
  | first :: rest =>
      if isQuote first then .quoted first (readString first rest).1 (readString first rest).2
      else match readScheme (first :: rest) with
        | some (name, spaces, token, closing) => .scheme name spaces token closing
        | none => .run ((first :: rest).takeWhile (!isDelimiter ·))
            ((first :: rest).dropWhile (!isDelimiter ·))

namespace Reading

/-- What has to be hidden but for four characters. -/
def secret : Reading → List Char
  | quoted _ string _ => string
  | scheme _ _ token _ => token
  | run value _ => value

/-- The whole value. -/
def value : Reading → List Char
  | quoted _ string _ => string
  | scheme name spaces token _ => name ++ ' ' :: (spaces ++ token)
  | run value _ => value

/-- The value with at most four characters of its secret. -/
def hidden : Reading → List Char
  | quoted quote string closing => quote :: (string.take 4 ++ mark ++ closing)
  | scheme name _ token closing => canonicalScheme name ++ ' ' :: (token.take 4 ++ mark ++ closing)
  | run value closing => value.take 4 ++ mark ++ closing

/-- The reading as it was written. -/
def text : Reading → List Char
  | quoted quote string closing => quote :: (string ++ closing)
  | scheme name spaces token closing => name ++ ' ' :: (spaces ++ (token ++ closing))
  | run value closing => value ++ closing

/-- The same reading with another secret. -/
def withSecret (secret : List Char) : Reading → Reading
  | quoted quote _ closing => .quoted quote secret closing
  | scheme name spaces _ closing => .scheme name spaces secret closing
  | run _ closing => .run secret closing

/-- One space behind a scheme; in a string no quote and no scheme, and its first characters not
changed and at least eight bytes left by trimming. (A string with a quote that looks redacted already
passes as well.)
-/
def Hideable : Reading → Prop
  | quoted quote string _ =>
      (quote ∉ string ∧ 8 ≤ byteLen (trimmed string) ∧ (authParts (trimmed string)).1 = []
        ∧ (trimmed string).take 4 = string.take 4)
      ∨ (quote ∈ string ∧ byteLen (trimmed (string.takeWhile (· ≠ quote))) < 8
        ∧ string = string.take 4 ++ mark)
  | scheme _ spaces _ _ => spaces = []
  | run _ _ => True

end Reading

def leadingSpace (line : List Char) (pos : Nat) : List Char :=
  (line.drop (pos + 1)).takeWhile isWhitespace

/-- The value behind the separator. -/
def readingOf (line : List Char) (pos : Nat) : Reading :=
  readValue ((line.drop (pos + 1)).dropWhile isWhitespace)

/-- The scrubbed line shows at most four characters of the secret. -/
def Hides (line : List Char) (pos : Nat) : Prop :=
  (readingOf line pos).secret.length < 4
    ∨ scrubLine line = line.take (pos + 1) ++ (leadingSpace line pos ++ (readingOf line pos).hidden)

/-! ## What the scrubber finds -/

theorem readString_spec (quote : Char) (text : List Char)
    : (readString quote text).1 ++ (readString quote text).2 = text
      ∧ ((readString quote text).2 = [] ∨ ∃ rest, (readString quote text).2 = quote :: rest) := by
  fun_induction readString quote text with
  | case1 c rest ih =>
      obtain ⟨whole, ends⟩ := ih
      exact ⟨by simp [whole], ends⟩
  | case2 rest => exact ⟨rfl, .inr ⟨rest, rfl⟩⟩
  | case3 c rest _ other ih =>
      obtain ⟨whole, ends⟩ := ih
      exact ⟨by simp [whole], ends⟩
  | case4 => exact ⟨rfl, .inl rfl⟩

theorem readScheme_spec {text name spaces token : List Char}
    (found : readScheme text = some (name, spaces, token, closing))
    : (eqIgnoreAsciiCase name "bearer" || eqIgnoreAsciiCase name "basic") = true ∧ token ≠ []
      ∧ Cut token closing ∧ (∀ c ∈ spaces, c = ' ')
      ∧ text = name ++ ' ' :: (spaces ++ (token ++ closing)) := by
  simp only [readScheme, Option.bind_eq_bind, Option.bind_eq_some_iff, Prod.exists,
    splitOnce_char] at found
  obtain ⟨front, rest, ⟨rfl, -⟩, found⟩ := found
  have whole := List.takeWhile_append_dropWhile (p := (· = ' ')) (l := rest)
  obtain ⟨word, after, behind, cut⟩ := exists_cut (rest.dropWhile (· = ' '))
  rw [behind, cut.eq.1, cut.eq.2] at found
  split_ifs at found with known
  simp only [Bool.and_eq_true] at known
  cases found
  refine ⟨known.1, by simpa using known.2, cut, fun c inside => ?_, ?_⟩
  · simpa using List.mem_takeWhile_imp inside
  · rw [← behind, whole]

theorem space_notMem_scheme {name : List Char}
    (known : (eqIgnoreAsciiCase name "bearer" || eqIgnoreAsciiCase name "basic") = true)
    : ' ' ∉ name := by
  intro inside
  have plain := (scheme_plain known).2 ' ' inside
  cases plain

theorem splitAuthSchemeValue_of_readScheme {text : List Char} (unread : readScheme text = none)
    : splitAuthSchemeValue text = none := by
  cases auth : splitAuthSchemeValue text with
  | none => rfl
  | some found =>
      obtain ⟨known, some, after, rfl, cut⟩ := splitAuthSchemeValue_eq_some.mp auth
      obtain ⟨first, rest, token⟩ := List.exists_cons_of_ne_nil some
      have notSpace : first ≠ ' ' := by
        rintro rfl
        have plain := cut.plain ' ' (by simp [token])
        cases plain
      have absent := space_notMem_scheme known
      have here := cut.eq
      rw [token] at here
      have behind : (first :: rest ++ after).dropWhile (· = ' ') = first :: rest ++ after := by
        simp [notSpace]
      rw [readScheme, token, splitOnce_char.mpr ⟨rfl, absent⟩, Option.bind_eq_bind,
        Option.bind_some] at unread
      simp only [behind, here.1, known] at unread
      cases unread

/-! ## One line -/

theorem shown_eq_take_iff (string : List Char)
    : shown string = string.take 4 ↔ (authParts (trimmed string)).1 = []
      ∧ (trimmed string).take 4 = string.take 4 := by
  rw [shown]
  rcases (authParts_cases (trimmed string)).1 with ⟨scheme, secret⟩ | scheme
  · simp [scheme, secret]
  · have wide : 6 ≤ (authParts (trimmed string)).1.length := by
      rcases scheme with scheme | scheme <;> rw [scheme] <;> decide
    refine iff_of_false (fun same => ?_) fun both => ?_
    · have lengths := congrArg List.length same
      rw [List.length_append, List.length_take, List.length_take] at lengths
      omega
    · rw [both.1] at wide
      cases wide

/-- A string that ends in the mark is not short when it is trimmed. -/
theorem long_of_marked {front : List Char} : 8 ≤ byteLen (trimmed (front ++ mark)) := by
  have kept : ∃ more, trimmed (front ++ mark) = more ++ mark := by
    obtain ⟨more, dropped⟩ : ∃ more, (front ++ mark).dropWhile isWhitespace = more ++ mark := by
      rw [List.dropWhile_append]
      split_ifs
      · exact ⟨[], by decide⟩
      · exact ⟨_, rfl⟩
    refine ⟨more, ?_⟩
    rw [trimmed, LongTerm.toList_trim, String.toList_ofList, dropped,
      show mark = marked false ++ [']'] from rfl, ← List.append_assoc]
    exact List.rdropWhile_concat_neg _ _ _ (by decide)
  obtain ⟨more, kept⟩ := kept
  rw [kept]
  refine le_trans ?_ (length_le_byteLen _)
  simp [mark]

theorem quoted_iff {quote : Char} {string ws : List Char} (sensitive : Sensitive line pos)
    (space : ∀ c ∈ ws, isWhitespace c = true) (isQuote : isQuote quote = true)
    (whole : line.drop (pos + 1) = ws ++ quote :: (string ++ closing))
    (ends : closing = [] ∨ ∃ rest, closing = quote :: rest)
    : scrubLine line = line.take (pos + 1) ++ (ws ++ (Reading.quoted quote string closing).hidden)
      ↔ (Reading.quoted quote string closing).Hideable := by
  have unchanged : line = line.take (pos + 1) ++ (ws ++ (Reading.quoted quote string closing).hidden)
      ↔ string = string.take 4 ++ mark := by
    nth_rewrite 1 [← List.take_append_drop (pos + 1) line]
    rw [whole, List.append_cancel_left_eq, List.append_cancel_left_eq, Reading.hidden,
      List.cons.injEq, List.append_cancel_right_eq]
    simp
  by_cases inside : quote ∈ string
  · obtain ⟨front, back, rfl, absent⟩ := List.eq_append_cons_of_mem inside
    have located : Located (ws ++ [quote]) front (quote :: (back ++ closing)) :=
      .quoted space isQuote absent (.inr ⟨_, rfl⟩)
    have seen : (front ++ quote :: back).takeWhile (· ≠ quote) = front := by
      rw [List.takeWhile_append_of_pos (fun c mem => by
        simpa using fun same : c = quote => absent (same ▸ mem))]
      simp
    have hideable : (Reading.quoted quote (front ++ quote :: back) closing).Hideable
        ↔ byteLen (trimmed front) < 8
          ∧ front ++ quote :: back = (front ++ quote :: back).take 4 ++ mark := by
      simp only [Reading.Hideable, inside, not_true, false_and, false_or, true_and, seen]
    rw [hideable, scrubLine_of_located sensitive located (by rw [whole]; simp)]
    split_ifs with long
    · refine iff_of_false (fun same => ?_) fun both => absurd long (not_le.mpr both.1)
      -- the quote would stand in the mark
      have cancel : ∀ {key shows hides : List Char}, key ++ (ws ++ [quote] ++ shows
          ++ quote :: (back ++ closing)) = key ++ (ws ++ quote :: (hides ++ closing))
            → hides[shows.length]? = some quote := by
        intro key shows hides same
        have tail : (shows ++ quote :: back) ++ closing = hides ++ closing := by simpa using same
        simp [← List.append_cancel_right tail]
      have here := cancel same
      have width : 11 ≤ (shown front ++ mark).length := by
        rw [List.length_append]
        exact Nat.le_add_left 11 _
      have four : ((front ++ quote :: back).take 4).length ≤ 4 := List.length_take_le _ _
      rw [List.getElem?_append_right (by omega)] at here
      have plain := (marked_plain true quote (List.mem_of_getElem? here)).1
      rw [isQuote] at plain
      cases plain
    · rw [unchanged]
      exact ⟨fun same => ⟨not_le.mp long, same⟩, fun both => both.2⟩
  · have located : Located (ws ++ [quote]) string closing := .quoted space isQuote inside ends
    have hideable : (Reading.quoted quote string closing).Hideable
        ↔ 8 ≤ byteLen (trimmed string) ∧ shown string = string.take 4 := by
      simp only [Reading.Hideable, inside, not_false_eq_true, true_and, false_and, or_false,
        shown_eq_take_iff]
    rw [hideable, scrubLine_of_located sensitive located (by rw [whole]; simp)]
    split_ifs with long
    · simp [Reading.hidden, long]
    · rw [unchanged]
      refine iff_of_false (fun same => long ?_) fun both => long both.1
      rw [same]
      exact long_of_marked

/-- The name of a scheme alone is too short to be redacted. -/
theorem byteLen_scheme {name : List Char}
    (known : (eqIgnoreAsciiCase name "bearer" || eqIgnoreAsciiCase name "basic") = true)
    : byteLen name < 8 := by
  simp only [eqIgnoreAsciiCase, Bool.or_eq_true, beq_iff_eq] at known
  have ascii : ∀ c ∈ name, c.toNat < 128 := by
    intro c inside
    have lower : (name.map Char.toLower).all (fun c => decide (c.toNat < 128)) = true := by
      rcases known with same | same <;> rw [same] <;> decide
    have here := of_decide_eq_true (List.all_eq_true.mp lower _ (List.mem_map_of_mem inside))
    rw [Char.toLower] at here
    split_ifs at here with upper
    · exact lt_of_le_of_lt (UInt32.le_iff_toNat_le.mp upper.2) (by decide)
    · exact here
  have length : name.length < 8 := by
    rcases known with same | same <;> have sizes := congrArg List.length same <;> simp at sizes <;> omega
  rw [byteLen, LongTerm.textLen_of_ascii (by simpa using ascii), String.length_ofList]
  exact length

theorem scheme_iff {name spaces token ws : List Char} (sensitive : Sensitive line pos)
    (space : ∀ c ∈ ws, isWhitespace c = true)
    (known : (eqIgnoreAsciiCase name "bearer" || eqIgnoreAsciiCase name "basic") = true)
    (token_ne : token ≠ []) (cut : Cut token closing) (blank : ∀ c ∈ spaces, c = ' ')
    (whole : line.drop (pos + 1) = ws ++ (name ++ ' ' :: (spaces ++ (token ++ closing))))
    (long : 8 ≤ byteLen (name ++ ' ' :: (spaces ++ token)))
    : scrubLine line = line.take (pos + 1)
        ++ (ws ++ (Reading.scheme name spaces token closing).hidden)
      ↔ (Reading.scheme name spaces token closing).Hideable := by
  obtain ⟨name_ne, plain⟩ := scheme_plain known
  cases spaces with
  | nil =>
      have located : Located ws (name ++ ' ' :: token) closing := .scheme space known token_ne cut
      obtain ⟨same, parts⟩ := parts_scheme known token_ne cut
      rw [scrubLine_of_located sensitive located (by rw [whole]; simp), if_pos (by rw [same]; exact long),
        shown, same, parts]
      simp [Reading.hidden, Reading.Hideable]
  | cons c more =>
      obtain rfl := blank c List.mem_cons_self
      refine iff_of_false ?_ (List.cons_ne_nil _ _)
      -- the value ends at the space, and the name alone is too short
      have cutName : Cut name (' ' :: (' ' :: more ++ (token ++ closing))) :=
        ⟨fun c inside => (Bool.or_eq_false_iff.mp (plain c inside)).1, by rintro c ⟨⟩; decide⟩
      have short : ¬ 8 ≤ byteLen (trimmed name) := by
        rw [(parts_run cutName).1, not_le]
        exact byteLen_scheme known
      have located : Located ws name (' ' :: (' ' :: more ++ (token ++ closing))) := by
        refine .run space ?_ (by simp [name_ne]) ?_ cutName
        · obtain ⟨first, rest, rfl⟩ := List.exists_cons_of_ne_nil name_ne
          rintro c ⟨⟩
          have bare := Bool.or_eq_false_iff.mp (plain first List.mem_cons_self)
          exact ⟨bare.2, isWhitespace_of_plain bare.1⟩
        · cases auth : splitAuthSchemeValue (name ++ ' ' :: (' ' :: more ++ (token ++ closing))) with
          | none => rfl
          | some found =>
              obtain ⟨knownToo, some, after, text, plainToken⟩ := splitAuthSchemeValue_eq_some.mp auth
              have found := splitOnce_char.mpr ⟨text, space_notMem_scheme knownToo⟩
              rw [splitOnce_char.mpr ⟨rfl, space_notMem_scheme known⟩, Option.some.injEq,
                Prod.mk.injEq] at found
              obtain ⟨c, rest, shape⟩ := List.exists_cons_of_ne_nil some
              have head := found.2.symm
              rw [shape, List.cons_append, List.cons_append, List.cons.injEq] at head
              have blank := plainToken.plain c (by rw [shape]; exact List.mem_cons_self)
              rw [head.1] at blank
              cases blank
      rw [scrubLine_of_located sensitive located (by rw [whole]; simp), if_neg short]
      nth_rewrite 1 [← List.take_append_drop (pos + 1) line]
      rw [whole, List.append_cancel_left_eq, List.append_cancel_left_eq, Reading.hidden]
      -- the line ends in the token, which has no bracket in it
      have apart : ∀ front back : List Char, front ++ token ≠ back ++ mark := by
        intro front back same
        have last := congrArg List.getLast? same
        rw [List.getLast?_append_of_ne_nil _ token_ne, List.getLast?_append_of_ne_nil _ (by decide)] at last
        have plain := cut.plain ']' (List.mem_of_mem_getLast? last)
        cases plain
      intro same
      refine apart (name ++ ' ' :: ' ' :: more) (canonicalScheme name ++ ' ' :: token.take 4) ?_
      rw [← List.append_left_inj closing]
      simpa only [List.append_assoc, List.cons_append] using same

theorem run_iff {value ws : List Char} (sensitive : Sensitive line pos)
    (space : ∀ c ∈ ws, isWhitespace c = true)
    (bare : ∀ c ∈ (value ++ closing).head?, isQuote c = false ∧ isWhitespace c = false)
    (unread : readScheme (value ++ closing) = none) (cut : Cut value closing)
    (whole : line.drop (pos + 1) = ws ++ (value ++ closing)) (long : 8 ≤ byteLen value)
    : scrubLine line = line.take (pos + 1) ++ (ws ++ (Reading.run value closing).hidden) := by
  have some := ne_nil_of_long long
  have located : Located ws value closing := .run space bare (by simp [some])
    (splitAuthSchemeValue_of_readScheme unread) cut
  obtain ⟨same, parts⟩ := parts_run cut
  rw [scrubLine_of_located sensitive located (by rw [whole]; simp), if_pos (by rw [same]; exact long),
    shown, same, parts]
  simp [Reading.hidden]

/-- A scrubbed line hides its secret exactly if the reading of its value is one that can be hidden. -/
theorem hides_iff (sensitive : Sensitive line pos) (long : 8 ≤ byteLen (readingOf line pos).value)
    : Hides line pos ↔ (readingOf line pos).secret.length < 4 ∨ (readingOf line pos).Hideable := by
  have space : ∀ c ∈ leadingSpace line pos, isWhitespace c = true :=
    fun c inside => List.mem_takeWhile_imp inside
  have whole := List.takeWhile_append_dropWhile (p := isWhitespace) (l := line.drop (pos + 1))
  have visible := List.head?_dropWhile_not isWhitespace (line.drop (pos + 1))
  refine or_congr_right ?_
  rw [← leadingSpace] at whole
  rw [readingOf] at long ⊢
  generalize (line.drop (pos + 1)).dropWhile isWhitespace = text at whole visible long ⊢
  generalize leadingSpace line pos = ws at whole space ⊢
  cases text with
  | nil => exact absurd long (by decide)
  | cons first rest =>
      rw [readValue] at long ⊢
      split_ifs at long ⊢ with quoted
      · obtain ⟨split, ends⟩ := readString_spec first rest
        exact quoted_iff sensitive space quoted (by rw [← whole, split]) ends
      · cases scheme : readScheme (first :: rest) with
        | some found =>
            obtain ⟨name, spaces, token, closing⟩ := found
            simp only [scheme] at long
            obtain ⟨known, token_ne, cut, blank, text⟩ := readScheme_spec scheme
            exact scheme_iff sensitive space known token_ne cut blank (by rw [← whole, text]) long
        | none =>
            obtain ⟨value, closing, text, cut⟩ := exists_cut (first :: rest)
            rw [text] at scheme whole
            simp only [text, scheme, cut.eq] at long ⊢
            refine iff_of_true (run_iff sensitive space ?_ scheme cut whole.symm long) trivial
            rw [← text]
            rintro c ⟨⟩
            exact ⟨by simpa using quoted, by simpa using visible⟩

/-! ## Two texts -/

/-- A sensitive line with a value of at least eight bytes. -/
def Secret (line : List Char) (pos : Nat) : Prop :=
  Sensitive line pos ∧ 8 ≤ byteLen (readingOf line pos).value

/-- Lines that differ in the rest of such a value at most. -/
def Alike (line other : List Char) : Prop :=
  line = other ∨ ∃ pos secret, Secret line pos ∧ Secret other pos
    ∧ other.take (pos + 1) = line.take (pos + 1) ∧ leadingSpace other pos = leadingSpace line pos
    ∧ readingOf other pos = (readingOf line pos).withSecret secret
    ∧ secret.take 4 = (readingOf line pos).secret.take 4

def AllHideable (text : String) : Prop :=
  ∀ line ∈ linesOf text, ∀ pos, Secret line pos
    → (readingOf line pos).secret.length < 4 ∨ (readingOf line pos).Hideable

theorem text_readValue (text : List Char) : (readValue text).text = text := by
  cases text with
  | nil => rfl
  | cons first rest =>
      rw [readValue]
      split_ifs
      · rw [Reading.text, (readString_spec first rest).1]
      · cases scheme : readScheme (first :: rest) with
        | some found => exact (readScheme_spec scheme).2.2.2.2.symm
        | none => exact List.takeWhile_append_dropWhile

theorem line_eq (line : List Char) (pos : Nat)
    : line = line.take (pos + 1) ++ (leadingSpace line pos ++ (readingOf line pos).text) := by
  rw [readingOf, text_readValue, leadingSpace, List.takeWhile_append_dropWhile,
    List.take_append_drop]

theorem scrubLine_eq_of_alike (alike : Alike line other)
    (hideable : ∀ pos, Secret line pos
      → (readingOf line pos).secret.length < 4 ∨ (readingOf line pos).Hideable)
    (otherHideable : ∀ pos, Secret other pos
      → (readingOf other pos).secret.length < 4 ∨ (readingOf other pos).Hideable)
    : scrubLine line = scrubLine other := by
  rcases alike with rfl | ⟨pos, secret, hides, otherHides, key, space, reading, same⟩
  · rfl
  · have secrets : (readingOf other pos).secret = secret := by
      rw [reading]
      cases readingOf line pos <;> rfl
    have forms : (readingOf other pos).hidden = (readingOf line pos).hidden := by
      rw [reading]
      cases shape : readingOf line pos <;> rw [shape] at same <;>
        simp only [Reading.withSecret, Reading.hidden, Reading.secret] at same ⊢ <;> rw [same]
    by_cases short : (readingOf line pos).secret.length < 4
    · -- a short secret has no rest in which the lines could differ
      have whole : secret = (readingOf line pos).secret := by
        have lengths := congrArg List.length same
        rw [List.length_take, List.length_take] at lengths
        rw [List.take_of_length_le (by omega), List.take_of_length_le (by omega)] at same
        exact same
      have again : readingOf other pos = readingOf line pos := by
        rw [reading, whole]
        cases readingOf line pos <;> rfl
      rw [line_eq line pos, line_eq other pos, key, space, again]
    · have long : ¬ (readingOf other pos).secret.length < 4 := by
        have lengths := congrArg List.length same
        rw [List.length_take, List.length_take] at lengths
        rw [secrets]
        omega
      have here := ((hides_iff hides.1 hides.2).mpr (hideable pos hides)).resolve_left short
      have there := ((hides_iff otherHides.1 otherHides.2).mpr (otherHideable pos otherHides)
        ).resolve_left long
      rw [here, there, key, space, forms]

/-- The scrubbed lines of a text hide their secrets exactly if these can be hidden, and then texts that
differ in the rest of such values only have the same scrubbed text. Lines without a sensitive key and
the number of lines are kept.
-/
theorem secrets_hidden_iff (text other : String)
    : ((∀ line ∈ linesOf text, ∀ pos, Secret line pos → Hides line pos) ↔ AllHideable text)
      ∧ (List.Forall₂ Alike (linesOf text) (linesOf other) → AllHideable text → AllHideable other
        → scrubCredentials text = scrubCredentials other)
      ∧ linesOf (scrubCredentials text) = (linesOf text).map scrubLine
      ∧ ∀ line, lineHasSensitiveKv line = false → scrubLine line = line := by
  refine ⟨?_, ?_, linesOf_scrubCredentials text, ?_⟩
  · refine forall₄_congr fun line _ pos secret => ?_
    exact hides_iff secret.1 secret.2
  · intro alike hideable otherHideable
    refine linesOf_injective ?_
    rw [linesOf_scrubCredentials, linesOf_scrubCredentials]
    unfold AllHideable at hideable otherHideable
    generalize linesOf text = lines at *
    generalize linesOf other = others at *
    induction alike with
    | nil => rfl
    | cons here _ ih =>
        rw [List.map_cons, List.map_cons, scrubLine_eq_of_alike here
          (hideable _ List.mem_cons_self) (otherHideable _ List.mem_cons_self),
          ih (fun line later => hideable line (List.mem_cons_of_mem _ later))
            fun line later => otherHideable line (List.mem_cons_of_mem _ later)]
  · intro line plain
    rw [scrubLine, plain]
    rfl

/-- Witness: two strings with the same beginning. -/
theorem strings_hidden
    : scrubCredentials "token: \"abcdefgh\"" = scrubCredentials "token: \"abcdzzzzzz\"" := by
  have one : ∀ {secret : List Char}, readingOf ("token: \"".toList ++ secret ++ "\"".toList) 5
        = .quoted '"' secret ['"'] → '"' ∉ secret → 8 ≤ byteLen (trimmed secret)
      → (authParts (trimmed secret)).1 = [] → (trimmed secret).take 4 = secret.take 4
      → findKvSeparator ("token: \"".toList ++ secret ++ "\"".toList) = some 5
      → ∀ pos, Secret ("token: \"".toList ++ secret ++ "\"".toList) pos
      → (readingOf ("token: \"".toList ++ secret ++ "\"".toList) pos).secret.length < 4
        ∨ (readingOf ("token: \"".toList ++ secret ++ "\"".toList) pos).Hideable := by
    intro secret reading plain long scheme first found pos here
    cases here.1.found.symm.trans found
    rw [reading]
    exact .inr (.inl ⟨plain, long, scheme, first⟩)
  have left : linesOf "token: \"abcdefgh\""
      = ["token: \"".toList ++ "abcdefgh".toList ++ "\"".toList] := by decide +kernel
  have right : linesOf "token: \"abcdzzzzzz\""
      = ["token: \"".toList ++ "abcdzzzzzz".toList ++ "\"".toList] := by decide +kernel
  refine (secrets_hidden_iff _ _).2.1 ?_ ?_ ?_
  · rw [left, right]
    exact .cons (.inr ⟨5, "abcdzzzzzz".toList, ⟨⟨by decide, by decide +kernel⟩, by decide +kernel⟩,
      ⟨⟨by decide, by decide +kernel⟩, by decide +kernel⟩, by decide, by decide +kernel, by rfl,
      by decide +kernel⟩) .nil
  · rw [AllHideable, left]
    intro line listed
    rw [List.mem_singleton] at listed
    rw [listed]
    exact one (by rfl) (by decide) (by decide +kernel) (by decide +kernel) (by decide +kernel)
      (by decide)
  · rw [AllHideable, right]
    intro line listed
    rw [List.mem_singleton] at listed
    rw [listed]
    exact one (by rfl) (by decide) (by decide +kernel) (by decide +kernel) (by decide +kernel)
      (by decide)

/-- A quote in the string, and two spaces behind the scheme. -/
theorem secrets_shown
    : scrubCredentials "token: \"ab\\\"cdefghij\"" = "token: \"ab\\\"cdefghij\""
      ∧ scrubCredentials "authorization: Bearer  abcdefgh" = "authorization: Bearer  abcdefgh"
      ∧ Secret "token: \"ab\\\"cdefghij\"".toList 5 ∧ ¬ Hides "token: \"ab\\\"cdefghij\"".toList 5
      ∧ Secret "authorization: Bearer  abcdefgh".toList 13
      ∧ ¬ Hides "authorization: Bearer  abcdefgh".toList 13 := by
  refine ⟨by decide +kernel, by decide +kernel, ⟨⟨by decide, by decide +kernel⟩, by decide +kernel⟩, ?_,
    ⟨⟨by decide, by decide +kernel⟩, by decide +kernel⟩, ?_⟩
  all_goals
    unfold Hides
    decide +kernel

end BeetleMemory.Util
