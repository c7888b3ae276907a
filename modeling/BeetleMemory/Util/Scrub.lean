import BeetleMemory.LongTerm.Texts

/-! Scrubbing of credentials in lines with a key and a value. The mark that is put in the place of a
secret ends in a bracket, and a bracket ends a value without quotes, so a line that has been scrubbed
is not always left alone when it is scrubbed again.
-/

namespace BeetleMemory.Util

open LongTerm (trim splitOnce splitOnce_sound splitOnce_eq_none splitOnce_append trim_eq_self toList_trim)
open Store (isWhitespace textLen textBytes)

/-! ## The scrubber -/

/-- What stands in the place of what is hidden. -/
def mark : List Char := "…[REDACTED]".toList

def trimmed (text : List Char) : List Char :=
  (trim (String.ofList text)).toList

def byteLen (text : List Char) : Nat :=
  textLen (String.ofList text)

def eqIgnoreAsciiCase (text : List Char) (word : String) : Bool :=
  text.map Char.toLower == word.toList.map Char.toLower

def isDelimiter (c : Char) : Bool :=
  isWhitespace c || c == ',' || c == '}' || c == ']' || c == ';'

/-- The first equals sign, or colon that no slash follows. -/
def findKvSeparator : List Char → Option Nat
  | [] => none
  | c :: rest =>
      if c == ':' && rest.head? == some '/' then (findKvSeparator rest).map (· + 1)
      else if c == '=' || c == ':' then some 0
      else (findKvSeparator rest).map (· + 1)

def isAsciiPunctuation (c : Char) : Bool :=
  let n := c.toNat
  (0x21 ≤ n && n ≤ 0x2F) || (0x3A ≤ n && n ≤ 0x40) || (0x5B ≤ n && n ≤ 0x60) || (0x7B ≤ n && n ≤ 0x7E)

def isSensitiveKey (rawKey : List Char) : Bool :=
  let key := (trimmed rawKey).dropWhile fun c => isAsciiPunctuation c && c != '_' && c != '-'
  let bracket : Char → Bool := "\"'\x7b\x7d[]()".toList.contains
  let key := trimmed ((key.dropWhile bracket).rdropWhile bracket)
  ["token", "api_key", "api-key", "apikey", "client_secret", "client-secret", "password", "passwd",
    "secret", "secret_key", "secret-key", "credential", "authorization", "cookie", "access_key",
    "access_token", "refresh_token", "private_key"].any (eqIgnoreAsciiCase key)

def stripAsciiPrefix (text : List Char) (lower : String) : Option (List Char) :=
  if eqIgnoreAsciiCase (text.take lower.toList.length) lower then some (text.drop lower.toList.length)
  else none

def secretPrefix (secret : List Char) : List Char := secret.take 4

def redactSecretValue (value : List Char) : Option (List Char) :=
  let value := trimmed value
  if byteLen value < 8 then none
  else match stripAsciiPrefix value "bearer " with
    | some rest => some ("Bearer ".toList ++ secretPrefix rest ++ mark)
    | none => match stripAsciiPrefix value "basic " with
      | some rest => some ("Basic ".toList ++ secretPrefix rest ++ mark)
      | none => some (secretPrefix value ++ mark)

def splitAuthSchemeValue (text : List Char) : Option (List Char × List Char) := do
  let (scheme, rest) ← splitOnce [' '] text
  if !(eqIgnoreAsciiCase scheme "bearer" || eqIgnoreAsciiCase scheme "basic") then none
  else
    let token := rest.takeWhile (!isDelimiter ·)
    if token.isEmpty then none else some (scheme, token)

def isQuote (c : Char) : Bool :=
  c == '"' || c == '\''

/-- The value in what follows a separator, between what is kept before it and behind it. -/
def locateValue (fragment : List Char) : Option (List Char × List Char × List Char) :=
  let leadingWs := fragment.takeWhile isWhitespace
  match fragment.dropWhile isWhitespace with
  | [] => none
  | first :: rest =>
      if isQuote first then
        match splitOnce [first] rest with
        | some (value, after) => some (leadingWs ++ [first], value, first :: after)
        | none => some (leadingWs ++ [first], rest, [])
      else match splitAuthSchemeValue (first :: rest) with
        | some (scheme, token) => some (leadingWs, scheme ++ ' ' :: token,
            (first :: rest).drop (scheme.length + 1 + token.length))
        | none => some (leadingWs, (first :: rest).takeWhile (!isDelimiter ·),
            (first :: rest).dropWhile (!isDelimiter ·))

def redactValueFragment (fragment : List Char) : Option (List Char) := do
  let (before, value, after) ← locateValue fragment
  let redacted ← redactSecretValue value
  some (before ++ redacted ++ after)

def lineHasSensitiveKv (line : List Char) : Bool :=
  (findKvSeparator line).any fun pos => isSensitiveKey (line.take pos)

def scrubKvLine (line : List Char) : List Char :=
  match findKvSeparator line with
  | some pos =>
      match redactValueFragment (line.drop (pos + 1)) with
      | some redacted => line.take (pos + 1) ++ redacted
      | none => line
  | none => line

def scrubLine (line : List Char) : List Char :=
  if lineHasSensitiveKv line then scrubKvLine line else line

def linesOf (text : String) : List (List Char) :=
  text.toList.splitOn '\n'

def scrubCredentials (input : String) : String :=
  if input.isEmpty then ""
  else String.ofList (['\n'].intercalate ((linesOf input).map scrubLine))

def contentContainsSensitiveMaterial (content : String) : Bool :=
  scrubCredentials content != content

/-! ## Redacted values -/

variable {c : Char} {value redacted fragment before after line : List Char} {pos : Nat}

/-- The scheme as it is shown, and the secret behind it. -/
def authParts (value : List Char) : List Char × List Char :=
  match stripAsciiPrefix value "bearer " with
  | some rest => ("Bearer ".toList, rest)
  | none => match stripAsciiPrefix value "basic " with
    | some rest => ("Basic ".toList, rest)
    | none => ([], value)

/-- What is left visible of a value. -/
def shown (value : List Char) : List Char :=
  (authParts (trimmed value)).1 ++ (authParts (trimmed value)).2.take 4

theorem authParts_cases (value : List Char)
    : ((authParts value).1 = [] ∧ (authParts value).2 = value
        ∨ (authParts value).1 = "Bearer ".toList ∨ (authParts value).1 = "Basic ".toList)
      ∧ (authParts value).2 <:+ value := by
  have sub : ∀ {start : String} {rest : List Char}, stripAsciiPrefix value start = some rest
      → rest <:+ value := by
    intro start rest found
    rw [stripAsciiPrefix] at found
    split_ifs at found
    cases found
    exact List.drop_suffix _ _
  delta authParts
  cases bearer : stripAsciiPrefix value "bearer " with
  | some rest => exact ⟨.inr (.inl rfl), sub bearer⟩
  | none =>
      cases basic : stripAsciiPrefix value "basic " with
      | some rest => exact ⟨.inr (.inr rfl), sub basic⟩
      | none => exact ⟨.inl ⟨rfl, rfl⟩, List.suffix_rfl⟩

theorem redactSecretValue_eq_some
    : redactSecretValue value = some redacted ↔ 8 ≤ byteLen (trimmed value)
      ∧ shown value ++ mark = redacted := by
  delta redactSecretValue shown authParts secretPrefix
  dsimp only
  split_ifs with short
  · simp [not_le.mpr short]
  · simp only [not_lt.mp short, true_and]
    cases stripAsciiPrefix (trimmed value) "bearer " with
    | some rest => simp
    | none => cases stripAsciiPrefix (trimmed value) "basic " <;> simp

theorem trimmed_eq_self (first : ∀ c ∈ value.head?, isWhitespace c = false)
    (last : ∀ c ∈ value.getLast?, isWhitespace c = false)
    : trimmed value = value := by
  have whole : trim (String.ofList value) = String.ofList value :=
    trim_eq_self (by simpa using first) (by simpa using last)
  rw [trimmed, whole, String.toList_ofList]

theorem trimmed_sublist (value : List Char) : (trimmed value).Sublist value := by
  simpa [trimmed] using LongTerm.trim_sublist (String.ofList value)

theorem head_trimmed : ∀ c ∈ (trimmed value).head?, isWhitespace c = false :=
  LongTerm.head_trimmed (LongTerm.trim_trim (String.ofList value))

theorem length_le_byteLen (value : List Char) : value.length ≤ byteLen value := by
  rw [byteLen, textLen, textBytes, String.toList_ofList]
  induction value with
  | nil => exact Nat.zero_le _
  | cons c rest ih =>
      have size := c.utf8Size_pos
      rw [List.flatMap_cons, List.length_append, String.length_utf8EncodeChar, List.length_cons]
      omega

theorem ne_nil_of_long (long : 8 ≤ byteLen value) : value ≠ [] := by
  rintro rfl
  revert long
  decide

/-- The mark without its last bracket, or with it. -/
def marked (closed : Bool) : List Char :=
  if closed then mark else mark.dropLast

theorem marked_cases (closed : Bool)
    : marked closed = '…' :: "[REDACTED".toList ++ if closed then [']'] else [] := by
  cases closed <;> rfl

theorem stripAsciiPrefix_eq_none {start : String} (inside : '…' ∈ value.take start.toList.length)
    (plain : '…' ∉ start.toList.map Char.toLower)
    : stripAsciiPrefix value start = none := by
  rw [stripAsciiPrefix, if_neg]
  intro same
  rw [eqIgnoreAsciiCase, beq_iff_eq] at same
  exact plain (same ▸ List.mem_map.mpr ⟨'…', inside, by decide⟩)

theorem getLast?_marked (front : List Char) (closed : Bool)
    : ∀ c ∈ (front ++ marked closed).getLast?, isWhitespace c = false := by
  cases closed <;> simp [marked, mark] <;> decide

/-- How a redacted value is taken apart when it is scrubbed again. -/
theorem authParts_marked (long : 8 ≤ byteLen (trimmed value)) (closed : Bool)
    : let parts := authParts (trimmed value)
      trimmed (parts.1 ++ (parts.2.take 4 ++ marked closed))
          = parts.1 ++ (parts.2.take 4 ++ marked closed)
        ∧ authParts (parts.1 ++ (parts.2.take 4 ++ marked closed))
          = (parts.1, parts.2.take 4 ++ marked closed) := by
  have last := fun front => getLast?_marked front closed
  delta authParts
  dsimp only
  cases bearer : stripAsciiPrefix (trimmed value) "bearer " with
  | some rest =>
      have strips : ∀ back, stripAsciiPrefix ("Bearer ".toList ++ back) "bearer " = some back := by
        intro back
        rw [stripAsciiPrefix, if_pos] <;> simp [eqIgnoreAsciiCase]
      refine ⟨trimmed_eq_self (by simp; decide) ?_, by rw [strips]⟩
      rw [← List.append_assoc]
      exact last _
  | none =>
      cases basic : stripAsciiPrefix (trimmed value) "basic " with
      | some rest =>
          have strips : ∀ back, stripAsciiPrefix ("Basic ".toList ++ back) "bearer " = none
              ∧ stripAsciiPrefix ("Basic ".toList ++ back) "basic " = some back := by
            intro back
            rw [stripAsciiPrefix, if_neg, stripAsciiPrefix, if_pos] <;> simp [eqIgnoreAsciiCase]
          refine ⟨trimmed_eq_self (by simp; decide) ?_, by rw [(strips _).1, (strips _).2]⟩
          rw [← List.append_assoc]
          exact last _
      | none =>
          have inside : ∀ n, 4 < n → '…' ∈ ((trimmed value).take 4 ++ marked closed).take n := by
            intro n many
            rw [List.take_append, marked_cases, List.cons_append, List.length_take]
            obtain ⟨k, rest⟩ : ∃ k, n - min 4 (trimmed value).length = k + 1 :=
              ⟨n - min 4 (trimmed value).length - 1, by omega⟩
            rw [rest]
            simp
          simp only [List.nil_append]
          refine ⟨trimmed_eq_self ?_ (last _), ?_⟩
          · intro c head
            refine @head_trimmed value c ?_
            cases shape : trimmed value with
            | nil => exact absurd shape (ne_nil_of_long long)
            | cons d rest => simpa [shape] using head
          · rw [stripAsciiPrefix_eq_none (inside _ (by decide)) (by decide),
              stripAsciiPrefix_eq_none (inside _ (by decide)) (by decide)]

theorem long_marked (long : 8 ≤ byteLen (trimmed value)) (closed : Bool)
    : 8 ≤ byteLen (trimmed (shown value ++ marked closed)) := by
  rw [shown, List.append_assoc, (authParts_marked long closed).1]
  refine le_trans ?_ (length_le_byteLen _)
  cases closed <;> simp [marked, mark] <;> omega

theorem shown_marked (long : 8 ≤ byteLen (trimmed value)) (closed : Bool)
    : shown (shown value ++ marked closed) = (authParts (trimmed value)).1
        ++ ((authParts (trimmed value)).2.take 4 ++ marked closed).take 4 := by
  obtain ⟨whole, parts⟩ := authParts_marked long closed
  rw [shown, shown, List.append_assoc, whole, parts]

/-- Four characters of a secret stay as they are, and fewer do not. -/
theorem shown_marked_eq_iff (long : 8 ≤ byteLen (trimmed value))
    : shown (shown value ++ mark) = shown value ↔ 4 ≤ (authParts (trimmed value)).2.length := by
  have parts := shown_marked long true
  rw [marked, if_pos rfl] at parts
  rw [parts, shown, List.append_cancel_left_eq]
  constructor
  · intro same
    have lengths := congrArg List.length same
    simp [mark] at lengths
    omega
  · intro enough
    rw [List.take_append_of_le_length (by simp [enough]), List.take_take, min_self]

/-! ## Where the value is -/

theorem splitOnce_char {text front back : List Char}
    : splitOnce [c] text = some (front, back) ↔ text = front ++ c :: back ∧ c ∉ front := by
  have around := @splitOnce_append c [] front back List.not_mem_nil
  rw [List.singleton_infix_iff] at around
  constructor
  · intro split
    obtain rfl := splitOnce_sound split
    exact ⟨rfl, around.mp split⟩
  · rintro ⟨rfl, absent⟩
    exact around.mpr absent

theorem splitOnce_char_eq_none {text : List Char} : splitOnce [c] text = none ↔ c ∉ text := by
  rw [splitOnce_eq_none (List.cons_ne_nil _ _), List.singleton_infix_iff]

/-- The text up to the first delimiter, and the rest. -/
structure Cut (front back : List Char) : Prop where
  plain : ∀ c ∈ front, isDelimiter c = false
  ends : ∀ c ∈ back.head?, isDelimiter c = true

theorem Cut.eq {front back : List Char} (cut : Cut front back)
    : (front ++ back).takeWhile (!isDelimiter ·) = front
      ∧ (front ++ back).dropWhile (!isDelimiter ·) = back := by
  have inside : ∀ c ∈ front, (!isDelimiter c) = true := by simpa using cut.plain
  rw [List.takeWhile_append_of_pos inside, List.dropWhile_append_of_pos inside]
  cases back with
  | nil => simp
  | cons c back => simp [cut.ends c rfl]

theorem exists_cut (text : List Char) : ∃ front back, text = front ++ back ∧ Cut front back := by
  refine ⟨text.takeWhile (!isDelimiter ·), text.dropWhile (!isDelimiter ·),
    List.takeWhile_append_dropWhile.symm, ?_, ?_⟩
  · intro c inside
    simpa using List.mem_takeWhile_imp inside
  · intro c head
    have stop := List.head?_dropWhile_not (!isDelimiter ·) text
    rw [Option.mem_def] at head
    simpa [head] using stop

theorem toLower_eq_self (apart : (isDelimiter c || isQuote c) = true) : c.toLower = c := by
  have small : ¬ ('A' ≤ c ∧ c ≤ 'Z') := by
    simp only [isDelimiter, isWhitespace, isQuote, Bool.or_eq_true, Bool.and_eq_true, beq_iff_eq,
      decide_eq_true_eq, Char.ext_iff, ← UInt32.toNat_inj] at apart
    rw [Char.le_def, Char.le_def, UInt32.le_iff_toNat_le, UInt32.le_iff_toNat_le]
    simp only [Char.toNat] at apart
    simp only [Char.reduceVal, UInt32.reduceToNat] at apart ⊢
    omega
  rw [Char.toLower, dif_neg]
  simpa [Char.le_def] using small

/-- The name of a scheme has no delimiter and no quote in it. -/
theorem scheme_plain {scheme : List Char}
    (known : (eqIgnoreAsciiCase scheme "bearer" || eqIgnoreAsciiCase scheme "basic") = true)
    : scheme ≠ [] ∧ ∀ c ∈ scheme, (isDelimiter c || isQuote c) = false := by
  simp only [eqIgnoreAsciiCase, Bool.or_eq_true, beq_iff_eq] at known
  have letters : (scheme.map Char.toLower).all (fun c => !(isDelimiter c || isQuote c)) = true := by
    rcases known with same | same <;> rw [same] <;> decide
  refine ⟨?_, fun c inside => ?_⟩
  · rintro rfl
    rcases known with same | same <;> cases same
  · by_contra apart
    rw [Bool.not_eq_false] at apart
    have lower := List.all_eq_true.mp letters c.toLower (List.mem_map_of_mem inside)
    rw [toLower_eq_self apart, apart] at lower
    cases lower

/-- The three ways in which a value is found. -/
inductive Located : List Char → List Char → List Char → Prop where
  | quoted {ws value after : List Char} {quote : Char} (space : ∀ c ∈ ws, isWhitespace c = true)
      (isQuote : isQuote quote = true) (inside : quote ∉ value)
      (ends : after = [] ∨ ∃ rest, after = quote :: rest)
      : Located (ws ++ [quote]) value after
  | scheme {ws scheme token after : List Char} (space : ∀ c ∈ ws, isWhitespace c = true)
      (known : (eqIgnoreAsciiCase scheme "bearer" || eqIgnoreAsciiCase scheme "basic") = true)
      (token_ne : token ≠ []) (cut : Cut token after)
      : Located ws (scheme ++ ' ' :: token) after
  | run {ws value after : List Char} (space : ∀ c ∈ ws, isWhitespace c = true)
      (bare : ∀ c ∈ (value ++ after).head?, isQuote c = false ∧ isWhitespace c = false)
      (some : value ++ after ≠ []) (unschemed : splitAuthSchemeValue (value ++ after) = none)
      (cut : Cut value after)
      : Located ws value after

theorem splitAuthSchemeValue_eq_some {text scheme token : List Char}
    : splitAuthSchemeValue text = some (scheme, token) ↔
      (eqIgnoreAsciiCase scheme "bearer" || eqIgnoreAsciiCase scheme "basic") = true ∧ token ≠ []
        ∧ ∃ after, text = scheme ++ ' ' :: (token ++ after) ∧ Cut token after := by
  simp only [splitAuthSchemeValue, Option.bind_eq_bind, Option.bind_eq_some_iff, Prod.exists,
    splitOnce_char]
  constructor
  · rintro ⟨front, rest, ⟨rfl, -⟩, found⟩
    obtain ⟨first, after, rfl, cut⟩ := exists_cut rest
    rw [cut.eq.1] at found
    split_ifs at found with unknown empty
    simp only [Option.some.injEq, Prod.mk.injEq] at found
    obtain ⟨rfl, rfl⟩ := found
    rw [Bool.not_eq_true', Bool.not_eq_false] at unknown
    exact ⟨unknown, by simpa using empty, after, rfl, cut⟩
  · rintro ⟨known, some, after, rfl, cut⟩
    refine ⟨scheme, token ++ after, ⟨rfl, fun space => ?_⟩, ?_⟩
    · have plain := (scheme_plain known).2 ' ' space
      revert plain
      decide
    · rw [known, cut.eq.1, if_neg (by simp), if_neg (by simpa using some)]

theorem locateValue_sound (found : locateValue fragment = some (before, value, after))
    : Located before value after ∧ fragment = before ++ value ++ after := by
  have space : ∀ c ∈ fragment.takeWhile isWhitespace, isWhitespace c = true :=
    fun c inside => List.mem_takeWhile_imp inside
  have whole := List.takeWhile_append_dropWhile (p := isWhitespace) (l := fragment)
  have visible := List.head?_dropWhile_not isWhitespace fragment
  unfold locateValue at found
  generalize fragment.takeWhile isWhitespace = ws at found space whole
  dsimp only at found
  split at found
  · cases found
  · next first rest shape =>
    rw [shape] at whole visible
    subst whole
    split_ifs at found with quoted
    · split at found
      · next split =>
        cases found
        obtain ⟨rfl, absent⟩ := splitOnce_char.mp split
        exact ⟨.quoted space quoted absent (.inr ⟨_, rfl⟩), by simp⟩
      · next split =>
        cases found
        exact ⟨.quoted space quoted (splitOnce_char_eq_none.mp split) (.inl rfl), by simp⟩
    · split at found
      · next scheme token auth =>
        obtain ⟨known, some, tail, text, cut⟩ := splitAuthSchemeValue_eq_some.mp auth
        have behind : (first :: rest).drop (scheme.length + 1 + token.length) = tail := by
          rw [text, Nat.add_assoc, List.drop_length_add_append, Nat.add_comm 1, List.drop_succ_cons,
            List.drop_left]
        rw [behind] at found
        cases found
        exact ⟨.scheme space known some cut, by rw [text]; simp⟩
      · next auth =>
        obtain ⟨front, back, text, cut⟩ := exists_cut (first :: rest)
        rw [text, cut.eq.1, cut.eq.2] at found
        cases found
        rw [text] at auth
        refine ⟨.run space ?_ (text ▸ List.cons_ne_nil _ _) auth cut, by rw [text, List.append_assoc]⟩
        rw [← text]
        rintro c ⟨⟩
        exact ⟨by simpa using quoted, by simpa using visible⟩

theorem Located.locateValue_eq (located : Located before value after)
    : locateValue (before ++ value ++ after) = some (before, value, after) := by
  have skip : ∀ {ws rest : List Char} {first : Char}, (∀ c ∈ ws, isWhitespace c = true)
      → isWhitespace first = false → (ws ++ first :: rest).takeWhile isWhitespace = ws
        ∧ (ws ++ first :: rest).dropWhile isWhitespace = first :: rest := by
    intro ws rest first space visible
    rw [List.takeWhile_append_of_pos space, List.dropWhile_append_of_pos space]
    simp [visible]
  cases located with
  | @quoted ws value after quote space isQuote inside ends =>
      have visible : isWhitespace quote = false := by
        simp only [Util.isQuote, Bool.or_eq_true, beq_iff_eq] at isQuote
        rcases isQuote with rfl | rfl <;> decide
      have text : ws ++ [quote] ++ value ++ after = ws ++ quote :: (value ++ after) := by simp
      unfold locateValue
      rw [text, (skip space visible).1, (skip space visible).2]
      dsimp only
      rw [if_pos isQuote]
      rcases ends with rfl | ⟨rest, rfl⟩
      · rw [List.append_nil, splitOnce_char_eq_none.mpr inside]
      · rw [splitOnce_char.mpr ⟨rfl, inside⟩]
  | @scheme _ scheme token _ space known token_ne cut =>
      obtain ⟨some, plain⟩ := scheme_plain known
      obtain ⟨first, rest, rfl⟩ := List.exists_cons_of_ne_nil some
      have bare := plain first (by simp)
      simp only [Bool.or_eq_false_iff] at bare
      have visible : isWhitespace first = false := by
        have apart := bare.1
        simp only [isDelimiter, Bool.or_eq_false_iff] at apart
        exact apart.1.1.1.1
      have text : before ++ (first :: rest ++ ' ' :: token) ++ after
          = before ++ first :: (rest ++ ' ' :: (token ++ after)) := by simp
      have auth : splitAuthSchemeValue (first :: (rest ++ ' ' :: (token ++ after)))
          = .some (first :: rest, token) :=
        splitAuthSchemeValue_eq_some.mpr ⟨known, token_ne, after, by simp, cut⟩
      unfold locateValue
      rw [text, (skip space visible).1, (skip space visible).2]
      dsimp only
      rw [if_neg (by simp [bare.2]), auth]
      dsimp only
      rw [← List.cons_append, Nat.add_assoc, List.drop_length_add_append, Nat.add_comm 1,
        List.drop_succ_cons, List.drop_left]
  | run space bare some unschemed cut =>
      obtain ⟨first, rest, shape⟩ := List.exists_cons_of_ne_nil some
      have bare := bare first (by simp [shape])
      unfold locateValue
      rw [List.append_assoc, shape, (skip space bare.2).1, (skip space bare.2).2]
      dsimp only
      rw [if_neg (by simp [bare.1]), ← shape, unschemed]
      dsimp only
      rw [cut.eq.1, cut.eq.2]

/-! ## Values without quotes -/

/-- The name of the scheme as it is shown. -/
def canonicalScheme (scheme : List Char) : List Char :=
  if eqIgnoreAsciiCase scheme "bearer" then "Bearer".toList else "Basic".toList

theorem canonicalScheme_known (scheme : List Char)
    : (eqIgnoreAsciiCase (canonicalScheme scheme) "bearer"
        || eqIgnoreAsciiCase (canonicalScheme scheme) "basic") = true := by
  unfold canonicalScheme
  split_ifs <;> decide

theorem isWhitespace_of_plain (plain : isDelimiter c = false) : isWhitespace c = false := by
  simp only [isDelimiter, Bool.or_eq_false_iff] at plain
  exact plain.1.1.1.1

theorem parts_scheme {scheme token : List Char}
    (known : (eqIgnoreAsciiCase scheme "bearer" || eqIgnoreAsciiCase scheme "basic") = true)
    (token_ne : token ≠ []) (cut : Cut token after)
    : trimmed (scheme ++ ' ' :: token) = scheme ++ ' ' :: token
      ∧ authParts (scheme ++ ' ' :: token) = (canonicalScheme scheme ++ [' '], token) := by
  obtain ⟨some, plain⟩ := scheme_plain known
  obtain ⟨first, rest, rfl⟩ := List.exists_cons_of_ne_nil some
  refine ⟨trimmed_eq_self ?_ ?_, ?_⟩
  · rintro c ⟨⟩
    have bare := plain first (by simp)
    exact isWhitespace_of_plain (Bool.or_eq_false_iff.mp bare).1
  · intro c last
    have inside : c ∈ token := by
      rw [List.getLast?_append, List.getLast?_cons, List.getLast?_eq_getLast_of_ne_nil token_ne] at last
      exact List.mem_of_mem_getLast? (by simpa [List.getLast?_eq_getLast_of_ne_nil token_ne] using last)
    exact isWhitespace_of_plain (cut.plain c inside)
  · have strips : ∀ {word : String}, eqIgnoreAsciiCase (first :: rest) word = true
        → stripAsciiPrefix (first :: rest ++ ' ' :: token) (word ++ " ") = .some token := by
      intro word same
      have length : (first :: rest).length = word.toList.length := by
        simpa [eqIgnoreAsciiCase] using congrArg List.length (beq_iff_eq.mp same)
      have width : (word ++ " ").toList.length = (first :: rest ++ [' ']).length := by
        simp only [String.toList_append, List.length_append, length]
        rfl
      have text : first :: rest ++ ' ' :: token = (first :: rest ++ [' ']) ++ token := by simp
      rw [stripAsciiPrefix, width, text, List.take_left, List.drop_left, if_pos]
      rw [eqIgnoreAsciiCase, beq_iff_eq] at same ⊢
      rw [List.map_append, same, String.toList_append, List.map_append]
      rfl
    delta authParts canonicalScheme
    cases bearer : eqIgnoreAsciiCase (first :: rest) "bearer" with
    | true =>
        rw [show "bearer " = "bearer" ++ " " from rfl, strips bearer]
        rfl
    | false =>
        rw [bearer, Bool.false_or] at known
        have other : stripAsciiPrefix (first :: rest ++ ' ' :: token) "bearer " = none := by
          rw [stripAsciiPrefix, if_neg]
          intro same
          simp only [eqIgnoreAsciiCase, beq_iff_eq] at known same
          obtain ⟨second, more, rfl⟩ : ∃ second more, rest = second :: more := by
            cases rest with
            | nil => simp at known
            | cons second more => exact ⟨second, more, rfl⟩
          simp at known same
          exact absurd (known.2.1.symm.trans same.2.1) (by decide)
        rw [other, show "basic " = "basic" ++ " " from rfl, strips known]
        rfl

theorem parts_run (cut : Cut value after)
    : trimmed value = value ∧ authParts value = ([], value) := by
  have visible : ∀ c ∈ value, isWhitespace c = false := fun c inside =>
    isWhitespace_of_plain (cut.plain c inside)
  have strips : ∀ {start : String}, ' ' ∈ start.toList.map Char.toLower
      → stripAsciiPrefix value start = none := by
    intro start space
    rw [stripAsciiPrefix, if_neg]
    intro same
    rw [← beq_iff_eq.mp same] at space
    obtain ⟨c, inside, lower⟩ := List.mem_map.mp space
    have blank : c = ' ' := by
      rw [Char.toLower] at lower
      split_ifs at lower with upper
      · have same : (c.val + ('a'.val - 'A'.val)).toNat = ' '.val.toNat :=
          congrArg (fun c : Char => c.val.toNat) lower
        have low := UInt32.le_iff_toNat_le.mp upper.1
        have high := UInt32.le_iff_toNat_le.mp upper.2
        simp [UInt32.toNat_add] at same low high
        omega
      · exact lower
    have plain := visible c (List.mem_of_mem_take inside)
    rw [blank] at plain
    cases plain
  refine ⟨trimmed_eq_self (fun c head => visible c (List.mem_of_mem_head? head))
    fun c last => visible c (List.mem_of_mem_getLast? last), ?_⟩
  delta authParts
  rw [strips (by decide), strips (by decide)]

/-! ## Scrubbing again -/

theorem marked_plain (closed : Bool)
    : ∀ c ∈ marked closed, isQuote c = false ∧ c ≠ ' ' ∧ (closed = false → isDelimiter c = false) := by
  have all : (marked closed).all (fun c => !isQuote c && c != ' ' && (closed || !isDelimiter c))
      = true := by
    cases closed <;> decide
  intro c inside
  have here := List.all_eq_true.mp all c inside
  cases closed <;> simp_all

/-- What a redacted value is made of. -/
theorem mem_shown (inside : c ∈ shown value ++ mark)
    : c ∈ value ∨ c ∈ "Bearer Basic…[REDACTED]".toList := by
  obtain ⟨scheme, secret⟩ := authParts_cases (trimmed value)
  rw [shown, List.mem_append, List.mem_append] at inside
  rcases inside with (inside | inside) | inside
  · have names : ("Bearer ".toList ++ "Basic ".toList).all
        ("Bearer Basic…[REDACTED]".toList.contains ·) = true := by decide
    have named : c ∈ "Bearer ".toList ++ "Basic ".toList := by
      rcases scheme with ⟨scheme, -⟩ | scheme | scheme <;> rw [scheme] at inside
      · cases inside
      · exact List.mem_append_left _ inside
      · exact List.mem_append_right _ inside
    exact .inr (List.contains_iff_mem.mp (List.all_eq_true.mp names c named))
  · exact .inl ((trimmed_sublist value).mem (secret.mem (List.mem_of_mem_take inside)))
  · exact .inr (List.mem_of_mem_drop (i := 12) inside)

/-- Whether the value stands behind a quote. -/
def Quoted (before : List Char) : Prop :=
  ∃ quote, isQuote quote = true ∧ before.getLast? = some quote

theorem not_quoted_of_space (space : ∀ c ∈ before, isWhitespace c = true) : ¬ Quoted before := by
  rintro ⟨quote, isQuote, last⟩
  have blank := space quote (List.mem_of_mem_getLast? last)
  simp only [Util.isQuote, Bool.or_eq_true, beq_iff_eq] at isQuote
  rcases isQuote with rfl | rfl <;> cases blank

theorem Cut.take_marked {front back : List Char} (cut : Cut front back) (after : List Char)
    : Cut (front.take 4 ++ marked false) (']' :: after) := by
  refine ⟨fun c inside => ?_, by rintro c ⟨⟩; decide⟩
  rcases List.mem_append.mp inside with inside | inside
  · exact cut.plain c (List.mem_of_mem_take inside)
  · exact (marked_plain false c inside).2.2 rfl

/-- Where the value of a scrubbed line is found. -/
theorem Located.again (located : Located before value after) (long : 8 ≤ byteLen (trimmed value))
    : (Quoted before ∧ Located before (shown value ++ mark) after)
      ∨ (¬ Quoted before ∧ Located before (shown value ++ marked false) (']' :: after)) := by
  cases located with
  | quoted space isQuote inside ends =>
      refine .inl ⟨⟨_, isQuote, by simp⟩, .quoted space isQuote (fun shows => ?_) ends⟩
      simp only [Util.isQuote, Bool.or_eq_true, beq_iff_eq] at isQuote
      rcases mem_shown shows with here | other
      · exact inside here
      · rcases isQuote with rfl | rfl <;> exact absurd other (by decide)
  | @scheme _ scheme token _ space known token_ne cut =>
      obtain ⟨whole, parts⟩ := parts_scheme known token_ne cut
      refine .inr ⟨not_quoted_of_space space, ?_⟩
      rw [shown, whole, parts, List.append_assoc, List.append_assoc]
      exact .scheme space (canonicalScheme_known scheme) (by simp [marked, mark])
        (cut.take_marked after)
  | run space bare some unschemed cut =>
      obtain ⟨whole, parts⟩ := parts_run cut
      refine .inr ⟨not_quoted_of_space space, ?_⟩
      rw [whole] at long
      rw [shown, whole, parts, List.nil_append]
      obtain ⟨first, rest, rfl⟩ := List.exists_cons_of_ne_nil (ne_nil_of_long long)
      refine .run space (by simpa using bare) (by simp) ?_ (cut.take_marked after)
      cases auth : splitAuthSchemeValue ((first :: rest).take 4 ++ marked false ++ ']' :: after) with
      | none => rfl
      | some found =>
          -- the scheme would have the first character of the mark in it
          obtain ⟨known, -, behind, text, -⟩ := splitAuthSchemeValue_eq_some.mp auth
          have noSpace : ' ' ∉ (first :: rest).take 4 ++ marked false := by
            intro inside
            rcases List.mem_append.mp inside with inside | inside
            · have plain := cut.plain ' ' (List.mem_of_mem_take inside)
              revert plain
              decide
            · exact (marked_plain false ' ' inside).2.1 rfl
          have begins := LongTerm.prefix_before_mark noSpace (text ▸ List.prefix_append _ _)
          have inside : '…' ∈ found.1 := begins.subset (by simp [marked, mark])
          simp only [eqIgnoreAsciiCase, Bool.or_eq_true, beq_iff_eq] at known
          have lower : '…' ∈ found.1.map Char.toLower := List.mem_map.mpr ⟨'…', inside, by decide⟩
          rcases known with same | same <;> rw [same] at lower <;> exact absurd lower (by decide)

/-- Nothing new before a slash: what is shown of a value begins as the value does. -/
theorem Located.head_shown (located : Located before value after)
    (long : 8 ≤ byteLen (trimmed value)) {tail : List Char}
    (slash : (before ++ (shown value ++ tail)).head? = some '/')
    : (before ++ value ++ after).head? = some '/' := by
  cases located with
  | @quoted ws => cases ws <;> simpa using slash
  | @scheme _ scheme token _ space known token_ne cut =>
      obtain ⟨whole, parts⟩ := parts_scheme known token_ne cut
      rw [shown, whole, parts] at slash
      cases before with
      | cons c rest => simpa using slash
      | nil =>
          revert slash
          delta canonicalScheme
          split_ifs <;> simp
  | run space bare some unschemed cut =>
      obtain ⟨whole, parts⟩ := parts_run cut
      rw [whole] at long
      rw [shown, whole, parts] at slash
      obtain ⟨first, rest, rfl⟩ := List.exists_cons_of_ne_nil (ne_nil_of_long long)
      cases before <;> simpa using slash

/-! ## Lines -/

/-- The separator stays where it is if no slash comes to stand behind it. -/
theorem findKvSeparator_take (found : findKvSeparator line = some pos) {behind : List Char}
    (slash : behind.head? = some '/' → (line.drop (pos + 1)).head? = some '/')
    : findKvSeparator (line.take (pos + 1) ++ behind) = some pos := by
  induction line generalizing pos with
  | nil => cases found
  | cons c rest ih =>
      rw [findKvSeparator] at found
      split_ifs at found with scheme here
      · obtain ⟨p, later, rfl⟩ := Option.map_eq_some_iff.mp found
        cases rest with
        | nil => cases later
        | cons d rest =>
            have again := ih later slash
            simp only [List.take_succ_cons, List.cons_append] at again ⊢
            rw [findKvSeparator, if_pos (by simpa using scheme), again, Option.map_some]
      · cases found
        have other : ¬ (c == ':' && behind.head? == some '/') = true := by
          simp only [Bool.and_eq_true, beq_iff_eq, not_and] at scheme ⊢
          exact fun colon same => scheme colon (slash same)
        rw [List.take_succ_cons, List.take_zero, List.cons_append, List.nil_append, findKvSeparator,
          if_neg other, if_pos here]
      · obtain ⟨p, later, rfl⟩ := Option.map_eq_some_iff.mp found
        have other : ¬ (c == ':' && (rest.take (p + 1) ++ behind).head? == some '/') = true := by
          simp only [Bool.or_eq_true, not_or] at here
          simp [here.2]
        rw [List.take_succ_cons, List.cons_append, findKvSeparator, if_neg other, if_neg here,
          ih later slash, Option.map_some]

theorem redactValueFragment_eq_some {out : List Char}
    : redactValueFragment fragment = some out ↔ ∃ before value after, Located before value after
        ∧ fragment = before ++ value ++ after ∧ 8 ≤ byteLen (trimmed value)
        ∧ out = before ++ (shown value ++ mark) ++ after := by
  simp only [redactValueFragment, Option.bind_eq_bind, Option.bind_eq_some_iff, Prod.exists,
    Option.some.injEq, redactSecretValue_eq_some]
  constructor
  · rintro ⟨before, value, after, found, -, ⟨long, rfl⟩, rfl⟩
    obtain ⟨located, whole⟩ := locateValue_sound found
    exact ⟨before, value, after, located, whole, long, rfl⟩
  · rintro ⟨before, value, after, located, rfl, long, rfl⟩
    exact ⟨before, value, after, located.locateValue_eq, _, ⟨long, rfl⟩, rfl⟩

/-- A line with a sensitive key at the separator. -/
structure Sensitive (line : List Char) (pos : Nat) : Prop where
  found : findKvSeparator line = some pos
  key : isSensitiveKey (line.take pos) = true

theorem scrubLine_of_sensitive (sensitive : Sensitive line pos)
    : scrubLine line = match redactValueFragment (line.drop (pos + 1)) with
      | some redacted => line.take (pos + 1) ++ redacted
      | none => line := by
  simp [scrubLine, lineHasSensitiveKv, scrubKvLine, sensitive.found, sensitive.key]

theorem scrubLine_of_not_sensitive (not : ∀ pos, ¬ Sensitive line pos) : scrubLine line = line := by
  rw [scrubLine, if_neg]
  intro has
  rw [lineHasSensitiveKv, Option.any_eq_true] at has
  obtain ⟨pos, found, key⟩ := has
  exact not pos ⟨found, key⟩

/-- The line with the value of its sensitive key redacted, if it is. -/
theorem scrubLine_of_located (sensitive : Sensitive line pos) (located : Located before value after)
    (whole : line.drop (pos + 1) = before ++ value ++ after)
    : scrubLine line = if 8 ≤ byteLen (trimmed value) then
        line.take (pos + 1) ++ (before ++ (shown value ++ mark) ++ after)
      else line := by
  rw [scrubLine_of_sensitive sensitive]
  split_ifs with long
  · rw [redactValueFragment_eq_some.mpr ⟨before, value, after, located, whole, long, rfl⟩]
  · cases redacted : redactValueFragment (line.drop (pos + 1)) with
    | none => rfl
    | some out =>
        obtain ⟨b, v, a, other, again, enough, -⟩ := redactValueFragment_eq_some.mp redacted
        have same := other.locateValue_eq
        rw [← again, whole, located.locateValue_eq] at same
        cases same
        exact absurd enough long

/-- Every value of the line that is redacted stands in quotes, and its secret has at least four
characters.
-/
def Stable (line : List Char) : Prop :=
  ∀ pos before value after, Sensitive line pos → locateValue (line.drop (pos + 1))
      = some (before, value, after) → 8 ≤ byteLen (trimmed value)
    → Quoted before ∧ 4 ≤ (authParts (trimmed value)).2.length

theorem findKvSeparator_lt (found : findKvSeparator line = some pos) : pos < line.length := by
  induction line generalizing pos with
  | nil => cases found
  | cons c rest ih =>
      rw [findKvSeparator] at found
      split_ifs at found
      · obtain ⟨p, later, rfl⟩ := Option.map_eq_some_iff.mp found
        exact Nat.succ_lt_succ (ih later)
      · cases found
        exact Nat.succ_pos _
      · obtain ⟨p, later, rfl⟩ := Option.map_eq_some_iff.mp found
        exact Nat.succ_lt_succ (ih later)

/-- A line whose value is redacted, scrubbed. -/
theorem rescrubbed (sensitive : Sensitive line pos) {redacted : List Char}
    (again : Located before redacted after) (long : 8 ≤ byteLen (trimmed redacted))
    (slash : (before ++ redacted ++ after).head? = some '/' → (line.drop (pos + 1)).head? = some '/')
    : scrubLine (line.take (pos + 1) ++ (before ++ redacted ++ after))
      = line.take (pos + 1) ++ (before ++ (shown redacted ++ mark) ++ after) := by
  have width : (line.take (pos + 1)).length = pos + 1 := by
    have inside := findKvSeparator_lt sensitive.found
    rw [List.length_take]
    omega
  have key : ∀ behind, (line.take (pos + 1) ++ behind).take pos = line.take pos := by
    intro behind
    rw [List.take_append_of_le_length (by omega), List.take_take, min_eq_left (Nat.le_succ pos)]
  have same : Sensitive (line.take (pos + 1) ++ (before ++ redacted ++ after)) pos :=
    ⟨findKvSeparator_take sensitive.found slash, by rw [key]; exact sensitive.key⟩
  rw [scrubLine_of_located same again (List.drop_left' width), if_pos long, List.take_left' width]

theorem scrubLine_idempotent_iff (line : List Char)
    : scrubLine (scrubLine line) = scrubLine line ↔ Stable line := by
  by_cases some : ∃ pos before value after, Sensitive line pos
      ∧ locateValue (line.drop (pos + 1)) = some (before, value, after)
      ∧ 8 ≤ byteLen (trimmed value)
  · obtain ⟨pos, before, value, after, sensitive, found, long⟩ := some
    obtain ⟨located, whole⟩ := locateValue_sound found
    have stable : Stable line ↔ Quoted before ∧ 4 ≤ (authParts (trimmed value)).2.length := by
      constructor
      · exact fun all => all pos before value after sensitive found long
      · intro here p b v a other again enough
        cases other.found.symm.trans sensitive.found
        cases again.symm.trans found
        exact here
    have once := scrubLine_of_located sensitive located whole
    rw [if_pos long] at once
    rw [stable, once]
    have slash : ∀ tail, (before ++ (shown value ++ tail)).head? = some '/'
        → (line.drop (pos + 1)).head? = some '/' := by
      intro tail head
      rw [whole]
      exact located.head_shown long head
    rcases located.again long with ⟨quoted, again⟩ | ⟨bare, again⟩
    · rw [rescrubbed sensitive again (long_marked long true)
        (by simpa only [List.append_assoc] using slash (mark ++ after))]
      simp only [List.append_cancel_left_eq, List.append_cancel_right_eq, quoted, true_and]
      exact shown_marked_eq_iff long
    · refine iff_of_false (fun same => ?_) fun both => bare both.1
      have text : before ++ (shown value ++ mark) ++ after
          = before ++ (shown value ++ marked false) ++ ']' :: after := by
        simp [show mark = marked false ++ [']'] from rfl]
      rw [text, rescrubbed sensitive again (long_marked long false)
        (by simpa only [List.append_assoc] using slash (marked false ++ ']' :: after)),
        shown_marked long] at same
      have lengths := congrArg List.length same
      simp [shown, marked, mark] at lengths
      omega
  · have same : scrubLine line = line := by
      by_cases sensitive : ∃ pos, Sensitive line pos
      · obtain ⟨pos, sensitive⟩ := sensitive
        rw [scrubLine_of_sensitive sensitive]
        cases redacted : redactValueFragment (line.drop (pos + 1)) with
        | none => rfl
        | some out =>
            obtain ⟨before, value, after, located, whole, long, -⟩ :=
              redactValueFragment_eq_some.mp redacted
            exact absurd ⟨pos, before, value, after, sensitive, whole ▸ located.locateValue_eq, long⟩
              some
      · exact scrubLine_of_not_sensitive (not_exists.mp sensitive)
    rw [same, same]
    refine iff_of_true rfl ?_
    intro pos before value after sensitive found long
    exact absurd ⟨pos, before, value, after, sensitive, found, long⟩ some

/-! ## Texts -/

theorem notMem_of_mem_splitOn {text part : List Char} (listed : part ∈ text.splitOn c) : c ∉ part := by
  induction text generalizing part with
  | nil =>
      rw [List.splitOn_nil, List.mem_singleton] at listed
      simp [listed]
  | cons d rest ih =>
      obtain ⟨first, more, shape⟩ := List.exists_cons_of_ne_nil (List.splitOn_ne_nil c rest)
      rw [List.splitOn_cons_eq_if_modifyHead, shape] at listed
      rw [shape] at ih
      split_ifs at listed with same
      · rcases List.mem_cons.mp listed with rfl | later
        · exact List.not_mem_nil
        · exact ih later
      · rw [List.modifyHead_cons] at listed
        rcases List.mem_cons.mp listed with rfl | later
        · rw [List.mem_cons, not_or]
          exact ⟨fun eq => same (beq_iff_eq.mpr eq.symm), ih List.mem_cons_self⟩
        · exact ih (List.mem_cons_of_mem _ later)

theorem newline_notMem_scrubLine (oneLine : '\n' ∉ line) : '\n' ∉ scrubLine line := by
  by_cases sensitive : ∃ pos, Sensitive line pos
  · obtain ⟨pos, sensitive⟩ := sensitive
    rw [scrubLine_of_sensitive sensitive]
    cases redacted : redactValueFragment (line.drop (pos + 1)) with
    | none => exact oneLine
    | some out =>
        obtain ⟨before, value, after, -, whole, -, rfl⟩ := redactValueFragment_eq_some.mp redacted
        have kept : '\n' ∉ before ++ value ++ after :=
          whole ▸ fun inside => oneLine (List.mem_of_mem_drop inside)
        simp only [List.mem_append, not_or] at kept
        intro inside
        simp only [List.mem_append] at inside
        rcases inside with inside | (inside | inside) | inside
        · exact oneLine (List.mem_of_mem_take inside)
        · exact kept.1.1 inside
        · rcases mem_shown (List.mem_append.mpr inside) with here | other
          · exact kept.1.2 here
          · exact absurd other (by decide)
        · exact kept.2 inside
  · rw [scrubLine_of_not_sensitive (not_exists.mp sensitive)]
    exact oneLine

/-- The lines of a scrubbed text are the scrubbed lines of the text. -/
theorem linesOf_scrubCredentials (text : String)
    : linesOf (scrubCredentials text) = (linesOf text).map scrubLine := by
  have whole : scrubCredentials text
      = String.ofList (['\n'].intercalate ((linesOf text).map scrubLine)) := by
    rw [scrubCredentials]
    split_ifs with empty
    · rw [String.isEmpty_iff.mp empty]
      decide
    · rfl
  rw [whole, linesOf, String.toList_ofList, List.splitOn_intercalate]
  · intro line listed
    obtain ⟨line, inside, rfl⟩ := List.mem_map.mp listed
    exact newline_notMem_scrubLine (notMem_of_mem_splitOn inside)
  · simp [linesOf]

theorem linesOf_injective : Function.Injective linesOf := by
  intro a b same
  have join := congrArg ['\n'].intercalate same
  rw [linesOf, linesOf, List.intercalate_splitOn, List.intercalate_splitOn] at join
  exact String.toList_inj.mp join

/-- Scrubbing a scrubbed text changes nothing exactly if every value that was redacted stands in
quotes and its secret has at least four characters.
-/
theorem scrubCredentials_idempotent_iff (text : String)
    : (scrubCredentials (scrubCredentials text) = scrubCredentials text
        ↔ ∀ line ∈ linesOf text, Stable line)
      ∧ (contentContainsSensitiveMaterial (scrubCredentials text) = false
        ↔ ∀ line ∈ linesOf text, Stable line) := by
  have projection : scrubCredentials (scrubCredentials text) = scrubCredentials text
      ↔ ∀ line ∈ linesOf text, Stable line := by
    rw [← linesOf_injective.eq_iff, linesOf_scrubCredentials, linesOf_scrubCredentials, List.map_map,
      List.map_inj_left]
    simp only [Function.comp_apply, scrubLine_idempotent_iff]
  refine ⟨projection, ?_⟩
  rw [contentContainsSensitiveMaterial, bne_eq_false_iff_eq]
  exact projection

/-- Every further scrubbing adds a bracket. -/
theorem bracket_added
    : scrubCredentials "token=abcdefgh" = "token=abcd…[REDACTED]"
      ∧ scrubCredentials "token=abcd…[REDACTED]" = "token=abcd…[REDACTED]]"
      ∧ contentContainsSensitiveMaterial (scrubCredentials "token=abcdefgh") = true := by
  decide +kernel

end BeetleMemory.Util
