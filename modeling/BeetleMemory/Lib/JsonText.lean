import Mathlib

/-! JSON texts: values with natural numbers, a writer with a compact and an indented layout,
and a reader that gets every value back from the text written for it.
-/

namespace JsonText

inductive Json where
  | null
  | bool (value : Bool)
  | number (value : Nat)
  | string (value : String)
  | array (items : List Json)
  | object (members : List (String × Json))

/-- Induction over the values inside a value. -/
@[induction_eliminator]
theorem Json.nested {P : Json → Prop} (null : P .null) (bool : ∀ value, P (.bool value))
    (number : ∀ value, P (.number value)) (string : ∀ value, P (.string value))
    (array : ∀ items, (∀ item ∈ items, P item) → P (.array items))
    (object : ∀ members, (∀ m ∈ members, P m.2) → P (.object members))
    : ∀ json, P json
  | .null => null
  | .bool value => bool value
  | .number value => number value
  | .string value => string value
  | .array items =>
      array items fun item _ => nested null bool number string array object item
  | .object members =>
      object members fun m _ => nested null bool number string array object m.2
termination_by json => json
decreasing_by
  · have := List.sizeOf_lt_of_mem ‹item ∈ items›
    grind [Json.array.sizeOf_spec]
  · have inner := List.sizeOf_lt_of_mem ‹m ∈ members›
    obtain ⟨key, value⟩ := m
    simp only [Prod.mk.sizeOf_spec, Json.object.sizeOf_spec] at inner ⊢
    omega

/-! ## Writing -/

def isBlank (c : Char) : Bool :=
  c = ' ' ∨ c = '\n'

/-- The blanks a writer puts before each element, before a closing bracket and after a
colon.
-/
structure Layout where
  newline : Nat → List Char
  gap : List Char
  newline_blank : ∀ depth, (newline depth).all isBlank
  gap_blank : gap.all isBlank

/-- No blanks at all. -/
def Layout.compact : Layout where
  newline _ := []
  gap := []
  newline_blank _ := rfl
  gap_blank := rfl

/-- One element a line, indented by two for each level. -/
def Layout.pretty : Layout where
  newline depth := '\n' :: List.replicate (2 * depth) ' '
  gap := [' ']
  newline_blank depth := by simp [isBlank]
  gap_blank := by decide

def hexDigit (value : Nat) : Char :=
  if value < 10 then Char.ofNat (48 + value) else Char.ofNat (87 + value)

/-- A character inside a quoted text. -/
def escape (c : Char) : List Char :=
  if c = '"' then ['\\', '"']
  else if c = '\\' then ['\\', '\\']
  else if c.toNat = 0x08 then ['\\', 'b']
  else if c.toNat = 0x09 then ['\\', 't']
  else if c.toNat = 0x0A then ['\\', 'n']
  else if c.toNat = 0x0C then ['\\', 'f']
  else if c.toNat = 0x0D then ['\\', 'r']
  else if c.toNat < 0x20 then
    ['\\', 'u', '0', '0', hexDigit (c.toNat / 16), hexDigit (c.toNat % 16)]
  else [c]

def quoted (text : String) : List Char :=
  '"' :: (text.toList.flatMap escape ++ ['"'])

/-- Texts of elements between brackets. -/
def bracketed (layout : Layout) (depth : Nat) (opening closing : Char)
    : List (List Char) → List Char
  | [] => [opening, closing]
  | first :: rest =>
      opening :: (layout.newline (depth + 1) ++ first
        ++ rest.flatMap (fun text => ',' :: (layout.newline (depth + 1) ++ text))
        ++ layout.newline depth ++ [closing])

mutual

def write (layout : Layout) (depth : Nat) : Json → List Char
  | .null => ['n', 'u', 'l', 'l']
  | .bool true => ['t', 'r', 'u', 'e']
  | .bool false => ['f', 'a', 'l', 's', 'e']
  | .number value => Nat.toDigits 10 value
  | .string value => quoted value
  | .array items => bracketed layout depth '[' ']' (itemTexts layout (depth + 1) items)
  | .object members =>
      bracketed layout depth '{' '}' (memberTexts layout (depth + 1) members)

def itemTexts (layout : Layout) (depth : Nat) : List Json → List (List Char)
  | [] => []
  | item :: rest => write layout depth item :: itemTexts layout depth rest

def memberTexts (layout : Layout) (depth : Nat) : List (String × Json) → List (List Char)
  | [] => []
  | (key, value) :: rest =>
      (quoted key ++ ':' :: (layout.gap ++ write layout depth value))
        :: memberTexts layout depth rest

end

def writeMember (layout : Layout) (depth : Nat) (m : String × Json) : List Char :=
  quoted m.1 ++ ':' :: (layout.gap ++ write layout depth m.2)

theorem itemTexts_eq_map (layout : Layout) (depth : Nat) (items : List Json)
    : itemTexts layout depth items = items.map (write layout depth) := by
  induction items with
  | nil => rfl
  | cons item rest ih => rw [itemTexts, ih, List.map_cons]

theorem memberTexts_eq_map (layout : Layout) (depth : Nat) (members : List (String × Json))
    : memberTexts layout depth members = members.map (writeMember layout depth) := by
  induction members with
  | nil => rfl
  | cons m rest ih => rw [memberTexts, ih, List.map_cons, writeMember]

/-- There are fewer elements than characters. -/
theorem length_texts_lt_bracketed (layout : Layout) (depth : Nat) (opening closing : Char)
    (texts : List (List Char))
    : texts.length < (bracketed layout depth opening closing texts).length := by
  cases texts with
  | nil => simp [bracketed]
  | cons first rest =>
      have each : rest.length
          ≤ (rest.flatMap fun text => ',' :: (layout.newline (depth + 1) ++ text)).length := by
        induction rest with
        | nil => simp
        | cons text rest ih =>
            simp only [List.flatMap_cons, List.length_append, List.length_cons]
            omega
      simp only [bracketed, List.length_cons, List.length_append]
      omega

/-- Every element's text is shorter than the bracketed text. -/
theorem length_lt_bracketed (layout : Layout) (depth : Nat) (opening closing : Char)
    {texts : List (List Char)} {text : List Char} (member : text ∈ texts)
    : text.length < (bracketed layout depth opening closing texts).length := by
  cases texts with
  | nil => cases member
  | cons first rest =>
      simp only [bracketed, List.length_cons, List.length_append, List.length_flatMap]
      rcases List.mem_cons.mp member with rfl | member
      · omega
      · have := List.single_le_sum (by simp) _
          (List.mem_map_of_mem (f := fun text : List Char =>
            (',' :: (layout.newline (depth + 1) ++ text)).length) member)
        simp only [List.length_cons, List.length_append] at this
        omega

/-! ## Reading -/

def skipBlank : List Char → List Char
  | [] => []
  | c :: rest => if isBlank c then skipBlank rest else c :: rest

def hexValue (c : Char) : Nat :=
  if c.toNat < 97 then c.toNat - 48 else c.toNat - 87

/-- The character a letter after a backslash stands for. -/
def unescape (c : Char) : Char :=
  if c = 'b' then Char.ofNat 0x08
  else if c = 't' then Char.ofNat 0x09
  else if c = 'n' then Char.ofNat 0x0A
  else if c = 'f' then Char.ofNat 0x0C
  else if c = 'r' then Char.ofNat 0x0D
  else c

/-- A quoted text from behind its first quote, and what follows it. -/
def readQuoted : List Char → Option (List Char × List Char)
  | [] => none
  | '"' :: rest => some ([], rest)
  | '\\' :: 'u' :: _ :: _ :: high :: low :: rest =>
      (readQuoted rest).map fun (text, rest) =>
        (Char.ofNat (16 * hexValue high + hexValue low) :: text, rest)
  | '\\' :: c :: rest =>
      (readQuoted rest).map fun (text, rest) => (unescape c :: text, rest)
  | c :: rest => (readQuoted rest).map fun (text, rest) => (c :: text, rest)

section Elements

variable {α : Type} (readElement : List Char → Option (α × List Char)) (closing : Char)

/-- What follows an element: a closing bracket, or a comma and more. -/
def readMore : Nat → List Char → Option (List α × List Char)
  | 0, _ => none
  | fuel + 1, text =>
      match skipBlank text with
      | [] => none
      | c :: rest =>
          if c = closing then some ([], rest)
          else if c = ',' then
            (readElement (skipBlank rest)).bind fun (element, rest) =>
              (readMore fuel rest).map fun (elements, rest) => (element :: elements, rest)
          else none

/-- Elements from behind the opening bracket. -/
def readElements (fuel : Nat) (text : List Char) : Option (List α × List Char) :=
  match skipBlank text with
  | [] => none
  | c :: rest =>
      if c = closing then some ([], rest)
      else
        (readElement (c :: rest)).bind fun (element, rest) =>
          (readMore readElement closing fuel rest).map fun (elements, rest) =>
            (element :: elements, rest)

end Elements

/-- A member of an object. -/
def readMember (readValue : List Char → Option (Json × List Char))
    : List Char → Option ((String × Json) × List Char)
  | '"' :: rest =>
      (readQuoted rest).bind fun (key, rest) =>
        match rest with
        | ':' :: rest =>
            (readValue (skipBlank rest)).map fun (value, rest) =>
              ((String.ofList key, value), rest)
        | _ => none
  | _ => none

def readLiteral (literal : List Char) (value : Json) (text : List Char)
    : Option (Json × List Char) :=
  if literal.isPrefixOf text then some (value, text.drop literal.length) else none

/-- A value and what follows it. The fuel bounds nesting and the number of elements. -/
def readValue : Nat → List Char → Option (Json × List Char)
  | 0, _ => none
  | _ + 1, [] => none
  | fuel + 1, c :: rest =>
      if c = '"' then (readQuoted rest).map fun (text, rest) => (.string (.ofList text), rest)
      else if c = '[' then
        (readElements (readValue fuel) ']' fuel rest).map fun (items, rest) =>
          (.array items, rest)
      else if c = '{' then
        (readElements (readMember (readValue fuel)) '}' fuel rest).map fun (members, rest) =>
          (.object members, rest)
      else if c.isDigit then
        some (.number (Nat.ofDigitChars 10 ((c :: rest).takeWhile Char.isDigit) 0),
          (c :: rest).dropWhile Char.isDigit)
      else if c = 'n' then readLiteral ['u', 'l', 'l'] .null rest
      else if c = 't' then readLiteral ['r', 'u', 'e'] (.bool true) rest
      else if c = 'f' then readLiteral ['a', 'l', 's', 'e'] (.bool false) rest
      else none

/-! ## Reading undoes writing -/

theorem skipBlank_append {blanks : List Char} (blank : blanks.all isBlank) {c : Char}
    (visible : isBlank c = false) (rest : List Char)
    : skipBlank (blanks ++ c :: rest) = c :: rest := by
  induction blanks with
  | nil => simp [skipBlank, visible]
  | cons b blanks ih =>
      simp only [List.all_cons, Bool.and_eq_true] at blank
      rw [List.cons_append, skipBlank, if_pos blank.1, ih blank.2]

theorem hexValue_hexDigit : ∀ value < 16, hexValue (hexDigit value) = value := by
  decide

theorem readQuoted_escape (c : Char) (rest : List Char)
    : readQuoted (escape c ++ rest)
      = (readQuoted rest).map fun (text, rest) => (c :: text, rest) := by
  have ofToNat : ∀ n, c.toNat = n → Char.ofNat n = c := by
    rintro n rfl
    exact Char.ofNat_toNat c
  unfold escape
  split_ifs with quote backslash b t n f r control
  · simp [readQuoted, quote, unescape]
  · simp [readQuoted, backslash, unescape]
  · obtain rfl := ofToNat _ b
    simp [readQuoted, unescape]
  · obtain rfl := ofToNat _ t
    simp [readQuoted, unescape]
  · obtain rfl := ofToNat _ n
    simp [readQuoted, unescape]
  · obtain rfl := ofToNat _ f
    simp [readQuoted, unescape]
  · obtain rfl := ofToNat _ r
    simp [readQuoted, unescape]
  · have high := hexValue_hexDigit (c.toNat / 16) (by omega)
    have low := hexValue_hexDigit (c.toNat % 16) (by omega)
    simp [readQuoted, high, low, Nat.div_add_mod, Char.ofNat_toNat]
  · rw [List.singleton_append, readQuoted.eq_def]
    grind

theorem readQuoted_quoted (text rest : List Char)
    : readQuoted (text.flatMap escape ++ '"' :: rest) = some (text, rest) := by
  induction text with
  | nil => simp [readQuoted]
  | cons c text ih =>
      rw [List.flatMap_cons, List.append_assoc, readQuoted_escape, ih, Option.map_some]

/-- What follows does not continue a number. -/
def Delimited (rest : List Char) : Prop :=
  ∀ c ∈ rest.head?, c.isDigit = false

theorem delimited_append {blanks : List Char} (blank : blanks.all isBlank) {c : Char}
    (delimiter : c.isDigit = false) (rest : List Char)
    : Delimited (blanks ++ c :: rest) := by
  cases blanks with
  | nil => simpa [Delimited] using delimiter
  | cons b blanks =>
      simp only [List.all_cons, Bool.and_eq_true, isBlank, decide_eq_true_eq] at blank
      rcases blank.1 with rfl | rfl <;> simp [Delimited]

/-- A text that an element reader can be asked to read. -/
def Starts (closing : Char) (text : List Char) : Prop :=
  ∃ c rest, text = c :: rest ∧ isBlank c = false ∧ c ≠ closing

section Elements

variable {α : Type} {readElement : List Char → Option (α × List Char)} {print : α → List Char}
  {closing : Char}

/-- The reader gets an element back from its text. -/
def ReadsBack (readElement : List Char → Option (α × List Char)) (print : α → List Char)
    (element : α)
    : Prop :=
  ∀ rest, Delimited rest → readElement (print element ++ rest) = some (element, rest)

/-- The brackets that close arrays and objects. -/
structure Closes (closing : Char) : Prop where
  visible : isBlank closing = false
  delimiter : closing.isDigit = false
  notComma : ',' ≠ closing

theorem readMore_write (layout : Layout) (depth : Nat) (closes : Closes closing)
    {elements : List α}
    (reads : ∀ e ∈ elements, ReadsBack readElement print e)
    (starts : ∀ e ∈ elements, Starts closing (print e)) {fuel : Nat}
    (enough : elements.length < fuel) (rest : List Char)
    : readMore readElement closing fuel
        (elements.flatMap (fun e => ',' :: (layout.newline (depth + 1) ++ print e))
          ++ (layout.newline depth ++ closing :: rest))
      = some (elements, rest)
      ∧ Delimited
        (elements.flatMap (fun e => ',' :: (layout.newline (depth + 1) ++ print e))
          ++ (layout.newline depth ++ closing :: rest)) := by
  induction elements generalizing fuel with
  | nil =>
      refine ⟨?_, delimited_append (layout.newline_blank depth) closes.delimiter rest⟩
      cases fuel with
      | zero => simp at enough
      | succ fuel =>
          simp [readMore, skipBlank_append (layout.newline_blank depth) closes.visible]
  | cons e elements ih =>
      refine ⟨?_, by simp [Delimited]⟩
      cases fuel with
      | zero => simp at enough
      | succ fuel =>
          obtain ⟨more, delimited⟩ := ih (fun e h => reads e (by simp [h]))
            (fun e h => starts e (by simp [h])) (by simpa using enough)
          obtain ⟨c, tail, text, visible, -⟩ := starts e (by simp)
          have element := reads e (by simp) _ delimited
          rw [text, List.cons_append] at element
          have comma : ∀ text, skipBlank (',' :: text) = ',' :: text := fun _ => rfl
          simp only [readMore, List.flatMap_cons, text, List.cons_append, List.append_assoc,
            comma, if_neg closes.notComma,
            skipBlank_append (layout.newline_blank _) visible, element]
          simp [more]

/-- The elements of a bracketed text are read back, given enough fuel. -/
theorem readElements_bracketed (layout : Layout) (depth : Nat) (closes : Closes closing)
    {elements : List α} (opening : Char)
    (reads : ∀ e ∈ elements, ReadsBack readElement print e)
    (starts : ∀ e ∈ elements, Starts closing (print e)) {fuel : Nat}
    (enough : elements.length ≤ fuel) (rest : List Char)
    : ∃ text, bracketed layout depth opening closing (elements.map print) ++ rest
        = opening :: text
      ∧ readElements readElement closing fuel text = some (elements, rest) := by
  cases elements with
  | nil =>
      refine ⟨closing :: rest, rfl, ?_⟩
      simp [readElements, skipBlank, closes.visible]
  | cons e elements =>
      obtain ⟨c, tail, text, visible, notClosing⟩ := starts e (by simp)
      obtain ⟨more, delimited⟩ := readMore_write layout depth closes
        (fun e h => reads e (List.mem_cons_of_mem _ h))
        (fun e h => starts e (List.mem_cons_of_mem _ h)) (by simpa using enough) rest
      have element := reads e (by simp) _ delimited
      rw [text, List.cons_append] at element
      refine ⟨layout.newline (depth + 1) ++ c :: (tail
        ++ (elements.flatMap (fun e => ',' :: (layout.newline (depth + 1) ++ print e))
          ++ (layout.newline depth ++ closing :: rest))), ?_, ?_⟩
      · simp [bracketed, text, List.flatMap_map]
      · rw [readElements, skipBlank_append (layout.newline_blank _) visible]
        simp [notClosing, element, more]

end Elements

theorem write_starts (layout : Layout) (depth : Nat) (json : Json)
    : Starts ']' (write layout depth json) := by
  have bracket : ∀ opening closing texts, isBlank opening = false → opening ≠ ']'
      → Starts ']' (bracketed layout depth opening closing texts) := by
    intro opening closing texts visible notClosing
    cases texts <;> exact ⟨_, _, rfl, visible, notClosing⟩
  cases json with
  | null => exact ⟨_, _, rfl, by decide, by decide⟩
  | bool value => cases value <;> exact ⟨_, _, rfl, by decide, by decide⟩
  | number value =>
      obtain ⟨c, rest, digits⟩ :=
        List.exists_cons_of_ne_nil (Nat.toDigits_ne_nil (n := value) (b := 10))
      have digit : c.isDigit :=
        Nat.isDigit_of_mem_toDigits (by omega) (by omega) (digits ▸ List.mem_cons_self)
      refine ⟨c, rest, by rw [write, digits], ?_, ?_⟩
      · simp only [isBlank, decide_eq_false_iff_not]
        rintro (rfl | rfl) <;> simp at digit
      · rintro rfl
        simp at digit
  | string value => exact ⟨_, _, rfl, by decide, by decide⟩
  | array items => exact bracket _ _ _ (by decide) (by decide)
  | object members => exact bracket _ _ _ (by decide) (by decide)

theorem takeWhile_isDigit_append {digits rest : List Char}
    (all : ∀ c ∈ digits, c.isDigit) (delimited : Delimited rest)
    : (digits ++ rest).takeWhile Char.isDigit = digits
      ∧ (digits ++ rest).dropWhile Char.isDigit = rest := by
  rw [List.takeWhile_append_of_pos all, List.dropWhile_append_of_pos all]
  cases rest with
  | nil => simp
  | cons c rest => simp [delimited c rfl]

theorem exists_fuel {layout : Layout} {depth fuel : Nat} {json : Json}
    (enough : (write layout depth json).length ≤ fuel)
    : ∃ n, fuel = n + 1 := by
  obtain ⟨c, tail, text, -⟩ := write_starts layout depth json
  rw [text, List.length_cons] at enough
  exact ⟨fuel - 1, by omega⟩

theorem closes_bracket : Closes ']' :=
  ⟨by decide, by decide, by decide⟩

theorem closes_brace : Closes '}' :=
  ⟨by decide, by decide, by decide⟩

/-- Reading what was written, by induction over the value; the text's own length is enough
fuel.
-/
theorem readValue_write (layout : Layout) (json : Json) {depth fuel : Nat} {rest : List Char}
    (enough : (write layout depth json).length ≤ fuel) (delimited : Delimited rest)
    : readValue fuel (write layout depth json ++ rest) = some (json, rest) := by
  induction json generalizing depth fuel rest with
  | null =>
      obtain ⟨fuel, rfl⟩ := exists_fuel enough
      simp [write, readValue, readLiteral]
  | bool value =>
      obtain ⟨fuel, rfl⟩ := exists_fuel enough
      cases value <;> simp [write, readValue, readLiteral]
  | number value =>
      obtain ⟨fuel, rfl⟩ := exists_fuel enough
      have all : ∀ c ∈ Nat.toDigits 10 value, c.isDigit :=
        fun c => Nat.isDigit_of_mem_toDigits (by omega) (by omega)
      obtain ⟨taken, dropped⟩ := takeWhile_isDigit_append all delimited
      obtain ⟨c, tail, digits⟩ :=
        List.exists_cons_of_ne_nil (Nat.toDigits_ne_nil (n := value) (b := 10))
      have digit : c.isDigit := all c (digits ▸ List.mem_cons_self)
      rw [write, digits, List.cons_append, readValue, ← List.cons_append, ← digits, taken,
        dropped, Nat.ofDigitChars_toDigits (by omega) (by omega), if_pos digit]
      split_ifs with quote bracket brace
      · simp [quote] at digit
      · simp [bracket] at digit
      · simp [brace] at digit
      · rfl
  | string value =>
      obtain ⟨fuel, rfl⟩ := exists_fuel enough
      rw [write, quoted, List.cons_append, readValue, if_pos rfl, List.append_assoc,
        List.singleton_append, readQuoted_quoted]
      simp
  | array items ih =>
      obtain ⟨fuel, rfl⟩ := exists_fuel enough
      rw [write, itemTexts_eq_map] at enough ⊢
      have count := length_texts_lt_bracketed layout depth '[' ']'
        (items.map (write layout (depth + 1)))
      rw [List.length_map] at count
      have reads : ∀ item ∈ items,
          ReadsBack (readValue fuel) (write layout (depth + 1)) item := by
        intro item member rest delimited
        have shorter := length_lt_bracketed layout depth '[' ']'
          (List.mem_map_of_mem (f := write layout (depth + 1)) member)
        exact ih item member (by omega) delimited
      have few : items.length ≤ fuel := by omega
      obtain ⟨text, written, read⟩ := readElements_bracketed layout depth closes_bracket '['
        reads (fun item _ => write_starts layout (depth + 1) item) few rest
      rw [written, readValue, read]
      simp
  | object members ih =>
      obtain ⟨fuel, rfl⟩ := exists_fuel enough
      rw [write, memberTexts_eq_map] at enough ⊢
      have count := length_texts_lt_bracketed layout depth '{' '}'
        (members.map (writeMember layout (depth + 1)))
      rw [List.length_map] at count
      have reads : ∀ m ∈ members,
          ReadsBack (readMember (readValue fuel)) (writeMember layout (depth + 1)) m := by
        intro m member rest delimited
        have shorter := length_lt_bracketed layout depth '{' '}'
          (List.mem_map_of_mem (f := writeMember layout (depth + 1)) member)
        have fits : (write layout (depth + 1) m.2).length ≤ fuel := by
          simp only [writeMember, List.length_append, List.length_cons] at shorter
          omega
        have value := ih m member fits delimited
        obtain ⟨c, tail, text, visible, -⟩ := write_starts layout (depth + 1) m.2
        rw [text, List.cons_append] at value
        rw [writeMember, quoted, text]
        simp only [List.cons_append, List.append_assoc, List.nil_append, readMember,
          readQuoted_quoted, Option.bind_some, skipBlank_append layout.gap_blank visible, value]
        simp
      have few : members.length ≤ fuel := by omega
      obtain ⟨text, written, read⟩ := readElements_bracketed layout depth closes_brace '{'
        reads (fun m _ => ⟨_, _, rfl, by decide, by decide⟩) few rest
      rw [written, readValue, read]
      simp

theorem readValue_whole (layout : Layout) (depth : Nat) (json : Json)
    : readValue (write layout depth json).length (write layout depth json)
      = some (json, []) := by
  have read : readValue _ (write layout depth json ++ []) = some (json, []) :=
    readValue_write layout json (Nat.le_refl _) (by simp [Delimited])
  rwa [List.append_nil] at read

theorem write_injective (layout : Layout) (depth : Nat)
    : Function.Injective (write layout depth) := by
  intro left right same
  have fromLeft := readValue_whole layout depth left
  rw [same, readValue_whole layout depth right] at fromLeft
  simpa using fromLeft.symm

instance : DecidableEq Json := fun left right =>
  decidable_of_iff (write .compact 0 left = write .compact 0 right)
    (write_injective .compact 0).eq_iff

/-! ## Bytes -/

/-- The UTF-8 text of a value. -/
def toBytes (layout : Layout) (json : Json) : List UInt8 :=
  (write layout 0 json).flatMap String.utf8EncodeChar

/-- The value of a UTF-8 text that holds one value and nothing else. -/
def fromBytes (bytes : List UInt8) : Option Json :=
  match String.fromUTF8? bytes.toByteArray with
  | none => none
  | some text =>
      match readValue text.toList.length text.toList with
      | some (json, []) => some json
      | _ => none

theorem fromUTF8?_utf8Encode (text : List Char)
    : String.fromUTF8? (text.flatMap String.utf8EncodeChar).toByteArray
      = some (String.ofList text) := by
  have valid : (text.flatMap String.utf8EncodeChar).toByteArray.IsValidUTF8 :=
    .intro text rfl
  rw [String.fromUTF8?, dif_pos valid]
  rfl

theorem fromBytes_toBytes (layout : Layout) (json : Json)
    : fromBytes (toBytes layout json) = some json := by
  rw [fromBytes, toBytes, fromUTF8?_utf8Encode]
  simp [readValue_whole]

theorem newline_notMem_quoted (text : String) : '\n' ∉ quoted text := by
  have hex : ∀ value < 16, '\n' ≠ hexDigit value := by decide
  have escaped : ∀ c, '\n' ∉ escape c := by
    intro c
    unfold escape
    split_ifs with quote backslash b t n f r control
    iterate 7 decide
    · simp [hex (c.toNat / 16) (by omega), hex (c.toNat % 16) (by omega)]
    · rw [List.mem_singleton]
      rintro rfl
      exact n rfl
  simp [quoted, escaped]

theorem newline_notMem_bracketed {depth : Nat} {opening closing : Char}
    {texts : List (List Char)} (opens : '\n' ≠ opening) (closes : '\n' ≠ closing)
    (each : ∀ text ∈ texts, '\n' ∉ text)
    : '\n' ∉ bracketed .compact depth opening closing texts := by
  cases texts with
  | nil => simp [bracketed, opens, closes]
  | cons first rest =>
      have head := each first (by simp)
      have tail : ∀ text ∈ rest, '\n' ∉ text := fun text h => each text (by simp [h])
      simpa [bracketed, Layout.compact, opens, closes, head] using tail

/-- A compact text has no line break: those of the strings are escaped. -/
theorem newline_notMem_write (json : Json) (depth : Nat)
    : '\n' ∉ write .compact depth json := by
  induction json generalizing depth with
  | null => simp [write]
  | bool value => cases value <;> simp [write]
  | number value =>
      intro member
      have digit := Nat.isDigit_of_mem_toDigits (by omega) (by omega) member
      simp at digit
  | string value => exact newline_notMem_quoted value
  | array items ih =>
      rw [write, itemTexts_eq_map]
      refine newline_notMem_bracketed (by decide) (by decide) fun text member => ?_
      obtain ⟨item, inside, rfl⟩ := List.mem_map.mp member
      exact ih item inside (depth + 1)
  | object members ih =>
      rw [write, memberTexts_eq_map]
      refine newline_notMem_bracketed (by decide) (by decide) fun text member => ?_
      obtain ⟨m, inside, rfl⟩ := List.mem_map.mp member
      have gap : Layout.compact.gap = [] := rfl
      simp [writeMember, newline_notMem_quoted, gap, ih m inside]

/-- Every byte of a longer code is at least 128. -/
theorem utf8EncodeChar_newline {c : Char} (h : 10 ∈ String.utf8EncodeChar c) : c = '\n' := by
  have byte : ∀ n, (10 : UInt8) = UInt8.ofNat n → n % 256 = 10 := by
    intro n same
    simpa using (congrArg UInt8.toNat same).symm
  simp only [String.utf8EncodeChar] at h
  split_ifs at h with one two three
  all_goals simp only [List.mem_cons, List.not_mem_nil, or_false] at h
  · have value : c.val.toNat = 10 := by
      have := byte _ h
      omega
    exact Char.ext (UInt32.toNat_inj.mp value)
  · rcases h with h | h <;> have := byte _ h <;> omega
  · rcases h with h | h | h <;> have := byte _ h <;> omega
  · rcases h with h | h | h | h <;> have := byte _ h <;> omega

theorem newline_notMem_toBytes (json : Json) : 10 ∉ toBytes .compact json := by
  intro member
  obtain ⟨c, inText, here⟩ := List.mem_flatMap.mp member
  exact newline_notMem_write json 0 (utf8EncodeChar_newline here ▸ inText)

/-! ## Lengths -/

/-- How many bytes a text takes. -/
def byteCount (text : List Char) : Nat :=
  (text.flatMap String.utf8EncodeChar).length

/-- How many bytes a string takes between its quotes. -/
def escapedCount (text : String) : Nat :=
  byteCount (text.toList.flatMap escape)

@[simp]
theorem byteCount_nil : byteCount [] = 0 :=
  rfl

@[simp]
theorem byteCount_cons (c : Char) (text : List Char)
    : byteCount (c :: text) = c.utf8Size + byteCount text := by
  simp [byteCount]

@[simp]
theorem byteCount_append (front back : List Char)
    : byteCount (front ++ back) = byteCount front + byteCount back := by
  simp [byteCount]

theorem byteCount_quoted (text : String) : byteCount (quoted text) = 2 + escapedCount text := by
  have mark : '"'.utf8Size = 1 := by decide
  simp only [quoted, byteCount_cons, byteCount_append, byteCount_nil, mark, escapedCount]
  omega

/-- How many digits a number has. -/
def digitCount (value : Nat) : Nat :=
  (Nat.toDigits 10 value).length

theorem byteCount_toDigits (value : Nat) : byteCount (Nat.toDigits 10 value) = digitCount value := by
  have single : ∀ digits : List Char, (∀ c ∈ digits, c.isDigit = true)
      → byteCount digits = digits.length := by
    intro digits all
    induction digits with
    | nil => rfl
    | cons c rest ih =>
        have digit : c.isDigit = true := all c (by simp)
        have size : c.utf8Size = 1 := by
          simp only [Char.isDigit, Bool.and_eq_true, decide_eq_true_eq] at digit
          rw [Char.utf8Size_eq_one_iff]
          exact UInt32.le_trans digit.2 (by decide)
        rw [byteCount_cons, size, ih fun d inside => all d (List.mem_cons_of_mem _ inside),
          List.length_cons, Nat.add_comm]
  exact single _ fun c member => Nat.isDigit_of_mem_toDigits (by omega) (by omega) member

/-- Texts that follow a separator. -/
theorem byteCount_separated (texts : List (List Char))
    : byteCount (texts.flatMap fun text => ',' :: ([] ++ text))
      = (texts.map fun text => byteCount text + 1).sum := by
  have comma : ','.utf8Size = 1 := by decide
  induction texts with
  | nil => rfl
  | cons text rest ih =>
      rw [List.flatMap_cons, byteCount_append, ih, byteCount_cons, comma, List.map_cons,
        List.sum_cons, List.nil_append]
      omega

/-- The names and the values, and four bytes for each of them but for the first bracket. -/
theorem length_toBytes_object {members : List (String × Json)} (some : members ≠ [])
    : (toBytes .compact (.object members)).length
      = 1 + 4 * members.length + (members.map fun m => escapedCount m.1).sum
        + (members.map fun m => byteCount (write .compact 1 m.2)).sum := by
  have opening : '{'.utf8Size = 1 := by decide
  have closing : '}'.utf8Size = 1 := by decide
  have colon : ':'.utf8Size = 1 := by decide
  have each : ∀ m : String × Json, byteCount (writeMember .compact 1 m)
      = 3 + escapedCount m.1 + byteCount (write .compact 1 m.2) := by
    intro m
    have gap : Layout.compact.gap = [] := rfl
    rw [writeMember, byteCount_append, byteCount_quoted, byteCount_cons, gap, colon,
      List.nil_append]
    omega
  have total : ∀ rest : List (String × Json),
      (rest.map fun m => byteCount (writeMember .compact 1 m) + 1).sum
        = 4 * rest.length + (rest.map fun m => escapedCount m.1).sum
          + (rest.map fun m => byteCount (write .compact 1 m.2)).sum := by
    intro rest
    induction rest with
    | nil => rfl
    | cons m rest ih =>
        simp only [List.map_cons, List.sum_cons, List.length_cons, ih, each m]
        omega
  cases members with
  | nil => exact absurd rfl some
  | cons first rest =>
      have line : ∀ depth, Layout.compact.newline depth = [] := fun _ => rfl
      change byteCount (write .compact 0 (.object (first :: rest))) = _
      rw [write, memberTexts_eq_map, List.map_cons, bracketed]
      simp only [line, byteCount_cons, byteCount_append, byteCount_nil, byteCount_separated,
        List.map_map, Function.comp_def, Nat.zero_add, opening, closing]
      have whole := total (first :: rest)
      rw [List.map_cons, List.sum_cons] at whole
      omega

end JsonText
