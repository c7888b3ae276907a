import BeetleMemory.Http.Ingress
import BeetleMemory.Lib.Fallible

/-! How the accepted requests are framed, and which header names a recipient finds that also ends a
line at a bare line feed or carriage return. Header values and the request target may hold such
characters, so the names differ exactly when what follows one of them reads as a header, or ends
the head, before the head is over.
-/

namespace BeetleMemory.Http

open BeetleMemory.Graph (toAsciiLowercase)
open Lines (splitLines)
open Store (Bytes)

/-! ## The bytes of the head -/

/-- The bytes end with the end of a head, and no beginning of them does. -/
structure EndsAtFirstBlank (bytes : Bytes) : Prop where
  ends : headEnd <:+ bytes
  first : ∀ shorter, shorter <+: bytes → headEnd <:+ shorter → shorter = bytes

theorem readHeadBytes_ok {headerMaxBytes : Nat} {sofar bytes stream rest : Bytes}
    (read : readHeadBytes headerMaxBytes sofar stream = (.ok bytes, rest))
    (bounded : sofar.length ≤ headerMaxBytes)
    (open_ : ∀ shorter, shorter <+: sofar → headEnd <:+ shorter → shorter = sofar)
    : EndsAtFirstBlank bytes ∧ bytes.length ≤ headerMaxBytes
      ∧ ∃ more, bytes = sofar ++ more ∧ stream = more ++ rest := by
  induction stream generalizing sofar with
  | nil =>
      rw [readHeadBytes] at read
      split_ifs at read with done full
      · obtain ⟨same, rfl⟩ := Prod.mk.inj read
        obtain rfl := Except.ok.inj same
        exact ⟨⟨List.isSuffixOf_iff_suffix.mp done, open_⟩, bounded, [], by simp, rfl⟩
      · simp at read
      · simp at read
  | cons byte stream ih =>
      rw [readHeadBytes] at read
      split_ifs at read with done full
      · obtain ⟨same, rfl⟩ := Prod.mk.inj read
        obtain rfl := Except.ok.inj same
        exact ⟨⟨List.isSuffixOf_iff_suffix.mp done, open_⟩, bounded, [], by simp, rfl⟩
      · simp at read
      · -- what was read before is no head, so only the longer text can be one
        have longer : ∀ shorter, shorter <+: sofar ++ [byte] → headEnd <:+ shorter
            → shorter = sofar ++ [byte] := by
          intro shorter isPrefix ended
          rcases List.prefix_concat_iff.mp isPrefix with whole | before
          · exact whole
          · obtain rfl := open_ shorter before ended
            exact absurd (List.isSuffixOf_iff_suffix.mpr ended) done
        have length : (sofar ++ [byte]).length ≤ headerMaxBytes := by
          rw [List.length_append, List.length_singleton]
          omega
        obtain ⟨blank, within, more, rfl, rfl⟩ := ih read length longer
        exact ⟨blank, within, byte :: more, by simp, rfl⟩

/-! ## The headers of the head -/

/-- The name of a header line, in lower case; other lines have none. -/
def headerName (line : List Char) : Option String :=
  match splitOnce ':' line with
  | none => none
  | some (name, _) =>
      if isHttpToken name then some (toAsciiLowercase (String.ofList name)) else none

theorem insertHeader_ok {headers next : List (String × String)} {line : List Char}
    (inserted : insertHeader headers line = .ok next)
    : (line = [] ∧ next = headers)
      ∨ ∃ name value, headerName line = some name ∧ name ∉ headers.map (·.1)
          ∧ next = headers ++ [(name, value)] := by
  rw [insertHeader] at inserted
  split_ifs at inserted with empty folded
  · left
    exact ⟨List.isEmpty_iff.mp empty, (Except.ok.inj inserted).symm⟩
  · right
    cases split : splitOnce ':' line with
    | none => simp [split] at inserted
    | some parts =>
        obtain ⟨name, value⟩ := parts
        simp only [split] at inserted
        split_ifs at inserted with invalid duplicate
        have token : isHttpToken name = true := by simpa using invalid
        refine ⟨_, _, ?_, ?_, (Except.ok.inj inserted).symm⟩
        · simp only [headerName, split, token, if_true]
        · intro member
          refine duplicate ?_
          obtain ⟨entry, inside, same⟩ := List.mem_map.mp member
          simp only [getHeader, Option.isSome_map, List.find?_isSome]
          exact ⟨entry, inside, by simpa using same⟩

theorem headerName_nil : headerName [] = none :=
  rfl

/-- The headers are the lines that are not empty, each with its own name. -/
theorem insertHeaders_ok {headers final : List (String × String)} {lines : List (List Char)}
    (inserted : lines.foldlM insertHeader headers = .ok final)
    (once : (headers.map (·.1)).Nodup)
    : final.map (·.1) = headers.map (·.1) ++ lines.filterMap headerName
      ∧ (final.map (·.1)).Nodup
      ∧ ∀ line ∈ lines, line ≠ [] → (headerName line).isSome := by
  induction lines generalizing headers with
  | nil =>
      obtain rfl : headers = final := Except.ok.inj inserted
      simpa using once
  | cons line rest ih =>
      rw [List.foldlM_cons] at inserted
      obtain ⟨next, first, later⟩ := Fallible.bind_eq_ok.mp inserted
      rcases insertHeader_ok first with ⟨rfl, rfl⟩ | ⟨name, value, named, new, rfl⟩
      · obtain ⟨names, nodup, each⟩ := ih later once
        refine ⟨?_, nodup, ?_⟩
        · rw [List.filterMap_cons_none headerName_nil]
          exact names
        · simpa using each
      · have once' : ((headers ++ [(name, value)]).map (·.1)).Nodup := by
          rw [List.map_append, List.map_singleton, ← List.concat_eq_append]
          exact List.Nodup.concat new once
        obtain ⟨names, nodup, each⟩ := ih later once'
        refine ⟨?_, nodup, ?_⟩
        · rw [names, List.map_append, List.filterMap_cons_some named]
          simp
        · intro other member nonempty
          rcases List.mem_cons.mp member with rfl | behind
          · rw [named]
            rfl
          · exact each other behind nonempty

/-- What an accepted head says about its text. -/
theorem parseHead_ok {utf8 : Utf8Report} {limits : EntryHttpIngressLimits} {bytes : Bytes}
    {head : EntryHttpRequestHead} (parsed : parseHead utf8 limits bytes = .ok head)
    : ∃ text, String.fromUTF8? bytes.toByteArray = some text
        ∧ (splitLines .strict text.toList).tail.foldlM insertHeader [] = .ok head.headers
        ∧ getHeader head.headers "transfer-encoding" = none
        ∧ contentLengthOf head.headers = .ok head.contentLength
        ∧ head.contentLength ≤ limits.bodyMaxBytes := by
  rw [parseHead] at parsed
  cases decoded : String.fromUTF8? bytes.toByteArray with
  | none =>
      simp only [decoded, Fallible.error_bind] at parsed
      exact absurd parsed (by simp)
  | some text =>
      simp only [decoded, Fallible.ok_bind] at parsed
      obtain ⟨⟨method, target⟩, -, parsed⟩ := Fallible.bind_eq_ok.mp parsed
      obtain ⟨headers, inserted, parsed⟩ := Fallible.bind_eq_ok.mp parsed
      split_ifs at parsed with transfer host
      obtain ⟨contentLength, declared, parsed⟩ := Fallible.bind_eq_ok.mp parsed
      split_ifs at parsed with large
      obtain rfl := Except.ok.inj parsed
      refine ⟨text, rfl, inserted, by simpa using transfer, declared, ?_⟩
      exact Nat.not_lt.mp large

/-! ## The lines of the head -/

theorem bytes_of_decoded {bytes : Bytes} {text : String}
    (decoded : String.fromUTF8? bytes.toByteArray = some text)
    : bytes = text.toList.flatMap String.utf8EncodeChar := by
  rw [String.fromUTF8?] at decoded
  split_ifs at decoded with valid
  obtain rfl := Option.some.inj decoded
  have encoded : ((String.fromUTF8 bytes.toByteArray valid).toList.flatMap
      String.utf8EncodeChar).toByteArray = bytes.toByteArray := String.utf8Encode_toList
  exact (List.toByteArray_inj.mp encoded).symm

theorem encode_blank : "\r\n\r\n".toList.flatMap String.utf8EncodeChar = headEnd := by
  decide

theorem eq_nil_of_encode {text : List Char}
    (none : text.flatMap String.utf8EncodeChar = [])
    : text = [] := by
  refine List.eq_nil_iff_forall_not_mem.mpr fun c member => ?_
  have empty := List.flatMap_eq_nil_iff.mp none c member
  have length := String.length_utf8EncodeChar c
  rw [empty, List.length_nil] at length
  exact absurd length (Char.utf8Size_pos c).ne

/-- The first empty line of a head is its end: no header follows it. -/
theorem blank_lines_last {bytes : Bytes} {text : String}
    (decoded : String.fromUTF8? bytes.toByteArray = some text) (blank : EndsAtFirstBlank bytes)
    {first : List Char} {before others : List (List Char)}
    (lines : splitLines .strict text.toList = first :: before ++ [] :: others)
    : ∀ line ∈ others, line = [] := by
  by_cases none : others = []
  · simp [none]
  -- the text up to the empty line ends a head, so it is the whole text
  have whole : text.toList
      = (Lines.joinLines (first :: before) ++ "\r\n\r\n".toList) ++ Lines.joinLines others := by
    rw [← Lines.joinLines_splitLines text.toList, lines,
      Lines.joinLines_append (by simp) (by simp), Lines.joinLines_cons none]
    simp
  have encoded := bytes_of_decoded decoded
  rw [whole, List.flatMap_append, List.flatMap_append, encode_blank] at encoded
  have nothing := blank.first _ (encoded ▸ List.prefix_append _ _) (List.suffix_append _ _)
  rw [encoded, List.self_eq_append_right] at nothing
  have joined := eq_nil_of_encode nothing
  obtain ⟨line, rest, rfl⟩ := List.exists_cons_of_ne_nil none
  cases rest with
  | nil => simpa [Lines.joinLines] using joined
  | cons next rest =>
      rw [Lines.joinLines_cons (by simp)] at joined
      simp at joined

/-! ## The names that a recipient finds -/

/-- The names up to the first empty line. -/
def namesBeforeBlank (lines : List (List Char)) : List String :=
  (lines.takeWhile (· ≠ [])).filterMap headerName

/-- The names that a recipient finds behind the request line, skipping what it cannot read. -/
def foundNames (ends : Lines.Ends) (text : List Char) : List String :=
  namesBeforeBlank (splitLines ends text).tail

/-- What a lenient recipient finds in a line behind its first part. -/
def extraLines (ends : Lines.Ends) (line : List Char) : List (List Char) :=
  (splitLines ends line).tail

/-- Nothing that follows a bare line end names a header, up to the first such line end that is
followed by an empty line; and that one hides no header, or those it hides were named right before
it. The first list is what was found in the line before the others.
-/
def addsNoName (ends : Lines.Ends) : List (List Char) → List (List Char) → Bool
  | extra, [] => (namesBeforeBlank extra).isEmpty
  | extra, line :: rest =>
      if [] ∈ extra then namesBeforeBlank extra = (line :: rest).filterMap headerName
      else (extra.filterMap headerName).isEmpty && addsNoName ends (extraLines ends line) rest

theorem splitOnce_eq_some {separator : Char} {text before after : List Char}
    : splitOnce separator text = some (before, after)
      ↔ text = before ++ separator :: after ∧ separator ∉ before := by
  induction text generalizing before with
  | nil => simp [splitOnce]
  | cons c rest ih =>
      rw [splitOnce]
      split_ifs with same
      · subst same
        cases before with
        | nil => simp
        | cons b before =>
            simp only [Option.some.injEq, Prod.mk.injEq, List.nil_eq, reduceCtorEq, false_and,
              List.cons_append, List.cons.injEq, false_iff, not_and]
            rintro ⟨rfl, -⟩ absent
            exact absent List.mem_cons_self
      · cases before with
        | nil =>
            simp only [Option.map_eq_some_iff, Prod.mk.injEq, reduceCtorEq, false_and, and_false,
              exists_false, List.nil_append, List.cons.injEq, false_iff, not_and]
            exact fun equal => absurd equal.1 same
        | cons b before =>
            rw [Option.map_eq_some_iff]
            constructor
            · rintro ⟨⟨start, value⟩, found, equal⟩
              simp only [Prod.mk.injEq, List.cons.injEq] at equal
              obtain ⟨⟨rfl, rfl⟩, rfl⟩ := equal
              obtain ⟨rfl, absent⟩ := ih.mp found
              exact ⟨rfl, List.not_mem_cons_of_ne_of_not_mem (Ne.symm same) absent⟩
            · rintro ⟨equal, absent⟩
              obtain ⟨rfl, later⟩ := List.cons.inj equal
              exact ⟨_, ih.mpr ⟨later, fun inside => absent (List.mem_cons_of_mem c inside)⟩, rfl⟩

theorem tokenChar_plain {c : Char} (token : isTokenChar c = true) : c ≠ '\r' ∧ c ≠ '\n' := by
  constructor
  · rintro rfl
    exact absurd token (by decide)
  · rintro rfl
    exact absurd token (by decide)

/-- The name of a header stands before any line end of its line. -/
theorem splitLines_header {line : List Char} {name : String} (named : headerName line = some name)
    (ends : Lines.Ends)
    : ∃ piece, splitLines ends line = piece :: extraLines ends line ∧ piece ≠ []
        ∧ headerName piece = some name := by
  cases split : splitOnce ':' line with
  | none => simp [headerName, split] at named
  | some parts =>
      obtain ⟨start, value⟩ := parts
      simp only [headerName, split] at named
      split_ifs at named with token
      obtain ⟨whole, absent⟩ := splitOnce_eq_some.mp split
      have plain : ∀ c ∈ start ++ [':'], c ≠ '\r' ∧ c ≠ '\n' := by
        intro c member
        rcases List.mem_append.mp member with inside | last
        · rw [isHttpToken, Bool.and_eq_true] at token
          exact tokenChar_plain (List.all_eq_true.mp token.2 c inside)
        · obtain rfl := List.mem_singleton.mp last
          decide
      obtain ⟨first, others, cut⟩ :=
        List.exists_cons_of_ne_nil (Lines.splitLines_ne_nil ends value)
      have pieces : splitLines ends line = (start ++ ':' :: first) :: others := by
        rw [whole, List.append_cons, Lines.splitLines_append plain, cut]
        simp
      refine ⟨start ++ ':' :: first, ?_, by simp, ?_⟩
      · rw [extraLines, pieces]
        rfl
      · have again : splitOnce ':' (start ++ ':' :: first) = some (start, first) :=
          splitOnce_eq_some.mpr ⟨rfl, absent⟩
        simp only [headerName, again, token, if_true]
        exact named

theorem namesBeforeBlank_append_of_blank {lines : List (List Char)} (blank : [] ∈ lines)
    (more : List (List Char))
    : namesBeforeBlank (lines ++ more) = namesBeforeBlank lines := by
  obtain ⟨before, after, rfl⟩ := List.append_of_mem blank
  have stops (more : List (List Char))
      : ((before ++ [] :: after) ++ more).takeWhile (· ≠ [])
        = before.takeWhile (· ≠ []) := by
    rw [List.append_assoc, List.takeWhile_append]
    split_ifs with all
    · rw [List.cons_append, List.takeWhile_cons_of_neg (by simp), List.append_nil]
      exact (List.takeWhile_prefix _).eq_of_length all |>.symm
    · rfl
  have plain := stops []
  rw [List.append_nil] at plain
  rw [namesBeforeBlank, namesBeforeBlank, stops more, plain]

theorem namesBeforeBlank_append {lines : List (List Char)} (full : [] ∉ lines)
    (more : List (List Char))
    : namesBeforeBlank (lines ++ more) = lines.filterMap headerName ++ namesBeforeBlank more := by
  have nonempty : ∀ line ∈ lines, decide (line ≠ []) = true := by
    intro line member
    have some : line ≠ [] := fun empty => full (empty ▸ member)
    simpa using some
  rw [namesBeforeBlank, namesBeforeBlank, List.takeWhile_append_of_pos nonempty,
    List.filterMap_append]

/-- Nothing is read behind an empty line. -/
theorem namesBeforeBlank_blank (lines more : List (List Char))
    : namesBeforeBlank (lines ++ [] :: more) = namesBeforeBlank lines := by
  by_cases blank : [] ∈ lines
  · exact namesBeforeBlank_append_of_blank blank _
  · have alone := namesBeforeBlank_append blank []
    rw [List.append_nil] at alone
    rw [namesBeforeBlank_append blank, alone]
    rfl

/-- A recipient finds the names of the header lines and no others exactly when the parts behind
bare line ends add none. The induction is on the header lines; distinct names rule out that an
added name stands for one of the lines behind it.
-/
theorem addsNoName_iff {ends : Lines.Ends} {lines : List (List Char)}
    (named : ∀ line ∈ lines, (headerName line).isSome)
    (once : (lines.filterMap headerName).Nodup) (extra : List (List Char))
    : namesBeforeBlank (extra ++ lines.flatMap (splitLines ends)) = lines.filterMap headerName
      ↔ addsNoName ends extra lines = true := by
  induction lines generalizing extra with
  | nil => simp [addsNoName]
  | cons line rest ih =>
      obtain ⟨here, later⟩ := List.forall_mem_cons.mp named
      obtain ⟨name, nameEq⟩ := Option.isSome_iff_exists.mp here
      obtain ⟨piece, pieces, nonempty, pieceName⟩ := splitLines_header nameEq ends
      rw [addsNoName]
      by_cases blank : [] ∈ extra
      · rw [if_pos blank, namesBeforeBlank_append_of_blank blank]
        simp
      · rw [List.filterMap_cons_some nameEq, List.nodup_cons] at once
        have first : namesBeforeBlank ((line :: rest).flatMap (splitLines ends))
            = name :: namesBeforeBlank (extraLines ends line ++ rest.flatMap (splitLines ends)) := by
          have one : [] ∉ [piece] := by simpa using nonempty.symm
          rw [List.flatMap_cons, pieces, List.cons_append, ← List.singleton_append,
            namesBeforeBlank_append one, List.filterMap_cons_some pieceName]
          rfl
        rw [if_neg blank, namesBeforeBlank_append blank, first, List.filterMap_cons_some nameEq,
          Bool.and_eq_true, ← ih later once.2, List.isEmpty_iff]
        constructor
        · intro equal
          cases added : extra.filterMap headerName with
          | nil =>
              rw [added] at equal
              exact ⟨rfl, (List.cons.inj equal).2⟩
          | cons other more =>
              rw [added, List.cons_append] at equal
              have repeated : name ∈ rest.filterMap headerName := by
                rw [← (List.cons.inj equal).2]
                simp
              exact absurd repeated once.1
        · rintro ⟨none, equal⟩
          rw [none, equal]
          rfl

/-- No bare line end of the head adds or hides a name. -/
def plainlyEnded (ends : Lines.Ends) (text : List Char) : Bool :=
  let lines := splitLines .strict text
  addsNoName ends (extraLines ends (lines.headD [])) (lines.tail.takeWhile (· ≠ []))

/-- Empty lines at the end name nothing. -/
theorem filterMap_headerName_blank {lines : List (List Char)} (blank : ∀ line ∈ lines, line = [])
    : lines.filterMap headerName = [] := by
  refine List.filterMap_eq_nil_iff.mpr fun line member => ?_
  rw [blank line member]
  exact headerName_nil

/-- Behind the header lines there is nothing, or an empty line and then only empty ones. -/
theorem head_lines {bytes : Bytes} {text : String} {first : List Char} {lines : List (List Char)}
    (decoded : String.fromUTF8? bytes.toByteArray = some text) (blank : EndsAtFirstBlank bytes)
    (split : splitLines .strict text.toList = first :: lines)
    : ∃ blanks, lines = lines.takeWhile (· ≠ []) ++ blanks ∧ ∀ line ∈ blanks, line = [] := by
  have nonempty {before : List (List Char)} (full : [] ∉ before)
      : ∀ line ∈ before, decide (line ≠ []) = true := by
    intro line member
    have some : line ≠ [] := fun empty => full (empty ▸ member)
    simpa using some
  by_cases ended : [] ∈ lines
  · obtain ⟨before, others, rfl, full⟩ := List.eq_append_cons_of_mem ended
    have stops : (before ++ [] :: others).takeWhile (· ≠ []) = before := by
      rw [List.takeWhile_append_of_pos (nonempty full), List.takeWhile_cons_of_neg (by simp),
        List.append_nil]
    refine ⟨[] :: others, by rw [stops], ?_⟩
    intro line member
    rcases List.mem_cons.mp member with empty | later
    · exact empty
    · exact blank_lines_last decoded blank split line later
  · refine ⟨[], ?_, by simp⟩
    rw [List.append_nil, List.takeWhile_eq_self_iff.mpr (nonempty ended)]

theorem foundNames_iff {bytes : Bytes} {text : String} {headers : List (String × String)}
    (decoded : String.fromUTF8? bytes.toByteArray = some text) (blank : EndsAtFirstBlank bytes)
    (inserted : (splitLines .strict text.toList).tail.foldlM insertHeader [] = .ok headers)
    (ends : Lines.Ends)
    : foundNames ends text.toList = headers.map (·.1) ↔ plainlyEnded ends text.toList = true := by
  obtain ⟨first, lines, split⟩ :=
    List.exists_cons_of_ne_nil (Lines.splitLines_ne_nil .strict text.toList)
  rw [split, List.tail_cons] at inserted
  obtain ⟨names, once, each⟩ := insertHeaders_ok inserted List.nodup_nil
  rw [List.map_nil, List.nil_append] at names
  obtain ⟨blanks, cut, empty⟩ := head_lines decoded blank split
  generalize known : lines.takeWhile (fun line => decide (line ≠ [])) = named at cut
  have sameNames : headers.map (·.1) = named.filterMap headerName := by
    rw [names, cut, List.filterMap_append, filterMap_headerName_blank empty, List.append_nil]
  have pieces : (splitLines ends text.toList).tail
      = extraLines ends first ++ lines.flatMap (splitLines ends) := by
    rw [Lines.splitLines_eq_flatMap, split, List.flatMap_cons, extraLines]
    exact List.tail_append_of_ne_nil (Lines.splitLines_ne_nil ends first)
  have found : foundNames ends text.toList
      = namesBeforeBlank (extraLines ends first ++ named.flatMap (splitLines ends)) := by
    rw [foundNames, pieces, cut, List.flatMap_append, ← List.append_assoc]
    cases blanks with
    | nil => simp
    | cons line others =>
        obtain rfl := empty line List.mem_cons_self
        exact namesBeforeBlank_blank _ _
  have eachNamed : ∀ line ∈ named, (headerName line).isSome := by
    intro line member
    refine each line (cut ▸ List.mem_append_left _ member) ?_
    have passed : decide (line ≠ []) = true :=
      List.mem_takeWhile_imp (p := fun line : List Char => decide (line ≠ [])) (known ▸ member)
    exact of_decide_eq_true passed
  rw [found, sameNames, addsNoName_iff eachNamed (sameNames ▸ once), plainlyEnded, split,
    ← known]
  rfl

/-! ## Unambiguous framing -/

section Unambiguous

variable {α : Type}

/-- The head at the start of a stream. -/
def headBytesOf (limits : EntryHttpIngressLimits) (stream : Bytes) : Bytes :=
  match (readHeadBytes limits.headerMaxBytes [] stream).1 with
  | .ok bytes => bytes
  | .error _ => []

def headTextOf (limits : EntryHttpIngressLimits) (stream : Bytes) : List Char :=
  ((String.fromUTF8? (headBytesOf limits stream).toByteArray).getD "").toList

/-- How a request stands in a stream of which the rest is unread. -/
structure UnambiguousFraming (utf8 : Utf8Report) (limits : EntryHttpIngressLimits)
    (authorize : EntryHttpRequestHead → Except EntryHttpIngressError α) (stream : Bytes)
    (request : EntryAuthorizedHttpRequest α) (rest : Bytes)
    : Prop where
  parts : stream = headBytesOf limits stream ++ request.body ++ rest
  blank : EndsAtFirstBlank (headBytesOf limits stream)
  headLimit : (headBytesOf limits stream).length ≤ limits.headerMaxBytes
  bodyLength : request.body.length = request.head.contentLength
  declared : contentLengthOf request.head.headers = .ok request.head.contentLength
  bodyLimit : request.body.length ≤ limits.bodyMaxBytes
  authorized : authorize request.head = .ok request.auth
  /-- Where the head is refused, what follows it is not read. -/
  unread : ∀ (refuse : EntryHttpRequestHead → Except EntryHttpIngressError α) error,
    refuse request.head = .error error
      → readAuthorizedHttpRequest utf8 limits refuse stream = (.error error, request.body ++ rest)
  /-- Every recipient finds the same names. -/
  sameNames : ∀ ends, foundNames ends (headTextOf limits stream) = request.head.headers.map (·.1)
  noTransferEncoding : ∀ ends,
    "transfer-encoding" ∉ foundNames ends (headTextOf limits stream)
  oneContentLength : ∀ ends,
    (foundNames ends (headTextOf limits stream)).count "content-length" ≤ 1
  anyCase : ∀ name other, toAsciiLowercase name = toAsciiLowercase other
    → request.head.header name = request.head.header other
  once : (request.head.headers.map (·.1)).Nodup

/-- What an accepted request came from. -/
theorem readAuthorizedHttpRequest_ok {utf8 : Utf8Report} {limits : EntryHttpIngressLimits}
    {authorize : EntryHttpRequestHead → Except EntryHttpIngressError α} {stream rest : Bytes}
    {request : EntryAuthorizedHttpRequest α}
    (accepted : readAuthorizedHttpRequest utf8 limits authorize stream = (.ok request, rest))
    : ∃ bytes, readHeadBytes limits.headerMaxBytes [] stream = (.ok bytes, request.body ++ rest)
        ∧ parseHead utf8 limits bytes = .ok request.head
        ∧ authorize request.head = .ok request.auth
        ∧ request.body.length = request.head.contentLength := by
  rw [readAuthorizedHttpRequest] at accepted
  split at accepted
  · simp at accepted
  next bytes left read =>
    split at accepted
    · simp at accepted
    next head parsed =>
      split at accepted
      · simp at accepted
      next auth granted =>
        split_ifs at accepted with short
        · simp at accepted
        · obtain ⟨same, rfl⟩ := Prod.mk.inj accepted
          obtain rfl := Except.ok.inj same
          refine ⟨bytes, ?_, parsed, granted, ?_⟩
          · rw [read, List.take_append_drop]
          · exact List.length_take_of_le (Nat.not_lt.mp short)

/-- An accepted request is framed unambiguously exactly when no bare line end of its head adds or
hides a header name, whichever of the two characters a recipient takes for a line end.
-/
theorem accepted_unambiguous_iff {utf8 : Utf8Report} {limits : EntryHttpIngressLimits}
    {authorize : EntryHttpRequestHead → Except EntryHttpIngressError α} {stream rest : Bytes}
    {request : EntryAuthorizedHttpRequest α}
    (accepted : readAuthorizedHttpRequest utf8 limits authorize stream = (.ok request, rest))
    : UnambiguousFraming utf8 limits authorize stream request rest
      ↔ ∀ ends, plainlyEnded ends (headTextOf limits stream) = true := by
  obtain ⟨bytes, read, parsed, granted, length⟩ := readAuthorizedHttpRequest_ok accepted
  have noneBefore : ∀ shorter, shorter <+: ([] : Bytes) → headEnd <:+ shorter → shorter = [] :=
    fun shorter isPrefix _ => List.prefix_nil.mp isPrefix
  obtain ⟨blank, within, _, rfl, streamEq⟩ :=
    readHeadBytes_ok read (Nat.zero_le _) noneBefore
  obtain ⟨text, decoded, inserted, noTransfer, declared, bodyLimit⟩ := parseHead_ok parsed
  have head : headBytesOf limits stream = bytes := by simp only [headBytesOf, read]
  have headText : headTextOf limits stream = text.toList := by
    rw [headTextOf, head, decoded]
    rfl
  have once := (insertHeaders_ok inserted List.nodup_nil).2.1
  have noTransferName : "transfer-encoding" ∉ request.head.headers.map (·.1) := by
    intro member
    obtain ⟨entry, inside, same⟩ := List.mem_map.mp member
    rw [getHeader, Option.map_eq_none_iff, List.find?_eq_none] at noTransfer
    exact noTransfer entry inside (by simpa using same)
  have names := foundNames_iff decoded blank inserted
  rw [headText]
  constructor
  · intro framing ends
    have same := framing.sameNames ends
    rw [headText] at same
    exact (names ends).mp same
  · intro plain
    have same := fun ends => (names ends).mpr (plain ends)
    exact
      { parts := by rw [head, List.append_assoc]; exact streamEq
        blank := head ▸ blank
        headLimit := head ▸ within
        bodyLength := length
        declared
        bodyLimit := length ▸ bodyLimit
        authorized := granted
        unread := by
          intro refuse error refused
          simp only [readAuthorizedHttpRequest, read, parsed, refused]
        sameNames := fun ends => headText ▸ same ends
        noTransferEncoding := fun ends => by rw [headText, same ends]; exact noTransferName
        oneContentLength := fun ends => by
          rw [headText, same ends]
          exact List.nodup_iff_count_le_one.mp once _
        anyCase := fun name other equal => by
          rw [EntryHttpRequestHead.header, EntryHttpRequestHead.header, equal]
        once }

end Unambiguous

def sampleLimits : EntryHttpIngressLimits := ⟨256, 16⟩

def sampleUtf8 : Utf8Report := ⟨fun _ => "invalid utf-8"⟩

def plainStream : Bytes :=
  Store.textBytes "GET / HTTP/1.1\r\nHost: a\r\nContent-Length: 2\r\n\r\nhi!"

def plainRequest : EntryAuthorizedHttpRequest Unit where
  head :=
    { method := "GET", target := "/", headers := [("host", "a"), ("content-length", "2")]
      contentLength := 2 }
  body := Store.textBytes "hi"
  auth := ()

theorem plainStream_unambiguous
    : UnambiguousFraming sampleUtf8 sampleLimits (fun _ => .ok ()) plainStream plainRequest
        (Store.textBytes "!") :=
  (accepted_unambiguous_iff (by decide +kernel)).mpr (by
    rintro ⟨lineFeed, carriageReturn⟩
    cases lineFeed <;> cases carriageReturn <;> decide +kernel)

/-- A header whose value goes on behind a bare line feed. -/
def smuggledStream : Bytes :=
  Store.textBytes "GET / HTTP/1.1\r\nHost: a\r\nX: b\nTransfer-Encoding: chunked\r\n\r\n"

def smuggledRequest : EntryAuthorizedHttpRequest Unit where
  head :=
    { method := "GET", target := "/"
      headers := [("host", "a"), ("x", "b\nTransfer-Encoding: chunked")]
      contentLength := 0 }
  body := []
  auth := ()

/-- The request is accepted, and a recipient that ends lines at a line feed finds a transfer
encoding.
-/
theorem smuggledStream_ambiguous
    : readAuthorizedHttpRequest sampleUtf8 sampleLimits (fun _ => .ok ()) smuggledStream
        = (.ok smuggledRequest, [])
      ∧ ¬ UnambiguousFraming sampleUtf8 sampleLimits (fun _ => .ok ()) smuggledStream
          smuggledRequest [] := by
  refine ⟨by decide +kernel, fun framing => ?_⟩
  exact framing.noTransferEncoding ⟨true, false⟩ (by decide +kernel)

end BeetleMemory.Http
