import BeetleMemory.Gateway.BoundedStream
import BeetleMemory.Lib.JsonText

/-! The bounded reader returns the items of the stream, up to the first that exceeds a limit,
however the stream is cut into reads, and the meter accepts what it returns. Which of several
exceeded limits an error names does depend on the reads.
-/

namespace BeetleMemory.Gateway

open Segments (splitInclusive Open)
open Store (Bytes textBytes)

/-! ## Items of a stream -/

/-- The items of a stream as lists of their lines: events up to a blank line, or single lines. -/
def itemsOf (protocol : StreamProtocol) (stream : Bytes) : List (List Bytes) :=
  match protocol with
  | .sse => splitInclusive isBlankLine (splitInclusive isNewline stream)
  | .ndjson => (splitInclusive isNewline stream).map fun line => [line]

/-- Neither the lines of an item, the item, the bytes so far nor the number of items exceed their
limits.
-/
structure Fits (limits : LlmGatewayBudget) (responseBytes events : Nat) (item : List Bytes)
    : Prop where
  lines : ∀ line ∈ item, line.length ≤ limits.streamChunkMaxBytes
  size : item.flatten.length ≤ limits.streamEventMaxBytes
  total : responseBytes + item.flatten.length ≤ limits.responseBodyMaxBytes
  count : events + 1 ≤ limits.streamMaxEvents

/-! ## One line -/

variable {limits : LlmGatewayBudget}

/-- Reads of a transport have bytes; an empty one would be the end of the stream. -/
def Filled (reads : List Bytes) : Prop :=
  ∀ read ∈ reads, read ≠ []

theorem Filled.unread {left : Bytes} {rest : List Bytes} (filled : Filled rest)
    : Filled (unread left rest) ∧ (unread left rest).flatten = left ++ rest.flatten := by
  rw [Gateway.unread]
  split_ifs with empty
  · rw [List.isEmpty_iff.mp empty]
    exact ⟨filled, rfl⟩
  · refine ⟨List.forall_mem_cons.mpr ⟨fun none => empty (none ▸ rfl), filled⟩, rfl⟩

/-- Where the buffer is cut. -/
theorem take_closed {body tail : Bytes} {last : UInt8} (opened : Open isNewline body)
    (ends : isNewline last = true)
    : (body ++ last :: tail).findIdx? isNewline = some body.length := by
  rw [List.findIdx?_append, List.findIdx?_eq_none_iff.mpr opened]
  simp [List.findIdx?_cons, ends]

theorem take_open {body : Bytes} (opened : Open isNewline body)
    : body.findIdx? isNewline = none :=
  List.findIdx?_eq_none_iff.mpr opened

/-- What a call for a line returns: the next line of the stream if it is within the limits, and an
error if it is not.
-/
inductive LineRead (limits : LlmGatewayBudget) (limit responseBytes events : Nat) (sofar : Bytes)
    (stream : Bytes)
    : Except GatewayError (Option Bytes) × BoundedStreamReader → Prop
  | done (empty : sofar ++ stream = [])
    : LineRead limits limit responseBytes events sofar stream
        (.ok none, ⟨[], responseBytes, events⟩)
  | line {line : Bytes} {others : List Bytes} {reads : List Bytes} {total : Nat}
    (split : splitInclusive isNewline (sofar ++ stream) = line :: others)
    (filled : Filled reads) (left : reads.flatten = others.flatten)
    (added : total + sofar.length = responseBytes + line.length)
    (within : line.length ≤ limit) (bounded : total ≤ limits.responseBodyMaxBytes)
    : LineRead limits limit responseBytes events sofar stream
        (.ok (some line), ⟨reads, total, events⟩)
  | failed {line : Bytes} {others : List Bytes} {error : GatewayError}
    {reader : BoundedStreamReader}
    (split : splitInclusive isNewline (sofar ++ stream) = line :: others)
    (exceeded : limit < line.length
      ∨ limits.responseBodyMaxBytes + sofar.length < responseBytes + line.length)
    : LineRead limits limit responseBytes events sofar stream (.error error, reader)

/-- Bytes of an open line may stand in the line read so far or in the stream. -/
theorem LineRead.shift {limit responseBytes events : Nat} {sofar more stream : Bytes}
    {result : Except GatewayError (Option Bytes) × BoundedStreamReader} (some : more ≠ [])
    (read : LineRead limits limit (responseBytes + more.length) events (sofar ++ more) stream
      result)
    : LineRead limits limit responseBytes events sofar (more ++ stream) result := by
  cases read with
  | done empty => simp [some] at empty
  | line split filled left added within bounded =>
      rw [List.append_assoc] at split
      refine .line split filled left ?_ within bounded
      rw [List.length_append] at added
      omega
  | failed split exceeded =>
      rw [List.append_assoc] at split
      refine .failed split ?_
      rw [List.length_append] at exceeded
      omega

/-- The first line is no shorter than what is known of it. -/
theorem first_line_length {body : Bytes} (opened : Open isNewline body) (some : body ≠ [])
    (rest : Bytes)
    : ∃ line others, splitInclusive isNewline (body ++ rest) = line :: others
        ∧ body.length ≤ line.length := by
  rw [Segments.splitInclusive_append opened some]
  cases splitInclusive isNewline rest with
  | nil => exact ⟨body, [], rfl, le_rfl⟩
  | cons line others =>
      refine ⟨body ++ line, others, rfl, ?_⟩
      rw [List.length_append]
      exact Nat.le_add_right _ _

theorem Open.append {left right : Bytes} (first : Open isNewline left)
    (second : Open isNewline right)
    : Open isNewline (left ++ right) :=
  fun byte member => (List.mem_append.mp member).elim (first byte) (second byte)

theorem readLineLoop_spec {limit responseBytes events : Nat} {sofar : Bytes} {reads : List Bytes}
    (filled : Filled reads) (opened : Open isNewline sofar) (within : sofar.length ≤ limit)
    (bounded : responseBytes ≤ limits.responseBodyMaxBytes)
    : LineRead limits limit responseBytes events sofar reads.flatten
        (readLineLoop limits limit events sofar responseBytes reads) := by
  induction reads generalizing sofar responseBytes with
  | nil =>
      rw [readLineLoop]
      by_cases empty : sofar = []
      · subst empty
        exact .done rfl
      · have one : splitInclusive isNewline (sofar ++ ([] : List Bytes).flatten) = [sofar] := by
          simpa using Segments.splitInclusive_open opened empty
        simp only [List.isEmpty_iff, empty, if_false]
        exact .line one filled rfl rfl within bounded
  | cons available rest ih =>
      obtain ⟨nonempty, later⟩ := List.forall_mem_cons.mp filled
      have some : available.isEmpty = false := by simpa using nonempty
      rw [readLineLoop, some, if_neg Bool.false_ne_true, List.flatten_cons]
      rcases Segments.open_or_closed isNewline available with
        more | ⟨body, last, tail, rfl, more, ends⟩
      · -- no line ends in this read: the loop goes on with all of it
        have goesOn : available.getLast?.any isNewline = false := by
          cases isLast : available.getLast? with
          | none => rfl
          | some byte => simpa using more byte (List.mem_of_getLast? isLast)
        simp only [take_open more, Option.elim_none, List.take_length, goesOn,
          Bool.false_eq_true, if_false]
        obtain ⟨line, others, split, longer⟩ := first_line_length (Open.append opened more)
          (by simp [nonempty]) rest.flatten
        rw [List.append_assoc] at split
        rw [List.length_append] at longer
        split_ifs with long large
        · exact .failed split (by omega)
        · exact .failed split (by omega)
        · refine LineRead.shift nonempty (ih later (Open.append opened more) ?_ ?_)
          · rw [List.length_append]
            omega
          · omega
      · -- the line ends in this read
        have cut : (body ++ last :: tail).take (body.length + 1) = body ++ [last] := by
          rw [List.append_cons, List.take_left' (by simp)]
        have left : (body ++ last :: tail).drop (body.length + 1) = tail := by
          rw [List.append_cons, List.drop_left' (by simp)]
        have stops : (body ++ [last]).getLast?.any isNewline = true := by simpa using ends
        simp only [take_closed more ends, Option.elim_some, cut, left, stops, if_true]
        have split : splitInclusive isNewline (sofar ++ (body ++ last :: tail ++ rest.flatten))
            = (sofar ++ (body ++ [last])) :: splitInclusive isNewline (tail ++ rest.flatten) := by
          have closed := Segments.splitInclusive_closed (Open.append opened more) ends
            (tail ++ rest.flatten)
          simpa using closed
        have length : (sofar ++ (body ++ [last])).length = sofar.length + (body.length + 1) := by
          simp
        obtain ⟨unreadFilled, unreadAll⟩ : Filled (unread tail rest)
            ∧ (unread tail rest).flatten = tail ++ rest.flatten := Filled.unread later
        split_ifs with long large
        · exact .failed split (by omega)
        · exact .failed split (by omega)
        · refine .line split unreadFilled ?_ ?_ ?_ ?_
          · rw [unreadAll, Segments.flatten_splitInclusive]
          · omega
          · omega
          · omega

/-! ## Texts -/

/-- The bytes are a text. -/
def IsUtf8 (bytes : Bytes) : Prop :=
  ∃ text : List Char, bytes = text.flatMap String.utf8EncodeChar

theorem IsUtf8.append {left right : Bytes} (first : IsUtf8 left) (second : IsUtf8 right)
    : IsUtf8 (left ++ right) := by
  obtain ⟨text, rfl⟩ := first
  obtain ⟨more, rfl⟩ := second
  exact ⟨text ++ more, by rw [List.flatMap_append]⟩

theorem IsUtf8.flatten {parts : List Bytes} (each : ∀ part ∈ parts, IsUtf8 part)
    : IsUtf8 parts.flatten := by
  induction parts with
  | nil => exact ⟨[], rfl⟩
  | cons part rest ih =>
      obtain ⟨here, later⟩ := List.forall_mem_cons.mp each
      exact here.append (ih later)

/-- A newline byte stands for itself, so the lines of a text are texts. -/
theorem IsUtf8.lines {stream : Bytes} (utf8 : IsUtf8 stream)
    : ∀ line ∈ splitInclusive isNewline stream, IsUtf8 line := by
  obtain ⟨text, rfl⟩ := utf8
  have marks : ∀ c : Char, (c == '\n') = true
      → ∃ byte, String.utf8EncodeChar c = [byte] ∧ isNewline byte = true := by
    intro c newline
    obtain rfl := beq_iff_eq.mp newline
    exact ⟨10, by decide, rfl⟩
  have others : ∀ c : Char, (c == '\n') = false
      → Open isNewline (String.utf8EncodeChar c) ∧ String.utf8EncodeChar c ≠ [] := by
    intro c other
    refine ⟨fun byte member => ?_, fun none => ?_⟩
    · rw [isNewline, beq_eq_false_iff_ne]
      rintro rfl
      exact beq_eq_false_iff_ne.mp other (JsonText.utf8EncodeChar_newline member)
    · have length := String.length_utf8EncodeChar c
      rw [none, List.length_nil] at length
      exact absurd length (Char.utf8Size_pos c).ne
  rw [Segments.splitInclusive_flatMap _ marks others]
  intro line member
  obtain ⟨part, -, rfl⟩ := List.mem_map.mp member
  exact ⟨part, rfl⟩

theorem decodeStreamItem_of_utf8 (utf8 : Utf8Failure) {bytes : Bytes} (valid : IsUtf8 bytes)
    : ∃ text, decodeStreamItem utf8 bytes = .ok (some text) ∧ textBytes text = bytes := by
  obtain ⟨text, rfl⟩ := valid
  refine ⟨String.ofList text, ?_, ?_⟩
  · rw [decodeStreamItem, JsonText.fromUTF8?_utf8Encode]
  · rw [textBytes, String.toList_ofList]

/-! ## One item -/

/-- What a call for an item returns, where the items of the stream are known and the totals are
those before the first of them.
-/
inductive ItemRead (limits : LlmGatewayBudget) (responseBytes events : Nat)
    (items : List (List Bytes))
    : Except GatewayError (Option String) × BoundedStreamReader → Prop
  | done (empty : items = [])
    : ItemRead limits responseBytes events items (.ok none, ⟨[], responseBytes, events⟩)
  | item {item : List Bytes} {others : List (List Bytes)} {text : String} {reads : List Bytes}
    (split : items = item :: others) (fits : Fits limits responseBytes events item)
    (same : textBytes text = item.flatten) (filled : Filled reads)
    (left : reads.flatten = others.flatten.flatten)
    : ItemRead limits responseBytes events items
        (.ok (some text), ⟨reads, responseBytes + item.flatten.length, events + 1⟩)
  | failed {item : List Bytes} {others : List (List Bytes)} {error : GatewayError}
    {reader : BoundedStreamReader}
    (split : items = item :: others) (exceeded : ¬ Fits limits responseBytes events item)
    : ItemRead limits responseBytes events items (.error error, reader)

/-- The end of an item of which the bytes are read and within the limits. -/
theorem finishItem_spec (utf8 : Utf8Failure) {responseBytes events total : Nat} {bytes : Bytes}
    {item : List Bytes} {others items : List (List Bytes)} {reads : List Bytes}
    (split : items = item :: others) (whole : item.flatten = bytes) (valid : IsUtf8 bytes)
    (filled : Filled reads) (left : reads.flatten = others.flatten.flatten)
    (lines : ∀ line ∈ item, line.length ≤ limits.streamChunkMaxBytes)
    (size : bytes.length ≤ limits.streamEventMaxBytes)
    (added : total = responseBytes + bytes.length)
    (bounded : total ≤ limits.responseBodyMaxBytes)
    : ItemRead limits responseBytes events items
        (BoundedStreamReader.finishItem utf8 limits ⟨reads, total, events⟩ bytes) := by
  subst added whole
  rw [BoundedStreamReader.finishItem]
  split_ifs with full
  · exact .failed split fun fits => absurd fits.count (Nat.not_le.mpr full)
  · obtain ⟨text, decoded, same⟩ := decodeStreamItem_of_utf8 utf8 valid
    rw [decoded]
    exact .item split ⟨lines, size, bounded, Nat.not_lt.mp full⟩ same filled left

/-- What a call for a line returns, from the start of a line. -/
theorem readBoundedLine_spec {reader : BoundedStreamReader} (filled : Filled reader.reads)
    (bounded : reader.responseBytes ≤ limits.responseBodyMaxBytes) (limit : Nat)
    : LineRead limits limit reader.responseBytes reader.events [] reader.reads.flatten
        (reader.readBoundedLine limits limit) :=
  readLineLoop_spec filled (by simp [Open]) (Nat.zero_le _) bounded

theorem nextNdjsonLine_spec (utf8 : Utf8Failure) {reader : BoundedStreamReader}
    (filled : Filled reader.reads) (valid : IsUtf8 reader.reads.flatten)
    (bounded : reader.responseBytes ≤ limits.responseBodyMaxBytes)
    : ItemRead limits reader.responseBytes reader.events (itemsOf .ndjson reader.reads.flatten)
        (reader.nextNdjsonLine utf8 limits) := by
  have read := readBoundedLine_spec filled bounded
    (min limits.streamChunkMaxBytes limits.streamEventMaxBytes)
  rw [BoundedStreamReader.nextNdjsonLine, itemsOf]
  generalize reader.readBoundedLine limits _ = result at read
  cases read with
  | done empty =>
      rw [List.nil_append] at empty
      exact .done (by rw [empty]; rfl)
  | @line line others reads total split more left added within total_le =>
      rw [List.nil_append] at split
      rw [List.length_nil, Nat.add_zero] at added
      obtain ⟨chunk, event⟩ := le_min_iff.mp within
      have behind : (others.map fun line => [line]).flatten.flatten = others.flatten := by
        rw [← List.flatMap_def]
        simp
      refine finishItem_spec utf8 (by rw [split]; rfl) (by simp)
        (valid.lines line (by simp [split])) more (left.trans behind.symm) ?_ event added total_le
      simpa using chunk
  | @failed line others error reader' split exceeded =>
      rw [List.nil_append] at split
      refine .failed (by rw [split]; rfl) fun fits => ?_
      have chunk := fits.lines line (by simp)
      have size := fits.size
      have total := fits.total
      simp only [List.flatten_cons, List.flatten_nil, List.append_nil] at size total
      rw [List.length_nil] at exceeded
      omega

/-- The loop of an event, of which the lines so far are open and within the limits. The induction
is on the fuel, of which every line of the stream takes one.
-/
theorem sseEventLoop_spec (utf8 : Utf8Failure) {fuel responseBytes : Nat} {sofar : List Bytes}
    {reader : BoundedStreamReader} (filled : Filled reader.reads)
    (valid : IsUtf8 reader.reads.flatten) (validSofar : IsUtf8 sofar.flatten)
    (enough : (splitInclusive isNewline reader.reads.flatten).length < fuel)
    (opened : Segments.Open isBlankLine sofar) (some : ∀ line ∈ sofar, line ≠ [])
    (lines : ∀ line ∈ sofar, line.length ≤ limits.streamChunkMaxBytes)
    (size : sofar.flatten.length ≤ limits.streamEventMaxBytes)
    (added : reader.responseBytes = responseBytes + sofar.flatten.length)
    (bounded : reader.responseBytes ≤ limits.responseBodyMaxBytes)
    : ItemRead limits responseBytes reader.events
        (splitInclusive isBlankLine (sofar ++ splitInclusive isNewline reader.reads.flatten))
        (sseEventLoop utf8 limits fuel sofar.flatten reader) := by
  induction fuel generalizing sofar reader with
  | zero => exact absurd enough (Nat.not_lt_zero _)
  | succ fuel ih =>
      have read := readBoundedLine_spec filled bounded limits.streamChunkMaxBytes
      rw [sseEventLoop]
      generalize reader.readBoundedLine limits limits.streamChunkMaxBytes = result at read
      cases read with
      | done empty =>
          rw [List.nil_append] at empty
          rw [empty, splitInclusive, List.append_nil]
          by_cases none : sofar = []
          · subst none
            rw [List.flatten_nil, List.length_nil, Nat.add_zero] at added
            rw [added]
            exact .done rfl
          · have bytes : sofar.flatten.isEmpty = false := by
              obtain ⟨line, member⟩ := List.exists_mem_of_ne_nil sofar none
              rw [Bool.eq_false_iff, Ne, List.isEmpty_iff, List.flatten_eq_nil_iff]
              exact fun all => some line member (all line member)
            simp only [bytes, Bool.false_eq_true, if_false]
            exact finishItem_spec utf8 (Segments.splitInclusive_open opened none) rfl validSofar
              (by simp [Filled]) rfl lines size added bounded
      | @line line others reads total split more left addedLine within total_le =>
          rw [List.nil_append] at split
          rw [List.length_nil, Nat.add_zero, added, Nat.add_assoc] at addedLine
          obtain ⟨behind, -, nonempty, -⟩ := Segments.splitInclusive_cons split
          rw [← left] at behind
          have validLines := valid.lines
          rw [split] at enough validLines ⊢
          obtain ⟨validLine, validOthers⟩ := List.forall_mem_cons.mp validLines
          have event : (sofar ++ [line]).flatten = sofar.flatten ++ line := by simp
          have validEvent : IsUtf8 (sofar ++ [line]).flatten := event ▸ validSofar.append validLine
          have allLines : ∀ each ∈ sofar ++ [line], each.length ≤ limits.streamChunkMaxBytes :=
            fun each member => (List.mem_append.mp member).elim (lines each) fun last =>
              (List.mem_singleton.mp last).symm ▸ within
          dsimp only
          split_ifs with large blank
          · obtain ⟨later, rest, first⟩ := Segments.first_segment opened line others
            refine .failed first fun fits => ?_
            have fit := fits.size
            simp only [List.flatten_append, List.flatten_cons, List.length_append] at fit
            omega
          · refine finishItem_spec utf8 (Segments.splitInclusive_closed opened blank others) event
              (event ▸ validEvent) more ?_ allLines ?_ ?_ total_le
            · rw [left, Segments.flatten_splitInclusive]
            · rw [List.length_append]
              omega
            · rw [addedLine, List.length_append]
          · rw [← event, List.append_cons, ← behind]
            rw [Bool.not_eq_true] at blank
            refine @ih (sofar ++ [line]) ⟨reads, total, reader.events⟩ more ?_ validEvent ?_ ?_ ?_
              allLines ?_ ?_ total_le
            · rw [left]
              exact IsUtf8.flatten validOthers
            · rw [behind]
              rw [List.length_cons] at enough
              omega
            · intro each member
              rcases List.mem_append.mp member with old | last
              · exact opened each old
              · exact (List.mem_singleton.mp last).symm ▸ blank
            · intro each member
              rcases List.mem_append.mp member with old | last
              · exact some each old
              · exact (List.mem_singleton.mp last).symm ▸ nonempty
            · rw [event, List.length_append]
              omega
            · rw [event, List.length_append]
              exact addedLine
      | @failed line others error reader' split exceeded =>
          rw [List.nil_append] at split
          rw [List.length_nil, Nat.add_zero, added] at exceeded
          rw [split]
          obtain ⟨later, rest, first⟩ := Segments.first_segment opened line others
          refine .failed first fun fits => ?_
          have chunk := fits.lines line (by simp)
          have total := fits.total
          simp only [List.flatten_append, List.flatten_cons, List.length_append] at total
          omega

theorem next_spec (utf8 : Utf8Failure) (protocol : StreamProtocol) {reader : BoundedStreamReader}
    (filled : Filled reader.reads) (valid : IsUtf8 reader.reads.flatten)
    (bounded : reader.responseBytes ≤ limits.responseBodyMaxBytes)
    : ItemRead limits reader.responseBytes reader.events (itemsOf protocol reader.reads.flatten)
        (reader.next utf8 limits protocol) := by
  cases protocol with
  | ndjson => exact nextNdjsonLine_spec utf8 filled valid bounded
  | sse =>
      have lines := Segments.length_splitInclusive_le isNewline reader.reads.flatten
      have validNone : IsUtf8 ([] : List Bytes).flatten := ⟨[], rfl⟩
      exact sseEventLoop_spec utf8 filled valid validNone (Nat.lt_succ_of_le lines)
        (by simp [Segments.Open]) (by simp) (by simp) (Nat.zero_le _) rfl bounded

/-! ## Whole streams -/

theorem itemsOf_cons {protocol : StreamProtocol} {stream : Bytes} {item : List Bytes}
    {others : List (List Bytes)} (split : itemsOf protocol stream = item :: others)
    : itemsOf protocol others.flatten.flatten = others
      ∧ stream = item.flatten ++ others.flatten.flatten := by
  cases protocol with
  | sse =>
      obtain ⟨behind, lines, -, -⟩ := Segments.splitInclusive_cons split
      refine ⟨?_, ?_⟩
      · rw [itemsOf, Segments.splitInclusive_suffix lines, behind]
      · rw [← List.flatten_append, ← lines, Segments.flatten_splitInclusive]
  | ndjson =>
      obtain ⟨line, lines, cut, rfl, rfl⟩ := List.map_eq_cons_iff.mp split
      obtain ⟨behind, whole, -, -⟩ := Segments.splitInclusive_cons cut
      have same : (lines.map fun line => [line]).flatten = lines := by
        rw [← List.flatMap_def]
        simp
      rw [itemsOf, same, behind]
      exact ⟨rfl, by simpa using whole⟩

/-- The lines of an item are those of its bytes. -/
theorem itemsOf_lines {protocol : StreamProtocol} {stream : Bytes} {item : List Bytes}
    {others : List (List Bytes)} (split : itemsOf protocol stream = item :: others)
    : splitInclusive isNewline item.flatten = item := by
  cases protocol with
  | sse =>
      obtain ⟨-, lines, -, -⟩ := Segments.splitInclusive_cons split
      exact Segments.splitInclusive_prefix lines
  | ndjson =>
      obtain ⟨line, lines, cut, rfl, -⟩ := List.map_eq_cons_iff.mp split
      have first : splitInclusive isNewline stream = [line] ++ lines := cut
      exact Segments.splitInclusive_prefix first

theorem flatten_itemsOf (protocol : StreamProtocol) (stream : Bytes)
    : (itemsOf protocol stream).flatten = splitInclusive isNewline stream := by
  cases protocol with
  | sse => rw [itemsOf, Segments.flatten_splitInclusive]
  | ndjson =>
      rw [itemsOf, ← List.flatMap_def]
      simp

theorem length_itemsOf_le (protocol : StreamProtocol) (stream : Bytes)
    : (itemsOf protocol stream).length ≤ stream.length := by
  have lines := Segments.length_splitInclusive_le isNewline stream
  cases protocol with
  | sse => exact (Segments.length_splitInclusive_le isBlankLine _).trans lines
  | ndjson => simpa [itemsOf] using lines

instance (limits : LlmGatewayBudget) (responseBytes events : Nat) (item : List Bytes)
    : Decidable (Fits limits responseBytes events item) :=
  decidable_of_iff
    ((∀ line ∈ item, line.length ≤ limits.streamChunkMaxBytes)
      ∧ item.flatten.length ≤ limits.streamEventMaxBytes
      ∧ responseBytes + item.flatten.length ≤ limits.responseBodyMaxBytes
      ∧ events + 1 ≤ limits.streamMaxEvents)
    ⟨fun ⟨lines, size, total, count⟩ => ⟨lines, size, total, count⟩,
      fun fits => ⟨fits.lines, fits.size, fits.total, fits.count⟩⟩

/-- The items before the first that exceeds a limit. -/
def acceptedItems (limits : LlmGatewayBudget) : Nat → Nat → List (List Bytes) → List (List Bytes)
  | _, _, [] => []
  | responseBytes, events, item :: rest =>
      if Fits limits responseBytes events item then
        item :: acceptedItems limits (responseBytes + item.flatten.length) (events + 1) rest
      else []

/-- The meter accepts the items in turn, has the totals of the reader behind each, and ends as the
last tracker.
-/
inductive Metered (limits : LlmGatewayBudget) (protocol : StreamProtocol)
    : StreamBudgetTracker → List (String × BoundedStreamReader) → StreamBudgetTracker → Prop
  | nil (tracker : StreamBudgetTracker) : Metered limits protocol tracker [] tracker
  | cons {tracker next last : StreamBudgetTracker} {item : String} {reader : BoundedStreamReader}
    {rest : List (String × BoundedStreamReader)}
    (observed : tracker.observeChunk limits protocol item = .ok next)
    (sameBytes : next.responseBytes = reader.responseBytes)
    (sameEvents : next.events = reader.events) (later : Metered limits protocol next rest last)
    : Metered limits protocol tracker ((item, reader) :: rest) last

theorem observeChunk_of_fits {protocol : StreamProtocol} {tracker : StreamBudgetTracker}
    {item : List Bytes} {text : String}
    (fits : Fits limits tracker.responseBytes tracker.events item)
    (same : textBytes text = item.flatten)
    (lines : splitInclusive isNewline item.flatten = item)
    : tracker.observeChunk limits protocol text
      = .ok ⟨tracker.responseBytes + item.flatten.length, tracker.events + 1⟩ := by
  have short : item.any (limits.streamChunkMaxBytes < ·.length) = false := by
    rw [List.any_eq_false]
    intro line member
    simpa using fits.lines line member
  simp only [StreamBudgetTracker.observeChunk, same, lines, short,
    if_neg (Nat.not_lt.mpr fits.size), if_neg (Nat.not_lt.mpr fits.total),
    if_neg (Nat.not_lt.mpr fits.count), Bool.false_eq_true, if_false]

/-- What the reading of a stream returns, from any totals. -/
structure StreamRead (limits : LlmGatewayBudget) (protocol : StreamProtocol)
    (responseBytes events : Nat) (items : List (List Bytes)) (reading : Reading)
    : Prop where
  texts : reading.items.map (fun entry => textBytes entry.1)
    = (acceptedItems limits responseBytes events items).map List.flatten
  ending : (acceptedItems limits responseBytes events items = items ∧ reading.ending = .finished)
    ∨ (acceptedItems limits responseBytes events items ≠ items
      ∧ ∃ error, reading.ending = .failed error)
  metered : ∃ last, Metered limits protocol ⟨responseBytes, events⟩ reading.items last
    ∧ (reading.ending = .finished
      → reading.last.responseBytes = last.responseBytes ∧ reading.last.events = last.events)

theorem readItems_spec (utf8 : Utf8Failure) {protocol : StreamProtocol} {fuel : Nat}
    (reader : BoundedStreamReader) (filled : Filled reader.reads)
    (valid : IsUtf8 reader.reads.flatten)
    (bounded : reader.responseBytes ≤ limits.responseBodyMaxBytes)
    (enough : (itemsOf protocol reader.reads.flatten).length < fuel)
    : StreamRead limits protocol reader.responseBytes reader.events
        (itemsOf protocol reader.reads.flatten) (readItems utf8 limits protocol fuel reader) := by
  induction fuel generalizing reader with
  | zero => exact absurd enough (Nat.not_lt_zero _)
  | succ fuel ih =>
      have read := next_spec utf8 protocol filled valid bounded
      have known := @itemsOf_cons protocol reader.reads.flatten
      have lines := @itemsOf_lines protocol reader.reads.flatten
      have validLines := valid.lines
      rw [← flatten_itemsOf protocol] at validLines
      rw [readItems]
      generalize reader.next utf8 limits protocol = result at read
      generalize itemsOf protocol reader.reads.flatten = items
        at read enough known lines validLines
      cases read with
      | done empty =>
          subst empty
          exact ⟨rfl, Or.inl ⟨rfl, rfl⟩, _, .nil _, fun _ => ⟨rfl, rfl⟩⟩
      | @item item others text reads split fits same more left =>
          subst split
          obtain ⟨behind, whole⟩ := known rfl
          have validRest : IsUtf8 reads.flatten := by
            rw [left]
            exact IsUtf8.flatten fun line member =>
              validLines line (List.mem_append_right item member)
          have later := ih
            ⟨reads, reader.responseBytes + item.flatten.length, reader.events + 1⟩ more validRest
            fits.total
            (by dsimp only; rw [left, behind]; simpa using enough)
          dsimp only at later
          rw [left, behind] at later
          have accepted : acceptedItems limits reader.responseBytes reader.events (item :: others)
              = item :: acceptedItems limits (reader.responseBytes + item.flatten.length)
                  (reader.events + 1) others := if_pos fits
          refine ⟨?_, ?_, ?_⟩
          · rw [accepted, List.map_cons, List.map_cons, same, later.texts]
          · rw [accepted]
            simpa using later.ending
          · obtain ⟨last, metered, totals⟩ := later.metered
            exact ⟨last, .cons (observeChunk_of_fits fits same (lines rfl)) rfl rfl metered, totals⟩
      | @failed item others error reader' split exceeded =>
          subst split
          have accepted : acceptedItems limits reader.responseBytes reader.events (item :: others)
              = [] := if_neg exceeded
          refine ⟨by rw [accepted]; rfl, Or.inr ⟨?_, error, rfl⟩, _, .nil _, ?_⟩
          · rw [accepted]
            exact (List.cons_ne_nil item others).symm
          · intro finished
            exact absurd finished (by simp)

/-- The accepted items are the first ones, up to one that exceeds a limit. -/
theorem acceptedItems_spec (limits : LlmGatewayBudget) (responseBytes events : Nat)
    (items : List (List Bytes))
    : let accepted := acceptedItems limits responseBytes events items
      accepted <+: items
        ∧ (∀ n < accepted.length, ∀ item, items[n]? = some item →
            Fits limits (responseBytes + (items.take n).flatten.flatten.length) (events + n) item)
        ∧ ∀ item, items[accepted.length]? = some item →
            ¬ Fits limits (responseBytes + (items.take accepted.length).flatten.flatten.length)
              (events + accepted.length) item := by
  induction items generalizing responseBytes events with
  | nil => simp [acceptedItems]
  | cons item rest ih =>
      intro accepted
      by_cases fits : Fits limits responseBytes events item
      · have cut : accepted = item :: acceptedItems limits
            (responseBytes + item.flatten.length) (events + 1) rest := if_pos fits
        obtain ⟨isPrefix, within, exceeded⟩ :=
          ih (responseBytes + item.flatten.length) (events + 1)
        have moved (n : Nat) : responseBytes + ((item :: rest).take (n + 1)).flatten.flatten.length
            = responseBytes + item.flatten.length + (rest.take n).flatten.flatten.length := by
          simp only [List.take_succ_cons, List.flatten_cons, List.flatten_append,
            List.length_append]
          omega
        have next (n : Nat) : events + (n + 1) = events + 1 + n := by omega
        rw [cut]
        refine ⟨List.prefix_cons_inj item |>.mpr isPrefix, ?_, ?_⟩
        · intro n bound other here
          cases n with
          | zero =>
              obtain rfl : item = other := by simpa using here
              simpa using fits
          | succ n =>
              rw [moved, next]
              exact within n (by simpa using bound) other (by simpa using here)
        · intro other here
          rw [List.length_cons, List.getElem?_cons_succ] at here
          rw [List.length_cons, moved, next (List.length _)]
          exact exceeded other here
      · have cut : accepted = [] := if_neg fits
        rw [cut]
        refine ⟨List.nil_prefix, by simp, ?_⟩
        intro other here
        obtain rfl : item = other := by simpa using here
        simpa using fits

/-! ## Lossless and metered reading -/

theorem textBytes_injective {left right : String} (same : textBytes left = textBytes right)
    : left = right := by
  have decode (text : String)
      : String.fromUTF8? (textBytes text).toByteArray = some text := by
    rw [textBytes, JsonText.fromUTF8?_utf8Encode, String.ofList_toList]
  exact Option.some.inj ((decode left).symm.trans (same ▸ decode right))

/-- A text and the totals behind it. -/
def withTotals (entry : String × BoundedStreamReader) : String × Nat × Nat :=
  (entry.1, entry.2.responseBytes, entry.2.events)

/-- The meter knows the totals, so the texts determine them. -/
theorem Metered.unique {protocol : StreamProtocol} {tracker last last' : StreamBudgetTracker}
    {items others : List (String × BoundedStreamReader)}
    (one : Metered limits protocol tracker items last)
    (two : Metered limits protocol tracker others last')
    (same : items.map (·.1) = others.map (·.1))
    : items.map withTotals = others.map withTotals := by
  induction one generalizing others with
  | nil => rw [List.map_eq_nil_iff.mp same.symm]
  | @cons tracker next last item reader rest observed sameBytes sameEvents later ih =>
      cases two with
      | nil => simp at same
      | @cons _ next' _ item' reader' rest' observed' sameBytes' sameEvents' later' =>
          obtain ⟨rfl, tail⟩ := List.cons.inj same
          obtain rfl := Except.ok.inj (observed.symm.trans observed')
          rw [List.map_cons, List.map_cons, ih later' tail, withTotals, withTotals, ← sameBytes,
            ← sameEvents, ← sameBytes', ← sameEvents']

/-- What the reader does with a stream that comes in these reads. -/
structure LosslessReading (utf8 : Utf8Failure) (limits : LlmGatewayBudget)
    (protocol : StreamProtocol) (reads : List Bytes)
    : Prop where
  /-- The returned bytes are the first of the stream, and all without an error. -/
  lossless :
    let reading := readStream utf8 limits protocol reads
    ∃ rest, reads.flatten = (reading.items.map fun entry => textBytes entry.1).flatten ++ rest
      ∧ (reading.ending = .finished → rest = [])
  /-- The returned items are the first of the stream. -/
  returned :
    let reading := readStream utf8 limits protocol reads
    reading.items.map (fun entry => textBytes entry.1)
      = ((itemsOf protocol reads.flatten).take reading.items.length).map List.flatten
  /-- An event ends at its first blank line, or at the end of the stream. -/
  eventEnds : ∀ before item after, itemsOf .sse reads.flatten = before ++ item :: after
    → (∃ body last, item = body ++ [last] ∧ (∀ line ∈ body, isBlankLine line = false)
        ∧ isBlankLine last = true)
      ∨ ((∀ line ∈ item, isBlankLine line = false) ∧ after = [])
  /-- An error is raised exactly when the next item exceeds a limit. -/
  errors :
    let reading := readStream utf8 limits protocol reads
    let items := itemsOf protocol reads.flatten
    (∀ n < reading.items.length, ∀ item, items[n]? = some item
        → Fits limits (items.take n).flatten.flatten.length n item)
      ∧ ((∃ error, reading.ending = .failed error)
        ↔ ∃ item, items[reading.items.length]? = some item
          ∧ ¬ Fits limits (items.take reading.items.length).flatten.flatten.length
              reading.items.length item)
      ∧ ((∃ error, reading.ending = .failed error) ∨ reading.ending = .finished)
  /-- Other reads of the same stream give the same items with the same totals behind each, and an
  error if and only if these do.
  -/
  independent : ∀ other, Filled other → other.flatten = reads.flatten →
    let reading := readStream utf8 limits protocol reads
    let again := readStream utf8 limits protocol other
    again.items.map withTotals = reading.items.map withTotals
      ∧ ((∃ error, again.ending = .failed error) ↔ ∃ error, reading.ending = .failed error)
  /-- The meter accepts every item and has the totals of the reader behind each, and behind the
  whole stream if it was read.
  -/
  metered :
    let reading := readStream utf8 limits protocol reads
    ∃ last, Metered limits protocol {} reading.items last
      ∧ (reading.ending = .finished
        → reading.last.responseBytes = last.responseBytes ∧ reading.last.events = last.events)

theorem readStream_spec (utf8 : Utf8Failure) (limits : LlmGatewayBudget)
    (protocol : StreamProtocol) {reads : List Bytes} (filled : Filled reads)
    (valid : IsUtf8 reads.flatten)
    : StreamRead limits protocol 0 0 (itemsOf protocol reads.flatten)
        (readStream utf8 limits protocol reads) :=
  readItems_spec utf8 { reads } filled valid (Nat.zero_le _)
    (Nat.lt_succ_of_le (length_itemsOf_le protocol reads.flatten))

theorem itemsOf_sse_ends {stream : Bytes} {before after : List (List Bytes)} {item : List Bytes}
    (split : itemsOf .sse stream = before ++ item :: after)
    : (∃ body last, item = body ++ [last] ∧ (∀ line ∈ body, isBlankLine line = false)
        ∧ isBlankLine last = true)
      ∨ ((∀ line ∈ item, isBlankLine line = false) ∧ after = []) :=
  (Segments.splitInclusive_cons (Segments.splitInclusive_suffix split)).2.2.2

section Fields

variable {responseBytes events : Nat} {protocol : StreamProtocol} {items : List (List Bytes)}
  {reading : Reading}

theorem StreamRead.count (read : StreamRead limits protocol responseBytes events items reading)
    : reading.items.length = (acceptedItems limits responseBytes events items).length := by
  simpa using congrArg List.length read.texts

theorem StreamRead.lossless (read : StreamRead limits protocol responseBytes events items reading)
    : ∃ rest, items.flatten.flatten
          = (reading.items.map fun entry => textBytes entry.1).flatten ++ rest
        ∧ (reading.ending = .finished → rest = []) := by
  obtain ⟨more, whole⟩ := (acceptedItems_spec limits responseBytes events items).1
  refine ⟨more.flatten.flatten, ?_, ?_⟩
  · rw [read.texts, ← List.flatten_flatten, ← List.flatten_append, ← List.flatten_append, whole]
  · intro finished
    rcases read.ending with ⟨all, -⟩ | ⟨-, error, failed⟩
    · rw [all, List.append_right_eq_self] at whole
      rw [whole]
      rfl
    · exact absurd (finished.symm.trans failed) (by simp)

theorem StreamRead.returned (read : StreamRead limits protocol responseBytes events items reading)
    : reading.items.map (fun entry => textBytes entry.1)
      = (items.take reading.items.length).map List.flatten := by
  have first := List.prefix_iff_eq_take.mp (acceptedItems_spec limits responseBytes events items).1
  rw [read.texts, read.count, ← first]

theorem StreamRead.failed_iff (read : StreamRead limits protocol responseBytes events items reading)
    : (∃ error, reading.ending = .failed error)
      ↔ acceptedItems limits responseBytes events items ≠ items := by
  rcases read.ending with ⟨all, finished⟩ | ⟨some, failed⟩
  · simp [all, finished]
  · simp [some, failed]

theorem StreamRead.exceeded_iff
    (read : StreamRead limits protocol responseBytes events items reading)
    : (∃ error, reading.ending = .failed error)
      ↔ ∃ item, items[reading.items.length]? = some item
        ∧ ¬ Fits limits
            (responseBytes + (items.take reading.items.length).flatten.flatten.length)
            (events + reading.items.length) item := by
  obtain ⟨isPrefix, -, exceeded⟩ := acceptedItems_spec limits responseBytes events items
  rw [read.failed_iff, read.count]
  constructor
  · intro partly
    have shorter : (acceptedItems limits responseBytes events items).length < items.length :=
      lt_of_le_of_ne isPrefix.length_le fun same => partly (isPrefix.eq_of_length same)
    obtain ⟨item, here⟩ : ∃ item,
        items[(acceptedItems limits responseBytes events items).length]? = some item :=
      ⟨_, List.getElem?_eq_getElem shorter⟩
    exact ⟨item, here, exceeded item here⟩
  · rintro ⟨item, here, -⟩ all
    rw [all, List.getElem?_length] at here
    exact absurd here (by simp)

end Fields

/-- Bounded reading is lossless, does not depend on the reads but for the text of an error, and
agrees with the meter.
-/
theorem readStream_lossless (utf8 : Utf8Failure) (limits : LlmGatewayBudget)
    (protocol : StreamProtocol) (reads : List Bytes) (filled : Filled reads)
    (valid : IsUtf8 reads.flatten)
    : LosslessReading utf8 limits protocol reads := by
  have read := readStream_spec utf8 limits protocol filled valid
  have stream : (itemsOf protocol reads.flatten).flatten.flatten = reads.flatten := by
    rw [flatten_itemsOf, Segments.flatten_splitInclusive]
  refine ⟨stream ▸ read.lossless, read.returned, fun _ _ _ => itemsOf_sse_ends, ⟨?_, ?_, ?_⟩, ?_,
    read.metered⟩
  · intro n bound item here
    have fits := (acceptedItems_spec limits 0 0 _).2.1 n (read.count ▸ bound) item here
    rwa [Nat.zero_add, Nat.zero_add] at fits
  · have exceeded := read.exceeded_iff
    rwa [Nat.zero_add, Nat.zero_add] at exceeded
  · rcases read.ending with ⟨-, finished⟩ | ⟨-, failed⟩
    · exact Or.inr finished
    · exact Or.inl failed
  · intro other otherFilled same reading again
    have otherRead := readStream_spec utf8 limits protocol otherFilled (same ▸ valid)
    rw [same] at otherRead
    refine ⟨?_, otherRead.failed_iff.trans read.failed_iff.symm⟩
    obtain ⟨last, metered, -⟩ := read.metered
    obtain ⟨otherLast, otherMetered, -⟩ := otherRead.metered
    refine otherMetered.unique metered ?_
    have bytes := otherRead.texts.trans read.texts.symm
    have injective : Function.Injective textBytes := fun _ _ => textBytes_injective
    refine List.map_injective_iff.mpr injective ?_
    rw [List.map_map, List.map_map]
    exact bytes

def sampleFailure : Utf8Failure := ⟨fun _ => "invalid utf-8 sequence"⟩

/-- Two events, cut inside the first. -/
def sampleReads : List Bytes :=
  [textBytes "data: a\n", textBytes "\ndata", textBytes ": b\n\n"]

theorem sampleReads_lossless
    : LosslessReading sampleFailure ⟨64, 64, 2, 18⟩ .sse sampleReads
      ∧ (readStream sampleFailure ⟨64, 64, 2, 18⟩ .sse sampleReads).items.map (·.1)
          = ["data: a\n\n", "data: b\n\n"] :=
  ⟨readStream_lossless sampleFailure ⟨64, 64, 2, 18⟩ .sse sampleReads
      (by simp only [Filled]; decide +kernel)
      ⟨"data: a\n\ndata: b\n\n".toList, by decide +kernel⟩,
    by decide +kernel⟩

/-- A line that exceeds its limit and that of the whole stream: in one read the error names the
line, byte by byte it names the stream. The bytes of the line were counted, though nothing was
returned.
-/
theorem error_depends_on_reads
    : let limits : LlmGatewayBudget := ⟨3, 3, 9, 2⟩
      let whole := [textBytes "aaaa\n"]
      let bytes := (textBytes "aaaa\n").map fun byte => [byte]
      whole.flatten = bytes.flatten
        ∧ (readStream sampleFailure limits .ndjson whole).ending
          = .failed (responseBudgetError "stream line")
        ∧ (readStream sampleFailure limits .ndjson bytes).ending
          = .failed (responseBudgetError "cumulative response body")
        ∧ (readStream sampleFailure limits .ndjson bytes).items = []
        ∧ (readStream sampleFailure limits .ndjson bytes).last.responseBytes = 2 := by
  decide +kernel

end BeetleMemory.Gateway
