import BeetleMemory.Transcript.Keys
import BeetleMemory.Graph.Text
import BeetleMemory.Lib.Keyed

/-! The search of transcripts: the terms of a query and of a message, and the excerpt of a message
with its highlights. Matches are found in the normalized text, so that each of its characters is
kept with the place in the message it comes from.
-/

namespace BeetleMemory.Transcript

open BeetleMemory.Graph (TextTables TermLimits isCjk normalizeRetrievalText collectRetrievalTerms)
open Keyed (sortBy distinctSorted)
open Store (Error textLen require)

def maxSessionMessageLen : Nat := 4 * 1024

def maxTranscriptIndexTermsPerMessage : Nat := 2 * maxSessionMessageLen

def maxTranscriptSearchQueryBytes : Nat := 1024

def maxTranscriptSearchQueryChars : Nat := 512

def maxTranscriptSearchTerms : Nat := 24

def maxTranscriptSearchExcerptChars : Nat := 220

structure NormalizedTranscriptSearchQueryV1 where
  schemaVersion : Nat
  normalized : String
  terms : List String
deriving DecidableEq, Repr

structure TranscriptTextHighlight where
  startChar : Nat
  endChar : Nat
deriving DecidableEq, Repr

structure TranscriptSearchExcerpt where
  text : String
  highlights : List TranscriptTextHighlight
  truncatedBefore : Bool
  truncatedAfter : Bool
deriving DecidableEq, Repr

variable (tables : TextTables)

/-- A character that stays in a normalized text. -/
def staysInText (ch : Char) : Bool :=
  tables.isAlphanumeric ch || isCjk ch

/-- The loop over the characters of a message, with the place of the first separator since the
last word.
-/
def charMapLoop : List Char → Nat → Option Nat → List (Char × Nat) → List (Char × Nat)
  | [], _, _, out => out
  | ch :: rest, originalIndex, pendingSpaceAt, out =>
      if staysInText tables ch then
        let out := match pendingSpaceAt with
          | some spaceAt => if out.isEmpty then out else out ++ [(' ', spaceAt)]
          | none => out
        charMapLoop rest (originalIndex + 1) none
          (out ++ (tables.toLowercase ch).map fun lower => (lower, originalIndex))
      else charMapLoop rest (originalIndex + 1) (pendingSpaceAt.or (some originalIndex)) out

/-- The normalized characters, each with its place in the input. -/
def normalizeTranscriptTextWithCharMap (input : String) : List (Char × Nat) :=
  charMapLoop tables input.toList 0 none []

namespace TranscriptSearchNormalizerV1

def normalize (query : String) : Except Error NormalizedTranscriptSearchQueryV1 := do
  require (!(maxTranscriptSearchQueryBytes < textLen query
      || maxTranscriptSearchQueryChars < query.length || query.toList.any isControl))
    (.config transcriptQueryStage "search_query_limit_or_control_character_invalid")
  let normalized := normalizeRetrievalText tables query
  let terms := collectRetrievalTerms tables query ⟨2, maxTranscriptSearchTerms, [2, 3]⟩
  require (!(normalized.isEmpty || terms.isEmpty))
    (.config transcriptQueryStage "search_query_has_no_canonical_terms")
  return ⟨1, normalized, terms⟩

/-- One more term than allowed is looked for. The addition cannot overflow behind the first
check. -/
def indexTerms (content : String) (maxTerms : Nat) : Except Error (List String) := do
  require (!(maxTerms == 0 || maxTranscriptIndexTermsPerMessage < maxTerms))
    (.config transcriptQueryStage "transcript_document_index_term_budget_invalid")
  let detectionLimit := maxTerms + 1
  let terms := collectRetrievalTerms tables content ⟨2, detectionLimit, [2, 3]⟩
  require (!(maxTerms < terms.length))
    (.config transcriptQueryStage "transcript_document_index_term_limit_exceeded")
  return terms

/-- The whole query and its terms, without repetitions and the longest first. -/
def needles (query : NormalizedTranscriptSearchQueryV1) : List (List Char) :=
  sortBy (fun needle => OrderDual.toDual needle.length)
    (query.terms.foldl
      (fun needles term =>
        if !term.toList.isEmpty && !needles.contains term.toList then needles ++ [term.toList]
        else needles)
      [query.normalized.toList])

/-- The places in the message that a needle comes from. -/
def needleRanges (normalized : List (Char × Nat)) (needle : List Char) : List (Nat × Nat) :=
  if needle.isEmpty || normalized.length < needle.length then []
  else
    (List.range (normalized.length - needle.length + 1)).filterMap fun start =>
      if ((normalized.drop start).take needle.length).map Prod.fst = needle then do
        let first ← normalized[start]?
        let last ← normalized[start + needle.length - 1]?
        return (first.2, last.2 + 1)
      else none

/-- The matches in a message, in order. -/
def rawRanges (content : String) (query : NormalizedTranscriptSearchQueryV1)
    : List (ℕ ×ₗ ℕ) :=
  distinctSorted (((needles query).flatMap
    (needleRanges (normalizeTranscriptTextWithCharMap tables content))).map toLex)

/-- Where the excerpt begins: the first match is in its middle as far as the text goes. -/
def excerptStart (length maxChars : Nat) (focus : ℕ ×ₗ ℕ) : Nat :=
  if length ≤ maxChars then 0
  else
    min ((ofLex focus).1 - (maxChars - ((ofLex focus).2 - (ofLex focus).1)) / 2)
      (length - maxChars)

/-- The part of a match that the excerpt shows, by its places in the excerpt. -/
def clipped (start stop : Nat) (range : ℕ ×ₗ ℕ) : Option (ℕ ×ₗ ℕ) :=
  let clippedStart := max (ofLex range).1 start
  let clippedEnd := min (ofLex range).2 stop
  if clippedStart < clippedEnd then some (toLex (clippedStart - start, clippedEnd - start))
  else none

/-- The excerpt between two places. -/
def excerptOf (contentChars : List Char) (ranges : List (ℕ ×ₗ ℕ)) (start stop : Nat)
    : TranscriptSearchExcerpt where
  text := String.ofList ((contentChars.drop start).take (stop - start))
  highlights := (distinctSorted (ranges.filterMap (clipped start stop))).map fun range =>
    ⟨(ofLex range).1, (ofLex range).2⟩
  truncatedBefore := 0 < start
  truncatedAfter := stop < contentChars.length

def excerpt (content : String) (query : NormalizedTranscriptSearchQueryV1) (maxChars : Nat)
    : Except Error TranscriptSearchExcerpt := do
  require (!(query.schemaVersion != 1 || query.normalized.isEmpty || query.terms.isEmpty
      || maxChars == 0 || maxTranscriptSearchExcerptChars < maxChars))
    (.config transcriptQueryStage "search_excerpt_input_invalid")
  let contentChars := content.toList
  let ranges := rawRanges tables content query
  let focus := ranges.head?.getD (toLex (0, 0))
  let start := excerptStart contentChars.length maxChars focus
  let stop := min (start + maxChars) contentChars.length
  return excerptOf contentChars ranges start stop

end TranscriptSearchNormalizerV1

end BeetleMemory.Transcript
