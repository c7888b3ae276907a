import BeetleMemory.LongTerm.Material

/-! The texts that graph recall compares: normalized texts, the terms of a query, groups of
evidence and private markers. The character tables of the platform and the hash are parameters.
-/

namespace BeetleMemory.Graph

open LongTerm (trim)
open Store (isWhitespace startsWith)

/-- Character tables and the hash of a text as hexadecimal digits. -/
structure TextTables where
  isAlphanumeric : Char → Bool
  toLowercase : Char → List Char
  sha256 : String → String

variable (tables : TextTables)

/-! ## Characters and strings -/

def isAsciiDigit (c : Char) : Bool :=
  '0' ≤ c && c ≤ '9'

def isAsciiAlphanumeric (c : Char) : Bool :=
  isAsciiDigit c || ('a' ≤ c && c ≤ 'z') || ('A' ≤ c && c ≤ 'Z')

def isAsciiHexdigit (c : Char) : Bool :=
  isAsciiDigit c || ('a' ≤ c && c ≤ 'f') || ('A' ≤ c && c ≤ 'F')

def toAsciiLowercase (text : String) : String :=
  String.ofList (text.toList.map fun c =>
    if 'A' ≤ c && c ≤ 'Z' then Char.ofNat (c.toNat + 32) else c)

/-- The text has the part somewhere. -/
def hasPart (text part : String) : Bool :=
  text.toList.tails.any part.toList.isPrefixOf

/-- The text without its blanks. -/
def withoutBlanks (text : String) : String :=
  String.ofList (text.toList.filter (· ≠ ' '))

/-- Trimming of all characters at both ends that pass the test. -/
def trimMatches (drop : Char → Bool) (text : String) : String :=
  String.ofList (((text.toList.dropWhile drop).reverse.dropWhile drop).reverse)

/-- The words between white space. -/
def splitWhitespace (text : List Char) : List (List Char) :=
  (text.splitOnP isWhitespace).filter (· ≠ [])

/-! ## Retrieval terms -/

def isCjk (ch : Char) : Bool :=
  let n := ch.toNat
  [(0x4E00, 0x9FFF), (0x3400, 0x4DBF), (0x20000, 0x2A6DF), (0x2A700, 0x2B73F),
    (0x2B740, 0x2B81F), (0x2B820, 0x2CEAF), (0xF900, 0xFAFF), (0x2F800, 0x2FA1F)].any
    fun range => range.1 ≤ n && n ≤ range.2

/-- Lower case letters and digits; each run of other characters is one blank. -/
def foldText : Bool → List Char → List Char
  | _, [] => []
  | prevSpace, ch :: rest =>
      if tables.isAlphanumeric ch || isCjk ch then
        tables.toLowercase ch ++ foldText false rest
      else if !prevSpace then ' ' :: foldText true rest
      else foldText true rest

def normalizeRetrievalText (input : String) : String :=
  String.ofList ([' '].intercalate (splitWhitespace (foldText tables false input.toList)))

/-- How the terms of a query are cut. -/
structure TermLimits where
  minTermChars : Nat
  maxTerms : Nat
  cjkWindows : List Nat

def pushUniqueRetrievalTerm (limits : TermLimits) (out : List String) (term : String)
    : List String :=
  if limits.maxTerms ≤ out.length then out
  else
    let trimmed := trim term
    if trimmed.isEmpty || trimmed.length < limits.minTermChars || out.contains trimmed then out
    else out ++ [trimmed]

/-- All slices of the given length, in order. -/
def slices (window : Nat) (chars : List Char) : List (List Char) :=
  (chars.tails.filter (window ≤ ·.length)).map (·.take window)

/-- A run of term characters becomes a term, and its windows too if it has ideographs. The inner
loop of the source stops when no more terms fit; further pushes would do nothing.
-/
def flushRun (limits : TermLimits) (out : List String) (run : List Char) (hasCjk : Bool)
    : List String :=
  if run.isEmpty then out
  else if hasCjk then
    limits.cjkWindows.foldl
      (fun out window =>
        if run.length < window || limits.maxTerms ≤ out.length then out
        else (slices window run).foldl
          (fun out slice => pushUniqueRetrievalTerm limits out (String.ofList slice)) out)
      (pushUniqueRetrievalTerm limits out (String.ofList run))
  else if limits.minTermChars ≤ run.length then
    pushUniqueRetrievalTerm limits out (String.ofList run)
  else out

/-- The loop over the characters of a normalized query. -/
def collectRuns (limits : TermLimits)
    : List Char → List String → List Char → Bool → List String
  | [], out, run, hasCjk => flushRun limits out run hasCjk
  | ch :: rest, out, run, hasCjk =>
      if isAsciiAlphanumeric ch then collectRuns limits rest out (run ++ [ch]) hasCjk
      else if isCjk ch then collectRuns limits rest out (run ++ [ch]) true
      else
        let out := flushRun limits out run hasCjk
        if limits.maxTerms ≤ out.length then out else collectRuns limits rest out [] false

def collectRetrievalTerms (query : String) (limits : TermLimits) : List String :=
  let normalized := normalizeRetrievalText tables query
  if normalized.isEmpty || limits.maxTerms == 0 then []
  else
    let out := collectRuns limits normalized.toList [] [] false
    if out.isEmpty then pushUniqueRetrievalTerm limits out normalized else out

/-- The terms that graph scores use. -/
def graphTerms (query : String) : List String :=
  collectRetrievalTerms tables query { minTermChars := 2, maxTerms := 32, cjkWindows := [2, 3] }

/-! ## Evidence groups and private markers -/

def normalizeStructuredEvidenceKey (input : String) : String :=
  toAsciiLowercase (trimMatches
    (fun ch => !(tables.isAlphanumeric ch || ['_', ':', '#', '=', '-', '/', '.'].contains ch))
    (trim input))

def isOpaqueSemanticGroup (value ns : String) : Bool :=
  (Store.dropStart (toAsciiLowercase value) ("opaque:" ++ ns ++ ":sha256:")).any fun digest =>
    digest.utf8ByteSize == 64 && digest.toList.all isAsciiHexdigit

def opaqueSemanticGroup (ns semanticKey : String) : String :=
  if semanticKey.isEmpty then ""
  else "opaque:" ++ ns ++ ":sha256:" ++ tables.sha256 semanticKey

def canonicalRecallEvidenceGroup (evidenceRef : String) : String :=
  let trimmed := trim evidenceRef
  if isOpaqueSemanticGroup trimmed "recall-group" then toAsciiLowercase trimmed
  else opaqueSemanticGroup tables "recall-group"
    (if trimmed.isEmpty then "" else normalizeStructuredEvidenceKey tables trimmed)

/-- Letters and digits, each run of other characters is one underscore. -/
def foldMarker : Bool → List Char → List Char
  | _, [] => []
  | separated, ch :: rest =>
      if isAsciiAlphanumeric ch then ch :: foldMarker false rest
      else if !separated then '_' :: foldMarker true rest
      else foldMarker true rest

def normalizePrivateMarker (value : String) : String :=
  trimMatches (· == '_')
    (String.ofList (foldMarker false (value.toList.flatMap tables.toLowercase)))

def containsRawSoulPrivateMarker (value : String) : Bool :=
  ["inner_life", "private_garden", "soul_private", "self_authored_core", "self_continuity",
    "growth_revision_ledger"].any (hasPart (normalizePrivateMarker tables value))

end BeetleMemory.Graph
