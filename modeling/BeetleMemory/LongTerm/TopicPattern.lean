import BeetleMemory.LongTerm.Material

/-! Topic patterns of governance policies, and the selectors they belong to. A pattern and a topic
are compared as they are, in lower case, and again with every run of separators as one underscore.
The character tables of the platform are parameters.
-/

namespace BeetleMemory.LongTerm

/-- The tables for letters, and the lower case of a whole text, which looks at neighbours too. -/
structure CaseTables where
  isAlphanumeric : Char → Bool
  toLowercase : Char → List Char
  strToLowercase : String → String

variable (tables : CaseTables)

def isCjk (ch : Char) : Bool :=
  let n := ch.toNat
  [(0x4E00, 0x9FFF), (0x3400, 0x4DBF), (0x20000, 0x2A6DF), (0x2A700, 0x2B73F),
    (0x2B740, 0x2B81F), (0x2B820, 0x2CEAF), (0xF900, 0xFAFF)].any
    fun range => range.1 ≤ n && n ≤ range.2

/-- A letter or a digit; everything else separates. -/
def isWord (ch : Char) : Bool :=
  tables.isAlphanumeric ch || isCjk ch

/-- Only a star at one end is looked at. -/
def wildcardMatchNormalized (pattern value : List Char) : Bool :=
  if pattern = ['*'] then true
  else if pattern.getLast? = some '*' then pattern.dropLast.isPrefixOf value
  else if pattern.head? = some '*' then pattern.tail.isSuffixOf value
  else pattern == value

/-- The text written so far and whether it just got a separator, through the characters left. A
star is kept in a pattern, and no separator is put after it.
-/
def foldSeparators (keepStars : Bool) : List Char → List Char → Bool → List Char
  | [], out, _ => out
  | ch :: rest, out, prevSep =>
      if keepStars && ch == '*' then foldSeparators keepStars rest (out ++ ['*']) false
      else if isWord tables ch then
        foldSeparators keepStars rest (out ++ tables.toLowercase ch) false
      else if !prevSep && !out.isEmpty && !(keepStars && out.getLast? == some '*') then
        foldSeparators keepStars rest (out ++ ['_']) true
      else foldSeparators keepStars rest out prevSep

/-- Without the underscores at both ends. -/
def trimUnderscores (text : List Char) : List Char :=
  (text.dropWhile (· == '_')).rdropWhile (· == '_')

def normalizeWildcardPattern (value : List Char) : List Char :=
  trimUnderscores (foldSeparators tables true value [] false)

def normalizePolicyMatchValue (value : List Char) : List Char :=
  trimUnderscores (foldSeparators tables false value [] false)

def wildcardMatch (pattern value : String) : Bool :=
  let pattern := (tables.strToLowercase (trim pattern)).toList
  let value := (tables.strToLowercase (trim value)).toList
  wildcardMatchNormalized pattern value
    || wildcardMatchNormalized (normalizeWildcardPattern tables pattern)
      (normalizePolicyMatchValue tables value)

/-! ## Selectors -/

inductive LongTermMemoryKind where
  | preference
  | profile
  | relationship
  | project
  | task
  | constraint
  | fact
deriving DecidableEq, Repr

inductive LongTermMemorySourceScope where
  | chat
  | user
  | world
deriving DecidableEq, Repr

structure MemoryGovernanceSelector where
  memorySpaceId : Option String
  subjectId : Option String
  kind : Option LongTermMemoryKind
  topicPattern : Option String
  sourceChatId : Option String
  sourceScope : Option LongTermMemorySourceScope
deriving DecidableEq, Repr

/-- A candidate for storing, as far as selectors look at it. -/
structure GovernedCandidate where
  memorySpaceId : Option String
  subjectId : Option String
  kind : LongTermMemoryKind
  topic : String
  sourceChatId : Option String
  sourceScope : LongTermMemorySourceScope
deriving DecidableEq, Repr

def selectorMatchesCandidate (selector : MemoryGovernanceSelector) (candidate : GovernedCandidate)
    : Bool :=
  if selector.memorySpaceId.any (some · != candidate.memorySpaceId) then false
  else if selector.subjectId.any (some · != candidate.subjectId) then false
  else if selector.kind.any (· != candidate.kind) then false
  else if selector.sourceChatId.any (some · != candidate.sourceChatId) then false
  else if selector.sourceScope.any (· != candidate.sourceScope) then false
  else selector.topicPattern.elim true fun pattern => wildcardMatch tables pattern candidate.topic

end BeetleMemory.LongTerm
