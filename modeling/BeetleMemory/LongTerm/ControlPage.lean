import BeetleMemory.LongTerm.TopicPattern
import BeetleMemory.Graph.Text
import BeetleMemory.Lib.Keyed

/-! Pages of the control catalog: the rows in their ranking, cut behind the row a cursor names. A
cursor carries a digest of the query, the view and all rows, so that it fits no other catalog.
-/

namespace BeetleMemory.LongTerm

open Keyed (sortBy)

/-! ## Queries -/

def maxLongTermMemoryItems : Nat := 96

def maxLongTermMemoryTopicLen : Nat := 40

inductive LongTermMemoryFreshness where
  | stable
  | dynamic
  | volatile
deriving DecidableEq, Repr

structure LongTermMemoryQuery where
  kind : Option LongTermMemoryKind
  topic : Option String
  sourceScope : Option LongTermMemorySourceScope
  sourceChatId : Option String
  freshness : Option LongTermMemoryFreshness
  includeStale : Bool
  limit : Nat
deriving DecidableEq, Repr

/-- The length of the characters in UTF-8 bytes. -/
def charsLen (text : List Char) : Nat :=
  (text.map Char.utf8Size).sum

/-- Characters are added up to the first that would make the topic too long. -/
def pushBounded : List Char → List Char → List Char
  | out, [] => out
  | out, lower :: rest =>
      if maxLongTermMemoryTopicLen < charsLen out + lower.utf8Size then out
      else pushBounded (out ++ [lower]) rest

variable (tables : CaseTables)

def foldTopic : List Char → List Char → Bool → List Char
  | [], out, _ => out
  | ch :: rest, out, prevSep =>
      let (out, prevSep) :=
        if tables.isAlphanumeric ch || Graph.isCjk ch then
          (pushBounded out (tables.toLowercase ch), false)
        else if !prevSep && !out.isEmpty then (out ++ ['_'], true)
        else (out, prevSep)
      if maxLongTermMemoryTopicLen ≤ charsLen out then out else foldTopic rest out prevSep

def normalizeTopic (input : String) : String :=
  String.ofList (trimUnderscores (foldTopic tables input.toList [] false))

def LongTermMemoryQuery.normalized (self : LongTermMemoryQuery) : LongTermMemoryQuery :=
  { self with
    topic := (self.topic.map (normalizeTopic tables)).filter (!·.isEmpty)
    sourceChatId := (self.sourceChatId.map trim).filter (!·.isEmpty)
    limit := max 1 (min self.limit maxLongTermMemoryItems) }

/-! ## Pages -/

inductive MemoryLongTermControlView where
  | hostUi
  | operator
  | rawOwner
deriving DecidableEq, Repr

structure LongTermMemoryControlListRequest where
  query : LongTermMemoryQuery
  cursor : Option String
  limit : Nat
  view : MemoryLongTermControlView
deriving DecidableEq, Repr

structure LongTermControlCatalogRow where
  id : String
  exactnessPriority : Nat
  confidenceRank : Nat
  observedAt : Nat
  updatedAt : Nat
  createdAt : Nat
  recordDigest : String
deriving DecidableEq, Repr

/-- The ranking: exact before vague, sure before unsure, new before old, and then by id. -/
def LongTermControlCatalogRow.rank (row : LongTermControlCatalogRow)
    : ℕᵒᵈ ×ₗ ℕᵒᵈ ×ₗ ℕᵒᵈ ×ₗ ℕᵒᵈ ×ₗ ℕᵒᵈ ×ₗ String :=
  toLex (OrderDual.toDual row.exactnessPriority, toLex (OrderDual.toDual row.confidenceRank,
    toLex (OrderDual.toDual row.observedAt, toLex (OrderDual.toDual row.updatedAt,
      toLex (OrderDual.toDual row.createdAt, row.id)))))

structure LongTermControlPagePlan where
  recordIds : List String
  nextCursor : Option String
  totalVisible : Nat
deriving DecidableEq, Repr

/-- The ways a page is refused. -/
inductive ControlPageError where
  | config (stage message : String)
  | invalidInput (stage message : String)
  | conflict (stage message : String)
deriving DecidableEq, Repr

/-- What a cursor's digest is taken of, behind the name of the format. -/
abbrev PageIdentity :=
  LongTermMemoryQuery × MemoryLongTermControlView × List LongTermControlCatalogRow

/-- The serializer, the hash as hexadecimal digits, and the text of a pair of texts. -/
structure PageCodec where
  toVec : PageIdentity → List UInt8
  sha256 : List UInt8 → String
  toCursor : String × String → String
  fromCursor : String → Option (String × String)

variable (codec : PageCodec)

/-- The query and the view a page belongs to. The recall budget of the query is no part of it. -/
def pageIdentity (rows : List LongTermControlCatalogRow)
    (request : LongTermMemoryControlListRequest)
    : PageIdentity :=
  ({ request.query.normalized tables with limit := 0 }, request.view, rows)

/-- Where the page begins. -/
def pageStart (snapshot : String) (rows : List LongTermControlCatalogRow)
    : Option String → Except ControlPageError Nat
  | none => .ok 0
  | some cursor =>
      match codec.fromCursor cursor with
      | none => .error (.invalidInput "long_term_control_cursor" "invalid catalog cursor")
      | some (expected, anchor) =>
          if expected ≠ snapshot then
            .error (.conflict "long_term_control_cursor" "catalog changed; restart pagination")
          else
            match rows.findIdx? (·.id == anchor) with
            | none => .error (.invalidInput "long_term_control_cursor" "unknown catalog anchor")
            | some index => .ok (index + 1)

def planLongTermMemoryControlPage (rows : List LongTermControlCatalogRow)
    (request : LongTermMemoryControlListRequest)
    : Except ControlPageError LongTermControlPagePlan :=
  let rows := sortBy LongTermControlCatalogRow.rank rows
  if ¬ (rows.map (·.id)).Nodup then
    .error (.config "long_term_control_cursor" "catalog contains duplicate record ids")
  else do
    let totalVisible := rows.length
    let snapshot := codec.sha256 (codec.toVec (pageIdentity tables rows request))
    let start ← pageStart codec snapshot rows request.cursor
    let limit := max 1 (min request.limit maxLongTermMemoryItems)
    let stop := min (start + limit) totalVisible
    let nextCursor :=
      if stop < totalVisible then
        rows[stop - 1]?.map fun row => codec.toCursor (snapshot, row.id)
      else none
    return {
      recordIds := ((rows.drop start).take limit).map (·.id)
      nextCursor := nextCursor
      totalVisible := totalVisible }

end BeetleMemory.LongTerm
