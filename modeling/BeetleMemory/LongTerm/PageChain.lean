import BeetleMemory.LongTerm.ControlPage
import BeetleMemory.LongTerm.PatternMeaning
import BeetleMemory.Lib.Fallible
import BeetleMemory.Lib.Digests
import BeetleMemory.Lib.Framing

/-! Following the cursors of the control catalog gives every row once, in the ranking, whatever the
limits of the pages are; and a cursor is refused wherever the catalog, the query or the view is not
the one it was issued for.
-/

namespace BeetleMemory.LongTerm

open Keyed (sortBy sortBy_perm sortBy_sorted sortBy_eq_of_perm)

/-- What is assumed of the encodings: nothing is lost, and a cursor is read as it was written. -/
structure PageCodec.Lossless (codec : PageCodec) : Prop where
  toVec_injective : Function.Injective codec.toVec
  sha256_injective : Function.Injective codec.sha256
  fromCursor_toCursor : ∀ pair, codec.fromCursor (codec.toCursor pair) = some pair

variable {codec : PageCodec} {tables : CaseTables}
variable {rows otherRows : List LongTermControlCatalogRow}
variable {request other : LongTermMemoryControlListRequest}

/-! ## Ranked rows -/

/-- The catalog in its ranking. -/
def ranked (rows : List LongTermControlCatalogRow) : List LongTermControlCatalogRow :=
  sortBy LongTermControlCatalogRow.rank rows

theorem rank_id {row other : LongTermControlCatalogRow} (same : row.rank = other.rank)
    : row.id = other.id := by
  simp only [LongTermControlCatalogRow.rank, toLex_inj, Prod.mk.injEq] at same
  exact same.2.2.2.2.2

theorem nodup_ids_ranked (distinct : (rows.map (·.id)).Nodup)
    : ((ranked rows).map (·.id)).Nodup :=
  ((sortBy_perm _ rows).map _).nodup_iff.mpr distinct

theorem nodup_ranks (distinct : (rows.map (·.id)).Nodup)
    : (rows.map LongTermControlCatalogRow.rank).Nodup := by
  have once : rows.Nodup := distinct.of_map
  refine once.map_on fun a inside b otherInside same => ?_
  exact List.inj_on_of_nodup_map distinct inside otherInside (rank_id same)

/-- The ranking leaves no choice. -/
theorem ranked_strict (distinct : (rows.map (·.id)).Nodup)
    : (ranked rows).Pairwise fun a b => a.rank < b.rank := by
  have differ : (ranked rows).Pairwise fun a b => a.rank ≠ b.rank :=
    List.pairwise_map.mp (((sortBy_perm _ rows).map _).nodup_iff.mpr (nodup_ranks distinct))
  exact (sortBy_sorted LongTermControlCatalogRow.rank rows).imp₂
    (fun _ _ below other => lt_of_le_of_ne below other) differ

/-- Two catalogs are ranked the same exactly when they have the same rows. -/
theorem ranked_eq_iff (distinct : (rows.map (·.id)).Nodup)
    : ranked rows = ranked otherRows ↔ rows.Perm otherRows := by
  constructor
  · intro same
    exact (sortBy_perm _ rows).symm.trans
      ((List.Perm.of_eq same).trans (sortBy_perm _ otherRows))
  · exact sortBy_eq_of_perm (nodup_ranks distinct)

/-! ## One page -/

/-- The digest in the cursors of a catalog. -/
def snapshotOf (codec : PageCodec) (tables : CaseTables) (rows : List LongTermControlCatalogRow)
    (request : LongTermMemoryControlListRequest)
    : String :=
  codec.sha256 (codec.toVec (pageIdentity tables (ranked rows) request))

def pageSize (limit : Nat) : Nat :=
  max 1 (min limit maxLongTermMemoryItems)

/-- The page behind so many rows. -/
def pageAt (codec : PageCodec) (snapshot : String) (rows : List LongTermControlCatalogRow)
    (limit start : Nat)
    : LongTermControlPagePlan where
  recordIds := ((rows.drop start).take (pageSize limit)).map (·.id)
  nextCursor :=
    if min (start + pageSize limit) rows.length < rows.length then
      rows[min (start + pageSize limit) rows.length - 1]?.map fun row =>
        codec.toCursor (snapshot, row.id)
    else none
  totalVisible := rows.length

theorem plan_eq (distinct : (rows.map (·.id)).Nodup)
    : planLongTermMemoryControlPage tables codec rows request
      = (pageStart codec (snapshotOf codec tables rows request) (ranked rows) request.cursor).map
          (pageAt codec (snapshotOf codec tables rows request) (ranked rows) request.limit) := by
  have accepted : ¬ ¬ ((sortBy LongTermControlCatalogRow.rank rows).map (·.id)).Nodup :=
    not_not.mpr (nodup_ids_ranked distinct)
  simp only [planLongTermMemoryControlPage, if_neg accepted]
  change (pageStart codec (snapshotOf codec tables rows request) (ranked rows) request.cursor >>= _)
    = _
  cases pageStart codec (snapshotOf codec tables rows request) (ranked rows) request.cursor <;> rfl

theorem findIdx?_id {sorted : List LongTermControlCatalogRow} (distinct : (sorted.map (·.id)).Nodup)
    {index : Nat} {row : LongTermControlCatalogRow} (here : sorted[index]? = some row)
    : sorted.findIdx? (·.id == row.id) = some index := by
  obtain ⟨inside, rfl⟩ := List.getElem?_eq_some_iff.mp here
  rw [List.findIdx?_eq_some_iff_getElem]
  refine ⟨inside, by simp, fun earlier before same => ?_⟩
  have pairwise := List.pairwise_iff_getElem.mp (List.pairwise_map.mp distinct)
  exact pairwise earlier index (by omega) inside before (by simpa using same)

/-- A cursor of the catalog leads behind the row it names. -/
theorem pageStart_toCursor (lossless : codec.Lossless) {snapshot : String}
    {sorted : List LongTermControlCatalogRow} (distinct : (sorted.map (·.id)).Nodup) {index : Nat}
    {row : LongTermControlCatalogRow} (here : sorted[index]? = some row)
    : pageStart codec snapshot sorted (some (codec.toCursor (snapshot, row.id)))
      = .ok (index + 1) := by
  simp [pageStart, lossless.fromCursor_toCursor, findIdx?_id distinct here]

theorem pageSize_pos (limit : Nat) : 0 < pageSize limit :=
  Nat.lt_of_lt_of_le Nat.zero_lt_one (Nat.le_max_left _ _)

/-- Either the page is the last one, or its cursor leads to the rows behind it. -/
theorem pageAt_cases (lossless : codec.Lossless) (snapshot : String)
    {sorted : List LongTermControlCatalogRow} (distinct : (sorted.map (·.id)).Nodup)
    (limit start : Nat)
    : (sorted.length ≤ start + pageSize limit
        ∧ (pageAt codec snapshot sorted limit start).nextCursor = none)
      ∨ (start + pageSize limit < sorted.length ∧ ∃ cursor,
        (pageAt codec snapshot sorted limit start).nextCursor = some cursor
          ∧ pageStart codec snapshot sorted (some cursor) = .ok (start + pageSize limit)) := by
  have positive := pageSize_pos limit
  rcases Nat.lt_or_ge (start + pageSize limit) sorted.length with more | last
  · right
    have stop : min (start + pageSize limit) sorted.length = start + pageSize limit :=
      Nat.min_eq_left more.le
    obtain ⟨row, here⟩ : ∃ row, sorted[start + pageSize limit - 1]? = some row :=
      ⟨_, List.getElem?_eq_getElem (by omega)⟩
    refine ⟨more, codec.toCursor (snapshot, row.id), ?_, ?_⟩
    · simp only [pageAt, stop, if_pos more, here, Option.map_some]
    · rw [pageStart_toCursor lossless distinct here]
      congr 1
      omega
  · left
    refine ⟨last, ?_⟩
    simp only [pageAt, Nat.min_eq_right last, Nat.lt_irrefl, if_false]

/-! ## All pages -/

/-- The ids of the pages from a cursor on, with a limit for each page. The caller follows at most
so many cursors; none is returned when there would be more.
-/
def followPages (tables : CaseTables) (codec : PageCodec) (rows : List LongTermControlCatalogRow)
    (query : LongTermMemoryQuery) (view : MemoryLongTermControlView) (limits : Nat → Nat)
    : Nat → Nat → Option String → Except ControlPageError (Option (List String))
  | 0, _, _ => .ok none
  | pages + 1, page, cursor => do
      let plan ← planLongTermMemoryControlPage tables codec rows
        ⟨query, cursor, limits page, view⟩
      match plan.nextCursor with
      | none => return some plan.recordIds
      | some next =>
          let rest ← followPages tables codec rows query view limits pages (page + 1) (some next)
          return rest.map (plan.recordIds ++ ·)

/-- From a cursor that leads behind some rows on, the pages are the rows that are left. The
induction is on the pages; every one takes at least one row. -/
theorem followPages_from (lossless : codec.Lossless) (distinct : (rows.map (·.id)).Nodup)
    (query : LongTermMemoryQuery) (view : MemoryLongTermControlView) (limits : Nat → Nat)
    {pages page start : Nat} {cursor : Option String}
    (leads : pageStart codec (snapshotOf codec tables rows ⟨query, none, 0, view⟩) (ranked rows)
      cursor = .ok start)
    (within : start ≤ (ranked rows).length) (enough : (ranked rows).length < pages + start)
    : followPages tables codec rows query view limits pages page cursor
      = .ok (some (((ranked rows).drop start).map (·.id))) := by
  induction pages generalizing page start cursor with
  | zero => omega
  | succ pages ih =>
      have planned : planLongTermMemoryControlPage tables codec rows
            ⟨query, cursor, limits page, view⟩
          = .ok (pageAt codec (snapshotOf codec tables rows ⟨query, none, 0, view⟩) (ranked rows)
              (limits page) start) := by
        rw [plan_eq distinct]
        change (pageStart codec (snapshotOf codec tables rows ⟨query, none, 0, view⟩)
          (ranked rows) cursor).map _ = _
        rw [leads]
        rfl
      have positive := pageSize_pos (limits page)
      simp only [followPages, planned, Fallible.ok_bind]
      rcases pageAt_cases lossless (snapshotOf codec tables rows ⟨query, none, 0, view⟩)
          (nodup_ids_ranked distinct) (limits page) start with
        ⟨last, ends⟩ | ⟨more, next, goes, behind⟩
      · have all : ((ranked rows).drop start).length ≤ pageSize (limits page) := by
          rw [List.length_drop]
          omega
        simp only [ends]
        simp only [pageAt, List.take_of_length_le all]
        rfl
      · have rest : followPages tables codec rows query view limits pages (page + 1) (some next)
            = .ok (some (((ranked rows).drop (start + pageSize (limits page))).map (·.id))) :=
          ih behind more.le (by omega)
        simp only [goes, rest, Fallible.ok_bind, Option.map_some]
        simp only [pageAt, ← List.map_append, ← List.drop_drop, List.take_append_drop]
        rfl

/-- From the first page on, the pages are the whole catalog in its ranking. -/
theorem followPages_all (lossless : codec.Lossless) (distinct : (rows.map (·.id)).Nodup)
    (query : LongTermMemoryQuery) (view : MemoryLongTermControlView) (limits : Nat → Nat)
    {pages : Nat} (enough : rows.length < pages)
    : followPages tables codec rows query view limits pages 0 none
      = .ok (some ((ranked rows).map (·.id))) := by
  have length : (ranked rows).length = rows.length := (sortBy_perm _ rows).length_eq
  have all : followPages tables codec rows query view limits pages 0 none
      = .ok (some (((ranked rows).drop 0).map (·.id))) :=
    followPages_from lossless distinct query view limits rfl (Nat.zero_le _) (by omega)
  rwa [List.drop_zero] at all

/-! ## Cursors elsewhere -/

/-- The refusal of a cursor that was issued for something else. -/
def catalogChanged : ControlPageError :=
  .conflict "long_term_control_cursor" "catalog changed; restart pagination"

/-- The filters of a query as they are applied. The recall budget is none of them. -/
def filters (tables : CaseTables) (query : LongTermMemoryQuery) : LongTermMemoryQuery :=
  { query.normalized tables with limit := 0 }

theorem snapshotOf_eq_iff (lossless : codec.Lossless) (distinct : (rows.map (·.id)).Nodup)
    : snapshotOf codec tables rows request = snapshotOf codec tables otherRows other
      ↔ rows.Perm otherRows ∧ filters tables request.query = filters tables other.query
          ∧ request.view = other.view := by
  rw [snapshotOf, snapshotOf, lossless.sha256_injective.eq_iff, lossless.toVec_injective.eq_iff,
    pageIdentity, pageIdentity, Prod.mk.injEq, Prod.mk.injEq, ranked_eq_iff distinct]
  change (filters tables request.query = filters tables other.query ∧ _) ↔ _
  tauto

/-- A page with a cursor says which digest and which row of the catalog the cursor has. -/
theorem nextCursor_names (distinct : (rows.map (·.id)).Nodup) {plan : LongTermControlPagePlan}
    {cursor : String} (planned : planLongTermMemoryControlPage tables codec rows request = .ok plan)
    (issued : plan.nextCursor = some cursor)
    : ∃ (index : Nat) (row : LongTermControlCatalogRow), (ranked rows)[index]? = some row
      ∧ cursor = codec.toCursor (snapshotOf codec tables rows request, row.id) := by
  rw [plan_eq distinct] at planned
  cases started : pageStart codec (snapshotOf codec tables rows request) (ranked rows)
      request.cursor with
  | error failure => simp [started, Except.map] at planned
  | ok start =>
      simp only [started, Except.map, Except.ok.injEq] at planned
      subst planned
      simp only [pageAt] at issued
      split at issued
      · obtain ⟨row, here, same⟩ := Option.map_eq_some_iff.mp issued
        exact ⟨_, row, here, same.symm⟩
      · cases issued

/-- A cursor is refused exactly where the catalog, the filters or the view are others. -/
theorem cursor_refused_iff (lossless : codec.Lossless) (distinct : (rows.map (·.id)).Nodup)
    (otherDistinct : (otherRows.map (·.id)).Nodup) {plan : LongTermControlPagePlan}
    {cursor : String} (planned : planLongTermMemoryControlPage tables codec rows request = .ok plan)
    (issued : plan.nextCursor = some cursor) (presented : other.cursor = some cursor)
    : planLongTermMemoryControlPage tables codec otherRows other = .error catalogChanged
      ↔ ¬ (rows.Perm otherRows ∧ filters tables request.query = filters tables other.query
            ∧ request.view = other.view) := by
  obtain ⟨index, row, here, rfl⟩ := nextCursor_names distinct planned issued
  rw [← snapshotOf_eq_iff lossless distinct, plan_eq otherDistinct, presented]
  by_cases same : snapshotOf codec tables rows request = snapshotOf codec tables otherRows other
  · -- The same digest means the same ranked rows, so the row is found there.
    have perm := ((snapshotOf_eq_iff lossless distinct).mp same).1
    rw [same, ← (ranked_eq_iff distinct).mpr perm,
      pageStart_toCursor lossless (nodup_ids_ranked distinct) here]
    simp [Except.map]
  · simp [pageStart, lossless.fromCursor_toCursor, same, Except.map, catalogChanged]

/-- Following the cursors of a catalog with distinct ids gives each row once, in the ranking, and
ends; a cursor of one of its pages is refused by any other catalog, by other filters and in another
view, and nowhere else.
-/
theorem control_pages_exact (lossless : codec.Lossless) (distinct : (rows.map (·.id)).Nodup)
    : ((ranked rows).Perm rows ∧ (ranked rows).Pairwise fun a b => a.rank < b.rank)
      ∧ (∀ query view limits pages, rows.length < pages
          → followPages tables codec rows query view limits pages 0 none
            = .ok (some ((ranked rows).map (·.id))))
      ∧ ∀ request plan cursor,
          planLongTermMemoryControlPage tables codec rows request = .ok plan
          → plan.nextCursor = some cursor
          → ∀ otherRows other, (otherRows.map (·.id)).Nodup → other.cursor = some cursor
          → (planLongTermMemoryControlPage tables codec otherRows other = .error catalogChanged
              ↔ ¬ (rows.Perm otherRows ∧ filters tables request.query = filters tables other.query
                    ∧ request.view = other.view)) := by
  refine ⟨⟨sortBy_perm _ rows, ranked_strict distinct⟩, ?_, ?_⟩
  · intro query view limits pages enough
    exact followPages_all lossless distinct query view limits enough
  · intro request plan cursor planned issued otherRows other otherDistinct presented
    exact cursor_refused_iff lossless distinct otherDistinct planned issued presented

deriving instance Countable for LongTermMemoryKind, LongTermMemorySourceScope,
  LongTermMemoryFreshness, LongTermMemoryQuery, MemoryLongTermControlView,
  LongTermControlCatalogRow

/-- A pair of texts as a JSON array. -/
def pairText (pair : String × String) : String :=
  String.ofList (JsonText.write .compact 0 (.array [.string pair.1, .string pair.2]))

def readPair (text : String) : Option (String × String) :=
  match JsonText.readValue text.toList.length text.toList with
  | some (.array [.string first, .string second], []) => some (first, second)
  | _ => none

theorem readPair_pairText (pair : String × String) : readPair (pairText pair) = some pair := by
  simp only [readPair, pairText, String.toList_ofList, JsonText.readValue_whole]

theorem exists_injective_toVec : ∃ toVec : PageIdentity → List UInt8, Function.Injective toVec := by
  obtain ⟨text, injective⟩ := Digests.exists_injective_text PageIdentity
  exact ⟨_, Framing.utf8_injective.comp injective⟩

/-- Bytes as texts for the digest, and JSON for the cursors. -/
def sampleCodec (toVec : PageIdentity → List UInt8) : PageCodec :=
  ⟨toVec, Digests.byteText, pairText, readPair⟩

theorem sampleCodec_lossless {toVec : PageIdentity → List UInt8}
    (injective : Function.Injective toVec)
    : (sampleCodec toVec).Lossless where
  toVec_injective := injective
  sha256_injective := Digests.byteText_injective
  fromCursor_toCursor pair := by simp only [sampleCodec, readPair_pairText]

def anyMemory : LongTermMemoryQuery :=
  ⟨none, none, none, none, none, false, 8⟩

/-- A newer row behind an older one. -/
def twoRows : List LongTermControlCatalogRow :=
  [⟨"old", 0, 1, 10, 10, 10, "d"⟩, ⟨"new", 0, 1, 20, 20, 10, "e"⟩]

/-- Two pages of one row each, and the first one's cursor in another view. -/
theorem two_rows_paged
    : ∃ codec : PageCodec, codec.Lossless
      ∧ followPages plainTables codec twoRows anyMemory .hostUi (fun _ => 1) 3 0 none
        = .ok (some ["new", "old"])
      ∧ ∃ plan cursor,
          planLongTermMemoryControlPage plainTables codec twoRows ⟨anyMemory, none, 1, .hostUi⟩
            = .ok plan
          ∧ plan.nextCursor = some cursor
          ∧ planLongTermMemoryControlPage plainTables codec twoRows
              ⟨anyMemory, some cursor, 1, .operator⟩ = .error catalogChanged := by
  obtain ⟨toVec, injective⟩ := exists_injective_toVec
  have lossless := sampleCodec_lossless injective
  have distinct : (twoRows.map (·.id)).Nodup := by decide
  have order : (ranked twoRows).map (·.id) = ["new", "old"] := by decide +kernel
  obtain ⟨-, pages, refused⟩ := @control_pages_exact _ plainTables twoRows lossless distinct
  have planned : planLongTermMemoryControlPage plainTables (sampleCodec toVec) twoRows
      ⟨anyMemory, none, 1, .hostUi⟩ = .ok (pageAt (sampleCodec toVec) _ (ranked twoRows) 1 0) :=
    plan_eq distinct
  obtain ⟨last, -⟩ | ⟨-, cursor, issued, -⟩ := pageAt_cases lossless
    (snapshotOf (sampleCodec toVec) plainTables twoRows ⟨anyMemory, none, 1, .hostUi⟩)
    (nodup_ids_ranked distinct) 1 0
  · exact absurd last (by decide +kernel)
  · refine ⟨sampleCodec toVec, lossless, ?_, _, cursor, planned, issued, ?_⟩
    · rw [← order]
      exact pages anyMemory .hostUi (fun _ => 1) 3 (by decide)
    · exact (refused _ _ cursor planned issued twoRows _ distinct rfl).mpr (by simp)

end BeetleMemory.LongTerm
