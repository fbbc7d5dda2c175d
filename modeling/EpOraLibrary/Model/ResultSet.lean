import EpOraLibrary.Model.Release

/-!
# EpOraLibrary — result sets

`epResultSet.cpp` and the inline `IsEod`. `m_currentRow` and `m_rowsFetched`
are 32 bits wide, `m_fetchCount` 16.

`m_nTotRow` is not initialised and read by nothing, and is left out.
-/

namespace Epol

open Ledger Prog

-- ---------------------------------------------------------------------------
-- Describe and define
-- ---------------------------------------------------------------------------

/-- `ResultSet::columnsCount`. -/
def ResultSet.columnsCount (r : Nat) : M Nat := do
  let w ← get
  let (result, count) ← ociParamCount (w.rsets r).m_rsHandle w.conn.m_errorHandle
  if result = .success then return count
  else throwOnError result w.conn.m_errorHandle none

/-- `ResultSet::rowsCount`. -/
def ResultSet.rowsCount (r : Nat) : M Nat := do
  let w ← get
  let (result, count) ← ociRowCount r (w.rsets r).m_rsHandle w.conn.m_errorHandle
  if result = .success then return count
  else throwOnError result w.conn.m_errorHandle none

/-- The description of the column at 0-based position `i`, as the three
attributes of its descriptor have it. -/
def World.describes (w : World) (handle : Option Nat) (i : Nat) : ColumnDesc :=
  match handle with
  | some h => (w.oci.stmt h).query.desc.getD i default
  | none => default

/-- What is read at the name pointer after the descriptor was asked to be
freed: up to the next NUL behind the name, or whatever the memory holds then. -/
def ColumnDesc.nameRead (desc : ColumnDesc) (freed : OciResult) : TString :=
  if freed = .success then desc.nameStale else desc.name ++ desc.nameTail

/-- The three attributes of a descriptor. -/
def ResultSet.readAttrs (result : OciResult) (param error : Option Nat) (pos : Nat) :
    M OciResult := do
  let result ← result.andThen (ociParamAttrGet .name pos param error)
  let result ← result.andThen (ociParamAttrGet .dataType pos param error)
  result.andThen (ociParamAttrGet .dataSize pos param error)

/-- The part of a turn of `describe` that talks to OCI. The result of the free
is not looked at; it decides what is read at the name pointer afterwards. -/
def ResultSet.readParam (handle error : Option Nat) (i : Nat) : M (OciResult × OciResult) := do
  let (result, param) ← ociParamGet handle error (i + 1)
  let result ← readAttrs result param error (i + 1)
  match param with
  | some d =>
    let freed ← ociDescriptorFree (i + 1) d
    return (result, freed)
  | none => return (result, .error)

/-- One turn of the loop of `describe`. -/
def ResultSet.describeColumn (r : Nat) (i : Nat) : M Unit := do
  let w ← get
  let (result, freed) ← readParam (w.rsets r).m_rsHandle w.conn.m_errorHandle i
  if result ≠ .success then throwOnError result w.conn.m_errorHandle none
  let desc := w.describes (w.rsets r).m_rsHandle i
  let name := desc.nameRead freed
  let col ← Column.new r name (desc.ociType % 2 ^ 16) (desc.size % 2 ^ 16)
    (w.rsets r).m_fetchCount
  modifyRs r fun rs => { rs with
    m_columns := rs.m_columns ++ [col]
    m_columnsMap := mapInsert name col rs.m_columnsMap }

/-- `ResultSet::describe`. -/
def ResultSet.describe (r : Nat) : M Unit := do
  let count ← columnsCount r
  (List.range count).forM (describeColumn r)
  modifyRs r fun rs => { rs with m_isDescribed := true, m_isDefined := false }

/-- One turn of the loop of `define`. -/
def ResultSet.defineColumn (r : Nat) (col position : Nat) : M Unit := do
  let w ← get
  let error := w.conn.m_errorHandle
  let result ← ociDefineByPos (w.rsets r).m_rsHandle error position col (w.cols col).m_size
  let result ← (if w.cfg.unicode = true ∧ (w.cols col).m_colType = .text then
      result.andThen (ociAttrSet .charsetId position (ptr .error error))
    else pure result)
  if result ≠ .success then throwOnError result error (some (w.cols col).m_colName)

/-- `ResultSet::define`. -/
def ResultSet.define (r : Nat) : M Unit := do
  let w ← get
  ((w.rsets r).m_columns.zipIdx 1).forM fun e => defineColumn r e.1 e.2
  modifyRs r fun rs => { rs with m_isDefined := true }

/-- `ResultSet::attach`. -/
def ResultSet.attach (r : Nat) (handle : Option Nat) (fetchSize : Nat) : M Unit := do
  modifyRs r fun rs => { rs with
    m_rsHandle := handle
    m_stmt := none
    m_fetchCount := fetchSize % 2 ^ 16
    m_rowsFetched := 0
    m_currentRow := 0
    m_isEod := false
    m_isDescribed := false
    m_isDefined := false }
  describe r
  define r

/-- `ResultSet::ResultSet`. -/
def ResultSet.new (handle : Option Nat) (fetchSize : Nat) : M Nat := do
  let r ← acquire .resultSet none
  modifyRs r fun _ => {}
  constructing ⟨.resultSet, r⟩ (attach r handle fetchSize) (cleanUp r)
  return r

/-- `ResultSet::attachStatement`. -/
def ResultSet.attachStatement (r : Nat) (selectStmt : Nat) : M Unit :=
  modifyRs r fun rs => { rs with m_stmt := some selectStmt }

-- ---------------------------------------------------------------------------
-- Fetching
-- ---------------------------------------------------------------------------

/-- `ResultSet::fetchRows`. -/
def ResultSet.fetchRows (r : Nat) : M Unit := do
  let w ← get
  let rs := w.rsets r
  let result ← ociStmtFetch r rs.m_rsHandle w.conn.m_errorHandle rs.m_fetchCount
  if result = .success ∨ result = .noData ∨ result = .successWithInfo then
    let rows ← rowsCount r
    modifyRs r fun rs' => { rs' with
      m_rowsFetched := rows
      m_isEod := rs'.m_isEod ||
        decide ((rows + 2 ^ 32 - rs.m_rowsFetched) % 2 ^ 32 ≠ rs.m_fetchCount) }
  else throwOnError result w.conn.m_errorHandle none

/-- `m_currentRow++;` -/
def ResultSet.advanced (rs : ResultSet) : ResultSet :=
  { rs with m_currentRow := (rs.m_currentRow + 1) % 2 ^ 32 }

/-- `ResultSet::Next`. -/
def ResultSet.next (r : Nat) : M Bool := do
  modifyRs r advanced
  let rs := (← get).rsets r
  if rs.m_rowsFetched ≤ rs.m_currentRow ∧ rs.m_isEod = true then return false
  else
    if rs.m_rowsFetched ≤ rs.m_currentRow then fetchRows r
    let rs := (← get).rsets r
    return decide (rs.m_currentRow < rs.m_rowsFetched)

/-- `Next` has to fetch. -/
def ResultSet.Refills (rs : ResultSet) : Prop :=
  rs.m_rowsFetched ≤ (rs.m_currentRow + 1) % 2 ^ 32 ∧ rs.m_isEod = false

instance (rs : ResultSet) : Decidable rs.Refills := inferInstanceAs (Decidable (_ ∧ _))

/-- The world in which `Next` has moved the position of `r` on. -/
def World.moved (w : World) (r : Nat) : World :=
  { w with rsets := Function.update w.rsets r (w.rsets r).advanced }

/-- `Next` by cases: past the end, at the end of the block, or inside it. -/
theorem wp_next {r : Nat} {w : World} {Q : Bool → World → Prop} {E : OraError → World → Prop}
    (hEnd : ((w.moved r).rsets r).m_rowsFetched ≤ ((w.moved r).rsets r).m_currentRow →
      ((w.moved r).rsets r).m_isEod = true → Q false (w.moved r))
    (hRefill : ((w.moved r).rsets r).m_rowsFetched ≤ ((w.moved r).rsets r).m_currentRow →
      ((w.moved r).rsets r).m_isEod = false →
      wp (ResultSet.fetchRows r)
        (fun _ w' => Q (decide ((w'.rsets r).m_currentRow < (w'.rsets r).m_rowsFetched)) w')
        E (w.moved r))
    (hInside : ((w.moved r).rsets r).m_currentRow < ((w.moved r).rsets r).m_rowsFetched →
      Q true (w.moved r)) :
    wp (ResultSet.next r) Q E w := by
  rw [ResultSet.next, wp_bind, wp_modifyRs]
  change wp _ Q E (w.moved r)
  rw [wp_bind, wp_get, wp_ite]
  split
  · rename_i hh
    exact hEnd hh.1 hh.2
  · rename_i hh
    simp only [wp_bind, wp_ite, wp_get, wp_pure]
    split
    · rename_i hLe
      exact hRefill hLe (Bool.eq_false_iff.mpr fun h => hh ⟨hLe, h⟩)
    · rename_i hLt
      rw [decide_eq_true (Nat.lt_of_not_le hLt)]
      exact hInside (Nat.lt_of_not_le hLt)

/-- `ResultSet::IsEod`. -/
def ResultSet.IsEod (rs : ResultSet) : Bool :=
  decide (rs.m_rowsFetched ≤ rs.m_currentRow) && rs.m_isEod

end Epol
