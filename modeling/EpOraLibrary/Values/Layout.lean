import EpOraLibrary.Cursor.Traversal

/-!
# EpOraLibrary — the buffers of a column

A column holds one block of rows in arrays of `m_fetchCount` elements. The
sizes are products computed at 32 bits from a 16-bit size of the server's and
from `FETCH_SIZE`, which the 16-bit `m_fetchCount` keeps the low half of
(`fetchCount_eq`); the accessors address the buffer in elements of three
different types.

* `Column.IsFor.layout` — for every supported type and every size, the products
  stay below the range of an `int` and the stride of the accessors is the element
  size passed to `OCIDefineByPos`.
* `Column.Layout.slotInside` — what an accessor finds at the byte of a slot is the
  element OCI writes for it, and no byte of another slot.
* `column_layout` — the columns of a result set and all its positions.
-/

namespace Epol

open Ledger Prog

-- ---------------------------------------------------------------------------
-- Arrays and slots
-- ---------------------------------------------------------------------------

/-- The block of a result set as all callers build it. -/
theorem fetchCount_eq : FETCH_SIZE % 2 ^ 16 = 3392 := rfl

/-- The arrays of a column: their lengths, that no product on the way to them
wraps or leaves the range of an `int`, and that the accessors step by the element
size OCI was told. `maxDataSize` is the size the server reported. -/
structure Column.Layout (col : Column) (tcharSize maxDataSize fetchCount : Nat) : Prop where
  textSize    : (maxDataSize + 1) * tcharSize < 2 ^ 31
  sized       : col.m_colType = .text → col.m_size = (maxDataSize + 1) * tcharSize
  positive    : 0 < col.m_size
  bufferSize  : col.m_size * fetchCount < 2 ^ 31
  buffer      : col.m_fetchBuffer = some (col.m_size * fetchCount)
  indicators  : col.m_indicators = some fetchCount
  dataLengths : col.m_colType = .text → col.m_dataLengths = some fetchCount
  defined     : col.valueSz = col.m_size
  stride      : col.stride = col.valueSz

/-- An accessor that reads slot `rowNo` stays inside the arrays, its bytes are
those of no other slot, and at the byte it steps to it finds the element of the
slot. -/
structure Column.SlotInside (col : Column) (rowNo : Nat) : Prop where
  indicator  : ∃ n, col.m_indicators = some n ∧ rowNo < n
  dataLength : col.m_colType = .text → ∃ n, col.m_dataLengths = some n ∧ rowNo < n
  offset     : col.m_size * rowNo < 2 ^ 31
  bytes      : ∃ n, col.m_fetchBuffer = some n ∧ col.m_size * rowNo + col.m_size ≤ n
  apart      : ∀ other, other ≠ rowNo → col.m_size * rowNo + col.m_size ≤ col.m_size * other ∨
    col.m_size * other + col.m_size ≤ col.m_size * rowNo
  value      : col.valueAt (col.stride * rowNo) = (col.slots rowNo).value

-- ---------------------------------------------------------------------------
-- The supported types
-- ---------------------------------------------------------------------------

/-- No product wraps, and the strides agree. -/
theorem Column.IsFor.layout {col : Column} {cfg : Setting} {r : Nat} {desc : ColumnDesc}
    (hFor : col.IsFor cfg r (FETCH_SIZE % 2 ^ 16) desc) (hDefined : col.valueSz = col.m_size) :
    col.Layout cfg.tcharSize (desc.size % 2 ^ 16) (FETCH_SIZE % 2 ^ 16) := by
  obtain ⟨hPos, hStride⟩ := hFor.stride
  obtain ⟨freed, as, hAs, hCol⟩ := hFor
  have hText := textSize_le (Nat.mod_lt desc.size (by decide : 0 < 2 ^ 16)) cfg.tcharSize_le
  -- every size fits with a wide margin
  have hSize : col.m_size = as.2.2 := by rw [hCol]; rfl
  have hBound : as.2.2 ≤ 131072 := by
    rcases typeOf_cases hAs with rfl | rfl | rfl
    · decide
    · decide
    · dsimp only
      omega
  have hProduct : col.m_size * (FETCH_SIZE % 2 ^ 16) < 2 ^ 31 := by
    rw [fetchCount_eq, hSize]
    omega
  refine ⟨by omega, fun hKind => ?_, hPos, hProduct, ?_, by rw [hCol]; rfl, fun hKind => ?_,
    hDefined, hStride.trans hDefined.symm⟩
  · have hType : as.2.1 = .text := by
      rw [hCol] at hKind
      exact hKind
    rw [hSize]
    rcases typeOf_cases hAs with rfl | rfl | rfl
    · cases hType
    · cases hType
    · exact Nat.mod_eq_of_lt (by omega)
  · have hBuffer : col.m_fetchBuffer = some (col.m_size * (FETCH_SIZE % 2 ^ 16) % 2 ^ 32) := by
      rw [hCol]
      rfl
    rw [hBuffer, Nat.mod_eq_of_lt (by omega)]
  · have hLengths : col.m_dataLengths =
        if col.m_colType = .text then some (FETCH_SIZE % 2 ^ 16) else none := by
      rw [hCol]
      rfl
    rw [hLengths, if_pos hKind]

/-- Any slot of the block. -/
theorem Column.Layout.slotInside {col : Column} {tcharSize maxDataSize fetchCount rowNo : Nat}
    (h : col.Layout tcharSize maxDataSize fetchCount) (hRow : rowNo < fetchCount) :
    col.SlotInside rowNo where
  indicator := ⟨fetchCount, h.indicators, hRow⟩
  dataLength hText := ⟨fetchCount, h.dataLengths hText, hRow⟩
  offset := by
    have hInside := Memory.slot_inside col.m_size hRow
    have hSize := h.bufferSize
    omega
  bytes := ⟨col.m_size * fetchCount, h.buffer, Memory.slot_inside col.m_size hRow⟩
  apart other hOther := Memory.slot_apart col.m_size (Ne.symm hOther)
  value := Column.Spaced.valueAt ⟨h.defined ▸ h.positive, h.stride⟩ rowNo

-- ---------------------------------------------------------------------------
-- Result sets
-- ---------------------------------------------------------------------------

/-- The world in which the position of the result set `r` is `row`. -/
def World.atRow (w : World) (r row : Nat) : World :=
  { w with rsets := Function.update w.rsets r { w.rsets r with m_currentRow := row } }

/-- **The buffers of all columns** of a result set, at every position: built
with `FETCH_SIZE` on a handle, whatever types and sizes the server reports. -/
theorem column_layout {h r : Nat} {w w' : World}
    (hNew : ResultSet.new (some h) FETCH_SIZE w = .ok r w') (row : Nat) :
    0 < (w'.rsets r).m_fetchCount ∧
      ∀ i c, (w'.rsets r).m_columns[i]? = some c →
        (w'.cols c).Layout w'.cfg.tcharSize
          (((w.oci.stmt h).query.desc.getD i default).size % 2 ^ 16) (w'.rsets r).m_fetchCount ∧
        (w'.cols c).SlotInside ((w'.atRow r row).rowNo c) := by
  obtain ⟨rfl, ids, hBuilt⟩ := of_wp_ok (wp_newResultSet (some h) FETCH_SIZE) hNew
  have hB := hBuilt.building
  have hPos : 0 < FETCH_SIZE % 2 ^ 16 := by decide
  rw [hB.rset.count, hB.rset.columns, hB.apart.cfg]
  refine ⟨hPos, fun i c hi => ?_⟩
  obtain ⟨hLt, rfl⟩ := List.getElem?_eq_some_iff.mp hi
  have hLayout := (hB.isFor h rfl i hLt).layout (hBuilt.defined h rfl i hLt).2
  refine ⟨hLayout, hLayout.slotInside ?_⟩
  have hRow : (w'.atRow w.fresh row).rowNo ids[i] =
      row % (FETCH_SIZE % 2 ^ 16) % 2 ^ 16 := by
    have hOwner : ((w'.atRow w.fresh row).cols ids[i]).m_resultSet = some w.fresh :=
      hB.owner ids[i] (List.getElem_mem hLt)
    unfold World.rowNo
    rw [hOwner]
    dsimp only [World.atRow]
    rw [Function.update_self, hB.rset.count]
  rw [hRow]
  exact Nat.lt_of_le_of_lt (Nat.mod_le _ _) (Nat.mod_lt _ hPos)

/-- A number, a date and a text of the largest size. -/
def threeTypes : Query where
  desc := [⟨tstr "ID", [], [], SQLT_NUM, 22⟩, ⟨tstr "BORN", [], [], SQLT_DAT, 7⟩,
    ⟨tstr "NOTE", [], [], SQLT_CHR, 65535⟩]
  rows := []

/-- The statement 0 with the handle 1, executed. -/
def executedOn (q : Query) : World := exec (Statement.executePrepared 0) (preparedOn q)

/-- A result set on that execution. -/
def builtOn (q : Query) : World := exec (ResultSet.new (some 1) FETCH_SIZE) (executedOn q)

theorem new_threeTypes : ResultSet.new (some 1) FETCH_SIZE (executedOn threeTypes) =
    .ok 2 (builtOn threeTypes) :=
  eq_ok_of_result (by decide +kernel)

/-- The text column at the last 32-bit position: slot 3327, 131072 bytes a
slot. -/
theorem column_layout_text : ((builtOn threeTypes).cols 8).Layout 2 65535 3392 ∧
    ((builtOn threeTypes).cols 8).SlotInside 3327 := by
  have hText := (column_layout new_threeTypes (2 ^ 32 - 1)).2 2 8 (by decide +kernel)
  have hTchar : (builtOn threeTypes).cfg.tcharSize = 2 := by decide +kernel
  have hSize : (((executedOn threeTypes).oci.stmt 1).query.desc.getD 2 default).size % 2 ^ 16 =
      65535 := by decide +kernel
  have hCount : ((builtOn threeTypes).rsets 2).m_fetchCount = 3392 := by decide +kernel
  have hRow : ((builtOn threeTypes).atRow 2 (2 ^ 32 - 1)).rowNo 8 = 3327 := by decide +kernel
  rw [hTchar, hSize, hCount, hRow] at hText
  exact hText

end Epol
