import EpOraLibrary.Model.Connection
import EpOraLibrary.Model.DateTime

/-!
# EpOraLibrary — columns

`epColumn.cpp`. A column owns the buffers one position of a query is defined
on; its accessors read the slot of the current row of its result set, the value
at the byte they find it at by their own step.

`operator new` throws instead of returning `NULL`, so the check for `NULL`
after it (`EC_NO_MEMORY`) has no counterpart.
-/

namespace Epol

open Ledger Prog

-- ---------------------------------------------------------------------------
-- Type codes and sizes of OCI
-- ---------------------------------------------------------------------------

def SQLT_CHR : Nat := 1
def SQLT_NUM : Nat := 2
def SQLT_INT : Nat := 3
def SQLT_FLT : Nat := 4
def SQLT_STR : Nat := 5
def SQLT_VNU : Nat := 6
def SQLT_PDN : Nat := 7
def SQLT_LNG : Nat := 8
def SQLT_VCS : Nat := 9
def SQLT_DAT : Nat := 12
def SQLT_UIN : Nat := 68
def SQLT_AFC : Nat := 96
def SQLT_AVC : Nat := 97
def SQLT_RSET : Nat := 116
def SQLT_VST : Nat := 155
def SQLT_ODT : Nat := 156

/-- `sizeof (OCINumber)`. -/
def sizeofOciNumber : Nat := 22

/-- `sizeof (OCIDate)`. -/
def sizeofOciDate : Nat := 8

/-- The indicator of a NULL value. -/
def ORADATA_NULL : Int := -1

/-- The indicator of a value. -/
def ORADATA_OK : Int := 0

-- ---------------------------------------------------------------------------
-- Construction
-- ---------------------------------------------------------------------------

def modifyCol (c : Nat) (f : Column → Column) : M Unit :=
  modify fun w => { w with cols := Function.update w.cols c (f (w.cols c)) }

@[simp] theorem wp_modifyCol {Q : Unit → World → Prop} {E : OraError → World → Prop} {w : World}
    (c : Nat) (f : Column → Column) :
    wp (modifyCol c f) Q E w =
      Q () { w with cols := Function.update w.cols c (f (w.cols c)) } := rfl

/-- The `switch` of the constructor: the type a column is fetched as, its type
in the library and its size in bytes; `none` for an unsupported type. -/
def Column.typeOf (tcharSize : Nat) (ociDataType maxDataSize : Nat) :
    Option (Nat × DataType × Nat) :=
  if ociDataType ∈ [SQLT_INT, SQLT_UIN, SQLT_NUM, SQLT_FLT, SQLT_VNU, SQLT_PDN] then
    some (SQLT_VNU, .number, sizeofOciNumber)
  else if ociDataType ∈ [SQLT_DAT, SQLT_ODT] then
    some (SQLT_ODT, .date, sizeofOciDate)
  else if ociDataType ∈
      [SQLT_CHR, SQLT_STR, SQLT_VCS, SQLT_AFC, SQLT_AVC, SQLT_VST, SQLT_LNG] then
    some (SQLT_STR, .text, (maxDataSize + 1) * tcharSize % 2 ^ 32)
  else none

/-- The three kinds of column. -/
theorem typeOf_cases {tcharSize ociDataType maxDataSize : Nat} {as : Nat × DataType × Nat}
    (hAs : Column.typeOf tcharSize ociDataType maxDataSize = some as) :
    as = (SQLT_VNU, .number, sizeofOciNumber) ∨ as = (SQLT_ODT, .date, sizeofOciDate) ∨
      as = (SQLT_STR, .text, (maxDataSize + 1) * tcharSize % 2 ^ 32) := by
  unfold Column.typeOf at hAs
  split at hAs
  · exact Or.inl (Option.some.inj hAs).symm
  split at hAs
  · exact Or.inr (Or.inl (Option.some.inj hAs).symm)
  split at hAs
  · exact Or.inr (Or.inr (Option.some.inj hAs).symm)
  · cases hAs

/-- The size of a text column, for every size a server may report. -/
theorem textSize_le {tcharSize maxDataSize : Nat} (hSize : maxDataSize < 2 ^ 16)
    (hTchar : tcharSize ≤ 2) : (maxDataSize + 1) * tcharSize ≤ 131072 := by
  calc (maxDataSize + 1) * tcharSize ≤ 65536 * 2 := Nat.mul_le_mul (by omega) hTchar
    _ = 131072 := rfl

/-- `Column::Column`. -/
def Column.new (rs : Nat) (name : TString) (ociDataType maxDataSize fetchSize : Nat) :
    M Nat := do
  let c ← acquire .column none
  let w ← get
  match Column.typeOf w.cfg.tcharSize ociDataType maxDataSize with
  | some (ociType, colType, size) =>
    modifyCol c fun _ => {
      m_colName := name
      m_colType := colType
      m_ociType := ociType
      m_size := size
      m_indicators := some fetchSize
      m_dataLengths := if colType = .text then some fetchSize else none
      m_fetchBuffer := some (size * fetchSize % 2 ^ 32)
      m_resultSet := some rs }
    return c
  | none =>
    release ⟨.column, c⟩ true
    throw (.oralib .unsupOraType (some name))

/-- `Column::cleanUp`. -/
def Column.cleanUp (c : Nat) : M Unit :=
  modifyCol c fun col => { col with
    m_indicators := none
    m_dataLengths := none
    m_fetchBuffer := none }

-- ---------------------------------------------------------------------------
-- Accessors
-- ---------------------------------------------------------------------------

/-- The bytes of a slot read as a text, a number or a date. -/
def Value.asText : Value → TString
  | .text s => s
  | _ => []

def Value.asNumber : Value → OciNumber
  | .number n => n
  | _ => []

def Value.asDate : Value → OciDate
  | .date d => d
  | _ => default

/-- The slot the accessors of column `c` read: `m_currentRow % m_fetchCount`,
an `unsigned short`. -/
def World.rowNo (w : World) (c : Nat) : Nat :=
  match (w.cols c).m_resultSet with
  | some r => (w.rsets r).m_currentRow % (w.rsets r).m_fetchCount % 2 ^ 16
  | none => 0

/-- What the accessors of a column step by from slot to slot: `ToString` by
`m_size` bytes, `ToDouble` and `ToLong` by an `OCINumber`, `ToDateTime` by an
`OCIDate`. -/
def Column.stride (col : Column) : Nat :=
  match col.m_colType with
  | .number => sizeofOciNumber
  | .date => sizeofOciDate
  | _ => col.m_size

/-- The value that starts at a byte of the buffer; between the elements OCI writes
there is none. -/
def Column.valueAt (col : Column) (offset : Nat) : Value :=
  if offset % col.valueSz = 0 then (col.slots (offset / col.valueSz)).value else default

/-- The slot of the current row as the accessors find it: the indicator and the
data length by index, the value by its byte. -/
def World.slot (w : World) (c : Nat) : Slot :=
  { (w.cols c).slots (w.rowNo c) with
    value := (w.cols c).valueAt ((w.cols c).stride * w.rowNo c) }

/-- The accessors step by the size of an element. -/
def Column.Spaced (col : Column) : Prop := 0 < col.valueSz ∧ col.stride = col.valueSz

theorem Column.Spaced.valueAt {col : Column} (h : col.Spaced) (j : Nat) :
    col.valueAt (col.stride * j) = (col.slots j).value := by
  rw [Column.valueAt, h.2, Nat.mul_mod_right, if_pos rfl, Nat.mul_div_cancel_left _ h.1]

/-- Then they find the slot OCI has written. -/
theorem World.slot_spaced {w : World} {c : Nat} (h : (w.cols c).Spaced) :
    w.slot c = (w.cols c).slots (w.rowNo c) := by
  rw [World.slot, h.valueAt]

/-- `Column::IsNull`. -/
def Column.isNull (c : Nat) : M Bool := do
  let w ← get
  return (w.slot c).indicator = ORADATA_NULL

/-- What `ToString`, `ToDouble`, `ToLong` and `ToDateTime` have in common: the
slot of a column of type `type` that is not NULL is handed to `read`. -/
def Column.output {α : Type} (type : DataType) (c : Nat) (read : Value → M α) : M α := do
  let w ← get
  if (w.cols c).m_colType = type ∧ (w.slot c).indicator ≠ ORADATA_NULL then
    read (w.slot c).value
  else
    throw (.oralib .badOutputType none)

/-- A text up to its NUL. -/
def untilNul (s : TString) : TString := s.takeWhile (· ≠ 0)

/-- `Column::ToString`. -/
def Column.toString (c : Nat) : M TString :=
  Column.output .text c fun v => return untilNul v.asText

/-- A conversion OCI makes of a number, with the error handle it is passed. -/
def convert {α : Type} (f : Except OciResult α) : M α := do
  let w ← get
  pass (ptr .error w.conn.m_errorHandle)
  match f with
  | .ok a => return a
  | .error result => throwOnError result w.conn.m_errorHandle none

/-- `Column::ToDouble`. -/
def Column.toDouble (c : Nat) : M Double := do
  let w ← get
  Column.output .number c fun v => convert (w.cfg.numberToReal v.asNumber)

/-- `Column::ToLong`. -/
def Column.toLong (c : Nat) : M Int := do
  let w ← get
  Column.output .number c fun v => convert (w.cfg.numberToInt v.asNumber)

/-- `Column::ToDateTime`; `none` where the slot holds no month. -/
def Column.toDateTime (c : Nat) : M (Option DateTime) :=
  Column.output .date c fun v => return DateTime.ofOciDate v.asDate

end Epol
