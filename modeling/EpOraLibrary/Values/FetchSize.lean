import EpOraLibrary.Values.Layout

/-!
# EpOraLibrary — the fetch size

The constructor of a `ResultSet` takes a 32-bit fetch size. `m_fetchCount`,
which the fetches ask for, the accessors divide by and the columns are made
with, is an `unsigned short`, and the buffer of a column is a 32-bit product.

* `World.AsksFor` — the number of rows a fetch asks OCI for.
* `UsesFetchSize` — a result set that works with the size it was given.
* `fetch_size_iff` — **the requested fetch size is the one used** exactly where
  it is below 2 ^ 16 and the buffers of all columns below 2 ^ 32 bytes.
* `fetch_size_narrowed` — `FETCH_SIZE` itself, 65536 rows and a long text.
-/

namespace Epol

open Ledger Prog Runs

variable {w w' : World} {r h n fetchSize : Nat}

-- ---------------------------------------------------------------------------
-- The number of rows asked for
-- ---------------------------------------------------------------------------

/-- `ResultSet::fetchRows` with any function in the place of `OCIStmtFetch`. -/
def ResultSet.fetchRowsBy (stmtFetch : Option Nat → Option Nat → Nat → M OciResult) (r : Nat) :
    M Unit := do
  let w ← get
  let rs := w.rsets r
  let result ← stmtFetch rs.m_rsHandle w.conn.m_errorHandle rs.m_fetchCount
  if result = .success ∨ result = .noData ∨ result = .successWithInfo then
    let rows ← rowsCount r
    modifyRs r fun rs' => { rs' with
      m_rowsFetched := rows
      m_isEod := rs'.m_isEod ||
        decide ((rows + 2 ^ 32 - rs.m_rowsFetched) % 2 ^ 32 ≠ rs.m_fetchCount) }
  else throwOnError result w.conn.m_errorHandle none

theorem fetchRows_eq (r : Nat) :
    ResultSet.fetchRows r = ResultSet.fetchRowsBy (ociStmtFetch r) r := rfl

/-- A fetch for `r` asks for `n` rows: whatever `OCIStmtFetch` makes of the
number it gets, the outcome is the one for `n`. -/
def World.AsksFor (w : World) (r n : Nat) : Prop :=
  ∀ stmtFetch, ResultSet.fetchRowsBy stmtFetch r w =
    ResultSet.fetchRowsBy (fun stmt error _ => stmtFetch stmt error n) r w

theorem asksFor_iff : w.AsksFor r n ↔ (w.rsets r).m_fetchCount = n := by
  constructor
  · intro hAsks
    -- an `OCIStmtFetch` that leaves the number where it can be seen
    let shown (n : Nat) : M OciResult := do
      modify fun w => { w with fresh := n }
      throw (.oralib .badOutputType none)
    have hSeen : (exec (ResultSet.fetchRowsBy (fun _ _ asked => shown asked) r) w).fresh =
        (exec (ResultSet.fetchRowsBy (fun _ _ _ => shown n) r) w).fresh := by
      rw [exec, hAsks fun _ _ asked => shown asked]
      rfl
    exact hSeen
  · rintro rfl stmtFetch
    rfl

-- ---------------------------------------------------------------------------
-- A result set and its fetch size
-- ---------------------------------------------------------------------------

/-- The result set `r` works with blocks of `fetchSize` rows: it asks for that
many, its columns have an indicator and a slot of `m_size` bytes for each, and
the accessors divide by that count and hold every slot number. -/
@[mk_iff]
structure UsesFetchSize (w : World) (r fetchSize : Nat) : Prop where
  asks       : w.AsksFor r fetchSize
  divisor    : 0 < (w.rsets r).m_fetchCount ∧ (w.rsets r).m_fetchCount = fetchSize
  indicators : ∀ c ∈ (w.rsets r).m_columns, (w.cols c).m_indicators = some fetchSize
  buffers    : ∀ c ∈ (w.rsets r).m_columns,
    (w.cols c).m_fetchBuffer = some ((w.cols c).m_size * fetchSize)
  slots      : ∀ c ∈ (w.rsets r).m_columns, ∀ row < 2 ^ 32,
    (w.atRow r row).rowNo c = row % fetchSize

/-- What is done with a result set once it is built. -/
inductive ResultSetCall
  | fetchRows
  | next

/-- One call, with any answers of OCI; an exception is caught. -/
def ResultSetCall.step (r : Nat) (w : World) : ResultSetCall × (OciCall → OciResult) → World
  | (.fetchRows, o) => exec (ResultSet.fetchRows r) (w.answering o)
  | (.next, o) => exec (ResultSet.next r) (w.answering o)

/-- The slot of a position depends on the owner of the column and the count. -/
theorem rowNo_atRow {c : Nat} (hOwner : (w.cols c).m_resultSet = some r) (row : Nat) :
    (w.atRow r row).rowNo c = row % (w.rsets r).m_fetchCount % 2 ^ 16 := by
  have hOwner : ((w.atRow r row).cols c).m_resultSet = some r := hOwner
  rw [World.rowNo, hOwner]
  simp [World.atRow]

/-- Reading rows does not touch the slot of a position. -/
theorem Reading.rowNo_atRow (hR : Reading r w w') (row c : Nat) :
    (w'.atRow r row).rowNo c = (w.atRow r row).rowNo c := by
  have hOwner : ((w'.atRow r row).cols c).m_resultSet = ((w.atRow r row).cols c).m_resultSet := by
    show (w'.cols c).m_resultSet = (w.cols c).m_resultSet
    rw [hR.cols]
  rw [World.rowNo, World.rowNo, hOwner]
  cases ((w.atRow r row).cols c).m_resultSet with
  | none => rfl
  | some owner =>
    by_cases hr : owner = r
    · subst hr
      simp only [World.atRow, Function.update_self]
      rw [hR.rsets, Function.update_self]
    · simp only [World.atRow, Function.update_of_ne hr]
      rw [hR.rsets, Function.update_of_ne hr]

/-- Nor the count or the arrays. -/
theorem Reading.fetchSize_iff (hR : Reading r w w') :
    UsesFetchSize w' r fetchSize ↔ UsesFetchSize w r fetchSize := by
  have hCount : (w'.rsets r).m_fetchCount = (w.rsets r).m_fetchCount := by
    rw [hR.rsets, Function.update_self]
  have hColumns : (w'.rsets r).m_columns = (w.rsets r).m_columns := by
    rw [hR.rsets, Function.update_self]
  have hIndicators : ∀ c, (w'.cols c).m_indicators = (w.cols c).m_indicators :=
    fun c => by rw [hR.cols]
  have hBuffer : ∀ c, (w'.cols c).m_fetchBuffer = (w.cols c).m_fetchBuffer :=
    fun c => by rw [hR.cols]
  have hSize : ∀ c, (w'.cols c).m_size = (w.cols c).m_size := fun c => by rw [hR.cols]
  simp only [usesFetchSize_iff, asksFor_iff, hCount, hColumns, hIndicators, hBuffer, hSize,
    hR.rowNo_atRow]

theorem ResultSetCall.fetchSize_iff (call : ResultSetCall × (OciCall → OciResult)) :
    UsesFetchSize (step r w call) r fetchSize ↔ UsesFetchSize w r fetchSize := by
  have hAnswering : UsesFetchSize (w.answering call.2) r fetchSize ↔
      UsesFetchSize w r fetchSize := by
    simp only [usesFetchSize_iff, asksFor_iff]
    rfl
  rw [← hAnswering]
  obtain ⟨call, o⟩ := call
  cases call with
  | fetchRows => exact (wp_exec.mp (reading_fetchRows r (w.answering o))).fetchSize_iff
  | next => exact (wp_exec.mp (reading_next r (w.answering o))).fetchSize_iff

/-- **Any number of calls.** -/
theorem run_usesFetchSize_iff (calls : List (ResultSetCall × (OciCall → OciResult))) :
    UsesFetchSize (run (ResultSetCall.step r) w calls) r fetchSize ↔
      UsesFetchSize w r fetchSize := by
  induction calls generalizing w with
  | nil => rfl
  | cons call calls ih => rw [run_cons, ih, ResultSetCall.fetchSize_iff]

-- ---------------------------------------------------------------------------
-- The constructor
-- ---------------------------------------------------------------------------

/-- The buffer of a column described by `desc` has a 32-bit size: `fetchSize`
slots of the size the constructor of a column computes. -/
def ColumnDesc.BufferFits (desc : ColumnDesc) (tcharSize fetchSize : Nat) : Prop :=
  ∀ as, Column.typeOf tcharSize (desc.ociType % 2 ^ 16) (desc.size % 2 ^ 16) = some as →
    as.2.2 * fetchSize < 2 ^ 32

/-- A block of the requested size, for one column. -/
theorem Column.IsFor.arrays_iff {col : Column} {cfg : Setting} {desc : ColumnDesc}
    (hFor : col.IsFor cfg r fetchSize desc) :
    col.m_indicators = some fetchSize ∧
      (col.m_fetchBuffer = some (col.m_size * fetchSize) ↔
        desc.BufferFits cfg.tcharSize fetchSize) := by
  obtain ⟨freed, as, hAs, hCol⟩ := hFor
  rw [hCol]
  refine ⟨rfl, ?_⟩
  have hBuffer : some (as.2.2 * fetchSize % 2 ^ 32) = some (as.2.2 * fetchSize) ↔
      as.2.2 * fetchSize < 2 ^ 32 := by
    rw [Option.some_inj, Nat.mod_eq_iff_lt (by decide)]
  refine hBuffer.trans ⟨fun hLt as' hAs' => ?_, fun hFits => hFits as hAs⟩
  rw [hAs] at hAs'
  exact Option.some.inj hAs' ▸ hLt

/-- The same for all columns of a result set. -/
theorem Building.arrays_iff {ids : List Nat} (hB : Building w w' r (some h) fetchSize ids)
    (hLength : ids.length = (w.oci.stmt h).query.desc.length) :
    (∀ c ∈ (w'.rsets r).m_columns, (w'.cols c).m_indicators = some fetchSize ∧
      (w'.cols c).m_fetchBuffer = some ((w'.cols c).m_size * fetchSize)) ↔
      ∀ desc ∈ (w.oci.stmt h).query.desc, desc.BufferFits w.cfg.tcharSize fetchSize := by
  -- the columns are those of the query, one for one
  have hColumn : ∀ i (hId : i < ids.length) (hDesc : i < (w.oci.stmt h).query.desc.length),
      (w'.cols ids[i]).IsFor w.cfg r fetchSize (w.oci.stmt h).query.desc[i] := by
    intro i hId hDesc
    have hFor := hB.isFor h rfl i hId
    rw [List.getD_eq_getElem?_getD, List.getElem?_eq_getElem hDesc, Option.getD_some] at hFor
    exact hFor
  rw [hB.rset.columns]
  constructor
  · intro hArrays desc hDesc
    obtain ⟨i, hi, rfl⟩ := List.getElem_of_mem hDesc
    have hId : i < ids.length := hLength ▸ hi
    exact (hColumn i hId hi).arrays_iff.2.mp (hArrays _ (List.getElem_mem hId)).2
  · intro hFits c hc
    obtain ⟨i, hi, rfl⟩ := List.getElem_of_mem hc
    have hDesc : i < (w.oci.stmt h).query.desc.length := hLength ▸ hi
    have hArrays := (hColumn i hi hDesc).arrays_iff
    exact ⟨hArrays.1, hArrays.2.mpr (hFits _ (List.getElem_mem hDesc))⟩

/-- **The requested fetch size is the one used.** A result set was built on a
handle with any non-zero 32-bit fetch size, and rows were fetched and `Next`
called any number of times, any call to OCI failing. It works with blocks of
that many rows exactly when the size is below 2 ^ 16 and the buffer of no column
of the query takes 2 ^ 32 bytes. -/
theorem fetch_size_iff (hPos : 0 < fetchSize)
    (hNew : ResultSet.new (some h) fetchSize w = .ok r w')
    (calls : List (ResultSetCall × (OciCall → OciResult))) :
    UsesFetchSize (run (ResultSetCall.step r) w' calls) r fetchSize ↔
      fetchSize < 2 ^ 16 ∧
        ∀ desc ∈ (w.oci.stmt h).query.desc, desc.BufferFits w.cfg.tcharSize fetchSize := by
  obtain ⟨-, ids, hBuilt⟩ := of_wp_ok (wp_newResultSet (some h) fetchSize) hNew
  have hB := hBuilt.building
  have hCount := hB.rset.count
  have hLength := hBuilt.length h rfl
  rw [run_usesFetchSize_iff]
  constructor
  · intro hUses
    have hSame : fetchSize % 2 ^ 16 = fetchSize := hCount.symm.trans hUses.divisor.2
    rw [hSame] at hB
    refine ⟨(Nat.mod_eq_iff_lt (by decide)).mp hSame, (hB.arrays_iff hLength).mp ?_⟩
    intro c hc
    exact ⟨hUses.indicators c hc, hUses.buffers c hc⟩
  · rintro ⟨hSmall, hFits⟩
    have hSame : fetchSize % 2 ^ 16 = fetchSize := Nat.mod_eq_of_lt hSmall
    rw [hSame] at hB hCount
    have hArrays := (hB.arrays_iff hLength).mpr hFits
    refine ⟨asksFor_iff.mpr hCount, ⟨hCount ▸ hPos, hCount⟩, fun c hc => (hArrays c hc).1,
      fun c hc => (hArrays c hc).2, ?_⟩
    intro c hc row _
    rw [hB.rset.columns] at hc
    rw [rowNo_atRow (hB.owner c hc), hCount]
    exact Nat.mod_eq_of_lt (Nat.lt_trans (Nat.mod_lt row hPos) hSmall)

/-- A result set on the three types, for blocks of `fetchSize` rows. -/
def sizedOn (fetchSize : Nat) : World :=
  exec (ResultSet.new (some 1) fetchSize) (executedOn threeTypes)

/-- Blocks of 1000 rows, after a fetch that failed, another and a `Next`. -/
theorem fetch_size_thousand : UsesFetchSize (run (ResultSetCall.step 2) (sizedOn 1000)
    [(.fetchRows, failing (· = .stmtFetch)), (.fetchRows, allWell), (.next, allWell)]) 2 1000 := by
  have hNew : ResultSet.new (some 1) 1000 (executedOn threeTypes) = .ok 2 (sizedOn 1000) :=
    eq_ok_of_result (by decide +kernel)
  have hTchar : (executedOn threeTypes).cfg.tcharSize = 2 := by decide +kernel
  refine (fetch_size_iff (by decide) hNew _).mpr ⟨by decide, fun _ _ as hAs => ?_⟩
  rw [hTchar] at hAs
  have hSize : as.2.2 ≤ 131072 := by
    rcases typeOf_cases hAs with rfl | rfl | rfl
    · decide
    · decide
    · exact Nat.le_trans (Nat.mod_le _ _) (textSize_le (Nat.mod_lt _ (by decide)) (by decide))
  omega

/-- `FETCH_SIZE` becomes 3392 rows, and 65536 none. The buffer for 65535 slots
of 131072 bytes gets half of the bytes they take. -/
theorem fetch_size_narrowed :
    (result? (ResultSet.new (some 1) FETCH_SIZE) (executedOn threeTypes) = some 2 ∧
      (sizedOn FETCH_SIZE).AsksFor 2 3392 ∧ ¬ UsesFetchSize (sizedOn FETCH_SIZE) 2 FETCH_SIZE) ∧
    (result? (ResultSet.new (some 1) 65536) (executedOn threeTypes) = some 2 ∧
      ((sizedOn 65536).rsets 2).m_fetchCount = 0) ∧
    result? (ResultSet.new (some 1) 65535) (executedOn threeTypes) = some 2 ∧
      8 ∈ ((sizedOn 65535).rsets 2).m_columns ∧ ((sizedOn 65535).cols 8).m_size = 131072 ∧
      ((sizedOn 65535).cols 8).m_fetchBuffer = some 4294836224 := by
  have hCount : ((sizedOn FETCH_SIZE).rsets 2).m_fetchCount = 3392 := by decide +kernel
  refine ⟨⟨by decide +kernel, asksFor_iff.mpr hCount, fun hUses => ?_⟩,
    ⟨by decide +kernel, by decide +kernel⟩, by decide +kernel, by decide +kernel,
    by decide +kernel, by decide +kernel⟩
  have hSame := hUses.divisor.2
  rw [hCount] at hSame
  revert hSame
  decide

end Epol
