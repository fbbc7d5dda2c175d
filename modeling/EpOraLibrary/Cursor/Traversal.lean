import EpOraLibrary.Connection.Runs
import EpOraLibrary.Cursor.Select

/-!
# EpOraLibrary — walking over a result set

* `AtRow` — a result set is at row `i` of its query and no fetch has failed.
* `next_atRow` — a `Next` takes it from row `i` to row `i + 1`.
* `nexts_atRow`, `scan_atRow` — so do any number of them, and the loop over all
  rows visits each once and in order.
* `select_traversal` — **a result set is an iterator over the rows of its
  query**, from what `Select` returns to the end of the data.
-/

namespace Epol

open Ledger Prog

variable {w w₀ : World} {s r h F base fetchSize i : Nat} {ids : List Nat}
  {os : Nat → OciCall → OciResult}

/-- No call to OCI fails. -/
def NoFailure (o : OciCall → OciResult) : Prop := ∀ c, o c = .success

/-- `n` calls of `Next`, the `i`-th with the answers `os i`, none of which
throws. -/
def nexts (r : Nat) (os : Nat → OciCall → OciResult) : Nat → World → Option World
  | 0, w => some w
  | i + 1, w =>
    match nexts r os i w with
    | some w =>
      match ResultSet.next r (w.answering (os i)) with
      | .ok _ w => some w
      | .error _ _ => none
    | none => none

/-- The current row, as the columns of the result set show it. -/
def World.row (w : World) (r : Nat) : List Slot := (w.rsets r).m_columns.map w.slot

/-- `while (!rs.IsEod ()) { read; rs.Next (); }`, from the `i`-th turn on; at
most `fuel` turns. -/
def scan (r : Nat) (os : Nat → OciCall → OciResult) : Nat → Nat → World →
    Option (List (List Slot) × World)
  | fuel, i, w =>
    if (w.rsets r).IsEod then some ([], w)
    else
      match fuel with
      | 0 => none
      | fuel + 1 =>
        match ResultSet.next r (w.answering (os i)) with
        | .ok _ w' => (scan r os fuel (i + 1) w').map fun rest => (w.row r :: rest.1, rest.2)
        | .error _ _ => none

/-- All accessors of the column `col` read the slot `cell`. -/
structure Reads (w : World) (col : Nat) (cell : Slot) : Prop where
  isNull : Column.isNull col w = .ok (decide (cell.indicator = ORADATA_NULL)) w
  output : ∀ (α : Type) (type : DataType) (read : Value → M α),
    Column.output type col read w =
      if (w.cols col).m_colType = type ∧ cell.indicator ≠ ORADATA_NULL then read cell.value w
      else .error (.oralib .badOutputType none) w
  toString : Column.toString col w =
    if (w.cols col).m_colType = .text ∧ cell.indicator ≠ ORADATA_NULL then
      .ok (untilNul cell.value.asText) w
    else .error (.oralib .badOutputType none) w
  toDouble : Column.toDouble col w =
    if (w.cols col).m_colType = .number ∧ cell.indicator ≠ ORADATA_NULL then
      convert (w.cfg.numberToReal cell.value.asNumber) w
    else .error (.oralib .badOutputType none) w
  toLong : Column.toLong col w =
    if (w.cols col).m_colType = .number ∧ cell.indicator ≠ ORADATA_NULL then
      convert (w.cfg.numberToInt cell.value.asNumber) w
    else .error (.oralib .badOutputType none) w
  toDateTime : Column.toDateTime col w =
    if (w.cols col).m_colType = .date ∧ cell.indicator ≠ ORADATA_NULL then
      .ok (DateTime.ofOciDate cell.value.asDate) w
    else .error (.oralib .badOutputType none) w

/-- What the accessors have in common. -/
theorem output_eq {α : Type} (type : DataType) (col : Nat) (read : Value → M α) (w : World) :
    Column.output type col read w =
      if (w.cols col).m_colType = type ∧ (w.slot col).indicator ≠ ORADATA_NULL then
        read (w.slot col).value w
      else .error (.oralib .badOutputType none) w := by
  show (if _ then _ else _ : M α) w = _
  split <;> rfl

theorem reads_slot (w : World) (col : Nat) : Reads w col (w.slot col) where
  isNull := rfl
  output _ type read := output_eq type col read w
  toString := output_eq .text col _ w
  toDouble := output_eq .number col (fun v => convert (w.cfg.numberToReal v.asNumber)) w
  toLong := output_eq .number col (fun v => convert (w.cfg.numberToInt v.asNumber)) w
  toDateTime := output_eq .date col _ w

-- ---------------------------------------------------------------------------
-- At a row
-- ---------------------------------------------------------------------------

/-- The result set `r` is at row `i` of the query `q`. -/
structure AtRow (w : World) (r h F base : Nat) (ids : List Nat) (q : Query) (i : Nat) : Prop where
  query  : (w.oci.stmt h).query = q
  reader : ∃ s, Tracks w r h F base ids s ∧ BlockCursor.At F q.rows.length i s

variable {q : Query}

theorem AtRow.count (hA : AtRow w r h F base ids q i) : w.rowCount h = q.rows.length := by
  rw [World.rowCount, hA.query]

/-- The answers of the next call do not matter for where the reader is. -/
theorem Tracks.answering {t : BlockCursor.State} (hT : Tracks w r h F base ids t)
    (o : OciCall → OciResult) : Tracks (w.answering o) r h F base ids t :=
  ⟨hT.wired.of_eq rfl rfl rfl rfl rfl fun _ => rfl, hT.pos, hT.fetched, hT.eod, hT.delivered,
    hT.bound, hT.fetches, hT.slots⟩

/-- **One `Next`** from row `i` to row `i + 1`. -/
theorem next_atRow (hA : AtRow w r h F base ids q i) (hF : 0 < F) (hN : q.rows.length < 2 ^ 32)
    (hi : i < q.rows.length) {o : OciCall → OciResult} (ho : NoFailure o) :
    ∃ w', ResultSet.next r (w.answering o) = .ok (decide (i + 1 < q.rows.length)) w' ∧
      AtRow w' r h F base ids q (i + 1) := by
  obtain ⟨t, hT, hAt⟩ := hA.reader
  have hRows := hA.count
  have hMove := BlockCursor.next_at hF hN hAt hi
  have hOk : fetchOk (o .stmtFetch) := .inl (by rw [ho]; rfl)
  have hStep := tracks_next (hT.answering o) (hRows ▸ hN) (ho _)
  rw [show (w.answering o).rowCount h = q.rows.length from hRows,
    show decide (¬ fetchOk ((w.answering o).outcome .stmtFetch)) = false from
      decide_eq_false (not_not_intro hOk)] at hStep
  cases hRun : ResultSet.next r (w.answering o) with
  | error e w' =>
    have hNone := (of_wp_error hStep hRun).1
    rw [hMove.1] at hNone
    cases hNone
  | ok b w' =>
    obtain ⟨hb, hT', hQuery⟩ := of_wp_ok hStep hRun
    rw [hMove.1] at hb
    obtain rfl := Option.some.inj hb
    exact ⟨w', rfl, hQuery.trans hA.query, _, hT', hMove.2⟩

theorem isEod_atRow (hA : AtRow w r h F base ids q i) (hF : 0 < F) (hi : i ≤ q.rows.length) :
    (w.rsets r).IsEod = decide (q.rows.length ≤ i) := by
  obtain ⟨t, hT, hAt⟩ := hA.reader
  rw [← BlockCursor.at_isEod hF hAt hi, ResultSet.IsEod, BlockCursor.State.isEod, hT.pos,
    hT.fetched, hT.eod]

/-- The slot of a column is that of row `i`. -/
theorem slot_atRow (hA : AtRow w r h F base ids q i) (hF : 0 < F) (hF' : F < 2 ^ 16)
    (hi : i < q.rows.length) {c : Nat} (hc : c < ids.length) :
    w.rowNo ids[c] = i % F ∧ w.slot ids[c] = q.cell i c := by
  obtain ⟨t, hT, hAt⟩ := hA.reader
  have hRow : w.rowNo ids[c] = i % F := by
    rw [World.rowNo, hT.wired.owner _ (List.getElem_mem hc)]
    dsimp only
    rw [hT.pos, hAt.pos, hT.wired.count]
    exact Nat.mod_eq_of_lt (Nat.lt_trans (Nat.mod_lt i hF) hF')
  refine ⟨hRow, ?_⟩
  rw [World.slot_spaced (hT.wired.spaced _ (List.getElem_mem hc)), hRow,
    hT.slots c hc (i % F) i (BlockCursor.at_slot hF hAt hi), hA.query]

theorem row_atRow (hA : AtRow w r h F base ids q i) (hF : 0 < F) (hF' : F < 2 ^ 16)
    (hi : i < q.rows.length) : w.row r = (List.range q.desc.length).map (q.cell i) := by
  obtain ⟨t, hT, -⟩ := hA.reader
  have hLength : ids.length = q.desc.length := by rw [hT.wired.length, hA.query]
  rw [World.row, hT.wired.columns]
  refine List.ext_getElem (by simp [hLength]) fun c hc hc' => ?_
  simp only [List.getElem_map, List.getElem_range]
  exact (slot_atRow hA hF hF' hi _).2

/-- The result set shows row `i` of the query, or the end of the data. -/
structure Shows (w : World) (r : Nat) (q : Query) (i : Nat) : Prop where
  isEod : (w.rsets r).IsEod = decide (q.rows.length ≤ i)
  row   : i < q.rows.length → w.row r = (List.range q.desc.length).map (q.cell i)

-- ---------------------------------------------------------------------------
-- Many calls
-- ---------------------------------------------------------------------------

/-- Any number of `Next` calls up to the end of the data. -/
theorem nexts_atRow (hA : AtRow w r h F base ids q 0) (hF : 0 < F) (hN : q.rows.length < 2 ^ 32)
    (hOs : ∀ i, NoFailure (os i)) (hi : i ≤ q.rows.length) :
    ∃ w', nexts r os i w = some w' ∧ AtRow w' r h F base ids q i := by
  induction i with
  | zero => exact ⟨w, rfl, hA⟩
  | succ i ih =>
    obtain ⟨w₁, hRun, hA₁⟩ := ih (Nat.le_of_succ_le hi)
    obtain ⟨w₂, hNext, hA₂⟩ := next_atRow hA₁ hF hN hi (hOs i)
    refine ⟨w₂, ?_, hA₂⟩
    simp only [nexts, hRun, hNext]

/-- The loop visits the rows from the current one on. -/
theorem scan_atRow (hF : 0 < F) (hF' : F < 2 ^ 16) (hN : q.rows.length < 2 ^ 32)
    (hOs : ∀ i, NoFailure (os i)) (fuel turn : Nat) (hA : AtRow w r h F base ids q i)
    (hi : i ≤ q.rows.length) (hFuel : q.rows.length - i ≤ fuel) :
    ∃ w', scan r os fuel turn w = some
        ((List.range' i (q.rows.length - i)).map fun j => (List.range q.desc.length).map (q.cell j),
          w') ∧
      AtRow w' r h F base ids q q.rows.length := by
  induction fuel generalizing w i turn with
  | zero =>
    have hEnd : i = q.rows.length := by omega
    subst hEnd
    refine ⟨w, ?_, hA⟩
    rw [scan, if_pos (by rw [isEod_atRow hA hF (Nat.le_refl _)]; simp)]
    simp
  | succ fuel ih =>
    rw [scan]
    rcases Nat.lt_or_ge i q.rows.length with hLt | hGe
    · obtain ⟨w₁, hNext, hA₁⟩ := next_atRow hA hF hN hLt (hOs turn)
      obtain ⟨w₂, hScan, hA₂⟩ := ih (turn + 1) hA₁ hLt (by omega)
      refine ⟨w₂, ?_, hA₂⟩
      rw [if_neg (by rw [isEod_atRow hA hF hi]; simpa using hLt)]
      simp only [hNext, hScan, Option.map_some, row_atRow hA hF hF' hLt]
      rw [show q.rows.length - i = q.rows.length - (i + 1) + 1 by omega, List.range'_succ,
        List.map_cons]
    · have hEnd : i = q.rows.length := by omega
      subst hEnd
      refine ⟨w, ?_, hA⟩
      rw [if_pos (by rw [isEod_atRow hA hF (Nat.le_refl _)]; simp)]
      simp

-- ---------------------------------------------------------------------------
-- From what `Select` returns to the end of the data
-- ---------------------------------------------------------------------------

/-- The fetches made so far at row `i`. -/
theorem AtRow.fetches (hA : AtRow w r h F base ids q i) :
    fetchesOf r w.oci.log = base + (i / F + 1) := by
  obtain ⟨t, hT, hAt⟩ := hA.reader
  rw [hT.fetches, hAt.fetches]

theorem FirstBlock.atRow {execs : Nat} (hB : FirstBlock w r h F execs base ids) :
    AtRow w r h F base ids (w.oci.stmt h).query 0 :=
  ⟨rfl, _, hB.tracks, BlockCursor.start_at⟩

/-- **A result set is an iterator over the rows of its query.** `Select`
returned `r` on the cursor its execution opened; the block size `F` and the
number of rows `N` are any, and no call to OCI fails. Then after `i ≤ N` calls
of `Next` the end is reported exactly when `i = N`; each of the first `N` calls
returns true exactly when there is a row after it; at row `i` every accessor of
column `c` reads the cell of row `i` and column `c`, in slot `i % F`; the loop
over the result set visits all rows once and in order, and issues `N / F + 1`
fetches, that of `Select` included. This is at the level of slots: where
`m_size * F` leaves the 32 bits, the buffer of the column is allocated too short for
them, as `Values/FetchSize` says. -/
theorem select_traversal (hHandle : (w.stmts s).m_stmtHandle = some h)
    (hSelect : Statement.selectWith s fetchSize w = .ok r w₀)
    (hF : 1 ≤ (w₀.rsets r).m_fetchCount) (hN : w₀.rowCount h < 2 ^ 32)
    (hOs : ∀ i, NoFailure (os i)) :
    let q := (w₀.oci.stmt h).query
    let N := q.rows.length
    let F := (w₀.rsets r).m_fetchCount
    let ids := (w₀.rsets r).m_columns
    (w.oci.execs < (w₀.oci.stmt h).exec ∧ q = w.cfg.answers (w₀.oci.stmt h).exec ∧
      ids.length = q.desc.length) ∧
    (∀ i ≤ N, ∃ w', nexts r os i w₀ = some w' ∧ ((w'.rsets r).IsEod = false ↔ i < N) ∧
      (i < N → ∃ b w'', ResultSet.next r (w'.answering (os i)) = .ok b w'' ∧
        (b = true ↔ (w''.rsets r).IsEod = false)) ∧
      (i < N → ∀ c (hc : c < ids.length), w'.rowNo ids[c] = i % F ∧
        Reads w' ids[c] (q.cell i c))) ∧
    ∀ fuel, N ≤ fuel → ∃ w', scan r os fuel 0 w₀ = some
        ((List.range N).map fun i => (List.range q.desc.length).map (q.cell i), w') ∧
      fetchesOf r w'.oci.log = fetchesOf r w.oci.log + (N / F + 1) := by
  intro q N F ids
  obtain ⟨-, hCfg, ids', hB⟩ := selectWith_tracks hHandle hSelect
  have hCount : F = fetchSize % 2 ^ 16 := hB.tracks.wired.count
  have hColumns : ids = ids' := hB.tracks.wired.columns
  have hF' : F < 2 ^ 16 := by
    rw [hCount]
    exact Nat.mod_lt _ (by decide)
  have hA := hB.atRow
  rw [← hCount, ← hColumns] at hA
  refine ⟨⟨hB.latest, hCfg ▸ hB.query, by rw [hColumns, hB.tracks.wired.length]⟩, fun i hi => ?_,
    fun fuel hFuel => ?_⟩
  · obtain ⟨w', hRun, hA'⟩ := nexts_atRow hA hF hN hOs hi
    have hEod := isEod_atRow hA' hF hi
    refine ⟨w', hRun, by rw [hEod]; simp [N, q], fun hLt => ?_, fun hLt c hc => ?_⟩
    · obtain ⟨w'', hNext, hA''⟩ := next_atRow hA' hF hN hLt (hOs i)
      refine ⟨_, w'', hNext, ?_⟩
      rw [isEod_atRow hA'' hF hLt]
      simp
    · obtain ⟨hRow, hSlot⟩ := slot_atRow hA' hF hF' hLt hc
      exact ⟨hRow, hSlot ▸ reads_slot w' _⟩
  · obtain ⟨w', hScan, hA'⟩ := scan_atRow hF hF' hN hOs fuel 0 hA (Nat.zero_le _) (by omega)
    refine ⟨w', ?_, hA'.fetches⟩
    rw [hScan, Nat.sub_zero, ← List.range_eq_range']

-- ---------------------------------------------------------------------------
-- Inside a block
-- ---------------------------------------------------------------------------

/-- `n` more rows of the block of `r` are there behind the current one. -/
def World.Inside (w : World) (r n : Nat) : Prop :=
  (w.rsets r).m_currentRow + n < (w.rsets r).m_rowsFetched ∧ (w.rsets r).m_rowsFetched < 2 ^ 32

instance (w : World) (r n : Nat) : Decidable (w.Inside r n) := inferInstanceAs (Decidable (_ ∧ _))

/-- The world after `n` calls of `Next` inside the block of `r`. -/
def World.movedBy (w : World) (r n : Nat) : World :=
  { w with
    outcome := allWell
    rsets := Function.update w.rsets r { w.rsets r with
      m_currentRow := (w.rsets r).m_currentRow + n } }

/-- Inside the block `Next` only moves the position. -/
theorem next_inside (hInside : w.Inside r 1) :
    ResultSet.next r (w.answering allWell) = .ok true (w.movedBy r 1) := by
  obtain ⟨hLt, hSmall⟩ := hInside
  have hMoved : (w.answering allWell).moved r = w.movedBy r 1 := by
    simp only [World.moved, World.movedBy, World.answering, ResultSet.advanced]
    rw [Nat.mod_eq_of_lt (by omega)]
  have hThere : ((w.movedBy r 1).rsets r).m_currentRow <
      ((w.movedBy r 1).rsets r).m_rowsFetched := by
    simpa [World.movedBy] using hLt
  have hNext : wp (ResultSet.next r) (fun b w' => b = true ∧ w' = w.movedBy r 1)
      (fun _ _ => False) (w.answering allWell) := by
    refine wp_next (fun hLe _ => ?_) (fun hLe _ => ?_) (fun _ => ⟨rfl, hMoved⟩)
    · rw [hMoved] at hLe
      exact absurd hThere (Nat.not_lt_of_le hLe)
    · rw [hMoved] at hLe
      exact absurd hThere (Nat.not_lt_of_le hLe)
  cases hRun : ResultSet.next r (w.answering allWell) with
  | ok b w' =>
    obtain ⟨rfl, rfl⟩ := of_wp_ok hNext hRun
    rfl
  | error e w' => exact (of_wp_error hNext hRun).elim

/-- So do any number of them, as the calls `l` of a run that does nothing else. -/
theorem run_inside {σ L : Type} {step : σ → L → σ} {l : L} (state : World → σ)
    (hStep : ∀ w : World, w.Inside r 1 → step (state w) l = state (w.movedBy r 1)) (n : Nat)
    (hInside : w.Inside r (n + 1)) :
    Runs.run step (state w) (List.replicate (n + 1) l) = state (w.movedBy r (n + 1)) := by
  obtain ⟨hLt, hSmall⟩ := hInside
  induction n with
  | zero => exact hStep w ⟨hLt, hSmall⟩
  | succ n ih =>
    have hLast : (w.movedBy r (n + 1)).Inside r 1 := by
      simp only [World.Inside, World.movedBy, Function.update_self]
      exact ⟨by omega, hSmall⟩
    rw [List.replicate_succ', Runs.run_concat, ih (by omega), hStep _ hLast]
    simp [World.movedBy, Nat.add_assoc]

/-- A number column with three rows, the second of them NULL. -/
def threeRows : Query where
  desc := [⟨tstr "ID", [], [], SQLT_NUM, 22⟩]
  rows := [[⟨0, 22, .number [193, 2]⟩], [⟨-1, 0, .number []⟩], [⟨0, 22, .number [193, 4]⟩]]

/-- One row more than a block of `Select` has. -/
def fullBlock : Query where
  desc := [⟨tstr "ID", [], [], SQLT_NUM, 22⟩]
  rows := List.replicate 3393 [⟨0, 22, .number [193, 2]⟩]

/-- A prepared statement, with the number 0 and the handle 1. -/
def preparedOn (q : Query) : World := exec (Connection.prepare []) (.start (.serving q))

/-- What `Select` leaves, with blocks of two rows. -/
def selectedOn (q : Query) : World := exec (Statement.selectWith 0 2) (preparedOn q)

theorem select_threeRows :
    Statement.selectWith 0 2 (preparedOn threeRows) = .ok 2 (selectedOn threeRows) :=
  eq_ok_of_result (by decide +kernel)

/-- Three rows in blocks of two: all are visited, with two fetches. -/
theorem select_traversal_three_rows :
    ∃ w', scan 2 (fun _ _ => .success) 3 0 (selectedOn threeRows) =
      some (threeRows.rows, w') ∧ fetchesOf 2 w'.oci.log = 2 := by
  obtain ⟨-, -, hScan⟩ := select_traversal (h := 1)
    (by decide +kernel) select_threeRows (by decide +kernel) (by decide +kernel)
    fun i (c : OciCall) => (rfl : (fun _ _ => OciResult.success) i c = .success)
  have hQuery : ((selectedOn threeRows).oci.stmt 1).query = threeRows := by decide +kernel
  have hCount : ((selectedOn threeRows).rsets 2).m_fetchCount = 2 := by decide +kernel
  have hLog : fetchesOf 2 (preparedOn threeRows).oci.log = 0 := by decide +kernel
  rw [hQuery, hCount, hLog] at hScan
  exact hScan 3 (by decide)

end Epol
