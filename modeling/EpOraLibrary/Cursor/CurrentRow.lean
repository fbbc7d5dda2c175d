import EpOraLibrary.Cursor.FirstFetch

/-!
# EpOraLibrary — the row a column shows

The accessors of a `Column` take the slot `m_currentRow % m_fetchCount` of its
buffers, whatever is in it. The buffers are used again for every block, so what
they hold depends on all fetches since the result set was opened. `Shown`
carries along, as ghost state, the number of the row in each slot.

* `Filling` — the invariant: the slots hold the last rows that were delivered,
  failed and half-answered fetches included.
* `Filling.next` — **one `Next`** keeps it, whatever OCI answers.
* `column_current_iff` — **the columns show the current row** exactly in the
  states in which it is one of the rows of the block fetched last.
* `column_past_end` — a run past the last row.
-/

namespace Epol

open Ledger Prog Runs

variable {w w' w₀ : World} {s p h hc r : Nat} {held : Nat → Option Nat}

-- ---------------------------------------------------------------------------
-- Runs of Next
-- ---------------------------------------------------------------------------

/-- The rows delivered so far from the cursor of a result set. -/
def World.deliveredTo (w : World) (r : Nat) : Nat :=
  match (w.rsets r).m_rsHandle with
  | some h => (w.oci.stmt h).delivered
  | none => 0

/-- The world, and the number of the row each slot of the columns of a result
set holds, if a fetch has filled it. -/
structure Shown where
  w    : World
  held : Nat → Option Nat

/-- After the first block. -/
def Shown.first (w : World) (r : Nat) : Shown :=
  ⟨w, BlockCursor.fill (fun _ => none) 0 (w.deliveredTo r)⟩

/-- One `Next`; an exception is caught. What it fetches goes to the first
slots. -/
def Shown.step (r : Nat) (s : Shown) (o : OciCall → OciResult) : Shown :=
  let w := exec (ResultSet.next r) (s.w.answering o)
  ⟨w, BlockCursor.fill s.held (s.w.deliveredTo r) (w.deliveredTo r)⟩

/-- The position is on a row, and the column `col` looks into the slot that
holds it. -/
def Shown.OnRow (s : Shown) (r col : Nat) : Prop :=
  (s.w.rsets r).m_currentRow < (s.w.rsets r).m_rowsFetched ∧
    s.held (s.w.rowNo col) = some (s.w.rsets r).m_currentRow

/-- Each accessor of the column `col` throws, or returns what `cell` says, and
the column is on the current row. -/
structure Shown.Shows (s : Shown) (r col : Nat) (cell : Slot) : Prop where
  isNull     : wp (Column.isNull col)
    (fun b _ => s.OnRow r col ∧ b = decide (cell.indicator = ORADATA_NULL)) (fun _ _ => True) s.w
  toString   : wp (Column.toString col)
    (fun t _ => s.OnRow r col ∧ t = untilNul cell.value.asText) (fun _ _ => True) s.w
  toDouble   : wp (Column.toDouble col)
    (fun x _ => s.OnRow r col ∧ s.w.cfg.numberToReal cell.value.asNumber = .ok x)
    (fun _ _ => True) s.w
  toLong     : wp (Column.toLong col)
    (fun n _ => s.OnRow r col ∧ s.w.cfg.numberToInt cell.value.asNumber = .ok n)
    (fun _ _ => True) s.w
  toDateTime : wp (Column.toDateTime col)
    (fun d _ => s.OnRow r col ∧ d = DateTime.ofOciDate cell.value.asDate) (fun _ _ => True) s.w

/-- Every column of `r` shows the current row of the query on its handle. -/
def Shown.Current (s : Shown) (r h : Nat) : Prop :=
  ∀ c (hc : c < (s.w.rsets r).m_columns.length), s.Shows r (s.w.rsets r).m_columns[c]
    ((s.w.oci.stmt h).query.cell (s.w.rsets r).m_currentRow c)

/-- The current row is one of the rows of the block that was fetched last, and
`m_rowsFetched` says so. -/
def World.OnBlock (w : World) (r : Nat) : Prop :=
  (w.rsets r).m_currentRow < (w.rsets r).m_rowsFetched ∧
    (w.rsets r).m_currentRow < w.deliveredTo r ∧
    w.deliveredTo r ≤ (w.rsets r).m_currentRow + (w.rsets r).m_fetchCount

instance (w : World) (r : Nat) : Decidable (w.OnBlock r) :=
  inferInstanceAs (Decidable (_ ∧ _ ∧ _))

-- ---------------------------------------------------------------------------
-- The invariant
-- ---------------------------------------------------------------------------

/-- The columns of `r` hold the rows `held` says, the last ones delivered. -/
structure Filling (w : World) (r h : Nat) (held : Nat → Option Nat) : Prop where
  wired  : Wired w r h (w.rsets r).m_fetchCount (w.rsets r).m_columns
  small  : (w.rsets r).m_fetchCount < 2 ^ 16
  recent : BlockCursor.Recent (w.rsets r).m_fetchCount (w.rowCount h) (w.oci.stmt h).delivered held
  slots  : ∀ c (hc : c < (w.rsets r).m_columns.length) j i, held j = some i →
    (w.cols (w.rsets r).m_columns[c]).slots j = (w.oci.stmt h).query.cell i c

theorem Filling.deliveredTo (hF : Filling w r h held) :
    w.deliveredTo r = (w.oci.stmt h).delivered := by
  rw [World.deliveredTo, hF.wired.handle]

/-- The counters of the result set do not matter. -/
theorem Filling.of_eq (hF : Filling w r h held)
    (hHandle : (w'.rsets r).m_rsHandle = (w.rsets r).m_rsHandle)
    (hCount : (w'.rsets r).m_fetchCount = (w.rsets r).m_fetchCount)
    (hColumns : (w'.rsets r).m_columns = (w.rsets r).m_columns)
    (hStmt : w'.oci.stmt h = w.oci.stmt h) (hCols : w'.cols = w.cols) :
    Filling w' r h held where
  wired := by
    rw [hCount, hColumns]
    exact hF.wired.of_eq hHandle hCount hColumns (by rw [hStmt]) (by rw [hStmt])
      fun _ => by rw [hCols]
  small := hCount ▸ hF.small
  recent := by
    rw [hCount, World.rowCount, hStmt]
    exact hF.recent
  slots := by
    rw [hColumns, hStmt, hCols]
    exact hF.slots

/-- `OCIStmtFetch` has delivered its rows. -/
theorem Filling.fetched (hF : Filling w r h held) :
    let w' := w.fetched r h (w.rsets r).m_fetchCount
    Filling w' r h (BlockCursor.fill held (w.oci.stmt h).delivered (w'.oci.stmt h).delivered) := by
  intro w'
  have hState : w'.oci.stmt h = { w.oci.stmt h with
      delivered := (w.oci.stmt h).delivered + w.nextRows h (w.rsets r).m_fetchCount } :=
    Function.update_self ..
  have hDelivered : (w'.oci.stmt h).delivered = (w.oci.stmt h).delivered +
      min (w.rsets r).m_fetchCount (w.rowCount h - (w.oci.stmt h).delivered) := by
    rw [hState]
    rfl
  have hRows : w'.rowCount h = w.rowCount h := by
    rw [World.rowCount, hState]
    rfl
  refine ⟨?_, hF.small, ?_, fun c hc j i hj => ?_⟩
  · exact hF.wired.of_eq rfl rfl rfl (by rw [hState]) (by rw [hState]) fun _ => rfl
  · rw [hRows, hDelivered]
    exact BlockCursor.recent_fill hF.recent
  · have hc' : c < (w.rsets r).m_columns.length := hc
    have hTarget := hF.wired.columnOf hc'
    rw [BlockCursor.fill, hState, Nat.add_sub_cancel_left] at hj
    rw [hState]
    simp only [w', World.fetched, StmtState.deliver, hTarget]
    split at hj
    · rename_i hNew
      rw [if_pos hNew, Option.some.inj hj]
    · rename_i hOld
      rw [if_neg hOld]
      exact hF.slots c hc j i hj

/-- The result sets, the cursors and the buffers are the same. -/
def SameRows (w w' : World) : Prop :=
  w'.rsets = w.rsets ∧ w'.oci.stmt = w.oci.stmt ∧ w'.cols = w.cols

/-- The row count is read without touching a row. -/
theorem CountRead.sameRows (h : CountRead r w w') : SameRows w w' := by
  rw [h.same]
  exact ⟨rfl, rfl, rfl⟩

/-- **A fetch** fills the slots with the rows it delivers, also when it throws
in the end. -/
theorem Filling.wp_fetchRows (hF : Filling w r h held) :
    let P : World → Prop := fun w' =>
      Filling w' r h (BlockCursor.fill held (w.deliveredTo r) (w'.deliveredTo r))
    wp (ResultSet.fetchRows r) (fun _ w' => P w') (fun _ w' => P w') w := by
  intro P
  have hFetched := hF.fetched
  have hHandle := hF.wired.handle
  have hP : ∀ w₁ w', Filling w₁ r h (BlockCursor.fill held (w.oci.stmt h).delivered
        (w₁.oci.stmt h).delivered) → (w'.rsets r).m_rsHandle = (w₁.rsets r).m_rsHandle →
      (w'.rsets r).m_fetchCount = (w₁.rsets r).m_fetchCount →
      (w'.rsets r).m_columns = (w₁.rsets r).m_columns → w'.oci.stmt h = w₁.oci.stmt h →
      w'.cols = w₁.cols → P w' := by
    intro w₁ w' hF₁ hHandle' hCount hColumns hStmt hCols
    have hF' := hF₁.of_eq hHandle' hCount hColumns hStmt hCols
    show Filling w' r h (BlockCursor.fill held (w.deliveredTo r) (w'.deliveredTo r))
    rw [hF.deliveredTo, hF'.deliveredTo, hStmt]
    exact hF'
  rw [ResultSet.fetchRows, wp_bind, wp_get, wp_bind, hHandle]
  refine wp_ociStmtFetch (fun _ result hResult => ?_) (fun hFail => ?_)
  · rw [wp_ite, if_pos (fetchOk_iff.mp hResult), wp_bind]
    refine wp_mono (wp_rowsCount_read r _) (fun rows w' hRows => ?_) (fun _ w' hRead => ?_)
    · obtain ⟨hRsets, hStmt, hCols⟩ := hRows.2.sameRows
      rw [wp_modifyRs]
      refine hP _ _ hFetched ?_ ?_ ?_ (by rw [hStmt]) hCols
      · simp [hRsets]
      · simp [hRsets]
      · simp [hRsets]
    · obtain ⟨hRsets, hStmt, hCols⟩ := hRead.sameRows
      exact hP _ _ hFetched (by rw [hRsets]) (by rw [hRsets]) (by rw [hRsets]) (by rw [hStmt]) hCols
  · rw [wp_ite, if_neg fun hOk => hFail (fetchOk_iff.mpr hOk)]
    refine wp_throwOnError fun rs _ => hP w _ ?_ rfl rfl rfl rfl rfl
    rw [BlockCursor.fill_self]
    exact hF

/-- **One `Next`**, whatever OCI answers. -/
theorem Filling.next (hF : Filling w r h held) :
    let w' := exec (ResultSet.next r) w
    Filling w' r h (BlockCursor.fill held (w.deliveredTo r) (w'.deliveredTo r)) := by
  intro w'
  have hMoved : Filling (w.moved r) r h held :=
    hF.of_eq (by simp [World.moved, ResultSet.advanced]) (by simp [World.moved, ResultSet.advanced])
      (by simp [World.moved, ResultSet.advanced]) rfl rfl
  have hSame : (w.moved r).deliveredTo r = w.deliveredTo r := by
    rw [hMoved.deliveredTo, hF.deliveredTo]
    rfl
  have hStay : Filling (w.moved r) r h
      (BlockCursor.fill held (w.deliveredTo r) ((w.moved r).deliveredTo r)) := by
    rw [hSame, BlockCursor.fill_self]
    exact hMoved
  have hFetch := hMoved.wp_fetchRows
  rw [hSame] at hFetch
  exact wp_exec.mp (wp_next (fun _ _ => hStay) (fun _ _ => hFetch) (fun _ => hStay))

/-- The slot of the current row holds it exactly while its block is there. -/
theorem Filling.onRow_iff {s : Shown} (hF : Filling s.w r h s.held) {col : Nat}
    (hCol : col ∈ (s.w.rsets r).m_columns) : s.OnRow r col ↔ s.w.OnBlock r := by
  have hRow : s.w.rowNo col = (s.w.rsets r).m_currentRow % (s.w.rsets r).m_fetchCount % 2 ^ 16 := by
    rw [World.rowNo, hF.wired.owner col hCol]
  rw [Shown.OnRow, World.OnBlock, hF.deliveredTo, hRow]
  refine and_congr_right fun _ => ?_
  rcases Nat.eq_zero_or_pos (s.w.rsets r).m_fetchCount with hNone | hSome
  · -- there are no slots
    rw [hF.recent.slot, hNone]
    constructor
    · exact fun hi => hi.2
    · intro hi
      omega
  · have hSmall := hF.small
    have hMod := Nat.mod_lt (s.w.rsets r).m_currentRow hSome
    rw [Nat.mod_eq_of_lt (Nat.lt_trans hMod hSmall)]
    exact hF.recent.slot_mod _

theorem wp_output {α : Type} {type : DataType} {col : Nat} {read : Value → M α}
    {Q : α → World → Prop} (h : wp (read (w.slot col).value) Q (fun _ _ => True) w) :
    wp (Column.output type col read) Q (fun _ _ => True) w := by
  rw [Column.output, wp_bind, wp_get, wp_ite]
  split
  · exact h
  · rw [wp_throw]
    trivial

/-- A conversion returns what OCI converts to. -/
theorem wp_convert {α : Type} (f : Except OciResult α) :
    wp (convert f) (fun a _ => f = .ok a) (fun _ _ => True) w := by
  rw [convert, wp_bind, wp_get, wp_bind, wp_pass]
  cases f with
  | ok a =>
    rw [wp_pure]
  | error result => exact wp_throwOnError fun _ _ => trivial

/-- A column that is on the current row reads its cell. -/
theorem Filling.shows {s : Shown} (hF : Filling s.w r h s.held) {c : Nat}
    (hc : c < (s.w.rsets r).m_columns.length) (hOn : s.OnRow r (s.w.rsets r).m_columns[c]) :
    s.Shows r (s.w.rsets r).m_columns[c]
      ((s.w.oci.stmt h).query.cell (s.w.rsets r).m_currentRow c) := by
  have hSlot : s.w.slot (s.w.rsets r).m_columns[c] =
      (s.w.oci.stmt h).query.cell (s.w.rsets r).m_currentRow c := by
    rw [World.slot_spaced (hF.wired.spaced _ (List.getElem_mem hc))]
    exact hF.slots c hc _ _ hOn.2
  rw [← hSlot]
  refine ⟨⟨hOn, rfl⟩, wp_output ⟨hOn, rfl⟩, ?_, ?_, wp_output ⟨hOn, rfl⟩⟩
  · rw [Column.toDouble, wp_bind, wp_get]
    exact wp_output (wp_mono (wp_convert _) (fun _ _ hValue => ⟨hOn, hValue⟩) (fun _ _ h => h))
  · rw [Column.toLong, wp_bind, wp_get]
    exact wp_output (wp_mono (wp_convert _) (fun _ _ hValue => ⟨hOn, hValue⟩) (fun _ _ h => h))

/-- **In one state.** Where there is a column at all, the columns show the
current row exactly when it is in the block fetched last. -/
theorem Filling.current_iff {s : Shown} (hF : Filling s.w r h s.held) :
    s.Current r h ↔ (s.w.rsets r).m_columns = [] ∨ s.w.OnBlock r := by
  constructor
  · intro hCurrent
    rcases List.eq_nil_or_concat (s.w.rsets r).m_columns with hNil | ⟨ids, col, hSome⟩
    · exact .inl hNil
    · right
      have hLt : ids.length < (s.w.rsets r).m_columns.length := by
        rw [hSome, List.length_concat]
        exact Nat.lt_add_one _
      -- `IsNull` never throws
      have hNull := (hCurrent _ hLt).isNull
      exact (hF.onRow_iff (List.getElem_mem hLt)).mp hNull.1
  · rintro (hNil | hBlock) c hc
    · rw [hNil] at hc
      exact absurd hc (Nat.not_lt_zero c)
    · exact hF.shows hc ((hF.onRow_iff (List.getElem_mem hc)).mpr hBlock)

-- ---------------------------------------------------------------------------
-- Opening
-- ---------------------------------------------------------------------------

theorem Tracks.filling {F base : Nat} {ids : List Nat} {t : BlockCursor.State}
    (hT : Tracks w r h F base ids t) (hF : F < 2 ^ 16)
    (hRecent : BlockCursor.Recent F (w.rowCount h) t.delivered t.slot) :
    Filling w r h t.slot := by
  have hWired := hT.wired
  have hCount := hWired.count
  have hColumns := hWired.columns
  subst hCount hColumns
  exact ⟨hWired, hF, hT.delivered ▸ hRecent, hT.slots⟩

/-- A result set as it was built holds nothing. -/
theorem Tracks.filling_blank {F base : Nat} {ids : List Nat}
    (hT : Tracks w r h F base ids BlockCursor.blank) (hF : F < 2 ^ 16) :
    Filling w r h fun _ => none :=
  hT.filling hF BlockCursor.recent_none

/-- With its first block it holds the first rows. -/
theorem Tracks.filling_start {F base : Nat} {ids : List Nat}
    (hT : Tracks w r h F base ids (BlockCursor.start F (w.rowCount h))) (hF : F < 2 ^ 16) :
    Filling w r h (Shown.first w r).held := by
  have hDelivered : w.deliveredTo r = min F (w.rowCount h) := by
    rw [World.deliveredTo, hT.wired.handle]
    dsimp only
    rw [hT.delivered, BlockCursor.start_eq]
  have hSlot : (BlockCursor.start F (w.rowCount h)).slot =
      BlockCursor.fill (fun _ => none) 0 (min F (w.rowCount h)) := by
    rw [BlockCursor.start_eq]
    funext j
    rw [BlockCursor.fill, Nat.sub_zero, Nat.zero_add]
  have hFirst := BlockCursor.recent_fill (BlockCursor.recent_none (F := F) (N := w.rowCount h))
  rw [Nat.sub_zero, Nat.zero_add, ← hSlot] at hFirst
  rw [Shown.first, hDelivered, ← hSlot]
  refine hT.filling hF ?_
  rw [BlockCursor.start_eq] at hFirst ⊢
  exact hFirst

/-- The parameter `p` has no result set, and no row of the cursor on its
handle was read. -/
structure Unopened (w : World) (p hc : Nat) : Prop where
  type      : (w.params p).m_paramType = .resultSet
  rsHandle  : (w.params p).m_rsHandle = some hc
  resultSet : (w.params p).m_resultSet = none
  delivered : (w.oci.stmt hc).delivered = 0

/-- So it is after an execution of the statement it is bound to. -/
theorem CursorParam.unopened (hP : CursorParam s p h hc w) (hNone : (w.params p).m_resultSet = none)
    (hExecute : Statement.executePrepared s w = .ok () w') : Unopened w' p hc := by
  obtain ⟨hEx, hOpened⟩ := of_wp_ok (wp_executePrepared s) hExecute
  have hAfter := hP.executing hEx
  have hParams : w'.params = w.params := by rw [hEx.same]
  exact ⟨hAfter.type, hAfter.rsHandle, hParams ▸ hNone,
    (hP.reopened (hOpened h hP.handle)).delivered⟩

/-- A result set that was opened: by `Select`, or by a `ToResultSet`, maybe
after others that failed. -/
inductive World.Opened (w₀ : World) (r : Nat) : Prop
  | select (hSelected : w₀.Selected r)
  | toResultSet (w : World) (p hc : Nat) (calls : List (OciCall → OciResult))
      (o : OciCall → OciResult) (hUnopened : Unopened w p hc)
      (hRun : Parameter.toResultSet p ((run (attempt p) w calls).answering o) = .ok r w₀)

/-- A `ToResultSet` has not been called, has failed early, or has put a result
set into the parameter. -/
inductive Openable (p hc : Nat) (w : World) : Prop
  | unopened (hUnopened : Unopened w p hc)
  | cached (r : Nat) (hType : (w.params p).m_paramType = .resultSet)
      (hCached : (w.params p).m_resultSet = some r)
      (hFilling : Filling w r hc (Shown.first w r).held)

theorem Openable.answering (hO : Openable p hc w) (o : OciCall → OciResult) :
    Openable p hc (w.answering o) := by
  cases hO with
  | unopened hU => exact .unopened ⟨hU.type, hU.rsHandle, hU.resultSet, hU.delivered⟩
  | cached r hType hCached hF =>
    refine .cached r hType hCached ?_
    exact hF.of_eq rfl rfl rfl rfl rfl

/-- **One `ToResultSet`**, whatever OCI answers. -/
theorem Openable.wp_toResultSet (hO : Openable p hc w) :
    wp (Parameter.toResultSet p)
      (fun r w' => Openable p hc w' ∧ Filling w' r hc (Shown.first w' r).held)
      (fun _ w' => Openable p hc w') w := by
  cases hO with
  | cached r hType hCached hF =>
    refine wp_mono (wp_toResultSet_cached hType hCached) ?_ (fun _ _ hFalse => hFalse.elim)
    rintro r' w' ⟨hr, hw⟩
    rw [hr, hw]
    exact ⟨.cached r hType hCached hF, hF⟩
  | unopened hU =>
    rw [Parameter.toResultSet, wp_bind, wp_get]
    dsimp only
    rw [wp_ite, if_pos hU.type, hU.resultSet, hU.rsHandle, wp_bind]
    refine wp_mono (wp_newResultSet _ _) ?_ (fun _ w₁ hA => ?_)
    · rintro r w₁ ⟨-, ids, hB⟩
      have hApart := hB.building.apart
      have hBlank := ((hB.tracks hU.delivered).cached p r).filling_blank (Nat.mod_lt _ (by decide))
      have hNone : (w₁.cached p r).deliveredTo r = 0 := by
        rw [hBlank.deliveredTo]
        show (w₁.oci.stmt hc).delivered = 0
        rw [hApart.stmt]
        exact hU.delivered
      have hAfter := wp_and (reading_fetchRows r (w₁.cached p r)) hBlank.wp_fetchRows
      have hOpenable : ∀ w', Reading r (w₁.cached p r) w' →
          Filling w' r hc (Shown.first w' r).held → Openable p hc w' := by
        intro w' hR hF
        have hParams : w'.params p = { w.params p with m_resultSet := some r } := by
          rw [show w'.params = (w₁.cached p r).params by rw [hR.same]]
          simp [World.cached, hApart.params]
        refine .cached r ?_ ?_ hF
        · rw [hParams]
          exact hU.type
        · rw [hParams]
      rw [wp_bind, wp_modifyParam, wp_bind]
      rw [hNone] at hAfter
      refine wp_mono hAfter (fun _ w' hRead => ?_) (fun _ w' hRead => hOpenable w' hRead.1 hRead.2)
      rw [wp_pure]
      exact ⟨hOpenable w' hRead.1 hRead.2, hRead.2⟩
    · have hApart := hA.apart
      have hParams : w₁.params = w.params := hApart.params
      refine .unopened ⟨hParams ▸ hU.type, hParams ▸ hU.rsHandle, hParams ▸ hU.resultSet, ?_⟩
      rw [hApart.stmt]
      exact hU.delivered

theorem Openable.attempt (hO : Openable p hc w) (o : OciCall → OciResult) :
    Openable p hc (attempt p w o) :=
  wp_exec.mp (wp_mono (hO.answering o).wp_toResultSet (fun _ _ h => h.1) (fun _ _ h => h))

/-- **What an opened result set holds** is its first block, or nothing. -/
theorem World.Opened.filling (hOpened : w₀.Opened r) (hHandle : (w₀.rsets r).m_rsHandle = some h) :
    Filling w₀ r h (Shown.first w₀ r).held := by
  cases hOpened with
  | select hSelected =>
    obtain ⟨hF, base, hT⟩ := hSelected.tracks hHandle
    exact hT.filling_start hF
  | toResultSet w p hc calls o hU hRun =>
    have hO : Openable p hc (run (Epol.attempt p) w calls) :=
      run_invariant (I := Openable p hc) (fun _ o hO => hO.attempt o) (.unopened hU) calls
    have hF := (of_wp_ok (hO.answering o).wp_toResultSet hRun).2
    obtain rfl : hc = h := Option.some.inj (hF.wired.handle.symm.trans hHandle)
    exact hF

-- ---------------------------------------------------------------------------
-- Runs
-- ---------------------------------------------------------------------------

theorem Filling.step {s : Shown} (hF : Filling s.w r h s.held) (o : OciCall → OciResult) :
    Filling (s.step r o).w r h (s.step r o).held := by
  have hAnswering : Filling (s.w.answering o) r h s.held := hF.of_eq rfl rfl rfl rfl rfl
  exact hAnswering.next

/-- **A column shows the current row.** After `Select` or `ToResultSet` has
opened a result set, in every state a run of `Next` calls leads to, in which
any call to OCI may fail: each accessor of each column throws, or returns the
value of row `m_currentRow`, which is below `m_rowsFetched` and in the slot the
accessor reads; exactly when there is no column at all, or that row is one of
the block fetched last and below `m_rowsFetched`. -/
theorem column_current_iff (hOpened : w₀.Opened r) (hHandle : (w₀.rsets r).m_rsHandle = some h)
    (calls : List (OciCall → OciResult)) :
    let s := run (Shown.step r) (Shown.first w₀ r) calls
    s.Current r h ↔ (s.w.rsets r).m_columns = [] ∨ s.w.OnBlock r := by
  intro s
  have hF : Filling s.w r h s.held :=
    run_invariant (I := fun s : Shown => Filling s.w r h s.held) (fun _ o hF => hF.step o)
      (hOpened.filling hHandle) calls
  exact hF.current_iff

/-- Three rows in blocks of two, after two `Next`s: the third row. -/
theorem column_current_third_row :
    (run (Shown.step 2) (Shown.first (selectedOn threeRows) 2) [allWell, allWell]).Current 2 1 := by
  have hOpened : (selectedOn threeRows).Opened 2 :=
    .select (.inl ⟨preparedOn threeRows, 0, 2, select_threeRows⟩)
  exact (column_current_iff hOpened (by decide +kernel) [allWell, allWell]).mpr (by decide +kernel)

/-- The same result set after one more `Next`, which returned false. -/
def pastEnd : Shown :=
  run (Shown.step 2) (Shown.first (selectedOn threeRows) 2) [allWell, allWell, allWell]

/-- Past the last row the column looks into the slot of the second row, and
`IsNull` returns what it finds there. -/
theorem column_past_end : ¬ pastEnd.Current 2 1 ∧ (pastEnd.w.rsets 2).m_columns = [4] ∧
    (pastEnd.w.rsets 2).m_currentRow = 3 ∧ pastEnd.held (pastEnd.w.rowNo 4) = some 1 ∧
    result? (Column.isNull 4) pastEnd.w = some true ∧ (pastEnd.w.rsets 2).IsEod = true := by
  refine ⟨fun hCurrent => ?_, by decide +kernel, by decide +kernel, by decide +kernel,
    by decide +kernel, by decide +kernel⟩
  have hOn := (hCurrent 0 (by decide +kernel)).isNull.1.1
  revert hOn
  decide +kernel

end Epol
