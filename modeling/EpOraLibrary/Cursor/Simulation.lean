import EpOraLibrary.Lib.BlockCursor
import EpOraLibrary.Model.Statement

/-!
# EpOraLibrary — a result set is a block-buffered cursor

The four pieces of state of a `ResultSet` (`m_currentRow`, `m_rowsFetched`,
`m_isEod` and the slots of its columns) are kept in step with the reader of
`BlockCursor`, the rows being those of the cursor on its statement handle.

* `Wired` — the columns of the result set are what the positions of the handle
  are defined on, one to one.
* `Tracks` — a world and a reader are in step.
* `tracks_fetchRows`, `tracks_next` — a fetch is a refill, a `Next` is a move,
  also when `OCIStmtFetch` fails.
-/

namespace Epol

open Ledger Prog

variable {w : World} {r h F base : Nat} {ids : List Nat} {s : BlockCursor.State}

/-- The number of rows of the cursor on a statement handle. -/
def World.rowCount (w : World) (h : Nat) : Nat := (w.oci.stmt h).query.rows.length

/-- The calls of `OCIStmtFetch` made for a result set. -/
def fetchesOf (r : Nat) (log : List ReadEvent) : Nat :=
  log.countP fun
    | .fetch rs _ _ => rs = r
    | .rowCount _ _ => false

/-- `OCIStmtFetch` returned one of the codes `fetchRows` takes for success. -/
def fetchOk (result : OciResult) : Prop := result.done = true ∨ result = .noData

instance (result : OciResult) : Decidable (fetchOk result) :=
  inferInstanceAs (Decidable (_ ∨ _))

theorem fetchOk_iff {result : OciResult} :
    fetchOk result ↔ result = .success ∨ result = .noData ∨ result = .successWithInfo := by
  cases result <;> simp [fetchOk, OciResult.done]

/-- The columns `ids` of the result set `r` are what the positions of the
handle `h` are defined on. -/
structure Wired (w : World) (r h F : Nat) (ids : List Nat) : Prop where
  handle  : (w.rsets r).m_rsHandle = some h
  count   : (w.rsets r).m_fetchCount = F
  columns : (w.rsets r).m_columns = ids
  nodup   : ids.Nodup
  length  : ids.length = (w.oci.stmt h).query.desc.length
  defined : ∀ c (hc : c < ids.length), (w.oci.stmt h).defines (c + 1) = some ids[c]
  owner   : ∀ col ∈ ids, (w.cols col).m_resultSet = some r
  spaced  : ∀ col ∈ ids, (w.cols col).Spaced

/-- The result set `r` and the reader `s` are in step. -/
structure Tracks (w : World) (r h F base : Nat) (ids : List Nat) (s : BlockCursor.State) :
    Prop where
  wired     : Wired w r h F ids
  pos       : (w.rsets r).m_currentRow = s.pos
  fetched   : (w.rsets r).m_rowsFetched = s.fetched
  eod       : (w.rsets r).m_isEod = s.eod
  delivered : (w.oci.stmt h).delivered = s.delivered
  bound     : s.fetched ≤ s.delivered ∧ s.delivered ≤ w.rowCount h
  fetches   : fetchesOf r w.oci.log = base + s.fetches
  slots     : ∀ c (hc : c < ids.length) j i, s.slot j = some i →
    (w.cols ids[c]).slots j = (w.oci.stmt h).query.cell i c

/-- The column a position is defined on gets that position's data. -/
theorem Wired.columnOf (hw : Wired w r h F ids) {c : Nat} (hc : c < ids.length) :
    (w.oci.stmt h).columnOf ids[c] = some c := by
  rw [StmtState.columnOf, List.find?_range_eq_some]
  refine ⟨decide_eq_true (hw.defined c hc), List.mem_range.mpr (hw.length ▸ hc),
    fun j hj => ?_⟩
  rw [hw.defined j (Nat.lt_trans hj hc)]
  simp only [Option.some.injEq, Bool.not_eq_true', decide_eq_false_iff_not]
  exact fun heq => absurd ((List.Nodup.getElem_inj_iff hw.nodup).mp heq) (Nat.ne_of_lt hj)

/-- The rows a fetch of `n` gets from the handle `h`. -/
def World.nextRows (w : World) (h n : Nat) : Nat := (w.oci.stmt h).nextRows n

/-- The world after `OCIStmtFetch` has delivered its rows. -/
def World.fetched (w : World) (r h n : Nat) : World :=
  let st := w.oci.stmt h
  { w with
    cols := fun col => { w.cols col with
      slots := st.deliver (w.nextRows h n) col (w.cols col).slots }
    oci := { w.oci with
      stmt := Function.update w.oci.stmt h
        { st with delivered := st.delivered + w.nextRows h n }
      log := .fetch r st.exec (if 0 < w.nextRows h n then st.targets else []) :: w.oci.log }
    trace := ((ptr .stmt (some h) ++ ptr .error w.conn.m_errorHandle).map .use) ++ w.trace }

/-- The world after `OCIStmtFetch` has failed. -/
def World.fetchFailed (w : World) (r h : Nat) : World :=
  { w with
    oci := { w.oci with log := .fetch r (w.oci.stmt h).exec [] :: w.oci.log }
    trace := ((ptr .stmt (some h) ++ ptr .error w.conn.m_errorHandle).map .use) ++ w.trace }

/-- What `OCIStmtFetch` does. -/
theorem wp_ociStmtFetch {Q : OciResult → World → Prop} {E : OraError → World → Prop} {n : Nat}
    (hOk : fetchOk (w.outcome .stmtFetch) → ∀ result, fetchOk result → Q result (w.fetched r h n))
    (hFail : ¬ fetchOk (w.outcome .stmtFetch) →
      Q (w.outcome .stmtFetch) (w.fetchFailed r h)) :
    wp (ociStmtFetch r (some h) w.conn.m_errorHandle n) Q E w := by
  simp only [ociStmtFetch, wp_bind, wp_pass, wp_answer, wp_get, wp_ite, wp_modify,
    wp_modifyStmtState, wp_logRead, wp_pure]
  split
  · rename_i hr
    split
    · exact hOk hr .noData (.inr rfl)
    · split
      · exact hOk hr .success (.inl rfl)
      · exact hOk hr _ hr
  · rename_i hr
    exact hFail hr

/-- The row count of the cursor, read back. -/
theorem wp_rowsCount {Q : Nat → World → Prop} {E : OraError → World → Prop}
    (hHandle : (w.rsets r).m_rsHandle = some h)
    (hCount : w.outcome (.attrGet .rowCount 0) = .success)
    (hQ : Q ((w.oci.stmt h).delivered % 2 ^ 32) { w with
      oci := { w.oci with log := .rowCount r (w.oci.stmt h).exec :: w.oci.log }
      trace := (ptr .stmt (some h) ++ ptr .error w.conn.m_errorHandle).map .use ++ w.trace }) :
    wp (ResultSet.rowsCount r) Q E w := by
  have hDone : (w.outcome (.attrGet .rowCount 0)).done = true := by
    rw [hCount]
    rfl
  simp only [ResultSet.rowsCount, ociRowCount, ociStmtAttrGet, wp_bind, wp_get, wp_pass,
    wp_answer, hHandle, wp_ite, wp_logRead, wp_pure]
  rw [if_pos hDone, if_pos hCount]
  exact hQ

/-- The wiring does not depend on what the slots hold. -/
theorem Wired.of_eq {w' : World} (hw : Wired w r h F ids)
    (hHandle : (w'.rsets r).m_rsHandle = (w.rsets r).m_rsHandle)
    (hCount : (w'.rsets r).m_fetchCount = (w.rsets r).m_fetchCount)
    (hColumns : (w'.rsets r).m_columns = (w.rsets r).m_columns)
    (hQuery : (w'.oci.stmt h).query = (w.oci.stmt h).query)
    (hDefines : (w'.oci.stmt h).defines = (w.oci.stmt h).defines)
    (hCols : ∀ col, w'.cols col = { w.cols col with slots := (w'.cols col).slots }) :
    Wired w' r h F ids where
  handle := hHandle.trans hw.handle
  count := hCount.trans hw.count
  columns := hColumns.trans hw.columns
  nodup := hw.nodup
  length := by rw [hQuery]; exact hw.length
  defined c hc := by rw [hDefines]; exact hw.defined c hc
  owner col hcol := by rw [hCols]; exact hw.owner col hcol
  spaced col hcol := by rw [hCols]; exact hw.spaced col hcol

/-- `m_rowsFetched - oldRowsCount`, in 32 bits. -/
theorem sub_mod_of_le {a b W : Nat} (hLe : b ≤ a) (hLt : a < W) : (a + W - b) % W = a - b := by
  rw [Nat.add_comm, Nat.add_sub_assoc hLe, Nat.add_mod_left, Nat.mod_eq_of_lt (by omega)]

/-- The counters and slots after a fetch, the row count being read back. -/
theorem Tracks.refilled (hT : Tracks w r h F base ids s)
    (hSmall : s.delivered + min F (w.rowCount h - s.delivered) < 2 ^ 32)
    {w' : World} (hCols : w'.cols = (w.fetched r h F).cols)
    (hStmt : w'.oci.stmt = (w.fetched r h F).oci.stmt)
    (hLog : fetchesOf r w'.oci.log = fetchesOf r w.oci.log + 1)
    (hRs : w'.rsets r = { w.rsets r with
      m_rowsFetched := (w'.oci.stmt h).delivered % 2 ^ 32
      m_isEod := (w.rsets r).m_isEod || decide (((w'.oci.stmt h).delivered % 2 ^ 32 + 2 ^ 32 -
        (w.rsets r).m_rowsFetched) % 2 ^ 32 ≠ (w.rsets r).m_fetchCount) }) :
    Tracks w' r h F base ids (BlockCursor.refill F (w.rowCount h) s) := by
  have hState : w'.oci.stmt h = { w.oci.stmt h with
      delivered := (w.oci.stmt h).delivered + w.nextRows h F } := by
    rw [hStmt]
    exact Function.update_self ..
  have hRows : w.nextRows h F = min F (w.rowCount h - s.delivered) := by
    rw [← hT.delivered]
    rfl
  have hDelivered : (w'.oci.stmt h).delivered =
      s.delivered + min F (w.rowCount h - s.delivered) := by
    rw [hState, ← hRows, ← hT.delivered]
  have hCount : w'.rowCount h = w.rowCount h := by
    rw [World.rowCount, hState]
    rfl
  have hBound := hT.bound
  have hMod : (w'.oci.stmt h).delivered % 2 ^ 32 =
      s.delivered + min F (w.rowCount h - s.delivered) := by
    rw [hDelivered]
    exact Nat.mod_eq_of_lt (by omega)
  refine ⟨hT.wired.of_eq (by rw [hRs]) (by rw [hRs]) (by rw [hRs]) (by rw [hState])
    (by rw [hState]) (fun col => by rw [hCols]; rfl), ?_, ?_, ?_, hDelivered, ?_, ?_, ?_⟩
  · rw [hRs]
    exact hT.pos
  · rw [hRs]
    exact hMod
  · rw [hRs]
    simp only [hMod, hT.eod, hT.fetched, hT.wired.count, BlockCursor.refill]
    rw [sub_mod_of_le (by omega) (by omega)]
  · rw [hCount]
    simp only [BlockCursor.refill]
    omega
  · rw [hLog, hT.fetches]
    rfl
  · intro c hc j i hSlot
    simp only [BlockCursor.refill] at hSlot
    have hTarget := hT.wired.columnOf hc
    simp only [hCols, World.fetched, hState, StmtState.deliver, hTarget, hRows]
    split at hSlot
    · rename_i hj
      obtain rfl := Option.some.inj hSlot
      rw [if_pos hj, hT.delivered]
    · rename_i hj
      rw [if_neg hj]
      exact hT.slots c hc j i hSlot

/-- **A fetch is a refill.** A failing `OCIStmtFetch` changes nothing but the
number of fetches asked for. -/
theorem tracks_fetchRows (hT : Tracks w r h F base ids s)
    (hSmall : s.delivered + min F (w.rowCount h - s.delivered) < 2 ^ 32)
    (hCount : w.outcome (.attrGet .rowCount 0) = .success) :
    wp (ResultSet.fetchRows r)
      (fun _ w' => fetchOk (w.outcome .stmtFetch) ∧
        Tracks w' r h F base ids (BlockCursor.refill F (w.rowCount h) s) ∧
        (w'.oci.stmt h).query = (w.oci.stmt h).query)
      (fun _ w' => ¬ fetchOk (w.outcome .stmtFetch) ∧
        Tracks w' r h F base ids { s with fetches := s.fetches + 1 } ∧
        (w'.oci.stmt h).query = (w.oci.stmt h).query) w := by
  have hHandle := hT.wired.handle
  rw [ResultSet.fetchRows, wp_bind, wp_get, wp_bind, hHandle, hT.wired.count]
  refine wp_ociStmtFetch (fun hOk result hResult => ?_) (fun hFail => ?_)
  · rw [wp_ite, if_pos (fetchOk_iff.mp hResult), wp_bind]
    refine wp_rowsCount (h := h) hHandle hCount ?_
    rw [wp_modifyRs]
    refine ⟨hOk, hT.refilled hSmall rfl rfl ?_ ?_, ?_⟩
    · simp [fetchesOf, World.fetched]
    · simp [World.fetched, hT.wired.count]
    · simp [World.fetched]
  · rw [wp_ite, if_neg fun h => hFail (fetchOk_iff.mpr h)]
    refine wp_throwOnError fun rs _ => ⟨hFail, ?_, rfl⟩
    refine ⟨hT.wired.of_eq rfl rfl rfl rfl rfl fun _ => rfl, hT.pos, hT.fetched, hT.eod,
      hT.delivered, hT.bound, ?_, hT.slots⟩
    show fetchesOf r (.fetch r _ _ :: w.oci.log) = base + (s.fetches + 1)
    rw [← Nat.add_assoc, ← hT.fetches]
    simp [fetchesOf]

/-- The position moved on, the rest being as before. -/
theorem Tracks.moved (hT : Tracks w r h F base ids s) :
    Tracks (w.moved r) r h F base ids { s with pos := (s.pos + 1) % 2 ^ 32 } where
  wired := hT.wired.of_eq (by simp [World.moved, ResultSet.advanced])
    (by simp [World.moved, ResultSet.advanced]) (by simp [World.moved, ResultSet.advanced])
    rfl rfl fun _ => rfl
  pos := by simp [World.moved, ResultSet.advanced, hT.pos]
  fetched := by simp [World.moved, ResultSet.advanced, hT.fetched]
  eod := by simp [World.moved, ResultSet.advanced, hT.eod]
  delivered := hT.delivered
  bound := hT.bound
  fetches := hT.fetches
  slots := hT.slots

/-- `Next` by the reader: where it asks for no block the position moves on, and
otherwise a block is fetched. -/
theorem Tracks.wp_next {Q : Bool → World → Prop} {E : OraError → World → Prop}
    (hT : Tracks w r h F base ids s)
    (hStay : ¬ s.Refills (2 ^ 32) →
      Q (decide ((s.pos + 1) % 2 ^ 32 < s.fetched)) (w.moved r))
    (hRefill : s.Refills (2 ^ 32) → wp (ResultSet.fetchRows r)
      (fun _ w' => Q (decide ((w'.rsets r).m_currentRow < (w'.rsets r).m_rowsFetched)) w')
      E (w.moved r)) :
    wp (ResultSet.next r) Q E w := by
  have hMoved := hT.moved
  refine Epol.wp_next (fun hLe hEnd => ?_) (fun hLe hEnd => ?_) (fun hLt => ?_)
  · rw [hMoved.pos, hMoved.fetched] at hLe
    rw [hMoved.eod] at hEnd
    have hStays := hStay fun hRefills => Bool.false_ne_true (hRefills.2.symm.trans hEnd)
    rw [decide_eq_false (Nat.not_lt_of_le hLe)] at hStays
    exact hStays
  · rw [hMoved.pos, hMoved.fetched] at hLe
    rw [hMoved.eod] at hEnd
    exact hRefill ⟨hLe, hEnd⟩
  · rw [hMoved.pos, hMoved.fetched] at hLt
    have hStays := hStay fun hRefills => Nat.not_lt_of_le hRefills.1 hLt
    rw [decide_eq_true hLt] at hStays
    exact hStays

/-- **A `Next` is a move of the reader.** -/
theorem tracks_next (hT : Tracks w r h F base ids s) (hN : w.rowCount h < 2 ^ 32)
    (hCount : w.outcome (.attrGet .rowCount 0) = .success) :
    let moved := BlockCursor.next F (w.rowCount h) (2 ^ 32) s
      (decide (¬ fetchOk (w.outcome .stmtFetch)))
    wp (ResultSet.next r)
      (fun b w' => moved.1 = some b ∧ Tracks w' r h F base ids moved.2 ∧
        (w'.oci.stmt h).query = (w.oci.stmt h).query)
      (fun _ w' => moved.1 = none ∧ Tracks w' r h F base ids moved.2 ∧
        (w'.oci.stmt h).query = (w.oci.stmt h).query) w := by
  intro moved
  have hMoved := hT.moved
  refine hT.wp_next (fun hStay => ?_) (fun hRefills => ?_)
  · simp only [moved]
    rw [BlockCursor.next_of_not_refills _ hStay]
    exact ⟨rfl, hMoved, rfl⟩
  · simp only [moved]
    rw [BlockCursor.next_of_refilling _ hRefills]
    have hSmall : s.delivered + min F (w.rowCount h - s.delivered) < 2 ^ 32 := by
      have hBound := hT.bound
      omega
    refine wp_mono (tracks_fetchRows hMoved hSmall hCount) ?_ ?_
    · rintro _ w' ⟨hOk, hT', hQuery⟩
      have hOk : fetchOk (w.outcome .stmtFetch) := hOk
      rw [if_neg (by simpa using hOk), hT'.pos, hT'.fetched]
      exact ⟨rfl, hT', hQuery⟩
    · rintro _ w' ⟨hFail, hT', hQuery⟩
      have hFail : ¬ fetchOk (w.outcome .stmtFetch) := hFail
      rw [if_pos (by simpa using hFail)]
      exact ⟨rfl, hT', hQuery⟩

end Epol
