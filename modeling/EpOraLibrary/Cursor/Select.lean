import EpOraLibrary.Cursor.Simulation
import EpOraLibrary.Cursor.Building

/-!
# EpOraLibrary — `Select`

* `wp_selectWith` — `Statement::Select` executes, builds a result set and
  fetches its first block; what is built is released when a later step throws.
* `selectWith_tracks` — the result set it returns is a reader with its first
  block, over the rows of the cursor this very execution opened.
-/

namespace Epol

open Ledger Prog

variable {w we wb w₀ : World} {s r h F base fetchSize : Nat} {ids : List Nat}

/-- **`Statement::Select`** by its three steps. -/
theorem wp_selectWith {Q : Nat → World → Prop} {E : OraError → World → Prop}
    (hExecute : ∀ e we, Executing s w we → E e we)
    (hBuild : ∀ e we wb, Executing s w we →
      (∀ h, (w.stmts s).m_stmtHandle = some h → w.AllReopened we h) →
      Abandoned we wb (w.stmts s).m_stmtHandle → E e wb)
    (hFetch : ∀ we wb ids, Executing s w we →
      (∀ h, (w.stmts s).m_stmtHandle = some h → w.AllReopened we h) →
      Built we wb we.fresh (w.stmts s).m_stmtHandle (fetchSize % 2 ^ 16) ids →
      wp (ResultSet.fetchRows we.fresh) (fun _ w' => Q we.fresh w')
        (fun e w' => wp (ReleaseObj ⟨.resultSet, we.fresh⟩) (fun _ w'' => E e w'') E w') wb) :
    wp (Statement.selectWith s fetchSize) Q E w := by
  rw [Statement.selectWith, wp_bind]
  refine wp_mono (wp_executePrepared s) (fun _ we ⟨hEx, hOpened⟩ => ?_) hExecute
  have hHandle : (we.stmts s).m_stmtHandle = (w.stmts s).m_stmtHandle := by
    rw [hEx.stmts, Function.update_self]
  rw [wp_bind, wp_get, wp_bind, hHandle]
  refine wp_mono (wp_newResultSet _ _) (fun r wb ⟨hr, ids, hB⟩ => ?_)
    (fun e wb hA => hBuild e we wb hEx hOpened hA)
  subst hr
  rw [wp_bind, wp_tryCatch]
  refine wp_mono (hFetch we wb ids hEx hOpened hB) (fun _ w' hQ => hQ) (fun e w' hE => ?_)
  rw [wp_bind]
  exact wp_mono hE (fun _ w'' h => h) (fun _ _ h => h)

/-- A result set that has been built is wired to its handle. -/
theorem Built.wired (hB : Built we wb r (some h) F ids) : Wired wb r h F ids where
  handle := hB.building.rset.handle
  count := hB.building.rset.count
  columns := hB.building.rset.columns
  nodup := hB.building.nodup
  length := by
    rw [hB.length h rfl, hB.building.apart.stmt]
  defined c hc := (hB.defined h rfl c hc).1
  owner := hB.building.owner
  spaced col hCol := by
    obtain ⟨c, hc, rfl⟩ := List.getElem_of_mem hCol
    obtain ⟨hPos, hStride⟩ := (hB.building.isFor h rfl c hc).stride
    have hSize := (hB.defined h rfl c hc).2
    exact ⟨hSize ▸ hPos, hStride.trans hSize.symm⟩

/-- It is a reader before its first block, where the cursor has not been read. -/
theorem Built.tracks (hB : Built we wb r (some h) F ids) (h₀ : (we.oci.stmt h).delivered = 0) :
    Tracks wb r h F (fetchesOf r we.oci.log) ids BlockCursor.blank where
  wired := hB.wired
  pos := hB.building.rset.current
  fetched := hB.building.rset.fetched
  eod := hB.building.rset.eod
  delivered := by
    rw [hB.building.apart.stmt]
    exact h₀
  bound := ⟨Nat.le_refl _, Nat.zero_le _⟩
  fetches := by
    rw [hB.building.apart.oci]
    rfl
  slots _ _ _ _ hSlot := nomatch hSlot

/-- The row count was asked for, and nothing was fetched. -/
structure CountRead (r : Nat) (w w' : World) : Prop where
  same    : w' = { w with oci := { w.oci with log := w'.oci.log }, trace := w'.trace }
  fetches : fetchesOf r w'.oci.log = fetchesOf r w.oci.log

/-- A row count that is returned was answered. -/
theorem wp_rowsCount_read (r : Nat) (w : World) :
    wp (ResultSet.rowsCount r)
      (fun _ w' => w.outcome (.attrGet .rowCount 0) = .success ∧ CountRead r w w')
      (fun _ w' => CountRead r w w') w := by
  simp only [ResultSet.rowsCount, ociRowCount, ociStmtAttrGet, wp_bind, wp_get, wp_pass, wp_answer]
  have hLast : ∀ (count : Nat) (log : List ReadEvent) (t : Trace Res),
      fetchesOf r log = fetchesOf r w.oci.log →
      wp (if w.outcome (.attrGet .rowCount 0) = .success then pure count
        else throwOnError (w.outcome (.attrGet .rowCount 0)) w.conn.m_errorHandle none : M Nat)
        (fun _ w' => w.outcome (.attrGet .rowCount 0) = .success ∧ CountRead r w w')
        (fun _ w' => CountRead r w w')
        { w with oci := { w.oci with log := log }, trace := t } := by
    intro count log t hFetches
    rw [wp_ite]
    split
    · rename_i hCount
      exact ⟨hCount, rfl, hFetches⟩
    · exact wp_throwOnError fun _ _ => ⟨rfl, hFetches⟩
  cases (w.rsets r).m_rsHandle with
  | none => exact hLast 0 _ _ rfl
  | some h =>
    dsimp only
    rw [wp_ite]
    split
    · refine hLast _ (.rowCount r _ :: w.oci.log) _ ?_
      simp [fetchesOf]
    · exact hLast _ _ _ rfl

/-- A fetch that returns has read the row count back. -/
theorem fetchRows_counted (r : Nat) :
    wp (ResultSet.fetchRows r) (fun _ _ => w.outcome (.attrGet .rowCount 0) = .success)
      (fun _ _ => True) w := by
  rw [ResultSet.fetchRows, wp_bind, wp_get, wp_bind]
  refine wp_mono (reading_fetch (E := fun _ _ => True) r _) (fun result w' hw' => ?_)
    (fun _ _ _ => trivial)
  have hOutcome : w'.outcome = w.outcome := by rw [hw'.same]
  rw [wp_ite]
  split
  · rw [wp_bind, ← hOutcome]
    exact wp_mono (wp_rowsCount_read r w') (fun _ _ hCount => hCount.1) (fun _ _ _ => trivial)
  · exact wp_throwOnError fun _ _ => trivial

/-- OCI answers a fetch, and the question for the row count after it. -/
def World.FetchAnswered (w : World) : Prop :=
  fetchOk (w.outcome .stmtFetch) ∧ w.outcome (.attrGet .rowCount 0) = .success

instance (w : World) : Decidable w.FetchAnswered := inferInstanceAs (Decidable (_ ∧ _))

/-- **The first fetch** for a result set that was just built returns exactly
when OCI answers. -/
theorem Tracks.wp_firstBlock (hT : Tracks w r h F base ids BlockCursor.blank) (hF : F < 2 ^ 16) :
    wp (ResultSet.fetchRows r)
      (fun _ w' => w.FetchAnswered ∧
        Tracks w' r h F base ids (BlockCursor.start F (w'.rowCount h)) ∧
        (w'.oci.stmt h).query = (w.oci.stmt h).query) (fun _ _ => ¬ w.FetchAnswered) w := by
  by_cases hCount : w.outcome (.attrGet .rowCount 0) = .success
  · refine wp_mono (tracks_fetchRows hT ?_ hCount) (fun _ w' ⟨hOk, hT', hQuery⟩ => ?_)
      (fun _ _ ⟨hFail, _⟩ hAnswered => hFail hAnswered.1)
    · simp only [BlockCursor.blank]
      omega
    · have hRows : w'.rowCount h = w.rowCount h := by rw [World.rowCount, hQuery, World.rowCount]
      exact ⟨⟨hOk, hCount⟩, hRows ▸ hT', hQuery⟩
  · -- a fetch that returns has read the row count back
    exact wp_mono (fetchRows_counted r) (fun _ _ hDone => absurd hDone hCount)
      (fun _ _ _ hAnswered => hCount hAnswered.2)

/-- The result set a `Select` has just returned: a reader with its first block
over the `N` rows of the cursor that was opened after the first `execs`. -/
structure FirstBlock (w : World) (r h F execs base : Nat) (ids : List Nat) : Prop where
  tracks  : Tracks w r h F base ids (BlockCursor.start F (w.rowCount h))
  query   : (w.oci.stmt h).query = w.cfg.answers (w.oci.stmt h).exec
  latest  : execs < (w.oci.stmt h).exec

/-- **What `Statement::Select` returns.** -/
theorem selectWith_tracks (hHandle : (w.stmts s).m_stmtHandle = some h)
    (hSelect : Statement.selectWith s fetchSize w = .ok r w₀) :
    r = w.fresh ∧ w₀.cfg = w.cfg ∧ ∃ ids, FirstBlock w₀ r h (fetchSize % 2 ^ 16) w.oci.execs
      (fetchesOf r w.oci.log) ids := by
  refine of_wp_ok (E := fun _ _ => True) (Q := fun r w' => r = w.fresh ∧ w'.cfg = w.cfg ∧ ∃ ids,
    FirstBlock w' r h (fetchSize % 2 ^ 16) w.oci.execs (fetchesOf r w.oci.log) ids)
    (wp_selectWith (fun _ _ _ => trivial) (fun _ _ _ _ _ _ => trivial)
      fun we wb ids hEx hOpened hB => ?_) hSelect
  rw [hHandle] at hB
  have hNew := (hOpened h hHandle).1
  have hFresh : we.fresh = w.fresh := by rw [hEx.same]
  have hLog : we.oci.log = w.oci.log := by rw [hEx.oci.same]
  have hFirst := (hB.tracks hNew.delivered).wp_firstBlock (Nat.mod_lt _ (by decide))
  rw [hLog, hFresh] at hFirst
  rw [hFresh] at hB ⊢
  refine wp_mono (wp_and (reading_fetchRows w.fresh wb) hFirst)
    (fun _ w' ⟨hw', _, hT, hQuery⟩ => ?_)
    (fun _ _ _ => wp_trivial _ _)
  have hStmt := hB.building.apart.stmt h
  have hExec : (w'.oci.stmt h).exec = (we.oci.stmt h).exec := by rw [hw'.stmt, hStmt]
  have hCfg : w'.cfg = w.cfg := by rw [hw'.same, hB.building.apart.cfg, hEx.same]
  refine ⟨rfl, hCfg, ids, hT, ?_, hExec ▸ hNew.after⟩
  rw [hQuery, hStmt, hExec, hCfg]
  exact hNew.query

/-- The handle of the result set is that of the statement. -/
theorem selectWith_handle (hSelect : Statement.selectWith s fetchSize w = .ok r w₀) :
    (w₀.rsets r).m_rsHandle = (w.stmts s).m_stmtHandle := by
  refine of_wp_ok (Q := fun r w' => (w'.rsets r).m_rsHandle = (w.stmts s).m_stmtHandle)
    (E := fun _ _ => True) (wp_selectWith (fun _ _ _ => trivial) (fun _ _ _ _ _ _ => trivial)
      fun we wb ids _ _ hB => ?_) hSelect
  refine wp_mono (reading_fetchRows we.fresh wb) (fun _ w' hw' => ?_) (fun _ _ _ => wp_trivial _ _)
  rw [hw'.handle]
  exact hB.building.rset.handle

/-- `Connection::Select` is `Statement::Select` on a statement of its own,
which it hands over to the result set. -/
theorem connection_selectWith {sql : TString}
    (hSelect : Connection.selectWith sql fetchSize w = .ok r w₀) :
    ∃ s w₁ w₂, Statement.selectWith s fetchSize w₁ = .ok r w₂ ∧
      w₀ = { w₂ with
        rsets := Function.update w₂.rsets r { w₂.rsets r with m_stmt := some s } } := by
  refine of_wp_ok (E := fun _ _ => True) (Q := fun r w₀ => ∃ s w₁ w₂,
    Statement.selectWith s fetchSize w₁ = .ok r w₂ ∧ w₀ = { w₂ with
      rsets := Function.update w₂.rsets r { w₂.rsets r with m_stmt := some s } }) ?_ hSelect
  rw [Connection.selectWith, wp_bind]
  refine wp_mono (wp_self _ _) (fun s w₁ _ => ?_) (fun _ _ _ => trivial)
  rw [wp_tryCatch, wp_bind]
  refine wp_mono (wp_self _ _) (fun r w₂ hRun => ?_) (fun e w₂ _ => ?_)
  · rw [ResultSet.attachStatement, wp_bind, wp_modifyRs, wp_pure]
    exact ⟨s, w₁, w₂, hRun, rfl⟩
  · rw [wp_bind]
    exact wp_mono (wp_trivial _ _) (fun _ _ _ => trivial) (fun _ _ _ => trivial)

/-- The reader does not depend on who owns the statement. -/
theorem Tracks.attachStatement {t : BlockCursor.State} (hT : Tracks w r h F base ids t) (s : Nat) :
    Tracks { w with rsets := Function.update w.rsets r { w.rsets r with m_stmt := some s } }
      r h F base ids t where
  wired := hT.wired.of_eq (by simp) (by simp) (by simp) rfl rfl fun _ => rfl
  pos := by simp [hT.pos]
  fetched := by simp [hT.fetched]
  eod := by simp [hT.eod]
  delivered := hT.delivered
  bound := hT.bound
  fetches := hT.fetches
  slots := hT.slots

/-- What a `Select` leaves that has returned `r`. -/
def World.Selected (w₀ : World) (r : Nat) : Prop :=
  (∃ w s fetchSize, Statement.selectWith s fetchSize w = .ok r w₀) ∨
    ∃ w sql fetchSize, Connection.selectWith sql fetchSize w = .ok r w₀

/-- Either `Select` returns a reader with its first block. -/
theorem World.Selected.tracks (hSelected : w₀.Selected r)
    (hHandle : (w₀.rsets r).m_rsHandle = some h) : (w₀.rsets r).m_fetchCount < 2 ^ 16 ∧ ∃ base,
      Tracks w₀ r h (w₀.rsets r).m_fetchCount base (w₀.rsets r).m_columns
        (BlockCursor.start (w₀.rsets r).m_fetchCount (w₀.rowCount h)) := by
  have hStatement : ∀ w s fetchSize w₁, Statement.selectWith s fetchSize w = .ok r w₁ →
      (w₁.rsets r).m_rsHandle = some h → (w₁.rsets r).m_fetchCount < 2 ^ 16 ∧ ∃ base,
        Tracks w₁ r h (w₁.rsets r).m_fetchCount base (w₁.rsets r).m_columns
          (BlockCursor.start (w₁.rsets r).m_fetchCount (w₁.rowCount h)) := by
    intro w s fetchSize w₁ hRun hHandle₁
    rw [selectWith_handle hRun] at hHandle₁
    obtain ⟨-, -, ids, hB⟩ := selectWith_tracks hHandle₁ hRun
    rw [hB.tracks.wired.count, hB.tracks.wired.columns]
    exact ⟨Nat.mod_lt _ (by decide), _, hB.tracks⟩
  rcases hSelected with ⟨w, s, fetchSize, hRun⟩ | ⟨w, sql, fetchSize, hRun⟩
  · exact hStatement w s fetchSize w₀ hRun hHandle
  · obtain ⟨s, w₁, w₂, hRun₂, rfl⟩ := connection_selectWith hRun
    simp only [Function.update_self] at hHandle ⊢
    obtain ⟨hF, base, hT⟩ := hStatement w₁ s fetchSize w₂ hRun₂ hHandle
    exact ⟨hF, base, hT.attachStatement s⟩

end Epol
