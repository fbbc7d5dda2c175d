import EpOraLibrary.Cursor.CursorParam

/-!
# EpOraLibrary — a cursor parameter whose first fetch fails

`ToResultSet` writes `m_resultSet` between the construction of the result set
and its first fetch. `Statement::Select`, the other path that opens a result
set, releases it again when that fetch throws.

* `WellOpened` — the invariant: the cursor has not been read, or the result set in
  the parameter has its first block.
* `first_fetch_iff` — **`ToResultSet` opens a result set or leaves the
  parameter alone** exactly in the runs in which no first fetch fails after
  its result set was built.
* `first_fetch_fails` — a run in which one does.
-/

namespace Epol

open Ledger Prog Runs

variable {w w₀ : World} {s p h hc r n fetchSize : Nat}

-- ---------------------------------------------------------------------------
-- ToResultSet again and again
-- ---------------------------------------------------------------------------

/-- One `ToResultSet`; an exception is caught. -/
def attempt (p : Nat) (w : World) (o : OciCall → OciResult) : World :=
  exec (Parameter.toResultSet p) (w.answering o)

/-- The first block of the `n`-th cursor has been fetched for `r`. -/
def World.HasBlock (w : World) (r n : Nat) : Prop :=
  (w.rsets r).m_rowsFetched = min (w.rsets r).m_fetchCount (w.cfg.answers n).rows.length

/-- What is asked of a `ToResultSet`: one that throws leaves the parameter as
it was, without a result set; one that returns has fetched the first block,
and its result set shows the rows of the `n`-th cursor from the first one on. -/
def OpensOrLeaves (p n : Nat) (w : World) (o : OciCall → OciResult) : Prop :=
  wp (Parameter.toResultSet p)
    (fun r w' => w'.HasBlock r n ∧ ShowsCursor w' r n)
    (fun _ w' => w'.params p = w.params p ∧ (w'.params p).m_resultSet = none) (w.answering o)

theorem OpensOrLeaves.left {o : OciCall → OciResult} (hGood : OpensOrLeaves p n w o)
    (hThrown : result? (Parameter.toResultSet p) (w.answering o) = none) :
    ((attempt p w o).params p).m_resultSet = none := by
  obtain ⟨e, hRun⟩ := eq_error_of_result hThrown
  rw [OpensOrLeaves, wp_error hRun] at hGood
  exact hGood.2

/-- A result set that was built for the parameter gets its first block. -/
def FirstFetchAnswered (p hc : Nat) (w : World) (o : OciCall → OciResult) : Prop :=
  (w.params p).m_resultSet = none → (w.answering o).Constructs hc → (w.answering o).FetchAnswered

instance (p hc : Nat) (w : World) (o : OciCall → OciResult) :
    Decidable (FirstFetchAnswered p hc w o) :=
  inferInstanceAs (Decidable (_ → _ → _))

/-- No `ToResultSet` has been half done. -/
inductive WellOpened (p hc n : Nat) (w : World) : Prop
  | unread (hUnread : Unread w p hc n)
  | fetched (r : Nat) (hType : (w.params p).m_paramType = .resultSet)
      (hCached : (w.params p).m_resultSet = some r) (hFetched : Fetched w r n (FETCH_SIZE % 2 ^ 16))

theorem Unread.answering (hU : Unread w p hc n) (o : OciCall → OciResult) :
    Unread (w.answering o) p hc n :=
  ⟨hU.type, hU.rsHandle, hU.resultSet, hU.query, hU.delivered⟩

theorem Fetched.answering {F : Nat} (hF : Fetched w r n F) (o : OciCall → OciResult) :
    Fetched (w.answering o) r n F := by
  obtain ⟨h, base, ids, hT, hQuery, hFor⟩ := hF
  exact ⟨h, base, ids, hT.answering o, hQuery, hFor⟩

theorem Fetched.hasBlock {F : Nat} (hF : Fetched w r n F) : w.HasBlock r n := by
  obtain ⟨h, base, ids, hT, hQuery, -⟩ := hF
  rw [World.HasBlock, hT.fetched, hT.wired.count, BlockCursor.start_eq, World.rowCount, hQuery]

/-- A cached result set is returned as it is. -/
theorem wp_toResultSet_cached (hType : (w.params p).m_paramType = .resultSet)
    (hCached : (w.params p).m_resultSet = some r) :
    wp (Parameter.toResultSet p) (fun r' w' => r' = r ∧ w' = w) (fun _ _ => False) w := by
  rw [Parameter.toResultSet, wp_bind, wp_get]
  dsimp only
  rw [wp_ite, if_pos hType, hCached, wp_pure]
  exact ⟨rfl, rfl⟩

/-- **One call**: it is as asked exactly when no first fetch fails, and then
nothing is left half done. -/
theorem WellOpened.step (hO : WellOpened p hc n w) (o : OciCall → OciResult) :
    (FirstFetchAnswered p hc w o → WellOpened p hc n (attempt p w o)) ∧
      (OpensOrLeaves p n w o ↔ FirstFetchAnswered p hc w o) := by
  cases hO with
  | unread hU =>
    have hCall := wp_toResultSet_first (hU.answering o)
    rw [OpensOrLeaves, attempt]
    cases hRun : Parameter.toResultSet p (w.answering o) with
    | ok r w' =>
      obtain ⟨⟨hConstructs, hAnswered⟩, hFetched, hParam⟩ := of_wp_ok hCall hRun
      have hOk : FirstFetchAnswered p hc w o := fun _ _ => hAnswered
      refine ⟨fun _ => ?_, fun _ => hOk, fun _ => ?_⟩
      · rw [exec, hRun]
        refine .fetched r ?_ ?_ hFetched
        · rw [hParam]
          exact hU.type
        · rw [hParam]
      · rw [wp_ok hRun]
        exact ⟨hFetched.hasBlock, hFetched.showsCursor (by decide) (by decide)⟩
    | error e w' =>
      rw [wp_error hRun, exec, hRun]
      rcases of_wp_error hCall hRun with ⟨hNot, hParam, hU'⟩ | ⟨hConstructs, hFailed, hHalf⟩
      · -- the constructor has thrown
        have hOk : FirstFetchAnswered p hc w o := fun _ hConstructs => absurd hConstructs hNot
        exact ⟨fun _ => .unread hU', fun _ => hOk, fun _ => ⟨hParam, hU'.resultSet⟩⟩
      · have hBad : ¬ FirstFetchAnswered p hc w o := fun hOk =>
          hFailed (hOk hU.resultSet hConstructs)
        exact ⟨fun hOk => absurd hOk hBad, fun hGood => absurd hGood.2 hHalf,
          fun hOk => absurd hOk hBad⟩
  | fetched r hType hCached hFetched =>
    have hCall : wp (Parameter.toResultSet p) (fun r' w' => r' = r ∧ w' = w.answering o)
        (fun _ _ => False) (w.answering o) := wp_toResultSet_cached hType hCached
    have hOk : FirstFetchAnswered p hc w o := fun hNone => by
      rw [hCached] at hNone
      cases hNone
    have hAfter := hFetched.answering o
    refine ⟨fun _ => ?_, fun _ => hOk, fun _ => ?_⟩
    · have hSame : attempt p w o = w.answering o := wp_exec.mp
        (wp_mono hCall (fun _ _ hSame => hSame.2) (fun _ _ hFalse => hFalse.elim))
      rw [hSame]
      exact .fetched r hType hCached hAfter
    · refine wp_mono hCall ?_ (fun _ _ hFalse => hFalse.elim)
      rintro r' w' ⟨hr, hw⟩
      rw [hr, hw]
      exact ⟨hAfter.hasBlock, hAfter.showsCursor (by decide) (by decide)⟩

/-- **A failed first fetch.** After an execution of the statement a cursor
parameter without a result set is bound to, in a run of `ToResultSet` calls in
which any call to OCI may fail: each one that throws leaves the parameter as
it was, and each one that returns shows the rows of the cursor from the first
one on, exactly when OCI answers the first fetch for every result set that was
built. -/
theorem first_fetch_iff (hParam : CursorParam s p h hc w₀)
    (hNone : (w₀.params p).m_resultSet = none)
    (hExecute : Statement.executePrepared s w₀ = .ok () w)
    (calls : List (OciCall → OciResult)) :
    AllSteps (attempt p) (OpensOrLeaves p (w.cursorOf p)) w calls ↔
      AllSteps (attempt p) (FirstFetchAnswered p hc) w calls := by
  obtain ⟨hEx, hOpened⟩ := of_wp_ok (wp_executePrepared s) hExecute
  have hBound := hParam.executing hEx
  have hNew := hParam.reopened (hOpened h hParam.handle)
  have hSame : w.params = w₀.params := by rw [hEx.same]
  have hCfg : w.cfg = w₀.cfg := by rw [hEx.same]
  have hStart : WellOpened p hc (w.cursorOf p) w := by
    rw [hBound.cursorOf]
    exact .unread ⟨hBound.type, hBound.rsHandle, hSame ▸ hNone, hCfg ▸ hNew.query, hNew.delivered⟩
  exact allSteps_iff_allSteps (I := WellOpened p hc (w.cursorOf p)) (fun _ o hO => (hO.step o).1)
    (fun _ o hO => (hO.step o).2) hStart

/-- A cursor parameter after an execution: the numbers of `cursorBound`. -/
def cursorExecuted : World := exec (Statement.executePrepared 0) cursorBound

theorem execute_cursorBound :
    Statement.executePrepared 0 cursorBound = .ok () cursorExecuted :=
  eq_ok_of_result (by decide +kernel)

theorem cursorParam_cursorBound : CursorParam 0 2 1 3 cursorBound := by
  obtain ⟨hc, hParam⟩ := bind_cursorParam (h := 1) (by decide +kernel) (by decide +kernel)
    (fun _ => rfl) bind_cursorBound (by decide +kernel)
  have hHandle : (cursorBound.params 2).m_rsHandle = some 3 := by decide +kernel
  obtain rfl : hc = 3 := Option.some.inj (hParam.rsHandle.symm.trans hHandle)
  exact hParam

/-- Two constructions that fail, in `describe` and in `define`, and two calls
that are answered. -/
theorem first_fetch_after_failures :
    AllSteps (attempt 2) (OpensOrLeaves 2 (cursorExecuted.cursorOf 2)) cursorExecuted
      [failing (· = .paramGet 1), failing (· = .defineByPos 1), allWell, allWell] := by
  have hNone : (cursorBound.params 2).m_resultSet = none := by decide +kernel
  have hIff := first_fetch_iff cursorParam_cursorBound hNone execute_cursorBound
    [failing (· = .paramGet 1), failing (· = .defineByPos 1), allWell, allWell]
  exact hIff.mpr (by decide +kernel)

/-- The world after a first fetch that fails. -/
def halfOpened : World := attempt 2 cursorExecuted (failing (· = .stmtFetch))

/-- The first fetch fails: the parameter has a result set, the retry returns
it without a block, and the next row is the second. -/
theorem first_fetch_fails :
    (¬ AllSteps (attempt 2) (OpensOrLeaves 2 (cursorExecuted.cursorOf 2)) cursorExecuted
      [failing (· = .stmtFetch), allWell]) ∧
    result? (Parameter.toResultSet 2) (halfOpened.answering allWell) = some 4 ∧
    (halfOpened.rsets 4).m_rowsFetched = 0 ∧
    (exec (ResultSet.next 4) (halfOpened.answering allWell)).row 4 = [⟨-1, 0, .number []⟩] := by
  refine ⟨fun hAll => ?_, by decide +kernel, by decide +kernel, by decide +kernel⟩
  have hLeft := hAll.1.left (by decide +kernel)
  revert hLeft
  decide +kernel

end Epol
