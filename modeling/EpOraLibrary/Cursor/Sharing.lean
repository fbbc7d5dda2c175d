import EpOraLibrary.Cursor.Traversal

/-!
# EpOraLibrary — result sets that share a statement

Any number of `Select` calls on one statement, `Next` calls on the result sets
obtained so far and releases of some of them. All of them read the one handle
of the statement.

* `Shared` — the buffers the handle is defined on belong to the result set of
  its latest execution.
* `selects_apart` — **result sets do not interfere** in the runs in which only
  a result set of the latest execution fetches after its `Select`.
* `earlier_result_set_disturbed` — a run in which another one does.
-/

namespace Epol

open Ledger Prog Runs

variable {w we wb w' : World} {s h r : Nat}

-- ---------------------------------------------------------------------------
-- Runs
-- ---------------------------------------------------------------------------

inductive CursorCall
  | select (fetchSize : Nat)
  | next (r : Nat)
  | release (r : Nat)
deriving DecidableEq

/-- The world, the result sets that are held, and the execution each result set
was opened for. -/
structure SelectRun where
  w      : World
  held   : List Nat
  opened : Nat → Nat

/-- The execution whose cursor is on the handle of the statement. -/
def World.execOf (w : World) (s : Nat) : Nat :=
  match (w.stmts s).m_stmtHandle with
  | some h => (w.oci.stmt h).exec
  | none => 0

/-- One call; an exception is caught. A result set gets the next number, and is
opened for the execution its `Select` made. -/
def SelectRun.step (s : Nat) (a : SelectRun) (l : CursorCall × (OciCall → OciResult)) :
    SelectRun :=
  match l.1 with
  | .select fetchSize =>
    match Statement.selectWith s fetchSize (a.w.answering l.2) with
    | .ok r w => ⟨w, r :: a.held, Function.update a.opened a.w.fresh (w.execOf s)⟩
    | .error _ w => ⟨w, a.held, Function.update a.opened a.w.fresh (w.execOf s)⟩
  | .next r =>
    if r ∈ a.held then { a with w := exec (ResultSet.next r) (a.w.answering l.2) } else a
  | .release r =>
    if r ∈ a.held then
      { a with
        w := exec (ReleaseObj ⟨.resultSet, r⟩) (a.w.answering l.2)
        held := a.held.erase r }
    else a

/-- A fetch writes buffers of the result set it is made for only, and a row
count is that of the execution this one was opened for. -/
def ReadEvent.Own (w : World) (opened : Nat → Nat) : ReadEvent → Prop
  | .fetch r _ wrote => ∀ col ∈ wrote, (w.cols col).m_resultSet = some r
  | .rowCount r exec => exec = opened r

/-- All reads between the two worlds are the own ones of the result sets they
are made for. -/
def OwnReads (w w' : World) (opened : Nat → Nat) : Prop :=
  ∃ new, w'.oci.log = new ++ w.oci.log ∧ ∀ e ∈ new, e.Own w' opened

/-- The call does not interfere with other result sets. -/
def SelectRun.Apart (s : Nat) (a : SelectRun) (l : CursorCall × (OciCall → OciResult)) : Prop :=
  OwnReads a.w (a.step s l).w (a.step s l).opened

/-- A `Next` that fetches is one of a result set of the latest execution. -/
def SelectRun.Latest (s : Nat) (a : SelectRun) (l : CursorCall × (OciCall → OciResult)) : Prop :=
  ∀ r ∈ a.held, l.1 = .next r → (a.w.rsets r).Refills → fetchOk (l.2 .stmtFetch) →
    a.w.execOf s = a.opened r

instance (s : Nat) (a : SelectRun) (l : CursorCall × (OciCall → OciResult)) :
    Decidable (a.Latest s l) :=
  inferInstanceAs (Decidable (∀ r ∈ a.held, l.1 = .next r → (a.w.rsets r).Refills →
    fetchOk (l.2 .stmtFetch) → a.w.execOf s = a.opened r))

-- ---------------------------------------------------------------------------
-- The invariant
-- ---------------------------------------------------------------------------

/-- A result set on the handle `h` with columns of its own. -/
structure OnHandle (w : World) (h r : Nat) : Prop where
  old    : r < w.fresh
  handle : (w.rsets r).m_rsHandle = some h
  plain  : (w.rsets r).m_stmt = none
  nodup  : (w.rsets r).m_columns.Nodup
  owner  : ∀ c ∈ (w.rsets r).m_columns, c < w.fresh ∧ (w.cols c).m_resultSet = some r

/-- All buffers the handle `h` is defined on belong to `r`. -/
def World.DefinedFor (w : World) (h r : Nat) : Prop :=
  ∀ col ∈ (w.oci.stmt h).targets, (w.cols col).m_resultSet = some r

/-- The handle is defined on the columns of the result set of its execution. -/
structure Shared (s h : Nat) (a : SelectRun) : Prop where
  handle  : (a.w.stmts s).m_stmtHandle = some h
  nodup   : a.held.Nodup
  held    : ∀ r ∈ a.held, OnHandle a.w h r
  counted : ∀ r ∈ a.held, a.opened r ≤ a.w.oci.execs
  current : ∀ r ∈ a.held, (a.w.oci.stmt h).exec = a.opened r → a.w.DefinedFor h r

/-- A result set stays what it is when its links and the owners do. -/
theorem OnHandle.of_eq (hO : OnHandle w h r) (hFresh : w.fresh ≤ w'.fresh)
    (hHandle : (w'.rsets r).m_rsHandle = (w.rsets r).m_rsHandle)
    (hStmt : (w'.rsets r).m_stmt = (w.rsets r).m_stmt)
    (hColumns : (w'.rsets r).m_columns = (w.rsets r).m_columns)
    (hOwner : ∀ c, c < w.fresh → (w'.cols c).m_resultSet = (w.cols c).m_resultSet) :
    OnHandle w' h r where
  old := Nat.lt_of_lt_of_le hO.old hFresh
  handle := hHandle.trans hO.handle
  plain := hStmt.trans hO.plain
  nodup := hColumns ▸ hO.nodup
  owner c hc := by
    rw [hColumns] at hc
    obtain ⟨hOld, hOwned⟩ := hO.owner c hc
    exact ⟨Nat.lt_of_lt_of_le hOld hFresh, (hOwner c hOld).trans hOwned⟩

-- ---------------------------------------------------------------------------
-- Select
-- ---------------------------------------------------------------------------

/-- What a `Select` on the handle `h` leaves of the objects that were there: the
cursor is as it was, or it is a new one. -/
structure Aside (s h : Nat) (w w' : World) : Prop where
  handle : (w'.stmts s).m_stmtHandle = (w.stmts s).m_stmtHandle
  fresh  : w.fresh ≤ w'.fresh
  rsets  : ∀ r, r < w.fresh → w'.rsets r = w.rsets r
  owners : ∀ c, c < w.fresh → (w'.cols c).m_resultSet = (w.cols c).m_resultSet
  execs  : w.oci.execs ≤ w'.oci.execs
  cursor : w'.oci.stmt h = w.oci.stmt h ∧ w'.cols = w.cols ∨
    w.oci.execs < (w'.oci.stmt h).exec

theorem Shared.aside {a : SelectRun} (hS : Shared s h a) (hA : Aside s h a.w w')
    {opened : Nat → Nat} (hOpened : ∀ r ∈ a.held, opened r = a.opened r) :
    Shared s h ⟨w', a.held, opened⟩ where
  handle := hA.handle.trans hS.handle
  nodup := hS.nodup
  held r hr := by
    have hO := hS.held r hr
    have hSame := hA.rsets r hO.old
    exact hO.of_eq hA.fresh (by rw [hSame]) (by rw [hSame]) (by rw [hSame]) hA.owners
  counted r hr := by
    show opened r ≤ w'.oci.execs
    rw [hOpened r hr]
    exact Nat.le_trans (hS.counted r hr) hA.execs
  current r hr hExec := by
    have hExec : (w'.oci.stmt h).exec = a.opened r := hExec.trans (hOpened r hr)
    rcases hA.cursor with ⟨hStmt, hCols⟩ | hNew
    · intro col hcol
      show (w'.cols col).m_resultSet = some r
      have hcol : col ∈ (w'.oci.stmt h).targets := hcol
      rw [hStmt] at hcol hExec
      rw [hCols]
      exact hS.current r hr hExec col hcol
    · have hOld := hS.counted r hr
      omega

theorem aside_executing (hEx : Executing s w w') : Aside s h w w' where
  handle := by rw [hEx.stmts, Function.update_self]
  fresh := by rw [hEx.same]
  rsets r _ := by rw [hEx.same]
  owners c _ := by rw [hEx.same]
  execs := hEx.oci.execs
  cursor := (hEx.oci.handle h).imp (fun hStmt => ⟨hStmt, by rw [hEx.same]⟩) (·.after)

/-- A result set was built on the new cursor, or was begun and given up. -/
theorem aside_apart (hEx : Executing s w we) (hOpened : w.AllReopened we h)
    (hApart : Apart we wb we.fresh (some h)) (hFresh : we.fresh ≤ wb.fresh) : Aside s h w wb := by
  have hEqual : we.fresh = w.fresh := by rw [hEx.same]
  have hAside : Aside s h w we := aside_executing hEx
  refine ⟨?_, hEqual ▸ hFresh, fun r hr => ?_, fun c hc => ?_, ?_, .inr ?_⟩
  · rw [hApart.stmts]
    exact hAside.handle
  · rw [hApart.rsets r (by omega)]
    exact hAside.rsets r hr
  · rw [hApart.cols c (by omega)]
    exact hAside.owners c hc
  · rw [hApart.oci]
    exact hAside.execs
  · rw [hApart.stmt]
    exact hOpened.1.after

/-- The buffers of the positions are those of the columns. -/
theorem Wired.definedFor {F : Nat} {ids : List Nat} (hW : Wired w r h F ids) :
    w.DefinedFor h r := by
  intro col hcol
  obtain ⟨c, hc, hDefined⟩ := List.mem_filterMap.mp hcol
  rw [List.mem_range, ← hW.length] at hc
  rw [hW.defined c hc] at hDefined
  exact hW.owner col (Option.some.inj hDefined ▸ List.getElem_mem hc)

theorem Reading.owner (hR : Reading r w w') (c : Nat) :
    (w'.cols c).m_resultSet = (w.cols c).m_resultSet := by
  rw [hR.cols]

theorem Reading.targets (hR : Reading r w w') (h : Nat) :
    (w'.oci.stmt h).targets = (w.oci.stmt h).targets := by
  rw [hR.stmt]
  rfl

theorem Reading.definedFor {r' : Nat} (hR : Reading r w w') (hDefined : w.DefinedFor h r') :
    w'.DefinedFor h r' := by
  intro col hcol
  rw [hR.targets] at hcol
  rw [hR.owner]
  exact hDefined col hcol

/-- What is read for a result set is its own, where the handle is defined on
its columns and on the cursor it was opened for. -/
theorem Reading.ownReads (hR : Reading r w w') (hHandle : (w.rsets r).m_rsHandle = some h)
    (hDefined : w.DefinedFor h r) {opened : Nat → Nat}
    (hOpened : (w.oci.stmt h).exec = opened r) : OwnReads w w' opened := by
  obtain ⟨new, hLog, hNew⟩ := hR.log
  refine ⟨new, hLog, fun e he => ?_⟩
  obtain ⟨hd, hd', he⟩ := hNew e he
  obtain rfl := Option.some.inj (hHandle.symm.trans hd')
  rcases he with rfl | ⟨wrote, hWrote, rfl⟩
  · exact hOpened
  · intro col hcol
    rw [hR.owner]
    exact hDefined col (hWrote hcol)

/-- A result set stays on its handle while rows are read. -/
theorem OnHandle.reading {r' : Nat} (hO : OnHandle w h r') (hR : Reading r w w') :
    OnHandle w' h r' := by
  have hLinks : (w'.rsets r').m_rsHandle = (w.rsets r').m_rsHandle ∧
      (w'.rsets r').m_stmt = (w.rsets r').m_stmt ∧
      (w'.rsets r').m_columns = (w.rsets r').m_columns := by
    rw [hR.rsets]
    by_cases hr : r' = r
    · subst hr
      simp
    · simp [hr]
  exact hO.of_eq (by rw [hR.same]) hLinks.1 hLinks.2.1 hLinks.2.2 fun c _ => hR.owner c

/-- Rows are read for the result set that was built on the new cursor. -/
theorem Aside.reading (hA : Aside s h w wb) (hR : Reading r wb w') (hr : w.fresh ≤ r)
    (hNew : w.oci.execs < (wb.oci.stmt h).exec) : Aside s h w w' where
  handle := by
    rw [hR.same]
    exact hA.handle
  fresh := by
    rw [hR.same]
    exact hA.fresh
  rsets r' hr' := by
    rw [hR.rsets, Function.update_of_ne (Nat.ne_of_lt (Nat.lt_of_lt_of_le hr' hr))]
    exact hA.rsets r' hr'
  owners c hc := (hR.owner c).trans (hA.owners c hc)
  execs := by
    rw [hR.oci]
    exact hA.execs
  cursor := .inr (by
    rw [hR.stmt]
    exact hNew)

/-- The result set `r` was released. -/
structure Dropped (r : Nat) (w w' : World) : Prop where
  fresh  : w'.fresh = w.fresh
  oci    : w'.oci = w.oci
  stmts  : w'.stmts = w.stmts
  rsets  : ∀ r', r' ≠ r → w'.rsets r' = w.rsets r'
  owners : ∀ c, (w'.cols c).m_resultSet = (w.cols c).m_resultSet

/-- The result set that was built on the new cursor is released again. -/
theorem Aside.dropped (hA : Aside s h w wb) (hD : Dropped r wb w') (hr : w.fresh ≤ r)
    (hNew : w.oci.execs < (wb.oci.stmt h).exec) : Aside s h w w' where
  handle := hD.stmts ▸ hA.handle
  fresh := hD.fresh ▸ hA.fresh
  rsets r' hr' := by
    rw [hD.rsets r' (Nat.ne_of_lt (Nat.lt_of_lt_of_le hr' hr))]
    exact hA.rsets r' hr'
  owners c hc := (hD.owners c).trans (hA.owners c hc)
  execs := hD.oci ▸ hA.execs
  cursor := .inr (by
    rw [hD.oci]
    exact hNew)

theorem OwnReads.dropped {opened : Nat → Nat} (hO : OwnReads w wb opened) (hD : Dropped r wb w') :
    OwnReads w w' opened := by
  obtain ⟨new, hGrown, hOwn⟩ := hO
  refine ⟨new, by rw [hD.oci, hGrown], fun e he => ?_⟩
  have hEvent := hOwn e he
  cases e with
  | fetch r' exec wrote =>
    intro col hcol
    rw [hD.owners]
    exact hEvent col hcol
  | rowCount r' exec => exact hEvent

theorem wp_drop {E : OraError → World → Prop} (hO : OnHandle w h r) :
    wp (ReleaseObj ⟨.resultSet, r⟩) (fun _ w' => Dropped r w w') E w := by
  have hNodup : (w.cursorOwned r).Nodup := by
    rw [World.cursorOwned, List.nodup_append]
    refine ⟨hO.nodup.map fun _ _ heq => (Res.mk.inj heq).2, List.nodup_singleton _, ?_⟩
    intro y hy y' hy' heq
    obtain ⟨c, -, rfl⟩ := List.mem_map.mp hy
    rw [List.mem_singleton.mp hy'] at heq
    cases (Res.mk.inj heq).1
  refine wp_mono (wp_releaseCursor 3 r hO.plain hNodup) (fun _ w' hF => ?_) (fun _ _ hE => hE)
  refine ⟨by rw [hF.same], by rw [hF.same], funext fun s => ?_, fun r' hr' => ?_, hF.owners⟩
  · exact hF.untouched ⟨.statement, s⟩ (by simp [World.cursorOwned, World.columnsOwned])
  · exact hF.untouched ⟨.resultSet, r'⟩
      (by simpa [World.cursorOwned, World.columnsOwned] using hr')

/-- **A `Select`** reads for the result set it makes only, and leaves those
that were there. -/
theorem wp_select_aside (hHandle : (w.stmts s).m_stmtHandle = some h) (fetchSize : Nat) :
    wp (Statement.selectWith s fetchSize)
      (fun r w' => Aside s h w w' ∧ (∀ opened : Nat → Nat,
        opened w.fresh = (w'.oci.stmt h).exec → OwnReads w w' opened) ∧ r = w.fresh ∧
        OnHandle w' h r ∧ w'.DefinedFor h r ∧ (w'.oci.stmt h).exec ≤ w'.oci.execs)
      (fun _ w' => Aside s h w w' ∧ ∀ opened : Nat → Nat,
        opened w.fresh = (w'.oci.stmt h).exec → OwnReads w w' opened) w := by
  have hQuiet : ∀ w' : World, w'.oci.log = w.oci.log → ∀ opened, OwnReads w w' opened :=
    fun w' hLog opened => ⟨[], hLog, fun _ he => nomatch he⟩
  refine wp_selectWith (fun e we hEx => ?_) (fun e we wb hEx hOpened hA => ?_)
    fun we wb ids hEx hOpened hB => ?_
  · exact ⟨aside_executing hEx, fun opened _ => hQuiet we (by rw [hEx.oci.same]) opened⟩
  · rw [hHandle] at hA
    refine ⟨aside_apart hEx (hOpened h hHandle) hA.apart hA.fresh, fun opened _ => hQuiet wb ?_ _⟩
    rw [hA.apart.oci, hEx.oci.same]
  · rw [hHandle] at hB
    have hFresh : we.fresh = w.fresh := by rw [hEx.same]
    have hLog : wb.oci.log = w.oci.log := by rw [hB.building.apart.oci, hEx.oci.same]
    have hAside := aside_apart hEx (hOpened h hHandle) hB.building.apart
      (Nat.le_of_lt hB.building.fresh)
    have hNew : w.oci.execs < (wb.oci.stmt h).exec := by
      rw [hB.building.apart.stmt]
      exact (hOpened h hHandle).1.after
    have hWired := hB.wired
    have hOn : OnHandle wb h we.fresh := {
      old := hB.building.fresh
      handle := hWired.handle
      plain := hB.building.rset.stmt
      nodup := hWired.columns ▸ hWired.nodup
      owner := fun c hc => by
        rw [hWired.columns] at hc
        exact ⟨(hB.building.new c hc).2, hWired.owner c hc⟩ }
    -- the fetch, of which it does not matter whether it throws
    have hRead : ∀ w', Reading we.fresh wb w' → Aside s h w w' ∧ (∀ opened : Nat → Nat,
        opened w.fresh = (w'.oci.stmt h).exec → OwnReads w w' opened) ∧
        (w'.oci.stmt h).exec = (wb.oci.stmt h).exec := by
      intro w' hR
      have hExec : (w'.oci.stmt h).exec = (wb.oci.stmt h).exec := by rw [hR.stmt]
      refine ⟨hAside.reading hR (Nat.le_of_eq hFresh.symm) hNew, fun opened hEq => ?_, hExec⟩
      rw [← hFresh, hExec] at hEq
      obtain ⟨new, hGrown, hOwn⟩ := hR.ownReads hWired.handle hWired.definedFor hEq.symm
      exact ⟨new, hGrown.trans (by rw [hLog]), hOwn⟩
    refine wp_mono (reading_fetchRows we.fresh wb) (fun _ w' hR => ?_) (fun e w' hR => ?_)
    · obtain ⟨hAside', hReads, hExec⟩ := hRead w' hR
      refine ⟨hAside', hReads, hFresh, hOn.reading hR, hR.definedFor hWired.definedFor, ?_⟩
      rw [hExec, hR.oci, hB.building.apart.stmt, hB.building.apart.oci]
      exact (hOpened h hHandle).1.counted
    · obtain ⟨hAside', hReads, hExec⟩ := hRead w' hR
      refine wp_mono (wp_drop (hOn.reading hR)) (fun _ w'' hD => ⟨?_, fun opened hEq => ?_⟩)
        (fun _ _ hE => hE)
      · exact hAside'.dropped hD (Nat.le_of_eq hFresh.symm) (hExec ▸ hNew)
      · rw [hD.oci] at hEq
        exact (hReads opened hEq).dropped hD

-- ---------------------------------------------------------------------------
-- Next
-- ---------------------------------------------------------------------------

/-- Nothing was delivered for the result set `r`, and no row count read. -/
def NoDelivery (r : Nat) (w w' : World) : Prop :=
  ∃ new, w'.oci.log = new ++ w.oci.log ∧ ∀ e ∈ new, ∃ exec, e = .fetch r exec []

/-- A `Next` that does not fetch, or in vain, delivers nothing. -/
theorem wp_next_idle (hHandle : (w.rsets r).m_rsHandle = some h)
    (hIdle : (w.rsets r).Refills → ¬ fetchOk (w.outcome .stmtFetch)) :
    wp (ResultSet.next r) (fun _ w' => NoDelivery r w w') (fun _ w' => NoDelivery r w w') w := by
  have hNothing : NoDelivery r w (w.moved r) := ⟨[], rfl, fun _ he => nomatch he⟩
  refine wp_next (fun _ _ => hNothing) (fun hLe hEod => ?_) (fun _ => hNothing)
  have hRefills : (w.rsets r).Refills := by
    simpa [World.moved, ResultSet.advanced, ResultSet.Refills] using And.intro hLe hEod
  have hHandle' : ((w.moved r).rsets r).m_rsHandle = some h := by
    simpa [World.moved, ResultSet.advanced] using hHandle
  rw [ResultSet.fetchRows, wp_bind, wp_get, wp_bind, hHandle']
  refine wp_ociStmtFetch (fun hOk => absurd hOk (hIdle hRefills)) (fun hFail => ?_)
  rw [wp_ite, if_neg fun h => hFail (fetchOk_iff.mpr h)]
  exact wp_throwOnError fun rs _ => ⟨[_], rfl, fun e he => ⟨_, List.mem_singleton.mp he⟩⟩

theorem NoDelivery.ownReads (hN : NoDelivery r w w') (opened : Nat → Nat) :
    OwnReads w w' opened := by
  obtain ⟨new, hLog, hNew⟩ := hN
  refine ⟨new, hLog, fun e he => ?_⟩
  obtain ⟨exec, rfl⟩ := hNew e he
  exact fun col hcol => nomatch hcol

-- ---------------------------------------------------------------------------
-- One call
-- ---------------------------------------------------------------------------

variable {a : SelectRun}

theorem Shared.answering (hS : Shared s h a) (o : OciCall → OciResult) :
    Shared s h { a with w := a.w.answering o } :=
  ⟨hS.handle, hS.nodup, fun r hr => (hS.held r hr).of_eq (Nat.le_refl _) rfl rfl rfl fun _ _ => rfl,
    hS.counted, hS.current⟩

/-- The result set of the latest execution joins. -/
theorem Shared.cons {held : List Nat} {opened : Nat → Nat} (hS : Shared s h ⟨w, held, opened⟩)
    (hNew : r ∉ held) (hOn : OnHandle w h r) (hCounted : opened r ≤ w.oci.execs)
    (hDefined : w.DefinedFor h r) : Shared s h ⟨w, r :: held, opened⟩ where
  handle := hS.handle
  nodup := List.nodup_cons.mpr ⟨hNew, hS.nodup⟩
  held r' hr' := by
    rcases List.mem_cons.mp hr' with rfl | hr'
    · exact hOn
    · exact hS.held r' hr'
  counted r' hr' := by
    rcases List.mem_cons.mp hr' with rfl | hr'
    · exact hCounted
    · exact hS.counted r' hr'
  current r' hr' hExec := by
    rcases List.mem_cons.mp hr' with rfl | hr'
    · exact hDefined
    · exact hS.current r' hr' hExec

/-- Rows are read for one of the result sets. -/
theorem Shared.reading (hS : Shared s h a) (hR : Reading r a.w w') :
    Shared s h { a with w := w' } where
  handle := by
    show (w'.stmts s).m_stmtHandle = some h
    rw [hR.same]
    exact hS.handle
  nodup := hS.nodup
  held r' hr' := (hS.held r' hr').reading hR
  counted r' hr' := by
    show a.opened r' ≤ w'.oci.execs
    rw [hR.oci]
    exact hS.counted r' hr'
  current r' hr' hExec := by
    refine hR.definedFor (hS.current r' hr' ?_)
    rw [← hExec, hR.stmt]

/-- One of the result sets is released. -/
theorem Shared.dropped (hS : Shared s h a) (hD : Dropped r a.w w') :
    Shared s h { a with w := w', held := a.held.erase r } where
  handle := by
    show (w'.stmts s).m_stmtHandle = some h
    rw [hD.stmts]
    exact hS.handle
  nodup := hS.nodup.erase r
  held r' hr' := by
    obtain ⟨hne, hr'⟩ := hS.nodup.mem_erase_iff.mp hr'
    have hSame := hD.rsets r' hne
    exact (hS.held r' hr').of_eq (by rw [hD.fresh]) (by rw [hSame]) (by rw [hSame]) (by rw [hSame])
      fun c _ => hD.owners c
  counted r' hr' := by
    show a.opened r' ≤ w'.oci.execs
    rw [hD.oci]
    exact hS.counted r' (List.mem_of_mem_erase hr')
  current r' hr' hExec := by
    have hExec : (w'.oci.stmt h).exec = a.opened r' := hExec
    intro col hcol
    have hcol : col ∈ (w'.oci.stmt h).targets := hcol
    show (w'.cols col).m_resultSet = some r'
    rw [hD.oci] at hcol hExec
    rw [hD.owners]
    exact hS.current r' (List.mem_of_mem_erase hr') hExec col hcol

/-- **One call** keeps the invariant, and is apart from the other result sets
where it does not fetch for one of an earlier execution. -/
theorem Shared.step (hS : Shared s h a) (l : CursorCall × (OciCall → OciResult)) :
    Shared s h (a.step s l) ∧ (a.Latest s l → a.Apart s l) := by
  obtain ⟨l, o⟩ := l
  have hS' := hS.answering o
  cases l with
  | select fetchSize =>
    have hSelect := wp_select_aside hS'.handle fetchSize
    have hOpened : ∀ n, ∀ r ∈ a.held, Function.update a.opened a.w.fresh n r = a.opened r :=
      fun n r hr => Function.update_of_ne (Nat.ne_of_lt (hS.held r hr).old) ..
    have hExecOf : ∀ w' : World, Aside s h (a.w.answering o) w' →
        w'.execOf s = (w'.oci.stmt h).exec := fun w' hA => by
      rw [World.execOf, hA.handle.trans hS'.handle]
    cases hRun : Statement.selectWith s fetchSize (a.w.answering o) with
    | ok r w' =>
      obtain ⟨hA, hReads, rfl, hOn, hDefined, hCounted⟩ := of_wp_ok hSelect hRun
      have hStep : a.step s (.select fetchSize, o) = ⟨w', a.w.fresh :: a.held,
          Function.update a.opened a.w.fresh (w'.execOf s)⟩ := by
        simp only [SelectRun.step, hRun]
        rfl
      rw [SelectRun.Apart, hStep]
      refine ⟨(hS'.aside hA (hOpened _)).cons ?_ hOn ?_ hDefined, fun _ => hReads _ ?_⟩
      · exact fun hr => Nat.lt_irrefl _ (hS.held _ hr).old
      · exact (Nat.le_of_eq ((Function.update_self ..).trans (hExecOf w' hA))).trans hCounted
      · exact (Function.update_self ..).trans (hExecOf w' hA)
    | error e w' =>
      obtain ⟨hA, hReads⟩ := of_wp_error hSelect hRun
      have hStep : a.step s (.select fetchSize, o) = ⟨w', a.held,
          Function.update a.opened a.w.fresh (w'.execOf s)⟩ := by
        simp only [SelectRun.step, hRun]
      rw [SelectRun.Apart, hStep]
      exact ⟨hS'.aside hA (hOpened _), fun _ => hReads _
        ((Function.update_self ..).trans (hExecOf w' hA))⟩
  | next r =>
    by_cases hr : r ∈ a.held
    · have hStep : a.step s (.next r, o) =
          { a with w := exec (ResultSet.next r) (a.w.answering o) } := by
        simp only [SelectRun.step, if_pos hr]
      have hR : Reading r (a.w.answering o) (exec (ResultSet.next r) (a.w.answering o)) :=
        wp_exec.mp (reading_next r _)
      have hHandle : ((a.w.answering o).rsets r).m_rsHandle = some h := (hS.held r hr).handle
      rw [SelectRun.Apart, hStep]
      refine ⟨hS'.reading hR, fun hLatest => ?_⟩
      by_cases hFetch : (a.w.rsets r).Refills ∧ fetchOk (o .stmtFetch)
      · have hExec : (a.w.oci.stmt h).exec = a.opened r := by
          rw [← hLatest r hr rfl hFetch.1 hFetch.2, World.execOf, hS.handle]
        exact hR.ownReads hHandle (hS'.current r hr hExec) hExec
      · refine NoDelivery.ownReads (wp_exec.mp (wp_next_idle hHandle fun hRefills hOk => ?_)) _
        exact hFetch ⟨hRefills, hOk⟩
    · have hStep : a.step s (.next r, o) = a := by
        simp only [SelectRun.step, if_neg hr]
      rw [SelectRun.Apart, hStep]
      exact ⟨hS, fun _ => ⟨[], rfl, fun _ he => nomatch he⟩⟩
  | release r =>
    by_cases hr : r ∈ a.held
    · have hStep : a.step s (.release r, o) = { a with
          w := exec (ReleaseObj ⟨.resultSet, r⟩) (a.w.answering o)
          held := a.held.erase r } := by
        simp only [SelectRun.step, if_pos hr]
      have hD : Dropped r (a.w.answering o)
          (exec (ReleaseObj ⟨.resultSet, r⟩) (a.w.answering o)) := by
        have hDrop := wp_drop (E := fun _ w' => Dropped r (a.w.answering o) w') (hS'.held r hr)
        exact wp_exec.mp hDrop
      rw [SelectRun.Apart, hStep]
      refine ⟨hS'.dropped hD, fun _ => ⟨[], ?_, fun _ he => nomatch he⟩⟩
      show (exec (ReleaseObj ⟨.resultSet, r⟩) (a.w.answering o)).oci.log = _
      rw [hD.oci]
      rfl
    · have hStep : a.step s (.release r, o) = a := by
        simp only [SelectRun.step, if_neg hr]
      rw [SelectRun.Apart, hStep]
      exact ⟨hS, fun _ => ⟨[], rfl, fun _ he => nomatch he⟩⟩

-- ---------------------------------------------------------------------------
-- Runs
-- ---------------------------------------------------------------------------

/-- Before the first `Select`. -/
def SelectRun.start (w : World) : SelectRun := ⟨w, [], fun _ => 0⟩

/-- **Result sets of one statement do not interfere** in any run of `Select`
calls on it, `Next` calls on the result sets obtained so far and releases of
some of them in which a `Next` fetches for a result set of the latest execution
only: each fetch writes buffers of the result set it is made for, and each row
count is that of the execution this one was opened for. -/
theorem selects_apart (hHandle : (w.stmts s).m_stmtHandle = some h)
    (calls : List (CursorCall × (OciCall → OciResult)))
    (hLatest : AllSteps (SelectRun.step s) (SelectRun.Latest s) (.start w) calls) :
    AllSteps (SelectRun.step s) (SelectRun.Apart s) (.start w) calls := by
  have hStart : Shared s h (.start w) :=
    ⟨hHandle, List.nodup_nil, fun _ hr => (nomatch hr), fun _ hr => (nomatch hr),
      fun _ hr => (nomatch hr)⟩
  exact allSteps_imp (I := Shared s h) (fun a l hS _ => (hS.step l).1)
    (fun a l hS hl => (hS.step l).2 hl) hStart hLatest

/-- Two `Select` calls, each read to its end before the next one. -/
theorem selects_apart_one_after_the_other :
    AllSteps (SelectRun.step 0) (SelectRun.Apart 0) (.start (preparedOn threeRows))
      [(.select 2, allWell), (.next 2, allWell), (.next 2, allWell), (.select 2, allWell),
        (.next 5, allWell), (.release 2, allWell), (.next 5, allWell)] :=
  selects_apart (h := 1) (by decide +kernel) _ (by decide +kernel)

-- ---------------------------------------------------------------------------
-- An earlier result set that fetches
-- ---------------------------------------------------------------------------

/-- A `Next` on a result set that is held, inside its block. -/
theorem step_inside (hr : r ∈ a.held) {w : World} (hInside : w.Inside r 1) :
    SelectRun.step s { a with w := w } (.next r, allWell) = { a with w := w.movedBy r 1 } := by
  simp only [SelectRun.step, if_pos hr]
  rw [exec, next_inside hInside]

theorem steps_inside (hr : r ∈ a.held) (n : Nat) (hInside : a.w.Inside r (n + 1)) :
    run (SelectRun.step s) a (List.replicate (n + 1) (.next r, allWell)) =
      { a with w := a.w.movedBy r (n + 1) } :=
  run_inside (fun w => { a with w := w }) (fun _ hOne => step_inside hr hOne) n hInside

/-- Two `Select` calls on one statement. -/
def twoSelects : SelectRun :=
  run (SelectRun.step 0) (.start (preparedOn fullBlock))
    [(.select FETCH_SIZE, allWell), (.select FETCH_SIZE, allWell)]

/-- The first of them is at the end of its block, and has to fetch. -/
def beforeRefill : SelectRun := { twoSelects with w := twoSelects.w.movedBy 2 3391 }

/-- The first result set is read on after the second `Select`: at the end of its
block it fetches from the cursor of the second one. -/
theorem earlier_result_set_disturbed :
    ¬ AllSteps (SelectRun.step 0) (SelectRun.Apart 0) (.start (preparedOn fullBlock))
      ([(.select FETCH_SIZE, allWell), (.select FETCH_SIZE, allWell)] ++
        List.replicate 3391 (.next 2, allWell) ++ [(.next 2, allWell)]) := by
  intro hAll
  have hLast := (allSteps_concat.mp hAll).2
  rw [run_append, show run (SelectRun.step 0) (SelectRun.start (preparedOn fullBlock))
      [(.select FETCH_SIZE, allWell), (.select FETCH_SIZE, allWell)] = twoSelects from rfl,
    steps_inside (by decide +kernel) 3390 (by decide +kernel)] at hLast
  change beforeRefill.Apart 0 (.next 2, allWell) at hLast
  obtain ⟨new, hLog, hOwn⟩ := hLast
  have hHead : (beforeRefill.step 0 (.next 2, allWell)).w.oci.log.head? =
      some (.rowCount 2 2) := by decide +kernel
  have hOpened : (beforeRefill.step 0 (.next 2, allWell)).opened 2 = 1 := by decide +kernel
  rw [hLog] at hHead
  cases new with
  | nil =>
    have hBefore : beforeRefill.w.oci.log.length + 2 =
        (beforeRefill.step 0 (.next 2, allWell)).w.oci.log.length := by decide +kernel
    rw [hLog] at hBefore
    simp at hBefore
  | cons e new =>
    obtain rfl := Option.some.inj hHead
    have hCount := hOwn _ (List.mem_cons_self ..)
    rw [ReadEvent.Own, hOpened] at hCount
    cases hCount

end Epol
