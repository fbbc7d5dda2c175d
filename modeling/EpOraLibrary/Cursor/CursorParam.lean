import EpOraLibrary.Cursor.Constructing
import EpOraLibrary.Cursor.Traversal
import EpOraLibrary.Ownership.Calls

/-!
# EpOraLibrary — cursor parameters

A statement with a `DT_RESULT_SET` parameter is executed, `ToResultSet` is
called on the parameter and `Next` on what it returned, in any order.

* `CursorParam` — what a `Bind` of a cursor leaves (`bind_cursorParam`).
* `Reopenable` — the invariant: while there is no result set, the cursor an
  execution opened has not been read.
* `cursor_parameter_fresh` — **the first `ToResultSet` after an execution shows
  its cursor**, in the runs in which it makes the result set.
* `cursor_parameter_stale` — a run in which there is one already.
* `World.Begun` — a result set with its first block, however it was opened.
-/

namespace Epol

open Ledger Prog Runs

variable {w w' : World} {s p h hc r n : Nat}

-- ---------------------------------------------------------------------------
-- The calls
-- ---------------------------------------------------------------------------

inductive ParamCall
  | execute
  | toResultSet
  | next
deriving DecidableEq

/-- The world, and the cursor of the last execution that succeeded, until
`ToResultSet` is called. -/
structure ParamRun where
  w       : World
  pending : Option Nat

/-- The number of the execution whose cursor is on the handle of a parameter. -/
def World.cursorOf (w : World) (p : Nat) : Nat :=
  match (w.params p).m_rsHandle with
  | some hc => (w.oci.stmt hc).exec
  | none => 0

/-- One call on the statement `s` and its parameter `p`; an exception is caught. -/
def ParamRun.step (s p : Nat) (a : ParamRun) (l : ParamCall × (OciCall → OciResult)) : ParamRun :=
  match l.1 with
  | .execute =>
    match Statement.executePrepared s (a.w.answering l.2) with
    | .ok _ w => ⟨w, some (w.cursorOf p)⟩
    | .error _ w => ⟨w, a.pending⟩
  | .toResultSet => ⟨exec (Parameter.toResultSet p) (a.w.answering l.2), none⟩
  | .next =>
    match (a.w.params p).m_resultSet with
    | some r => ⟨exec (ResultSet.next r) (a.w.answering l.2), a.pending⟩
    | none => a

/-- The result set `r` is at the first row of the `n`-th cursor, with a column
for each one the server describes, and the loop over it visits all rows. -/
structure ShowsCursor (w : World) (r n : Nat) : Prop where
  position : (w.rsets r).m_currentRow = 0
  shows    : Shows w r (w.cfg.answers n) 0
  length   : (w.rsets r).m_columns.length = (w.cfg.answers n).desc.length
  isFor    : ∀ c (hc : c < (w.rsets r).m_columns.length), (w.cols (w.rsets r).m_columns[c]).IsFor
    w.cfg r (w.rsets r).m_fetchCount ((w.cfg.answers n).desc.getD c default)
  rows     : (w.cfg.answers n).rows.length < 2 ^ 32 → ∀ os : Nat → OciCall → OciResult,
    (∀ i, NoFailure (os i)) → ∃ w', scan r os (w.cfg.answers n).rows.length 0 w =
      some ((List.range (w.cfg.answers n).rows.length).map fun i =>
        (List.range (w.cfg.answers n).desc.length).map ((w.cfg.answers n).cell i), w')

/-- An execution that succeeds opens a new cursor, and the first `ToResultSet`
after it shows this cursor if it returns. -/
def ParamRun.Good (s p : Nat) (a : ParamRun) (l : ParamCall × (OciCall → OciResult)) : Prop :=
  (l.1 = .execute → ∀ w, Statement.executePrepared s (a.w.answering l.2) = .ok () w →
    a.w.oci.execs < w.cursorOf p) ∧
  (l.1 = .toResultSet → ∀ n, a.pending = some n → ∀ r w,
    Parameter.toResultSet p (a.w.answering l.2) = .ok r w → ShowsCursor w r n)

/-- The first `ToResultSet` after an execution finds no result set in the
parameter, and the cursor of the execution on its handle. -/
def ParamRun.Uncached (p : Nat) (a : ParamRun) (l : ParamCall × (OciCall → OciResult)) : Prop :=
  l.1 = .toResultSet → a.pending ≠ none →
    (a.w.params p).m_resultSet = none ∧ a.pending = some (a.w.cursorOf p)

instance (p : Nat) (a : ParamRun) (l : ParamCall × (OciCall → OciResult)) :
    Decidable (a.Uncached p l) :=
  inferInstanceAs (Decidable (_ → _ → _ ∧ _))

-- ---------------------------------------------------------------------------
-- The invariant
-- ---------------------------------------------------------------------------

/-- The handle `hc` of the parameter `p` is bound to the handle `h` of the
statement `s`. -/
structure CursorParam (s p h hc : Nat) (w : World) : Prop where
  handle   : (w.stmts s).m_stmtHandle = some h
  type     : (w.params p).m_paramType = .resultSet
  rsHandle : (w.params p).m_rsHandle = some hc
  bound    : ∃ e ∈ (w.oci.stmt h).binds, e.2.valuep = .rsHandle p

/-- As long as no result set was made, what an execution opened is as it was
opened. -/
structure Reopenable (s p h hc : Nat) (a : ParamRun) : Prop where
  param  : CursorParam s p h hc a.w
  unread : a.pending ≠ none → (a.w.params p).m_resultSet = none →
    (a.w.oci.stmt hc).query = a.w.cfg.answers (a.w.oci.stmt hc).exec ∧
      (a.w.oci.stmt hc).delivered = 0

theorem CursorParam.cursorOf (hP : CursorParam s p h hc w) :
    w.cursorOf p = (w.oci.stmt hc).exec := by
  rw [World.cursorOf, hP.rsHandle]

/-- The parameter stays bound when its links and the registrations do. -/
theorem CursorParam.of_eq (hP : CursorParam s p h hc w)
    (hHandle : (w'.stmts s).m_stmtHandle = (w.stmts s).m_stmtHandle)
    (hType : (w'.params p).m_paramType = (w.params p).m_paramType)
    (hRsHandle : (w'.params p).m_rsHandle = (w.params p).m_rsHandle)
    (hBinds : (w'.oci.stmt h).binds = (w.oci.stmt h).binds) : CursorParam s p h hc w' where
  handle := hHandle.trans hP.handle
  type := hType.trans hP.type
  rsHandle := hRsHandle.trans hP.rsHandle
  bound := by
    rw [hBinds]
    exact hP.bound

/-- **A `Bind` of a cursor** that returns leaves the parameter bound. -/
theorem bind_cursorParam {name : TString} {type : DataType}
    (hHandle : (w.stmts s).m_stmtHandle = some h) (hOld : h < w.fresh)
    (hCursors : ∀ p, (w.params p).m_resultSet = none)
    (hBind : Statement.bind s name type w = .ok p w')
    (hType : (w'.params p).m_paramType = .resultSet) : ∃ hc, CursorParam s p h hc w' := by
  obtain ⟨-, -, w₁, param, t, hTyped, hA, rfl⟩ :=
    of_wp_ok (wp_statementBind s name type (cursorsBelow_of_none hCursors _)) hBind
  have hParam : (w₁.withParam s p name).params p = param := hA.param
  rw [hParam, hTyped.type] at hType
  obtain ⟨hc, hRsHandle⟩ := hTyped.handle hType
  refine ⟨hc, ?_, ?_, ?_, (name, .of p t), ?_, ?_⟩
  · simp [World.withParam, hA.stmts, hHandle]
  · rw [hParam, hTyped.type, hType]
  · rw [hParam, hRsHandle]
  · rw [show ((w₁.withParam s p name).oci.stmt h).binds = (w₁.oci.stmt h).binds from rfl,
      hA.binds h hHandle hOld, registered, if_pos rfl]
    exact List.mem_cons_self ..
  · rw [Registration.of, if_pos hType]

-- ---------------------------------------------------------------------------
-- Execute
-- ---------------------------------------------------------------------------

variable {a : ParamRun}

theorem CursorParam.executing (hP : CursorParam s p h hc w) (hEx : Executing s w w') :
    CursorParam s p h hc w' := by
  refine hP.of_eq ?_ (by rw [hEx.same]) (by rw [hEx.same]) (hEx.oci.kept h).1
  rw [hEx.stmts, Function.update_self]

/-- A new cursor is on the handle of the parameter. -/
theorem CursorParam.reopened (hP : CursorParam s p h hc w) (hOpened : w.AllReopened w' h) :
    Reopened w.cfg.answers w.oci w'.oci hc := by
  obtain ⟨e, he, hAddr⟩ := hP.bound
  exact hOpened.2 e he p hc hAddr hP.rsHandle

/-- An execution that throws leaves the cursor, or opens another one. -/
theorem Reopenable.failed (hR : Reopenable s p h hc a) (hEx : Executing s a.w w') :
    Reopenable s p h hc ⟨w', a.pending⟩ where
  param := hR.param.executing hEx
  unread hPending hNone := by
    have hCfg : w'.cfg = a.w.cfg := by rw [hEx.same]
    have hParams : w'.params = a.w.params := by rw [hEx.same]
    show (w'.oci.stmt hc).query = w'.cfg.answers _ ∧ _
    rw [hCfg]
    rcases hEx.oci.handle hc with hSame | hNew
    · rw [hSame]
      exact hR.unread hPending (hParams ▸ hNone)
    · exact ⟨hNew.query, hNew.delivered⟩

theorem Reopenable.executed (hR : Reopenable s p h hc a) (hEx : Executing s a.w w')
    (hOpened : a.w.AllReopened w' h) : Reopenable s p h hc ⟨w', some (w'.cursorOf p)⟩ where
  param := hR.param.executing hEx
  unread _ _ := by
    have hNew := hR.param.reopened hOpened
    have hCfg : w'.cfg = a.w.cfg := by rw [hEx.same]
    exact ⟨hCfg ▸ hNew.query, hNew.delivered⟩

-- ---------------------------------------------------------------------------
-- ToResultSet and Next
-- ---------------------------------------------------------------------------

theorem CursorParam.reading (hP : CursorParam s p h hc w) (hR : Reading r w w') :
    CursorParam s p h hc w' :=
  hP.of_eq (by rw [hR.same]) (by rw [hR.same]) (by rw [hR.same]) (by rw [hR.stmt])

theorem CursorParam.apart {handle : Option Nat} (hP : CursorParam s p h hc w)
    (hA : Apart w w' r handle) : CursorParam s p h hc w' :=
  hP.of_eq (by rw [hA.stmts]) (by rw [hA.params]) (by rw [hA.params]) (by rw [hA.stmt])

/-- The world in which the parameter `p` has the result set `r`. -/
def World.cached (w : World) (p r : Nat) : World :=
  { w with params := Function.update w.params p { w.params p with m_resultSet := some r } }

theorem CursorParam.cached (hP : CursorParam s p h hc w) (r : Nat) :
    CursorParam s p h hc (w.cached p r) :=
  hP.of_eq rfl (by simp [World.cached]) (by simp [World.cached]) rfl

theorem Tracks.cached {F base : Nat} {ids : List Nat} {t : BlockCursor.State}
    (hT : Tracks w r hc F base ids t) (p r' : Nat) : Tracks (w.cached p r') r hc F base ids t :=
  ⟨hT.wired.of_eq rfl rfl rfl rfl rfl fun _ => rfl, hT.pos, hT.fetched, hT.eod, hT.delivered,
    hT.bound, hT.fetches, hT.slots⟩

/-- What `ToResultSet` makes shows the cursor it finds, if it has not been read. -/
theorem Tracks.showsCursor {F base : Nat} {ids : List Nat}
    (hT : Tracks w r hc F base ids (BlockCursor.start F (w.rowCount hc)))
    (hQuery : (w.oci.stmt hc).query = w.cfg.answers n) (hF : 0 < F) (hF' : F < 2 ^ 16)
    (hFor : ∀ c (hc : c < ids.length), (w.cols ids[c]).IsFor w.cfg r F
      ((w.cfg.answers n).desc.getD c default)) : ShowsCursor w r n := by
  have hCount : (w.rsets r).m_fetchCount = F := hT.wired.count
  have hColumns : (w.rsets r).m_columns = ids := hT.wired.columns
  have hA : AtRow w r hc F base ids (w.cfg.answers n) 0 := by
    refine ⟨hQuery, _, hT, ?_⟩
    rw [World.rowCount, hQuery]
    exact BlockCursor.start_at
  subst hCount hColumns
  refine ⟨?_, ⟨isEod_atRow hA hF (Nat.zero_le _), row_atRow hA hF hF'⟩, ?_, hFor,
    fun hN os hOs => ?_⟩
  · rw [hT.pos, BlockCursor.start_at.pos]
  · rw [hT.wired.length, hQuery]
  · obtain ⟨w', hScan, -⟩ := scan_atRow hF hF' hN hOs _ 0 hA (Nat.zero_le _) (Nat.sub_le _ _)
    refine ⟨w', ?_⟩
    rw [hScan, Nat.sub_zero, ← List.range_eq_range']

/-- A fetch leaves what a column is for. -/
theorem Reading.isFor (hR : Reading r w w') {c F : Nat} {cfg : Setting} {desc : ColumnDesc}
    (hFor : (w.cols c).IsFor cfg r F desc) : (w'.cols c).IsFor cfg r F desc := by
  obtain ⟨freed, as, hType, hCol⟩ := hFor
  refine ⟨freed, as, hType, ?_⟩
  rw [hR.cols c, hCol]

/-- The result set `r` has its first block of rows of the `n`-th cursor. -/
def Fetched (w : World) (r n F : Nat) : Prop :=
  ∃ h base ids, Tracks w r h F base ids (BlockCursor.start F (w.rowCount h)) ∧
    (w.oci.stmt h).query = w.cfg.answers n ∧ ∀ c (hc : c < ids.length),
      (w.cols ids[c]).IsFor w.cfg r F ((w.cfg.answers n).desc.getD c default)

theorem Fetched.showsCursor {F : Nat} (hFetched : Fetched w r n F) (hF : 0 < F)
    (hF' : F < 2 ^ 16) : ShowsCursor w r n := by
  obtain ⟨h, base, ids, hT, hQuery, hFor⟩ := hFetched
  exact hT.showsCursor hQuery hF hF' hFor

/-- The first fetch for a result set on the `n`-th cursor. -/
theorem Tracks.wp_fetched {F base : Nat} {ids : List Nat}
    (hT : Tracks w r h F base ids BlockCursor.blank)
    (hQuery : (w.oci.stmt h).query = w.cfg.answers n) (hF : F < 2 ^ 16)
    (hFor : ∀ c (hc : c < ids.length), (w.cols ids[c]).IsFor w.cfg r F
      ((w.cfg.answers n).desc.getD c default)) :
    wp (ResultSet.fetchRows r) (fun _ w' => w.FetchAnswered ∧ Fetched w' r n F)
      (fun _ _ => ¬ w.FetchAnswered) w := by
  refine wp_mono (wp_and (reading_fetchRows r w) (hT.wp_firstBlock hF))
    (fun _ w' ⟨hR, hAnswered, hT', hSame⟩ => ?_) (fun _ _ ⟨_, hNot⟩ => hNot)
  have hCfg : w'.cfg = w.cfg := by rw [hR.same]
  refine ⟨hAnswered, h, base, ids, hT', by rw [hSame, hQuery, hCfg], fun c hc => ?_⟩
  rw [hCfg]
  exact hR.isFor (hFor c hc)

/-- The parameter `p` has no result set, and the `n`-th cursor is on its
handle and has not been read. -/
structure Unread (w : World) (p hc n : Nat) : Prop where
  type      : (w.params p).m_paramType = .resultSet
  rsHandle  : (w.params p).m_rsHandle = some hc
  resultSet : (w.params p).m_resultSet = none
  query     : (w.oci.stmt hc).query = w.cfg.answers n
  delivered : (w.oci.stmt hc).delivered = 0

/-- **`ToResultSet` on a parameter without a result set.** It returns one with
its first block; it throws before one was built, the parameter being as it
was; or it throws in the first fetch, and the parameter has a result set. -/
theorem wp_toResultSet_first (hU : Unread w p hc n) :
    wp (Parameter.toResultSet p)
      (fun r w' => (w.Constructs hc ∧ w.FetchAnswered) ∧ Fetched w' r n (FETCH_SIZE % 2 ^ 16) ∧
        w'.params p = { w.params p with m_resultSet := some r })
      (fun _ w' => (¬ w.Constructs hc ∧ w'.params p = w.params p ∧ Unread w' p hc n) ∨
        (w.Constructs hc ∧ ¬ w.FetchAnswered ∧ (w'.params p).m_resultSet ≠ none)) w := by
  rw [Parameter.toResultSet, wp_bind, wp_get]
  dsimp only
  rw [wp_ite, if_pos hU.type, hU.resultSet, hU.rsHandle, wp_bind]
  refine wp_mono (wp_and (wp_newResultSet _ _) (newResultSet_constructs _))
    (fun r w₁ ⟨⟨_, ids, hB⟩, hConstructs⟩ => ?_) (fun _ w₁ ⟨hA, hNot⟩ => ?_)
  · rw [wp_bind, wp_modifyParam, wp_bind]
    have hApart := hB.building.apart
    have hQuery : ((w₁.cached p r).oci.stmt hc).query = (w₁.cached p r).cfg.answers n := by
      show (w₁.oci.stmt hc).query = w₁.cfg.answers n
      rw [hApart.stmt, hApart.cfg]
      exact hU.query
    have hAnswered : (w₁.cached p r).FetchAnswered ↔ w.FetchAnswered := by
      show (fetchOk (w₁.outcome .stmtFetch) ∧ w₁.outcome (.attrGet .rowCount 0) = .success) ↔ _
      rw [hApart.outcome]
      rfl
    have hFor : ∀ c (hLt : c < ids.length), ((w₁.cached p r).cols ids[c]).IsFor
        (w₁.cached p r).cfg r (FETCH_SIZE % 2 ^ 16)
        (((w₁.cached p r).cfg.answers n).desc.getD c default) := by
      intro c hLt
      show (w₁.cols ids[c]).IsFor w₁.cfg r _ ((w₁.cfg.answers n).desc.getD c default)
      rw [hApart.cfg, ← hU.query]
      exact hB.building.isFor hc rfl c hLt
    refine wp_mono (wp_and (reading_fetchRows r (w₁.cached p r))
      (((hB.tracks hU.delivered).cached p r).wp_fetched hQuery (Nat.mod_lt _ (by decide)) hFor))
      (fun _ w₂ ⟨hR, hDone, hFetched⟩ => ?_) (fun _ w₂ ⟨hR, hNot⟩ => ?_)
    · have hParams : w₂.params = (w₁.cached p r).params := by rw [hR.same]
      rw [wp_pure]
      refine ⟨⟨hConstructs, hAnswered.mp hDone⟩, hFetched, ?_⟩
      rw [hParams]
      simp [World.cached, hApart.params, hU.rsHandle]
    · have hParams : w₂.params = (w₁.cached p r).params := by rw [hR.same]
      refine Or.inr ⟨hConstructs, fun hDone => hNot (hAnswered.mpr hDone), ?_⟩
      rw [hParams]
      simp [World.cached]
  · have hApart := hA.apart
    have hParams : w₁.params = w.params := hApart.params
    refine Or.inl ⟨hNot, by rw [hParams], ?_⟩
    refine ⟨hParams ▸ hU.type, hParams ▸ hU.rsHandle, hParams ▸ hU.resultSet, ?_, ?_⟩
    · rw [hApart.stmt, hApart.cfg]
      exact hU.query
    · rw [hApart.stmt]
      exact hU.delivered

/-- A result set that was opened, with its first block: by `Select`, or by the
first `ToResultSet` after an execution. -/
inductive World.Begun (w₀ : World) (r : Nat) : Prop
  | select (hSelected : w₀.Selected r)
  | toResultSet (w : World) (p hc n : Nat) (hUnread : Unread w p hc n)
      (hRun : Parameter.toResultSet p w = .ok r w₀)

/-- Either way it is a reader with its first block. -/
theorem World.Begun.tracks {w₀ : World} (hBegun : w₀.Begun r)
    (hHandle : (w₀.rsets r).m_rsHandle = some h) : (w₀.rsets r).m_fetchCount < 2 ^ 16 ∧ ∃ base,
      Tracks w₀ r h (w₀.rsets r).m_fetchCount base (w₀.rsets r).m_columns
        (BlockCursor.start (w₀.rsets r).m_fetchCount (w₀.rowCount h)) := by
  cases hBegun with
  | select hSelected => exact hSelected.tracks hHandle
  | toResultSet w p hc n hUnread hRun =>
    obtain ⟨-, ⟨h', base, ids, hT, -, -⟩, -⟩ := of_wp_ok (wp_toResultSet_first hUnread) hRun
    obtain rfl := Option.some.inj (hT.wired.handle.symm.trans hHandle)
    rw [hT.wired.count, hT.wired.columns]
    exact ⟨by decide, base, hT⟩

/-- `ToResultSet` keeps the parameter bound, whatever it finds. -/
theorem keeps_toResultSet : Respects (Keep (CursorParam s p h hc)) (Parameter.toResultSet p) := by
  refine respects_keep fun w hP => ?_
  rw [Parameter.toResultSet, wp_bind, wp_get]
  dsimp only
  rw [wp_ite, if_pos hP.type]
  cases (w.params p).m_resultSet with
  | some r => exact hP
  | none =>
    dsimp only
    rw [wp_bind]
    refine wp_mono (wp_newResultSet _ _) (fun r w₁ ⟨_, ids, hB⟩ => ?_)
      (fun _ w₁ hA => hP.apart hA.apart)
    have hP₁ := (hP.apart hB.building.apart).cached r
    rw [wp_bind, wp_modifyParam, wp_bind]
    exact wp_mono (reading_fetchRows r (w₁.cached p r)) (fun _ _ hR => hP₁.reading hR)
      (fun _ _ hR => hP₁.reading hR)

-- ---------------------------------------------------------------------------
-- Runs
-- ---------------------------------------------------------------------------

theorem Reopenable.answering (hR : Reopenable s p h hc a) (o : OciCall → OciResult) :
    Reopenable s p h hc { a with w := a.w.answering o } :=
  ⟨hR.param.of_eq rfl rfl rfl rfl, hR.unread⟩

/-- **One call** keeps the invariant, and shows no cursor but the latest where
it does not find a result set. -/
theorem Reopenable.step (hR : Reopenable s p h hc a) (l : ParamCall × (OciCall → OciResult)) :
    Reopenable s p h hc (a.step s p l) ∧ (a.Uncached p l → a.Good s p l) := by
  obtain ⟨l, o⟩ := l
  have hR' := hR.answering o
  cases l with
  | execute =>
    have hExecute := wp_executePrepared (w := a.w.answering o) s
    refine ⟨?_, fun _ => ⟨fun _ w' hRun => ?_, fun heq => nomatch heq⟩⟩
    · rw [ParamRun.step]
      dsimp only
      cases hRun : Statement.executePrepared s (a.w.answering o) with
      | ok _ w' =>
        obtain ⟨hEx, hOpened⟩ := of_wp_ok hExecute hRun
        exact hR'.executed hEx (hOpened h hR'.param.handle)
      | error e w' =>
        have hEx := of_wp_error hExecute hRun
        exact hR'.failed hEx
    · obtain ⟨hEx, hOpened⟩ := of_wp_ok hExecute hRun
      rw [(hR'.param.executing hEx).cursorOf]
      exact (hR'.param.reopened (hOpened h hR'.param.handle)).after
  | toResultSet =>
    refine ⟨⟨?_, fun hPending => absurd rfl hPending⟩, fun hUncached => ⟨fun heq => (nomatch heq),
      fun _ n hn r w' hRun => ?_⟩⟩
    · exact wp_exec.mp (keeps_toResultSet (a.w.answering o)) hR'.param
    · obtain ⟨hNone, hCursor⟩ := hUncached rfl (by rw [hn]; exact Option.some_ne_none _)
      have hExec : n = (a.w.oci.stmt hc).exec := by
        rw [hn, hR.param.cursorOf] at hCursor
        exact Option.some.inj hCursor
      obtain ⟨hQuery, h₀⟩ := hR.unread (by rw [hn]; exact Option.some_ne_none _) hNone
      have hUnread : Unread (a.w.answering o) p hc (a.w.oci.stmt hc).exec :=
        ⟨hR.param.type, hR.param.rsHandle, hNone, hQuery, h₀⟩
      have hAfter := of_wp_ok (wp_toResultSet_first hUnread) hRun
      rw [hExec]
      exact hAfter.2.1.showsCursor (by decide) (by decide)
  | next =>
    refine ⟨?_, fun _ => ⟨fun heq => (nomatch heq), fun heq => nomatch heq⟩⟩
    rw [ParamRun.step]
    dsimp only
    cases hCached : (a.w.params p).m_resultSet with
    | none => exact hR
    | some r =>
      have hRead : Reading r (a.w.answering o) (exec (ResultSet.next r) (a.w.answering o)) :=
        wp_exec.mp (reading_next r _)
      refine ⟨hR'.param.reading hRead, fun _ hNone => ?_⟩
      have hSame : (exec (ResultSet.next r) (a.w.answering o)).params = a.w.params := by
        rw [hRead.same]
        rfl
      rw [hSame, hCached] at hNone
      cases hNone

/-- **A cursor parameter shows the cursor of the latest execution** in every
run of `Execute`, `ToResultSet` and `Next` calls in which the first
`ToResultSet` after an execution finds no result set in the parameter and the
cursor of this execution on its handle: the execution opened a new cursor, and
what `ToResultSet` returns is at its first row, has its columns and leads
through its rows. -/
theorem cursor_parameter_fresh (hParam : CursorParam s p h hc w)
    (calls : List (ParamCall × (OciCall → OciResult)))
    (hUncached : AllSteps (ParamRun.step s p) (ParamRun.Uncached p) ⟨w, none⟩ calls) :
    AllSteps (ParamRun.step s p) (ParamRun.Good s p) ⟨w, none⟩ calls := by
  have hStart : Reopenable s p h hc ⟨w, none⟩ := ⟨hParam, fun hPending => absurd rfl hPending⟩
  exact allSteps_imp (I := Reopenable s p h hc) (fun a l hR _ => (hR.step l).1)
    (fun a l hR hl => (hR.step l).2 hl) hStart hUncached

/-- A statement with a cursor parameter: the numbers 0 and 2, the handles 1
and 3. -/
def cursorBound : World :=
  exec (Statement.bind 0 (tstr "cRows") .unknown) (preparedOn threeRows)

theorem bind_cursorBound :
    Statement.bind 0 (tstr "cRows") .unknown (preparedOn threeRows) = .ok 2 cursorBound :=
  eq_ok_of_result (by decide +kernel)

/-- An execution that fails, one that succeeds, and its rows. -/
theorem cursor_parameter_fresh_executed_twice :
    AllSteps (ParamRun.step 0 2) (ParamRun.Good 0 2) ⟨cursorBound, none⟩
      [(.execute, failing (· = .stmtExecute)), (.execute, allWell), (.toResultSet, allWell),
        (.next, allWell), (.toResultSet, allWell)] := by
  obtain ⟨hc, hParam⟩ := bind_cursorParam (h := 1) (by decide +kernel) (by decide +kernel)
    (fun _ => rfl) bind_cursorBound (by decide +kernel)
  exact cursor_parameter_fresh hParam _ (by decide +kernel)

/-- Two executions, the cursor of the first one being read by one row before
the second: `ToResultSet` returns the result set of the first, at its second
row. -/
theorem cursor_parameter_stale :
    ¬ AllSteps (ParamRun.step 0 2) (ParamRun.Good 0 2) ⟨cursorBound, none⟩
      [(.execute, allWell), (.toResultSet, allWell), (.next, allWell), (.execute, allWell),
        (.toResultSet, allWell)] := by
  rintro ⟨-, -, -, -, hGood, -⟩
  have hShows := hGood.2 rfl 4 (by decide +kernel) 4 _ (eq_ok_of_result (by decide +kernel))
  have hMoved := hShows.position
  revert hMoved
  decide +kernel

end Epol
