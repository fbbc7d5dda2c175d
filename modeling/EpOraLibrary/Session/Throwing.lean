import EpOraLibrary.Session.Failures

/-!
# EpOraLibrary — every call throws its error

The calls of a session, put together from their parts.

* `throws_selectWith`, `throws_statementBind`, `throws_registerCall` — the parts
  that are left.
* `throws_call` — one call on objects that are ready.
* `session_failures_exact` — **every call of a session throws exactly its error.**
-/

namespace Epol

open Ledger Prog Runs

variable {w w₁ : World} {s p h : Nat} {held : List Res}

-- ---------------------------------------------------------------------------
-- Select
-- ---------------------------------------------------------------------------

/-- The cursors bound to the handle `h` are on other handles. -/
def World.CursorsApart (w : World) (h : Nat) : Prop :=
  ∀ e ∈ (w.oci.stmt h).binds, ∀ p, e.2.valuep = .rsHandle p → (w.params p).m_rsHandle ≠ some h

/-- **The query of an execution** is the next one. -/
theorem wp_executePrepared_query (hHandle : (w.stmts s).m_stmtHandle = some h)
    (hApart : w.CursorsApart h) :
    wp (Statement.executePrepared s)
      (fun _ w' => (w'.oci.stmt h).query = w.cfg.answers (w.oci.execs + 1))
      (fun _ _ => True) w := by
  rw [Statement.executePrepared, wp_bind, wp_get, wp_bind, hHandle]
  refine wp_mono (Q := fun result w' => result = .success →
      (w'.oci.stmt h).query = w.cfg.answers (w.oci.execs + 1))
    (E := fun _ _ => True) ?_ (fun result w' hQuery => ?_) (fun _ _ _ => trivial)
  · simp only [ociStmtExecute, wp_bind, wp_pass, wp_answer]
    rw [wp_ite]
    split
    · simp only [wp_bind]
      -- the cursors of parameters are opened on other handles
      have hRest : ∀ w₁ : World, w₁.params = w.params →
          (w₁.oci.stmt h).binds = (w.oci.stmt h).binds →
          (w₁.oci.stmt h).query = w.cfg.answers (w.oci.execs + 1) →
          wp ((w₁.oci.stmt h).binds.forM fun e => openBound e.2)
            (fun _ w' => (w'.oci.stmt h).query = w.cfg.answers (w.oci.execs + 1))
            (fun _ _ => True) w₁ := by
        intro w₁ hParams hBinds hQuery
        refine wp_mono (wp_openBounds_touches (n := h + 1) (T := fun place => place ≠ .cursor h)
          hParams _ fun e he p h' hp hh' _ heq => ?_) (fun _ w' hT => ?_) (fun _ _ h => h)
        · rw [hBinds] at he
          obtain rfl := Place.cursor.inj heq
          exact hApart e he p hp hh'
        · have hSame : w'.oci.stmt h = _ :=
            hT.same (.cursor h) (Nat.lt_succ_self h) fun hNot => hNot rfl
          rw [hSame]
          exact hQuery
      rw [openCursor, wp_modify, wp_get]
      refine wp_mono (hRest _ rfl ?_ ?_) (fun _ _ hQuery _ => hQuery) (fun _ _ _ => trivial)
      · simp
      · simp
    · rename_i hDone
      intro hSuccess
      rw [hSuccess] at hDone
      exact absurd rfl hDone
  · rw [wp_ite]
    split
    · rename_i hSuccess
      rw [wp_modifyStmt]
      exact hQuery hSuccess
    · exact wp_throwOnError fun _ _ => trivial

/-- `Statement::Select`. -/
theorem throws_selectWith (F : Nat) (hHandle : (w.stmts s).m_stmtHandle = some h)
    (hApart : w.CursorsApart h) : Throws w.selectFailure (Statement.selectWith s F) w := by
  rw [Statement.selectWith]
  refine throws_executePrepared.bind (wp_mono (wp_and (wp_executePrepared s)
    (wp_executePrepared_query hHandle hApart)) (fun _ _ h => h) fun _ _ _ => trivial) ?_
  rintro - we - ⟨⟨hEx, -⟩, hQuery⟩
  have hSame : (we.stmts s).m_stmtHandle = some h := by
    rw [hEx.stmts, Function.update_self]
    exact hHandle
  have hAnswers : SameAnswers w we := ⟨by rw [hEx.same], by rw [hEx.same]⟩
  rw [Throws, wp_bind, wp_get, hSame, ← hAnswers.openFailure, ← hQuery]
  refine throws_opens fun r wb hAnswers' hHandle' => ?_
  rw [← hAnswers'.fetchFailure]
  exact (throws_fetchRows hHandle').rethrow fun _ => total_releaseObj _ _

/-- `Connection::Select`. -/
theorem throws_connectionSelect (sql : TString) (F : Nat) (hCursors : w.CursorsBelow w.fresh) :
    Throws (w.prepareFailure.or w.selectFailure) (Connection.selectWith sql F) w := by
  rw [Connection.selectWith, Connection.prepare]
  refine (throws_newStatement sql).bind (wp_mono (wp_and (wp_newStatement_failure sql)
    (touches_newStatement (n := 0) (T := fun _ => True) sql (Nat.zero_le _) hCursors))
    (fun _ _ h => h) fun _ _ _ => trivial) ?_
  rintro s w₁ - ⟨⟨-, hExecs⟩, hT, -, h, hP⟩
  -- nothing is bound yet
  have hApart : w₁.CursorsApart h := by
    intro e he
    rw [hP.state] at he
    exact absurd he List.not_mem_nil
  have hAnswers : SameAnswers w w₁ := ⟨hT.outcome, hT.cfg⟩
  have hSelect : w₁.selectFailure = w.selectFailure := by
    simp only [World.selectFailure, World.executeFailure, failing_congr hT.outcome,
      hAnswers.openFailure, hExecs, hT.cfg]
  rw [← hSelect]
  refine ((throws_selectWith F hP.handle hApart).bind_total fun r => ?_).rethrow fun _ =>
    total_releaseObj _ _
  exact total_bind (total_modify _) fun _ => total_pure _

/-- `ToResultSet`, on a cursor with a handle. -/
theorem throws_toResultSet
    (hHandle : (w.params p).m_paramType = .resultSet → ∃ h, (w.params p).m_rsHandle = some h) :
    Throws (w.cursorFailure p) (Parameter.toResultSet p) w := by
  rw [Parameter.toResultSet, Throws, wp_bind, wp_get, World.cursorFailure]
  dsimp only
  rw [wp_ite]
  split
  · rename_i hKind
    obtain ⟨h, hh⟩ := hHandle hKind
    cases hCached : (w.params p).m_resultSet with
    | some r => rfl
    | none =>
      rw [hh]
      have hOpens := throws_opens (w := w) (h := h) (F := FETCH_SIZE)
        (f := fun r => modifyParam p (fun param => { param with m_resultSet := some r }) >>=
          fun _ => ResultSet.fetchRows r) fun r wb hAnswers hHandle' => ?_
      · simp only [bind_assoc] at hOpens
        exact hOpens
      · rw [Throws, wp_bind, wp_modifyParam, ← hAnswers.fetchFailure]
        exact throws_fetchRows (h := h) hHandle'
  · rw [wp_throw]

-- ---------------------------------------------------------------------------
-- Parameters
-- ---------------------------------------------------------------------------

section Bind

variable {name : TString} {type t : DataType}

/-- `setupType` finds the type, or throws. -/
theorem setupType_failure (name : TString) (type : DataType) :
    wp (Parameter.setupType p name type)
      (fun _ w' => SameAnswers w w' ∧ ∃ t, w.bindType name type = some t ∧
        (w'.params p).m_paramType = t ∧ (w'.params p).m_paramName = (w.params p).m_paramName)
      (fun e _ => w.bindType name type = none ∧ e = .oralib .badParamPrefix (some name)) w := by
  have hTaken : ∀ (w₁ : World) (as : DataType × Nat × Nat), SameAnswers w w₁ →
      (w₁.params p).m_paramName = (w.params p).m_paramName →
      Parameter.typeOf w.cfg.pointerSize type (firstChar (Parameter.bareName name)) = some as →
      wp (modifyParam p fun param => { param with
          m_paramType := as.1
          m_ociType := as.2.1
          m_size := as.2.2 })
        (fun _ w' => SameAnswers w w' ∧ ∃ t, w.bindType name type = some t ∧
          (w'.params p).m_paramType = t ∧ (w'.params p).m_paramName = (w.params p).m_paramName)
        (fun e _ => w.bindType name type = none ∧ e = .oralib .badParamPrefix (some name)) w₁ := by
    intro w₁ as hSame hName hAs
    rw [wp_modifyParam]
    refine ⟨⟨hSame.outcome, hSame.cfg⟩, as.1, ?_, ?_, ?_⟩
    · rw [World.bindType, hAs]
      rfl
    · simp
    · simpa using hName
  have hRefused : Parameter.typeOf w.cfg.pointerSize type
      (firstChar (Parameter.bareName name)) = none → w.bindType name type = none := by
    intro hNone
    rw [World.bindType, hNone]
    rfl
  rw [Parameter.setupType, wp_bind, wp_get]
  dsimp only
  rw [wp_ite]
  by_cases hArray : firstChar (if firstChar name = ':'.toNat then name.tail else name) = PP_ARRAY
  · rw [if_pos hArray, wp_bind, wp_modifyParam]
    split
    · rename_i paramType ociType size hAs
      exact hTaken _ (paramType, ociType, size) ⟨rfl, rfl⟩ (by simp) hAs
    · rename_i hNone
      exact ⟨hRefused hNone, rfl⟩
  · rw [if_neg hArray]
    split
    · rename_i paramType ociType size hAs
      exact hTaken w (paramType, ociType, size) ⟨rfl, rfl⟩ rfl hAs
    · rename_i hNone
      exact ⟨hRefused hNone, rfl⟩

/-- The calls both kinds of bind end with. -/
theorem throws_bindTail (hSame : SameAnswers w w₁) (p : Nat) (name : TString)
    (stmt error : Option Nat) (reg : Registration) :
    Throws (w.registerFailure name) (do
        let result ← ociBindByName stmt error name reg
        let result ← Parameter.setCharset result
        if result ≠ .success then throwOnError result error (some name)
        modifyParam p fun param => { param with m_stmt := some s }) w₁ := by
  rw [Throws, wp_bind]
  refine wp_mono (Q := fun result w₂ => result = w.outcome .bindByName ∧ SameAnswers w w₂)
    (E := fun _ _ => False) ?_ ?_ (fun _ _ hFalse => hFalse.elim)
  · simp only [ociBindByName, wp_bind, wp_pass, wp_answer, wp_ite, wp_get, wp_pure]
    split
    · cases stmt with
      | none => exact ⟨by rw [hSame.outcome], hSame.outcome, hSame.cfg⟩
      | some h => exact ⟨by rw [hSame.outcome], hSame.outcome, hSame.cfg⟩
    · exact ⟨by rw [hSame.outcome], hSame.outcome, hSame.cfg⟩
  · rintro result w₂ ⟨rfl, hSame₂⟩
    rw [Parameter.setCharset, wp_bind, wp_bind, wp_get, ← wp_bind, hSame₂.cfg]
    simp only [ne_eq, ite_not]
    refine throws_charset hSame₂.outcome fun _ _ => throws_checked (total_modify _) ?_
    rw [Throws, wp_bind]
    exact throws_onError

/-- `bind` of a number, a date or a text. -/
theorem throws_bindValue (hSame : SameAnswers w w₁) (hName : (w₁.params p).m_paramName = name)
    (hUnknown : (w₁.params p).m_paramType ≠ .unknown)
    (hKind : (w₁.params p).m_paramType ≠ .resultSet) :
    Throws (w.registerFailure name) (Parameter.bind p s) w₁ := by
  rw [Parameter.bind, Throws, wp_bind, wp_get]
  dsimp only
  rw [hName]
  cases hInitial : Parameter.initial w₁.cfg (w₁.params p).m_paramType with
  | none =>
    cases hType : (w₁.params p).m_paramType <;>
      simp [hType, Parameter.initial] at hInitial hKind hUnknown
  | some buffer =>
    dsimp only
    rw [wp_ite]
    split
    · rw [wp_bind, wp_pass, wp_bind, wp_modifyParam]
      refine throws_bindTail ?_ p name _ _ _
      exact ⟨hSame.outcome, hSame.cfg⟩
    · rw [wp_bind, wp_modifyParam]
      refine throws_bindTail ?_ p name _ _ _
      exact ⟨hSame.outcome, hSame.cfg⟩

/-- `bindResultSet`. -/
theorem throws_bindResultSet (hSame : SameAnswers w w₁)
    (hName : (w₁.params p).m_paramName = name) :
    Throws ((w.failing (.handleAlloc .stmt) none).or (w.registerFailure name))
      (Parameter.bindResultSet p s) w₁ := by
  rw [Parameter.bindResultSet, Throws, wp_bind, wp_get, ← failing_congr hSame.outcome]
  dsimp only
  rw [hName, wp_bind]
  refine wp_allocStmt (fun hFailed => ?_) (fun hSuccess => ?_)
  · rw [wp_bind, wp_orThrow, if_neg hFailed, failing_failed hFailed, Option.some_or]
    exact wp_throwOnEnv fun _ _ => rfl
  · rw [OciResult.orThrow, if_pos rfl, failing_success hSuccess, Option.none_or]
    have hSame₂ : SameAnswers w (setRsHandle p w₁.fresh (w₁.allocated w₁.conn.m_envHandle)) :=
      ⟨hSame.outcome, hSame.cfg⟩
    have hTail := throws_bindTail (s := s) hSame₂ p name (w₁.stmts s).m_stmtHandle
      w₁.conn.m_errorHandle { valuep := .rsHandle p, indp := none, alenp := none }
    simp only [Throws, bind_assoc] at hTail ⊢
    exact hTail

/-- `attach`. -/
theorem throws_attachParameter :
    Throws (w.bindFailure name type) (Parameter.attach p s name type) w := by
  rw [Parameter.attach, Throws, wp_bind, wp_modifyParam, wp_bind]
  refine wp_mono (setupType_failure name type) ?_ ?_
  · rintro _ w₂ ⟨hSame, t, hType, hKind, hName⟩
    have hName : (w₂.params p).m_paramName = name := hName.trans (by simp)
    have hType : w.bindType name type = some t := hType
    have hKnown := bindType_ne_unknown hType
    rw [wp_bind, wp_modifyParam, wp_bind, wp_get, wp_ite, World.bindFailure, hType]
    simp only [Function.update_self]
    split
    · rename_i hCursor
      obtain rfl : t = .resultSet := hKind.symm.trans hCursor
      exact throws_bindResultSet ⟨hSame.outcome, hSame.cfg⟩ (by simpa using hName)
    · rename_i hOther
      have hValue : Throws (w.registerFailure name) (Parameter.bind p s)
          { w₂ with params := Function.update w₂.params p { w₂.params p with
            m_indicator := ORADATA_NULL
            m_dataLen := 0
            m_fetchBuffer := none
            m_stmt := none
            m_rsHandle := none
            m_resultSet := none } } := by
        refine throws_bindValue ⟨hSame.outcome, hSame.cfg⟩ (by simpa using hName) ?_ ?_
        · simpa [hKind] using hKnown
        · simpa using hOther
      rw [hKind] at hOther
      cases t with
      | unknown => exact absurd rfl hKnown
      | resultSet => exact absurd rfl hOther
      | number => exact hValue
      | date => exact hValue
      | text => exact hValue
  · rintro e _ ⟨hNone, rfl⟩
    have hNone : w.bindType name type = none := hNone
    rw [World.bindFailure, hNone]

/-- **The constructor of a parameter.** -/
theorem throws_newParameter :
    Throws (w.bindFailure name type) (Parameter.new s name type) w := by
  rw [Parameter.new, Throws, wp_bind, wp_acquire, wp_bind, wp_modifyParam]
  refine (throws_constructing rfl ?_).bind_total fun _ => total_pure _
  exact throws_attachParameter

/-- `Statement::Bind`. -/
theorem throws_statementBind :
    Throws (w.bindFailure name type) (Statement.bind s name type) w :=
  throws_newParameter.bind_total fun _ => total_get_bind fun _ =>
    total_bind (total_modify _) fun _ => total_pure _

end Bind

-- ---------------------------------------------------------------------------
-- Calls on the value of a parameter
-- ---------------------------------------------------------------------------

section Values

variable {α : Type} {type : DataType} {o : Option OraError}

theorem throws_convert (f : Except OciResult α) : Throws (conversionFailure f) (convert f) w := by
  rw [convert, Throws, wp_bind, wp_get, wp_bind, wp_pass]
  cases f with
  | ok a => rfl
  | error result => exact wp_throwOnError fun _ _ => rfl

theorem throws_assignNumber (converted : Except OciResult OciNumber) :
    Throws (w.inputFailure p .number (conversionFailure converted))
      (Parameter.assignNumber p converted) w := by
  rw [Parameter.assignNumber, Throws, wp_bind, wp_get]
  refine throws_guard fun _ => (throws_convert converted).bind_total fun number => ?_
  exact total_bind (total_modify _) fun _ => total_modify _

/-- A reader that makes the check of `Parameter.output`. -/
theorem throws_output {f : (Nat → Nat) → M α}
    (hRead : Throws o (f ((w.params p).m_fetchBuffer.getD fun _ => 0)) w) :
    Throws (w.outputFailure p type o) (Parameter.output type p f) w := by
  rw [Parameter.output, Throws, wp_bind, wp_get]
  exact throws_guard fun _ => hRead

/-- **A call on the value of a parameter.** -/
theorem throws_registerCall (l : RegisterCall) : Throws (w.valueFailure p l) (l.exec p) w := by
  cases l with
  | assignText text =>
    rw [RegisterCall.exec, Parameter.assignText, Throws, wp_bind, wp_get, World.valueFailure]
    dsimp only
    rw [wp_ite]
    split
    · rfl
    · refine throws_guard fun _ => Total.throws ?_ w
      exact total_bind (total_modify _) fun _ => total_bind (total_modify _) fun _ => total_modify _
  | assignReal value => exact throws_assignNumber _
  | assignInt value => exact throws_assignNumber _
  | assignDate dateTime =>
    rw [RegisterCall.exec, Parameter.assignDateTime, Parameter.assignDate, Throws, wp_bind, wp_get]
    exact throws_guard fun _ => (total_bind (total_modify _) fun _ => total_modify _).throws w
  | toNull => exact (total_modify _).throws w
  | isNull => rfl
  | toString =>
    refine Throws.bind_total ?_ fun _ => total_pure ()
    rw [Parameter.toString, Throws, wp_bind, wp_get]
    exact throws_guard fun _ => (total_pure _).throws w
  | toDouble =>
    refine Throws.bind_total ?_ fun _ => total_pure ()
    rw [Parameter.toDouble, Throws, wp_bind, wp_get]
    exact throws_output (f := fun buf => convert (w.cfg.numberToReal (numberAt buf)))
      (throws_convert _)
  | toLong =>
    refine Throws.bind_total ?_ fun _ => total_pure ()
    rw [Parameter.toLong, Throws, wp_bind, wp_get]
    exact throws_output (f := fun buf => convert (w.cfg.numberToInt (numberAt buf)))
      (throws_convert _)
  | toDateTime =>
    refine Throws.bind_total ?_ fun _ => total_pure ()
    exact throws_output (f := fun buf => pure (DateTime.ofOciDate (dateAt buf)))
      ((total_pure _).throws w)

end Values

-- ---------------------------------------------------------------------------
-- Every call
-- ---------------------------------------------------------------------------

/-- A held statement executes on a handle of its own. -/
theorem Placed.cursorsApart (hP : Placed w held) (hs : ⟨.statement, s⟩ ∈ held)
    (hh : (w.stmts s).m_stmtHandle = some h) : w.CursorsApart h := by
  intro e he p hAddr hCursor
  rcases (hP.cursors s hs h hh e he p hAddr).2 with hp | hNone
  · exact hP.sound.rsHandle_ne hs hp hh hCursor
  · rw [hNone] at hCursor
    cases hCursor

/-- **One call** on objects that are ready throws its error, or returns. -/
theorem throws_call (hO : InOrder w held) {l : SessionCall} (hPermits : App.Permits ⟨w, held⟩ l) :
    Throws (w.failure l) l.run w := by
  have hCursors := hO.placed.sound.cursors
  have hSome : ∀ {o : Option OraError} {m : M Nat} (f : Nat → Option Res), Throws o m w →
      Throws o (m >>= fun id => pure (f id)) w := fun f h => h.bind_total fun _ => total_pure _
  have hUnit : ∀ {o : Option OraError} {α : Type} {m : M α}, Throws o m w →
      Throws o (m >>= fun _ => pure none : M (Option Res)) w := fun h =>
    h.bind_total fun _ => total_pure _
  have hStmt : ∀ s, (⟨.statement, s⟩ : Res) ∈ held → w.StmtReady s := fun s hs => hO.ready _ hs
  cases l with
  | call l =>
    cases l with
    | execute sql => exact hUnit (throws_execute sql hCursors)
    | prepare sql => exact hSome _ (throws_newStatement sql)
    | select sql F => exact hSome _ (throws_connectionSelect sql F hCursors)
    | bind s name type => exact hUnit (m := Statement.bind s name type) throws_statementBind
    | stmtExecute s => exact hUnit throws_executePrepared
    | stmtSelect s F =>
      obtain ⟨h, hh⟩ := (hStmt s (hPermits _ rfl)).handle
      exact hSome _ (throws_selectWith F hh (hO.placed.cursorsApart (hPermits _ rfl) hh))
    | next r =>
      obtain ⟨⟨h, hh⟩, -, -, -⟩ := (hO.ready ⟨.resultSet, r⟩ (hPermits _ rfl)).1
      exact hUnit (throws_next hh)
    | release x => exact hUnit ((total_releaseObj graphDepth x).throws w)
  | register s p l => exact hUnit (throws_registerCall l)
  | toResultSet s p =>
    exact hUnit (throws_toResultSet ((hStmt s hPermits.1).parameters p hPermits.2).handle)
  | cursorNext s p =>
    refine hUnit ?_
    rw [Parameter.cursorNext, Throws, wp_bind, wp_get]
    have hFailure : w.failure (.cursorNext s p) = (w.params p).m_resultSet.bind w.nextFailure := rfl
    rw [hFailure]
    cases hCached : (w.params p).m_resultSet with
    | none => rfl
    | some r =>
      have hParam := (hStmt s hPermits.1).parameters p hPermits.2
      obtain ⟨⟨⟨h, hh⟩, -, -, -⟩, -⟩ := hParam.cursor r hCached
      exact (throws_next hh).bind_total fun _ => total_pure ()

/-- **Every call of a session throws exactly its error.** A connection was opened
and closed any number of times before; then the application makes any calls of a
session, with any answers of OCI, catching what they throw. What each call throws
is `World.failure`: the error of the first of its calls to OCI that fails, of the
first column of a type that is not supported, or of the check the call begins with;
it returns if and only if there is none. `OCIStmtFetch` fails when it answers none of
`OCI_SUCCESS`, `OCI_NO_DATA` and `OCI_SUCCESS_WITH_INFO`; of the other calls, those
whose results are looked at fail when they do not answer `OCI_SUCCESS`. It does not
matter what was called before, what was thrown, or which objects were made on the
same handle. -/
theorem session_failures_exact (cfg : Setting) (before : List ConnCall) (calls : List Served) :
    AllSteps App.serve (fun a l => a.Permits l.1 →
      thrown? l.1.run (a.w.answering l.2) = (a.w.answering l.2).failure l.1)
      (.opened cfg before) calls := by
  refine allSteps_of_invariant (I := fun a : App => InOrder a.w a.held) (fun _ l h => h.serve l)
    ?_ (inOrder_opened cfg before) calls
  intro a l h hPermits
  exact (throws_call (h.answering l.2) hPermits).thrown_eq

/-- A `Select` throws at the second column, whose type is not supported; the first
column cannot be defined, but that is not reached. -/
example : ((World.start (.serving unsupportedColumn)).answering
    (failing fun call => call == .defineByPos 1 || call == .descriptorFree 2)).failure
      (.call (.select (tstr "select") FETCH_SIZE)) =
    some (.oralib .unsupOraType (some (tstr "DOC"))) := by decide

end Epol
