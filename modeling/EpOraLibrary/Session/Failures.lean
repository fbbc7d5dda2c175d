import EpOraLibrary.Cursor.Constructing
import EpOraLibrary.Session.Ready

/-!
# EpOraLibrary — what a call throws

A call of the library throws at the first of its calls to OCI that fails, at the
first column of a type it does not support, or where the parameter is not of the
type of the call. `OCI_SUCCESS` is what every call to OCI is asked for, but
`OCIStmtFetch` may also answer `OCI_NO_DATA` or `OCI_SUCCESS_WITH_INFO`, and the
results of `OCINumberSetZero`, `OCIDateSysDate`, `OCIErrorGet` and of the calls
that free a handle or a descriptor are not looked at. `World.failure` is, for each
call of a session, the error with its code and the text it is thrown with.

* `World.failure` — the error of a call, read off the state before it.
* `throws_newStatement`, `throws_newResultSet` — the constructors of statements
  and result sets, with the two loops of the latter.
* `throws_fetchRows`, `throws_next` — the fetch of a block, and `Next`.
-/

namespace Epol

open Ledger Prog Runs

variable {w w' w₁ : World} {s r h i F : Nat} {ids : List Nat}

-- ---------------------------------------------------------------------------
-- The errors of a call
-- ---------------------------------------------------------------------------

/-- What is thrown at a result that is not `OCI_SUCCESS`. -/
def OciResult.failure (result : OciResult) (format : Option TString) : Option OraError :=
  if result = .success then none else some (.oracle result format)

/-- What is thrown at a call to OCI that has to answer `OCI_SUCCESS`. -/
def World.failing (w : World) (call : OciCall) (format : Option TString) : Option OraError :=
  (w.outcome call).failure format

/-- `Statement::prepare`. -/
def World.prepareFailure (w : World) : Option OraError :=
  (w.failing (.handleAlloc .stmt) none).or
    ((w.failing .stmtPrepare none).or (w.failing (.attrGet .stmtType 0) none))

/-- `Statement::executePrepared`. -/
def World.executeFailure (w : World) : Option OraError := w.failing .stmtExecute none

/-- How column `i` of the query is fetched. -/
def World.columnType (w : World) (q : Query) (i : Nat) : Option (Nat × DataType × Nat) :=
  let desc := q.desc.getD i default
  Column.typeOf w.cfg.tcharSize (desc.ociType % 2 ^ 16) (desc.size % 2 ^ 16)

/-- What column `i` of the query is called by the library. -/
def World.columnName (w : World) (q : Query) (i : Nat) : TString :=
  (q.desc.getD i default).nameRead (w.outcome (.descriptorFree (i + 1)))

/-- The descriptor of column `i` is read, a turn of `ResultSet::describe`. -/
def World.readFailure (w : World) (i : Nat) : Option OraError :=
  (w.failing (.paramGet (i + 1)) none).or
    (describedAttrs.findSome? fun attr => w.failing (.attrGet attr (i + 1)) none)

/-- A turn of `ResultSet::describe`. -/
def World.describeFailure (w : World) (q : Query) (i : Nat) : Option OraError :=
  (w.readFailure i).or
    (if (w.columnType q i).isSome then none
    else some (.oralib .unsupOraType (some (w.columnName q i))))

/-- A turn of `ResultSet::define`. -/
def World.defineFailure (w : World) (q : Query) (i : Nat) : Option OraError :=
  (w.failing (.defineByPos (i + 1)) (some (w.columnName q i))).or
    (if w.cfg.unicode = true ∧ (w.columnType q i).map (·.2.1) = some .text then
      w.failing (.attrSet .charsetId (i + 1)) (some (w.columnName q i))
    else none)

/-- The constructor of a `ResultSet` for the query: all columns are described
before the first is defined. -/
def World.resultSetFailure (w : World) (q : Query) : Option OraError :=
  ((w.failing (.attrGet .paramCount 0) none).or
      ((List.range q.desc.length).findSome? (w.describeFailure q))).or
    ((List.range q.desc.length).findSome? (w.defineFailure q))

/-- `ResultSet::fetchRows`, which takes `OCI_NO_DATA` and `OCI_SUCCESS_WITH_INFO`
of `OCIStmtFetch` as well. -/
def World.fetchFailure (w : World) : Option OraError :=
  (if fetchOk (w.outcome .stmtFetch) then none
    else some (.oracle (w.outcome .stmtFetch) none)).or (w.failing (.attrGet .rowCount 0) none)

/-- `ResultSet::Next`. -/
def World.nextFailure (w : World) (r : Nat) : Option OraError :=
  if (w.rsets r).Refills then w.fetchFailure else none

/-- A result set is built for the query, and its first block fetched. -/
def World.openFailure (w : World) (q : Query) : Option OraError :=
  (w.resultSetFailure q).or w.fetchFailure

/-- `Statement::Select`, of the query of the next execution. -/
def World.selectFailure (w : World) : Option OraError :=
  w.executeFailure.or (w.openFailure (w.cfg.answers (w.oci.execs + 1)))

/-- The calls to OCI both kinds of bind end with. -/
def World.registerFailure (w : World) (name : TString) : Option OraError :=
  (w.failing .bindByName (some name)).or
    (if w.cfg.unicode = true then w.failing (.attrSet .charsetId 0) (some name) else none)

/-- `Statement::Bind`. -/
def World.bindFailure (w : World) (name : TString) (type : DataType) : Option OraError :=
  match w.bindType name type with
  | none => some (.oralib .badParamPrefix (some name))
  | some .resultSet => (w.failing (.handleAlloc .stmt) none).or (w.registerFailure name)
  | some _ => w.registerFailure name

/-- The conversion of a number. -/
def conversionFailure {α : Type} : Except OciResult α → Option OraError
  | .ok _ => none
  | .error result => some (.oracle result none)

/-- An assignment to a parameter that has to be of type `type`. -/
def World.inputFailure (w : World) (p : Nat) (type : DataType) (rest : Option OraError) :
    Option OraError :=
  if (w.params p).m_paramType = type then rest else some (.oralib .badInputType none)

/-- A reader of a parameter that has to be of type `type`, and not NULL. -/
def World.outputFailure (w : World) (p : Nat) (type : DataType) (rest : Option OraError) :
    Option OraError :=
  if (w.params p).m_paramType = type ∧ (w.params p).m_indicator ≠ ORADATA_NULL then rest
  else some (.oralib .badOutputType none)

/-- The number the buffer of the parameter `p` holds. -/
def World.numberOf (w : World) (p : Nat) : OciNumber :=
  numberAt ((w.params p).m_fetchBuffer.getD fun _ => 0)

/-- A call on the value of the parameter `p`. -/
def World.valueFailure (w : World) (p : Nat) : RegisterCall → Option OraError
  | .assignText text => if text.length = 0 then none else w.inputFailure p .text none
  | .assignReal value => w.inputFailure p .number (conversionFailure (w.cfg.numberFromReal value))
  | .assignInt value => w.inputFailure p .number (conversionFailure (w.cfg.numberFromInt value))
  | .assignDate _ => w.inputFailure p .date none
  | .toNull => none
  | .isNull => none
  | .toString => w.outputFailure p .text none
  | .toDouble => w.outputFailure p .number (conversionFailure (w.cfg.numberToReal (w.numberOf p)))
  | .toLong => w.outputFailure p .number (conversionFailure (w.cfg.numberToInt (w.numberOf p)))
  | .toDateTime => w.outputFailure p .date none

/-- `Parameter::ToResultSet`: the result set made first is returned again. -/
def World.cursorFailure (w : World) (p : Nat) : Option OraError :=
  if (w.params p).m_paramType = .resultSet then
    match (w.params p).m_resultSet, (w.params p).m_rsHandle with
    | none, some h => w.openFailure (w.oci.stmt h).query
    | _, _ => none
  else some (.oralib .badOutputType none)

/-- **The error of a call**, or `none` if it returns. -/
def World.failure (w : World) : SessionCall → Option OraError
  | .call (.execute _) => w.prepareFailure.or w.executeFailure
  | .call (.prepare _) => w.prepareFailure
  | .call (.select _ _) => w.prepareFailure.or w.selectFailure
  | .call (.bind _ name type) => w.bindFailure name type
  | .call (.stmtExecute _) => w.executeFailure
  | .call (.stmtSelect _ _) => w.selectFailure
  | .call (.next r) => w.nextFailure r
  | .call (.release _) => none
  | .register _ p l => w.valueFailure p l
  | .toResultSet _ p => w.cursorFailure p
  | .cursorNext _ p => (w.params p).m_resultSet.bind w.nextFailure

section Failing

variable {call : OciCall} {format : Option TString}

theorem failing_success (h : w.outcome call = .success) : w.failing call format = none := if_pos h

theorem failing_failed (h : w.outcome call ≠ .success) :
    w.failing call format = some (.oracle (w.outcome call) format) := if_neg h

/-- It depends on the outcomes only. -/
theorem failing_congr (hOutcome : w'.outcome = w.outcome) :
    w'.failing call format = w.failing call format := by
  rw [World.failing, World.failing, hOutcome]

/-- **A result is checked**: the program goes on where it is `OCI_SUCCESS`, and
throws otherwise. -/
theorem throws_checked {α : Type} {m throwing : M α} (hDone : Total m)
    (hThrows : Throws (some (.oracle (w.outcome call) format)) throwing w₁) :
    Throws (w.failing call format) (if w.outcome call = .success then m else throwing) w₁ := by
  split
  · rename_i hSuccess
    rw [failing_success hSuccess]
    exact hDone.throws w₁
  · rename_i hFailed
    rw [failing_failed hFailed]
    exact hThrows

theorem throws_onError {α : Type} {result : OciResult} {error : Option Nat} :
    Throws (some (.oracle result format)) (throwOnError result error format : M α) w :=
  wp_throwOnError fun _ _ => rfl

/-- The character set is set after a call that succeeded, and the last result
checked by `rest`. -/
theorem throws_charset {c : Prop} [Decidable c] {pos : Nat} {handles : List Res}
    {rest : OciResult → M Unit} (hOutcome : w₁.outcome = w.outcome)
    (hRest : ∀ call w₂, Throws (w.failing call format) (rest (w.outcome call)) w₂) :
    Throws ((w.failing call format).or
        (if c then w.failing (.attrSet .charsetId pos) format else none))
      ((if c then (w.outcome call).andThen (ociAttrSet .charsetId pos handles)
        else pure (w.outcome call)) >>= rest) w₁ := by
  rw [Throws, wp_bind, wp_ite]
  split
  · rw [wp_andThen]
    split
    · rename_i hSuccess
      rw [failing_success hSuccess, Option.none_or, ociAttrSet, wp_bind, wp_pass, wp_answer]
      dsimp only
      rw [hOutcome]
      exact hRest _ _
    · rename_i hFailed
      have hThrown := hRest call w₁
      rw [failing_failed hFailed] at hThrown ⊢
      exact hThrown
  · rw [Option.or_none, wp_pure]
    exact hRest call w₁

end Failing

-- ---------------------------------------------------------------------------
-- Releases
-- ---------------------------------------------------------------------------

/-- A release does not throw. -/
theorem total_releaseObj (depth : Nat) (x : Res) : Total (releaseObj depth x) := by
  have hFree : ∀ handle, Total (freeStmtHandle handle) := by
    intro handle
    cases handle with
    | none => exact total_pure ()
    | some h => exact fun _ => trivial
  induction depth generalizing x with
  | zero => exact total_pure ()
  | succ depth ih =>
    have hIf : ∀ kind object, Total (releaseIf (releaseObj depth) kind object) := by
      intro kind object
      cases object with
      | none => exact total_pure ()
      | some o => exact ih _
    have hLast : ∀ {cleanUp : M Unit}, Total cleanUp →
        Total (cleanUp >>= fun _ => release x true) := fun hCleanUp =>
      total_bind hCleanUp fun _ => total_modify _
    obtain ⟨kind, id⟩ := x
    cases kind with
    | resultSet =>
      refine hLast (total_get_bind fun w => ?_)
      refine total_bind (total_forM (fun c => ih _) _) fun _ => ?_
      refine total_bind (total_modify _) fun _ => ?_
      exact total_bind (hIf _ _) fun _ => total_modify _
    | statement =>
      refine hLast (total_get_bind fun w => ?_)
      refine total_bind (hFree _) fun _ => total_bind (total_modify _) fun _ => ?_
      exact total_bind (total_forM (fun p => ih _) _) fun _ => total_modify _
    | parameter =>
      refine hLast (total_get_bind fun w => ?_)
      refine total_bind (hIf _ _) fun _ => total_bind (total_modify _) fun _ => ?_
      exact total_bind (hFree _) fun _ => total_modify _
    | column => exact hLast (total_modify _)
    | _ => exact hLast (total_pure ())

/-- A constructor throws what attaching the object throws. -/
theorem throws_constructing {o : Option OraError} {x : Res} {attach cleanUp : M Unit}
    (hClean : (cleanUp >>= fun _ => release x true) = releaseObj (1 + 5) x)
    (hAttach : Throws o attach w) : Throws o (constructing x attach cleanUp) w := by
  have hEq : constructing x attach cleanUp =
      tryCatch attach fun e => (cleanUp >>= fun _ => release x true) >>= fun _ => throw e := by
    simp only [constructing, bind_assoc]
  rw [hEq]
  refine hAttach.rethrow fun e => ?_
  rw [hClean]
  exact total_releaseObj _ x

-- ---------------------------------------------------------------------------
-- Statements
-- ---------------------------------------------------------------------------

/-- `prepare`, which opens no cursor. -/
theorem wp_prepare_failure (sql : TString) :
    wp (Statement.prepare s sql) (fun _ w' => w.prepareFailure = none ∧ w'.oci.execs = w.oci.execs)
      (fun e _ => w.prepareFailure = some e) w := by
  rw [Statement.prepare, wp_bind, wp_get, wp_bind]
  refine wp_allocStmt (fun hFailed => ?_) (fun hAlloc => ?_)
  · rw [wp_bind, wp_get, wp_bind, wp_orThrow, if_neg hFailed]
    refine wp_throwOnEnv fun _ _ => ?_
    rw [World.prepareFailure, failing_failed hFailed, Option.some_or]
  · rw [wp_bind, wp_get, wp_bind, wp_orThrow, if_pos rfl, ociStmtPrepare, wp_bind, wp_pass,
      wp_answer, wp_bind, wp_andThen, World.prepareFailure, failing_success hAlloc, Option.none_or]
    split
    · rename_i hPrepare
      have hPrepared : w.failing .stmtPrepare none = none := failing_success hPrepare
      rw [wp_bind, ociStmtAttrGet, wp_bind, wp_pass, wp_answer, wp_bind, wp_modifyStmt, wp_pure,
        wp_ite, hPrepared, Option.none_or]
      split
      · rename_i hType
        exact ⟨failing_success hType, rfl⟩
      · rename_i hFailed
        exact wp_throwOnError fun _ _ => failing_failed hFailed
    · rename_i hFailed
      have hThrown : w.failing .stmtPrepare none = some (.oracle (w.outcome .stmtPrepare) none) :=
        failing_failed hFailed
      rw [hThrown, Option.some_or]
      exact wp_throwOnError fun _ _ => rfl

/-- **The constructor of a statement.** -/
theorem wp_newStatement_failure (sql : TString) :
    wp (Statement.new sql) (fun _ w' => w.prepareFailure = none ∧ w'.oci.execs = w.oci.execs)
      (fun e _ => w.prepareFailure = some e) w := by
  rw [Statement.new, wp_bind, wp_acquire, wp_bind, wp_modifyStmt, wp_bind, constructing,
    wp_tryCatch]
  refine wp_mono (wp_prepare_failure sql) (fun _ _ h => h) fun e w' hThrown => ?_
  rw [← bind_assoc, wp_bind]
  exact wp_mono (total_releaseObj (1 + 5) ⟨.statement, w.fresh⟩ w') (fun _ _ _ => hThrown)
    fun _ _ hFalse => hFalse.elim

theorem throws_newStatement (sql : TString) : Throws w.prepareFailure (Statement.new sql) w :=
  wp_mono (wp_newStatement_failure sql) (fun _ _ h => h.1) fun _ _ hThrown => hThrown

/-- `executePrepared`. -/
theorem throws_executePrepared : Throws w.executeFailure (Statement.executePrepared s) w := by
  rw [Statement.executePrepared, Throws, wp_bind, wp_get, wp_bind]
  have hResult : wp (ociStmtExecute w.conn.m_svcContextHandle (w.stmts s).m_stmtHandle
      w.conn.m_errorHandle) (fun result _ => result = w.outcome .stmtExecute) (fun _ _ => False)
      w := by
    simp only [ociStmtExecute, wp_bind, wp_pass, wp_answer]
    rw [wp_ite]
    split
    · cases (w.stmts s).m_stmtHandle with
      | none => rfl
      | some h =>
        dsimp only
        rw [wp_bind]
        refine wp_mono (wp_openCursor h) (fun _ w₁ _ => ?_) (fun _ _ hFalse => hFalse)
        rw [wp_bind, wp_get, wp_bind]
        exact wp_mono (wp_openBounds _) (fun _ _ _ => rfl) (fun _ _ hFalse => hFalse)
    · rfl
  refine wp_mono hResult ?_ (fun _ _ hFalse => hFalse.elim)
  rintro result w₁ rfl
  exact throws_checked (total_modify _) throws_onError

/-- `Connection::Execute`. -/
theorem throws_execute (sql : TString) (hCursors : w.CursorsBelow w.fresh) :
    Throws (w.prepareFailure.or w.executeFailure) (Connection.execute sql) w := by
  rw [Connection.execute]
  refine (throws_newStatement sql).bind (wp_mono (touches_newStatement (n := 0)
    (T := fun _ => True) sql (Nat.zero_le _) hCursors) (fun _ _ h => h) fun _ _ _ => trivial) ?_
  rintro s w₁ - ⟨hT, -⟩
  have hFailure : w₁.executeFailure = w.executeFailure := failing_congr hT.outcome
  rw [← hFailure]
  exact (throws_executePrepared.rethrow fun _ => total_releaseObj _ _).bind_total fun _ =>
    total_releaseObj _ _

-- ---------------------------------------------------------------------------
-- Result sets
-- ---------------------------------------------------------------------------

/-- The errors of a result set are of the outcomes and of the build only. -/
structure SameAnswers (w w' : World) : Prop where
  outcome : w'.outcome = w.outcome
  cfg     : w'.cfg = w.cfg

theorem SameAnswers.columnType (h : SameAnswers w w') (q : Query) (i : Nat) :
    w'.columnType q i = w.columnType q i := by
  rw [World.columnType, World.columnType, h.cfg]

theorem SameAnswers.columnName (h : SameAnswers w w') (q : Query) (i : Nat) :
    w'.columnName q i = w.columnName q i := by
  rw [World.columnName, World.columnName, h.outcome]

theorem SameAnswers.describeFailure (h : SameAnswers w w') (q : Query) :
    w'.describeFailure q = w.describeFailure q := by
  funext i
  simp only [World.describeFailure, World.readFailure, h.columnType, h.columnName, World.failing,
    h.outcome]

theorem SameAnswers.fetchFailure (h : SameAnswers w w') : w'.fetchFailure = w.fetchFailure := by
  rw [World.fetchFailure, World.fetchFailure, World.failing, World.failing, h.outcome]

theorem SameAnswers.openFailure (h : SameAnswers w w') (q : Query) :
    w'.openFailure q = w.openFailure q := by
  have hDefine : w'.defineFailure q = w.defineFailure q := by
    funext i
    simp only [World.defineFailure, h.columnType, h.columnName, h.cfg, World.failing, h.outcome]
  simp only [World.openFailure, World.resultSetFailure, h.describeFailure, hDefine, h.fetchFailure,
    World.failing, h.outcome]

theorem Building.sameAnswers (hB : Building w w₁ r (some h) F ids) : SameAnswers w w₁ :=
  ⟨hB.apart.outcome, hB.apart.cfg⟩

/-- The three attributes of a descriptor. -/
theorem readAttrs_failure (result : OciResult) (param error : Option Nat) (pos : Nat) :
    wp (ResultSet.readAttrs result param error pos)
      (fun result' _ => result'.failure none = (result.failure none).or
        (describedAttrs.findSome? fun attr => w.failing (.attrGet attr pos) none))
      (fun _ _ => False) w := by
  simp only [ResultSet.readAttrs, ociParamAttrGet, wp_bind, wp_andThen, wp_pass, wp_answer,
    describedAttrs, List.findSome?_cons, List.findSome?_nil, World.failing, OciResult.failure]
  repeat' split
  all_goals simp_all

/-- A turn of `describe` reads a descriptor. -/
theorem readParam_failure (handle error : Option Nat) :
    wp (ResultSet.readParam handle error i) (fun out _ => out.1.failure none = w.readFailure i)
      (fun _ _ => False) w := by
  rw [ResultSet.readParam, wp_bind]
  simp only [ociParamGet, wp_bind, wp_pass, wp_answer, wp_ite, wp_acquire, wp_pure]
  split
  · refine wp_mono (readAttrs_failure _ _ _ _) (fun result w' hFailure => ?_)
      (fun _ _ hFalse => hFalse)
    simp only [ociDescriptorFree, wp_bind, wp_pass, wp_answer, wp_release, wp_pure]
    exact hFailure
  · exact wp_mono (readAttrs_failure _ _ _ _) (fun _ _ hFailure => hFailure)
      (fun _ _ hFalse => hFalse)

/-- A column is made for a supported type. -/
theorem throws_newColumn {name : TString} {ociDataType maxDataSize fetchSize : Nat} :
    Throws (if (Column.typeOf w.cfg.tcharSize ociDataType maxDataSize).isSome then none
        else some (.oralib .unsupOraType (some name)))
      (Column.new r name ociDataType maxDataSize fetchSize) w := by
  rw [Column.new, Throws, wp_bind, wp_acquire, wp_bind, wp_get]
  dsimp only
  split
  · rename_i hType
    rw [wp_bind, wp_modifyCol, wp_pure, hType]
    rfl
  · rename_i hType
    rw [wp_bind, wp_release, wp_throw, hType]
    rfl

/-- **One turn of `describe`.** -/
theorem throws_describeColumn (hHandle : (w.rsets r).m_rsHandle = some h) :
    Throws (w.describeFailure (w.oci.stmt h).query i) (ResultSet.describeColumn r i) w := by
  rw [ResultSet.describeColumn, Throws, wp_bind, wp_get, wp_bind]
  refine wp_mono (wp_and (readParam_failure _ _) (wp_readParam _ _ i w)) ?_
    (fun _ _ hFalse => hFalse.1.elim)
  rintro ⟨result, freed⟩ w₂ ⟨hFailure, hq, hFreed⟩
  have hCfg : w₂.cfg = w.cfg := by rw [hq.same]
  simp only [wp_bind, wp_ite, World.describeFailure, ← hFailure]
  split
  · rename_i hFailed
    refine wp_throwOnError fun _ _ => ?_
    rw [OciResult.failure, if_neg hFailed, Option.some_or]
  · rename_i hSuccess
    have hSuccess : result = .success := Classical.not_not.mp hSuccess
    rw [OciResult.failure, if_pos hSuccess, Option.none_or, hHandle]
    have hName : (w.describes (some h) i).nameRead freed =
        w.columnName (w.oci.stmt h).query i := by
      rw [show freed = w.outcome (.descriptorFree (i + 1)) from hFreed hSuccess]
      rfl
    have hType : (w.columnType (w.oci.stmt h).query i) = Column.typeOf w.cfg.tcharSize
        ((w.describes (some h) i).ociType % 2 ^ 16) ((w.describes (some h) i).size % 2 ^ 16) := rfl
    rw [hType, ← hName, ← hCfg]
    exact wp_mono throws_newColumn (fun col w₃ hNone => hNone) fun e w₃ hSome => hSome

/-- The number of columns. -/
theorem throws_columnsCount :
    Throws (w.failing (.attrGet .paramCount 0) none) (ResultSet.columnsCount r) w := by
  simp only [Throws, ResultSet.columnsCount, ociParamCount, ociStmtAttrGet, wp_bind, wp_get,
    wp_pass, wp_answer]
  cases (w.rsets r).m_rsHandle with
  | none => exact throws_checked (total_pure _) throws_onError
  | some h => exact throws_checked (total_pure _) throws_onError

/-- `describe`. -/
theorem throws_describe (hB : Building w w₁ r (some h) F []) :
    Throws ((w.failing (.attrGet .paramCount 0) none).or
        ((List.range (w.oci.stmt h).query.desc.length).findSome?
          (w.describeFailure (w.oci.stmt h).query))) (ResultSet.describe r) w₁ := by
  have hQuery : (w₁.oci.stmt h).query = (w.oci.stmt h).query := by rw [hB.apart.stmt]
  rw [ResultSet.describe, ← failing_congr hB.apart.outcome]
  refine throws_columnsCount.bind (wp_mono (wp_columnsCount hB.rset.handle) (fun _ _ hq => hq)
    fun _ _ _ => trivial) ?_
  rintro count w₂ - ⟨hq, hCount⟩
  obtain rfl : count = (w.oci.stmt h).query.desc.length := by
    rw [← hQuery]
    exact hCount h rfl
  -- the turns so far have made one column each
  refine (throws_forM (fun done w₃ =>
    ∃ ids : List Nat, ids.length = done.length ∧ Building w w₃ r (some h) F ids) _ ?_
    ⟨[], rfl, hB.quiet hq⟩).bind_total fun _ => total_modify _
  rintro done i rest w₃ hSplit ⟨ids, hDone, hB₃⟩
  obtain ⟨hTurn, -⟩ := range_split hSplit
  refine ⟨wp_mono (wp_describeColumn hB₃ (hTurn.trans hDone.symm)) ?_ fun _ _ _ => trivial, ?_⟩
  · rintro _ w₄ ⟨id, hB₄⟩
    exact ⟨ids ++ [id], by simp [hDone], hB₄⟩
  · have hQuery₃ : (w₃.oci.stmt h).query = (w.oci.stmt h).query := by rw [hB₃.apart.stmt]
    rw [← hB₃.sameAnswers.describeFailure, ← hQuery₃]
    exact throws_describeColumn hB₃.rset.handle

/-- **One turn of `define`.** -/
theorem throws_defineColumn (hB : Building w w₁ r (some h) F ids) (hi : i < ids.length) :
    Throws (w.defineFailure (w.oci.stmt h).query i) (ResultSet.defineColumn r ids[i] (i + 1))
      w₁ := by
  obtain ⟨freed, as, hType, hCol⟩ := hB.isFor h rfl i hi
  have hText : ((w₁.cols ids[i]).m_colType = .text) =
      ((w.columnType (w.oci.stmt h).query i).map (·.2.1) = some .text) := by
    rw [World.columnType, hType, hCol]
    simp [Column.sized]
  have hName : (w₁.cols ids[i]).m_colName = w.columnName (w.oci.stmt h).query i :=
    hB.named h rfl i hi
  have hOutcome : w₁.outcome = w.outcome := hB.apart.outcome
  rw [ResultSet.defineColumn, Throws, wp_bind, wp_get, wp_bind, hB.rset.handle]
  refine wp_mono (Q := fun result w₂ => result = w.outcome (.defineByPos (i + 1)) ∧
    w₂.outcome = w.outcome) (E := fun _ _ => False) ?_ ?_ (fun _ _ hFalse => hFalse.elim)
  · simp only [ociDefineByPos, wp_bind, wp_pass, wp_answer, wp_ite, wp_modifyStmtState, wp_pure]
    split
    · exact ⟨by rw [hOutcome], hOutcome⟩
    · exact ⟨by rw [hOutcome], hOutcome⟩
  · rintro result w₂ ⟨rfl, hOutcome₂⟩
    simp only [hText, hB.apart.cfg, hName, ne_eq, ite_not]
    exact throws_charset hOutcome₂ fun _ _ => throws_checked (total_pure ()) throws_onError

/-- The loop of `define` counts the columns from one. -/
theorem findSome_zipIdx {α : Type} (f : Nat → Option α) (ids : List Nat) :
    (ids.zipIdx 1).findSome? (fun e => f (e.2 - 1)) = (List.range ids.length).findSome? f := by
  have hTurns : (ids.zipIdx 1).map (fun e => e.2 - 1) = List.range ids.length := by
    refine List.ext_getElem (by simp) fun i hi hi' => ?_
    simp
  rw [← hTurns, List.findSome?_map]
  rfl

/-- `define`. -/
theorem throws_define (hB : Building w w₁ r (some h) F ids)
    (hLength : ids.length = (w.oci.stmt h).query.desc.length) :
    Throws ((List.range (w.oci.stmt h).query.desc.length).findSome?
      (w.defineFailure (w.oci.stmt h).query)) (ResultSet.define r) w₁ := by
  rw [← hLength, ResultSet.define, Throws, wp_bind, wp_get, hB.rset.columns, ← findSome_zipIdx]
  refine (throws_forM (fun _ w₂ => Building w w₂ r (some h) F ids) (ids.zipIdx 1) ?_
    hB).bind_total fun _ => total_modify _
  rintro done e rest w₂ hSplit hB₂
  obtain ⟨hLt, rfl⟩ := zipIdx_split hSplit
  exact ⟨wp_mono (wp_defineColumn hB₂ (List.getElem_mem hLt) (done.length + 1))
    (fun _ _ hB₃ => hB₃.1) fun _ _ _ => trivial, throws_defineColumn hB₂ hLt⟩

/-- **The constructor of a result set.** -/
theorem throws_newResultSet (fetchSize : Nat) :
    Throws (w.resultSetFailure (w.oci.stmt h).query) (ResultSet.new (some h) fetchSize) w := by
  rw [ResultSet.new, Throws, wp_bind, wp_acquire, wp_bind, wp_modifyRs]
  refine (throws_constructing rfl ?_).bind_total fun _ => total_pure _
  rw [ResultSet.attach, Throws, wp_bind, wp_modifyRs]
  simp only [Function.update_self, Function.update_idem]
  have hStart := building_start w (some h) (fetchSize % 2 ^ 16) {
    m_rsHandle := some h
    m_fetchCount := fetchSize % 2 ^ 16 } ⟨rfl, rfl, rfl, rfl, rfl, rfl, rfl⟩ rfl
  refine (throws_describe hStart).bind (wp_mono (wp_describe hStart) (fun _ _ h => h)
    fun _ _ _ => trivial) ?_
  rintro _ w₁ - ⟨ids, hB, hLength⟩
  exact throws_define hB (hLength h rfl)

-- ---------------------------------------------------------------------------
-- Fetches
-- ---------------------------------------------------------------------------

/-- The number of rows. -/
theorem throws_rowsCount :
    Throws (w.failing (.attrGet .rowCount 0) none) (ResultSet.rowsCount r) w := by
  simp only [Throws, ResultSet.rowsCount, ociRowCount, ociStmtAttrGet, wp_bind, wp_get, wp_pass,
    wp_answer]
  cases (w.rsets r).m_rsHandle with
  | none => exact throws_checked (total_pure _) throws_onError
  | some h =>
    dsimp only
    rw [wp_ite]
    split
    · exact throws_checked (total_pure _) throws_onError
    · exact throws_checked (total_pure _) throws_onError

/-- **The fetch of a block.** -/
theorem throws_fetchRows (hHandle : (w.rsets r).m_rsHandle = some h) :
    Throws w.fetchFailure (ResultSet.fetchRows r) w := by
  have hFetch : wp (ociStmtFetch r (some h) w.conn.m_errorHandle (w.rsets r).m_fetchCount)
      (fun result w₁ => w₁.outcome = w.outcome ∧
        if fetchOk (w.outcome .stmtFetch) then fetchOk result
        else result = w.outcome .stmtFetch) (fun _ _ => False) w := by
    simp only [ociStmtFetch, wp_bind, wp_pass, wp_answer, wp_get, wp_ite, wp_modify,
      wp_modifyStmtState, wp_logRead, wp_pure]
    split
    · rename_i hOk
      have hDone : fetchOk (w.outcome .stmtFetch) := hOk
      rw [if_pos hDone]
      split
      · exact ⟨trivial, .inr rfl⟩
      · split
        · exact ⟨trivial, .inl rfl⟩
        · exact ⟨trivial, hDone⟩
    · rename_i hFailed
      have hFailed : ¬ fetchOk (w.outcome .stmtFetch) := hFailed
      rw [if_neg hFailed]
      exact ⟨trivial, trivial⟩
  rw [ResultSet.fetchRows, Throws, wp_bind, wp_get, wp_bind, hHandle]
  refine wp_mono hFetch ?_ (fun _ _ hFalse => hFalse.elim)
  rintro result w₁ ⟨hOutcome, hResult⟩
  rw [wp_ite, World.fetchFailure]
  split at hResult
  · rename_i hDone
    rw [if_pos (fetchOk_iff.mp hResult), if_pos hDone, Option.none_or, ← failing_congr hOutcome]
    exact throws_rowsCount.bind_total fun _ => total_modify _
  · rename_i hFailed
    subst hResult
    rw [if_neg fun hOk => hFailed (fetchOk_iff.mpr hOk), if_neg hFailed, Option.some_or]
    exact wp_throwOnError fun _ _ => rfl

/-- **`Next`.** -/
theorem throws_next (hHandle : (w.rsets r).m_rsHandle = some h) :
    Throws (w.nextFailure r) (ResultSet.next r) w := by
  have hPos : ((w.moved r).rsets r) = (w.rsets r).advanced := Function.update_self ..
  refine wp_next (fun _ hEnd => ?_) (fun hLe hMore => ?_) fun hLt => ?_
  · rw [hPos] at hEnd
    exact if_neg fun hRefills => Bool.false_ne_true (hRefills.2.symm.trans hEnd)
  · rw [hPos] at hLe hMore
    have hRefills : (w.rsets r).Refills := ⟨hLe, hMore⟩
    rw [World.nextFailure, if_pos hRefills]
    refine throws_fetchRows (h := h) (w := w.moved r) (r := r) ?_
    rw [hPos]
    exact hHandle
  · rw [hPos] at hLt
    exact if_neg fun hRefills => Nat.not_le_of_lt hLt hRefills.1

/-- **A result set** is built for the query its handle is on, and its first
block fetched. -/
theorem throws_opens {f : Nat → M Unit}
    (hRest : ∀ r wb, SameAnswers w wb → (wb.rsets r).m_rsHandle = some h →
      Throws w.fetchFailure (f r) wb) :
    Throws (w.openFailure (w.oci.stmt h).query)
      (ResultSet.new (some h) F >>= fun r => f r >>= fun _ => pure r) w := by
  refine (throws_newResultSet F).bind (wp_mono (wp_newResultSet _ _) ?_ fun _ _ _ => trivial)
    (Q := fun r wb => SameAnswers w wb ∧ (wb.rsets r).m_rsHandle = some h) ?_
  · rintro r wb ⟨-, ids, hB⟩
    exact ⟨hB.building.sameAnswers, hB.building.rset.handle⟩
  · rintro r wb - ⟨hSame, hHandle⟩
    exact (hRest r wb hSame hHandle).bind_total fun _ => total_pure _

end Epol
