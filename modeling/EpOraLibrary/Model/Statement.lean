import EpOraLibrary.Model.Parameter

/-!
# EpOraLibrary — statements

`epStatement.cpp`, and the part of `epConnection.cpp` that makes statements.
`bind` is `Bind` as long as the STL containers have memory; `bindFaulty` has
the handler around its two insertions.
-/

namespace Epol

open Ledger Prog

-- ---------------------------------------------------------------------------
-- Construction
-- ---------------------------------------------------------------------------

def setStmtHandle (s h : Nat) (w : World) : World :=
  { w with stmts := Function.update w.stmts s { w.stmts s with m_stmtHandle := some h } }

/-- `Statement::prepare`. The statement type is `ST_UNKNOWN` unless the
attribute was read. -/
def Statement.prepare (s : Nat) (sqlStmt : TString) : M Unit := do
  let w ← get
  let error := w.conn.m_errorHandle
  let result ← ociHandleAlloc w.conn.m_envHandle .stmt (setStmtHandle s)
  let handle := ((← get).stmts s).m_stmtHandle
  let result ← result.orThrow (ociStmtPrepare handle error)
    (throwOnEnv result w.conn.m_envHandle none)
  let result ← result.andThen (do
    let result ← ociStmtAttrGet .stmtType handle error
    modifyStmt s fun st => { st with
      m_stmtType := if result.done then w.cfg.stmtTypeOf sqlStmt else .unknown }
    return result)
  if result = .success then
    modifyStmt s fun st => { st with m_isPrepared := true, m_isExecuted := false }
  else throwOnError result error none

/-- `Statement::Statement`. -/
def Statement.new (sqlStmt : TString) : M Nat := do
  let s ← acquire .statement none
  modifyStmt s fun _ => {}
  constructing ⟨.statement, s⟩ (prepare s sqlStmt) (cleanUp s)
  return s

-- ---------------------------------------------------------------------------
-- Execute, Select and Bind
-- ---------------------------------------------------------------------------

/-- `Statement::executePrepared`. -/
def Statement.executePrepared (s : Nat) : M Unit := do
  let w ← get
  let result ← ociStmtExecute w.conn.m_svcContextHandle (w.stmts s).m_stmtHandle
    w.conn.m_errorHandle
  if result = .success then modifyStmt s fun st => { st with m_isExecuted := true }
  else throwOnError result w.conn.m_errorHandle none

/-- `Statement::Select`, for any fetch size. -/
def Statement.selectWith (s fetchSize : Nat) : M Nat := do
  executePrepared s
  let handle := ((← get).stmts s).m_stmtHandle
  let resultSet ← ResultSet.new handle fetchSize
  try ResultSet.fetchRows resultSet
  catch e =>
    ReleaseObj ⟨.resultSet, resultSet⟩
    throw e
  return resultSet

/-- `Statement::Select`. -/
def Statement.select (s : Nat) : M Nat := selectWith s FETCH_SIZE

/-- `Statement::Bind`. -/
def Statement.bind (s : Nat) (name : TString) (type : DataType) : M Nat := do
  let param ← Parameter.new s name type
  let paramName := ((← get).params param).m_paramName
  modifyStmt s fun st => { st with
    m_parameters := st.m_parameters ++ [param]
    m_parametersMap := mapInsert paramName param st.m_parametersMap }
  return param

/-- Which of the insertions of a `Bind` throw. Each leaves its container as it
was then. -/
structure BindFaults where
  pushBack : Bool := false
  insert   : Bool := false
deriving DecidableEq

/-- What `Bind` may throw: an `OraError`, or an exception of an STL container. -/
inductive BindThrown
  | oraError (e : OraError)
  | container
deriving DecidableEq

/-- `Statement::Bind` on containers that may throw. -/
def Statement.bindFaulty (faults : BindFaults) (s : Nat) (name : TString) (type : DataType) :
    EStateM BindThrown World Nat := do
  let param ← liftError .oraError (Parameter.new s name type)
  try
    if faults.pushBack then throw .container
    modify fun w => { w with stmts := Function.update w.stmts s { w.stmts s with
      m_parameters := (w.stmts s).m_parameters ++ [param] } }
    if faults.insert then throw .container
    modify fun w => { w with stmts := Function.update w.stmts s { w.stmts s with
      m_parametersMap := mapInsert (w.params param).m_paramName param
        (w.stmts s).m_parametersMap } }
  catch e =>
    liftError .oraError (ReleaseObj ⟨.parameter, param⟩)
    throw e
  return param

/-- `Statement::operator[]` by name: the parameter found. -/
def Statement.find (st : Statement) (paramName : TString) : Option Nat :=
  mapFind paramName st.m_parametersMap

-- ---------------------------------------------------------------------------
-- Connection::Execute, Prepare and Select
-- ---------------------------------------------------------------------------

/-- `Connection::Execute`: the statement is a local object. -/
def Connection.execute (sqlStmt : TString) : M Unit := do
  let st ← Statement.new sqlStmt
  try Statement.executePrepared st
  catch e =>
    ReleaseObj ⟨.statement, st⟩
    throw e
  ReleaseObj ⟨.statement, st⟩

/-- `Connection::Prepare`. -/
def Connection.prepare (sqlStmt : TString) : M Nat := Statement.new sqlStmt

/-- `Connection::Select`, for any fetch size. -/
def Connection.selectWith (selectStmt : TString) (fetchSize : Nat) : M Nat := do
  let statement ← Connection.prepare selectStmt
  try
    let result ← Statement.selectWith statement fetchSize
    ResultSet.attachStatement result statement
    pure result
  catch e =>
    ReleaseObj ⟨.statement, statement⟩
    throw e

/-- `Connection::Select`. -/
def Connection.select (selectStmt : TString) : M Nat := selectWith selectStmt FETCH_SIZE

end Epol
