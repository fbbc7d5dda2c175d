import EpOraLibrary.Model.Column

/-!
# EpOraLibrary — releasing objects

`ReleaseObj` and the `cleanUp` functions of `ResultSet`, `Statement` and
`Parameter`. An object starts with one reference and the library never takes
another, so `ReleaseObj` deletes; the destructor is `cleanUp`.

The calls follow pointers through the object graph, so they are given a depth:
a result set reaches its statement, that its parameters, these their result
sets, and these their columns.
-/

namespace Epol

open Ledger Prog

def modifyRs (r : Nat) (f : ResultSet → ResultSet) : M Unit :=
  modify fun w => { w with rsets := Function.update w.rsets r (f (w.rsets r)) }

def modifyStmt (s : Nat) (f : Statement → Statement) : M Unit :=
  modify fun w => { w with stmts := Function.update w.stmts s (f (w.stmts s)) }

def modifyParam (p : Nat) (f : Parameter → Parameter) : M Unit :=
  modify fun w => { w with params := Function.update w.params p (f (w.params p)) }

section Rules

variable {Q : Unit → World → Prop} {E : OraError → World → Prop} {w : World}

@[simp] theorem wp_modifyRs (r : Nat) (f : ResultSet → ResultSet) :
    wp (modifyRs r f) Q E w =
      Q () { w with rsets := Function.update w.rsets r (f (w.rsets r)) } := rfl

@[simp] theorem wp_modifyStmt (s : Nat) (f : Statement → Statement) :
    wp (modifyStmt s f) Q E w =
      Q () { w with stmts := Function.update w.stmts s (f (w.stmts s)) } := rfl

@[simp] theorem wp_modifyParam (p : Nat) (f : Parameter → Parameter) :
    wp (modifyParam p f) Q E w =
      Q () { w with params := Function.update w.params p (f (w.params p)) } := rfl

end Rules

/-- `if (handle) OCIHandleFree (handle, OCI_HTYPE_STMT);` the result is not
looked at. -/
def freeStmtHandle (handle : Option Nat) : M Unit := do
  match handle with
  | some h =>
    let _ ← ociHandleFree .stmt h
  | none => pure ()

/-- `if (object) object->ReleaseObj ();` -/
def releaseIf (releaseObj : Res → M Unit) (kind : Kind) (object : Option Nat) : M Unit := do
  match object with
  | some o => releaseObj ⟨kind, o⟩
  | none => pure ()

def ResultSet.cleanUpWith (releaseObj : Res → M Unit) (r : Nat) : M Unit := do
  let rs := (← get).rsets r
  rs.m_columns.forM fun c => releaseObj ⟨.column, c⟩
  modifyRs r fun rs => { rs with m_columns := [], m_rsHandle := none }
  releaseIf releaseObj .statement rs.m_stmt
  modifyRs r fun rs => { rs with m_stmt := none }

def Statement.cleanUpWith (releaseObj : Res → M Unit) (s : Nat) : M Unit := do
  let st := (← get).stmts s
  freeStmtHandle st.m_stmtHandle
  modifyStmt s fun st => { st with m_stmtHandle := none }
  st.m_parameters.forM fun p => releaseObj ⟨.parameter, p⟩
  modifyStmt s fun st => { st with m_parameters := [], m_parametersMap := [] }

def Parameter.cleanUpWith (releaseObj : Res → M Unit) (p : Nat) : M Unit := do
  let param := (← get).params p
  releaseIf releaseObj .resultSet param.m_resultSet
  modifyParam p fun param => { param with m_resultSet := none }
  freeStmtHandle param.m_rsHandle
  modifyParam p fun param => { param with m_rsHandle := none, m_fetchBuffer := none }

/-- `ReleaseObj` of an object whose pointers lead less than `depth` objects
deep. -/
def releaseObj : Nat → Res → M Unit
  | 0, _ => pure ()
  | depth + 1, x => do
    match x.kind with
    | .resultSet => ResultSet.cleanUpWith (releaseObj depth) x.id
    | .statement => Statement.cleanUpWith (releaseObj depth) x.id
    | .parameter => Parameter.cleanUpWith (releaseObj depth) x.id
    | .column => Column.cleanUp x.id
    | _ => pure ()
    release x true

/-- The longest chain of pointers, from a result set that owns its statement. -/
def graphDepth : Nat := 5

/-- `ResultSet::cleanUp`. -/
def ResultSet.cleanUp (r : Nat) : M Unit := cleanUpWith (releaseObj graphDepth) r

/-- `Statement::cleanUp`. -/
def Statement.cleanUp (s : Nat) : M Unit := cleanUpWith (releaseObj graphDepth) s

/-- `Parameter::cleanUp`. -/
def Parameter.cleanUp (p : Nat) : M Unit := cleanUpWith (releaseObj graphDepth) p

/-- `ReleaseObj`. -/
def ReleaseObj (x : Res) : M Unit := releaseObj graphDepth x

/-- A constructor that throws cleans up behind itself, and `operator new`'s
memory is given back. -/
def constructing (x : Res) (attach cleanUp : M Unit) : M Unit := do
  try attach
  catch e =>
    cleanUp
    release x true
    throw e

end Epol
