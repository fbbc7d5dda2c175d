import EpOraLibrary.Model.Oci

/-!
# EpOraLibrary — errors and connections

`epOraError.cpp` as far as it talks to OCI, and `epConnection.cpp` up to
`Close`. `Execute`, `Prepare` and `Select` need the statements and are in
`Model/Statement.lean`.

`EP_ASSERT` is empty in a release build, so it does not appear below.
-/

namespace Epol

open Ledger Prog

-- ---------------------------------------------------------------------------
-- Errors
-- ---------------------------------------------------------------------------

/-- The codes for which `OraError::oracleError` asks OCI for the details. -/
def OciResult.getDetails : OciResult → Bool
  | .successWithInfo | .error | .noData | .stillExecuting => true
  | _ => false

/-- `throw (OraError (result, errorHandle, ..))`. -/
def throwOnError {α : Type} (result : OciResult) (errorHandle : Option Nat)
    (format : Option TString) : M α := do
  if result.getDetails then ociErrorGet (ptr .error errorHandle)
  throw (.oracle result format)

/-- `throw (OraError (result, envHandle, ..))`. -/
def throwOnEnv {α : Type} (result : OciResult) (envHandle : Option Nat)
    (format : Option TString) : M α := do
  if result.getDetails then ociErrorGet (ptr .env envHandle)
  throw (.oracle result format)

/-- A throw hands OCI nothing but the handle the details are asked from. -/
theorem wp_throwOnError {α : Type} {Q : α → World → Prop} {E : OraError → World → Prop}
    {w : World} {result : OciResult} {errorHandle : Option Nat} {format : Option TString}
    (hE : ∀ rs, rs = ptr .error errorHandle ∨ rs = [] →
      E (.oracle result format) { w with trace := rs.map .use ++ w.trace }) :
    wp (throwOnError result errorHandle format : M α) Q E w := by
  simp only [throwOnError, ociErrorGet, wp_bind, wp_ite, wp_pass, wp_throw]
  split
  · exact hE _ (.inl rfl)
  · exact hE [] (.inr rfl)

theorem wp_throwOnEnv {α : Type} {Q : α → World → Prop} {E : OraError → World → Prop}
    {w : World} {result : OciResult} {envHandle : Option Nat} {format : Option TString}
    (hE : ∀ rs, rs = ptr .env envHandle ∨ rs = [] →
      E (.oracle result format) { w with trace := rs.map .use ++ w.trace }) :
    wp (throwOnEnv result envHandle format : M α) Q E w := by
  simp only [throwOnEnv, ociErrorGet, wp_bind, wp_ite, wp_pass, wp_throw]
  split
  · exact hE _ (.inl rfl)
  · exact hE [] (.inr rfl)

-- ---------------------------------------------------------------------------
-- Connection::Open
-- ---------------------------------------------------------------------------

def modifyConn (f : Connection → Connection) : M Unit :=
  modify fun w => { w with conn := f w.conn }

@[simp] theorem wp_modifyConn {Q : Unit → World → Prop} {E : OraError → World → Prop}
    {w : World} (f : Connection → Connection) :
    wp (modifyConn f) Q E w = Q () { w with conn := f w.conn } := rfl

def setEnvHandle (h : Nat) (w : World) : World :=
  { w with conn := { w.conn with m_envHandle := some h } }

def setServerHandle (h : Nat) (w : World) : World :=
  { w with conn := { w.conn with m_serverHandle := some h } }

def setErrorHandle (h : Nat) (w : World) : World :=
  { w with conn := { w.conn with m_errorHandle := some h } }

def setSessionHandle (h : Nat) (w : World) : World :=
  { w with conn := { w.conn with m_sessionHandle := some h } }

def setSvcContextHandle (h : Nat) (w : World) : World :=
  { w with conn := { w.conn with m_svcContextHandle := some h } }

/-- The arguments of `Open` its control flow depends on: whether a login and a
password were given, and the mode. -/
structure OpenArgs where
  loginID         : Bool
  password        : Bool
  nonBlockingMode : Bool
deriving DecidableEq

/-- `Connection::Open`. -/
def Connection.openWith (args : OpenArgs) : M Unit := do
  -- allocate an environment handle
  let result ← ociEnvCreate setEnvHandle
  -- allocate a server handle
  let c := (← get).conn
  let result ← result.orThrow (ociHandleAlloc c.m_envHandle .server setServerHandle)
    (throw (.oralib .envCreateFailed none))
  -- allocate an error handle
  let result ← result.andThen (ociHandleAlloc c.m_envHandle .error setErrorHandle)
  -- create a server context
  let c := (← get).conn
  let result ← result.orThrow (ociServerAttach c.m_serverHandle c.m_errorHandle)
    (throwOnEnv result c.m_envHandle none)
  -- allocate a service handle
  let result ← result.orThrow (ociHandleAlloc c.m_envHandle .svcctx setSvcContextHandle)
    (throwOnError result c.m_errorHandle none)
  -- set the server attribute in the service context handle
  let c := (← get).conn
  let result ← result.orThrow
    (ociAttrSet .server 0 (ptr .svcctx c.m_svcContextHandle ++ ptr .server c.m_serverHandle ++
      ptr .error c.m_errorHandle))
    (throwOnEnv result c.m_envHandle none)
  -- allocate a user session handle
  let result ← result.orThrow (ociHandleAlloc c.m_envHandle .session setSessionHandle)
    (throwOnError result c.m_errorHandle none)
  -- set username and password attributes in user session handle
  let c := (← get).conn
  let result ← result.orThrow
    (if args.loginID then
      ociAttrSet .username 0 (ptr .session c.m_sessionHandle ++ ptr .error c.m_errorHandle)
    else pure result)
    (throwOnEnv result c.m_envHandle none)
  let result ← result.andThen
    (if args.loginID && args.password then
      ociAttrSet .password 0 (ptr .session c.m_sessionHandle ++ ptr .error c.m_errorHandle)
    else pure result)
  -- start the session
  let result ← result.andThen
    (ociSessionBegin c.m_svcContextHandle c.m_errorHandle c.m_sessionHandle)
  -- set the user session attribute in the service context handle
  let result ← result.andThen
    (ociAttrSet .session 0 (ptr .svcctx c.m_svcContextHandle ++ ptr .session c.m_sessionHandle ++
      ptr .error c.m_errorHandle))
  -- switch to non-blocking mode?
  let result ← (if result = .success ∧ args.nonBlockingMode = true then
      ociAttrSet .nonblockingMode 0 (ptr .server c.m_serverHandle ++ ptr .error c.m_errorHandle)
    else pure result)
  if result = .success then
    modifyConn fun c => { c with
      m_isOpened := true
      m_isBlocking := !args.nonBlockingMode }
  else throwOnError result c.m_errorHandle none

-- ---------------------------------------------------------------------------
-- Connection::Close
-- ---------------------------------------------------------------------------

/-- The part of `Close` up to the detach. The first result, of switching the
blocking mode back, is overwritten on either branch of the second `if`. -/
def Connection.closeSession : M OciResult := do
  let c := (← get).conn
  if c.m_serverHandle.isSome then
    let _ ← ociAttrSet .nonblockingMode 0
      (ptr .server c.m_serverHandle ++ ptr .error c.m_errorHandle)
  if c.m_svcContextHandle.isSome ∧ c.m_errorHandle.isSome then
    let result ← if c.m_sessionHandle.isSome then
        ociSessionEnd c.m_svcContextHandle c.m_errorHandle c.m_sessionHandle
      else pure .success
    result.andThen (ociServerDetach c.m_serverHandle c.m_errorHandle)
  else pure .success

/-- One of the last steps of `Close`: when all went well so far and the handle
is there, `before` clears the handle freed one step earlier, and the handle is
freed. -/
def Connection.freeStep (kind : Kind) (handle : Connection → Option Nat)
    (before : Connection → Connection) (result : OciResult) : M OciResult := do
  let c := (← get).conn
  match handle c with
  | some h =>
    if result = .success then
      modifyConn before
      ociHandleFree kind h
    else pure result
  | none => pure result

/-- The part of `Close` before the flags: `OCI_SUCCESS` when it got through. -/
def Connection.releaseHandles : M OciResult := do
  let result ← closeSession
  let result ← freeStep .svcctx (·.m_svcContextHandle) id result
  let result ← freeStep .session (·.m_sessionHandle)
    (fun c => { c with m_svcContextHandle := none }) result
  let result ← freeStep .error (·.m_errorHandle)
    (fun c => { c with m_sessionHandle := none }) result
  let result ← freeStep .server (·.m_serverHandle)
    (fun c => { c with m_errorHandle := none }) result
  let c := (← get).conn
  let result ← freeStep .env (·.m_envHandle)
    (fun c => { c with m_serverHandle := none }) result
  if c.m_envHandle.isSome ∧ result = .success then
    modifyConn fun c => { c with m_envHandle := none }
  return result

/-- `Connection::Close`. -/
def Connection.close : M Unit := do
  let result ← releaseHandles
  if result = .success then
    modifyConn fun c => { c with m_isOpened := false, m_isBlocking := false }

/-- The opening constructor: `Close` in the handler of a failed `Open`. -/
def Connection.new (args : OpenArgs) : M Unit := do
  modifyConn fun _ => {}
  try openWith args
  catch e =>
    close
    throw e

end Epol
