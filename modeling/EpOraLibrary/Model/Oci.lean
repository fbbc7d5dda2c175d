import EpOraLibrary.Model.World

/-!
# EpOraLibrary — the calls to OCI

What the library relies on of each OCI function: the handles it is passed
(recorded as uses in the trace), the state it changes when its outcome says it
did its work, and the return code.

* A handle allocation that does not return `OCI_SUCCESS` yields no handle, and
  a free that does not return it frees nothing; OCI documents no other success
  code for the two.
* The defines and binds of a statement handle are kept per handle, the last
  one for a position or a placeholder wins. `OCIStmtExecute` opens a new cursor
  and restarts the row count; it also opens one on every statement handle it
  finds bound as a result-set parameter.
* `OCIStmtFetch` of `n` rows delivers the next `min n remaining` rows, the
  `j`-th into slot `j` of the buffers defined for each position, and reports
  `OCI_NO_DATA` when it delivers fewer than `n`.
-/

namespace Epol

open Ledger Prog

-- ---------------------------------------------------------------------------
-- Bookkeeping
-- ---------------------------------------------------------------------------

/-- The call in progress is handed the resources `rs`. -/
def pass (rs : List Res) : M Unit :=
  modify fun w => { w with trace := rs.map .use ++ w.trace }

/-- A new resource, acquired from `parent`. -/
def acquire (kind : Kind) (parent : Option Res) : M Nat := do
  let w ← get
  set { w with fresh := w.fresh + 1, trace := .acquire ⟨kind, w.fresh⟩ parent :: w.trace }
  return w.fresh

/-- A resource is given back. -/
def release (r : Res) (done : Bool) : M Unit :=
  modify fun w => { w with trace := .release r done :: w.trace }

def answer (c : OciCall) : M OciResult := return (← get).outcome c

/-- `if (result == OCI_SUCCESS) result = call;` -/
def OciResult.andThen (result : OciResult) (call : M OciResult) : M OciResult :=
  if result = .success then call else pure result

/-- `if (result == OCI_SUCCESS) result = call; else throw ..;` -/
def OciResult.orThrow (result : OciResult) (call failure : M OciResult) : M OciResult :=
  if result = .success then call else failure

def modifyOci (f : Oci → Oci) : M Unit := modify fun w => { w with oci := f w.oci }

def modifyStmtState (h : Nat) (f : StmtState → StmtState) : M Unit :=
  modifyOci fun o => { o with stmt := Function.update o.stmt h (f (o.stmt h)) }

/-- One more entry in the record of what was asked of the cursors. -/
def logRead (e : ReadEvent) : M Unit := modifyOci fun o => { o with log := e :: o.log }

section Rules

variable {Q : Unit → World → Prop} {E : OraError → World → Prop} {w : World}

@[simp] theorem wp_pass (rs : List Res) :
    wp (pass rs) Q E w = Q () { w with trace := rs.map .use ++ w.trace } := rfl

@[simp] theorem wp_acquire {Q : Nat → World → Prop} (kind : Kind) (parent : Option Res) :
    wp (acquire kind parent) Q E w = Q w.fresh
      { w with fresh := w.fresh + 1, trace := .acquire ⟨kind, w.fresh⟩ parent :: w.trace } := rfl

@[simp] theorem wp_release (r : Res) (done : Bool) :
    wp (release r done) Q E w = Q () { w with trace := .release r done :: w.trace } := rfl

@[simp] theorem wp_answer {Q : OciResult → World → Prop} (c : OciCall) :
    wp (answer c) Q E w = Q (w.outcome c) w := rfl

@[simp] theorem wp_modifyOci (f : Oci → Oci) :
    wp (modifyOci f) Q E w = Q () { w with oci := f w.oci } := rfl

@[simp] theorem wp_modifyStmtState (h : Nat) (f : StmtState → StmtState) :
    wp (modifyStmtState h f) Q E w = Q () { w with oci := { w.oci with
      stmt := Function.update w.oci.stmt h (f (w.oci.stmt h)) } } := rfl

@[simp] theorem wp_logRead (e : ReadEvent) :
    wp (logRead e) Q E w = Q () { w with oci := { w.oci with log := e :: w.oci.log } } := rfl

theorem wp_andThen {Q : OciResult → World → Prop} (result : OciResult) (call : M OciResult) :
    wp (result.andThen call) Q E w =
      if result = .success then wp call Q E w else Q result w := by
  rw [OciResult.andThen, wp_ite, wp_pure]

theorem wp_orThrow {Q : OciResult → World → Prop} (result : OciResult)
    (call failure : M OciResult) :
    wp (result.orThrow call failure) Q E w =
      if result = .success then wp call Q E w else wp failure Q E w := by
  rw [OciResult.orThrow, wp_ite]

end Rules

-- ---------------------------------------------------------------------------
-- Handles
-- ---------------------------------------------------------------------------

/-- `OCIEnvCreate` / `OCIEnvNlsCreate`; `store` writes the handle through the
pointer that was passed. -/
def ociEnvCreate (store : Nat → World → World) : M OciResult := do
  let r ← answer .envCreate
  if r = .success then
    let h ← acquire .env none
    modify (store h)
  return r

/-- `OCIHandleAlloc`. -/
def ociHandleAlloc (env : Option Nat) (kind : Kind) (store : Nat → World → World) :
    M OciResult := do
  pass (ptr .env env)
  let r ← answer (.handleAlloc kind)
  if r = .success then
    let h ← acquire kind (env.map (Res.mk .env))
    modifyStmtState h fun _ => {}
    modify (store h)
  return r

/-- `OCIHandleFree`. -/
def ociHandleFree (kind : Kind) (h : Nat) : M OciResult := do
  pass [⟨kind, h⟩]
  let r ← answer (.handleFree ⟨kind, h⟩)
  release ⟨kind, h⟩ (r = .success)
  return r

/-- `OCIErrorGet`. -/
def ociErrorGet (handle : List Res) : M Unit := pass handle

-- ---------------------------------------------------------------------------
-- Servers and sessions
-- ---------------------------------------------------------------------------

def setFlag (f : Nat → Bool) (p : Option Nat) (b : Bool) : Nat → Bool :=
  match p with
  | some h => Function.update f h b
  | none => f

/-- `OCIServerAttach`. -/
def ociServerAttach (server error : Option Nat) : M OciResult := do
  pass (ptr .server server ++ ptr .error error)
  let r ← answer .serverAttach
  if r.done then
    modifyOci fun o => { o with attached := setFlag o.attached server true }
  return r

/-- `OCIServerDetach`. -/
def ociServerDetach (server error : Option Nat) : M OciResult := do
  pass (ptr .server server ++ ptr .error error)
  let r ← answer .serverDetach
  if r.done then
    modifyOci fun o => { o with attached := setFlag o.attached server false }
  return r

/-- `OCISessionBegin`. -/
def ociSessionBegin (svcContext error session : Option Nat) : M OciResult := do
  pass (ptr .svcctx svcContext ++ ptr .error error ++ ptr .session session)
  let r ← answer .sessionBegin
  if r.done then
    modifyOci fun o => { o with begun := setFlag o.begun session true }
  return r

/-- `OCISessionEnd`. -/
def ociSessionEnd (svcContext error session : Option Nat) : M OciResult := do
  pass (ptr .svcctx svcContext ++ ptr .error error ++ ptr .session session)
  let r ← answer .sessionEnd
  if r.done then
    modifyOci fun o => { o with begun := setFlag o.begun session false }
  return r

/-- `OCIAttrSet` with the handles it is passed. -/
def ociAttrSet (attr : Attr) (pos : Nat) (handles : List Res) : M OciResult := do
  pass handles
  answer (.attrSet attr pos)

-- ---------------------------------------------------------------------------
-- Statements
-- ---------------------------------------------------------------------------

/-- `OCIStmtPrepare`. -/
def ociStmtPrepare (stmt error : Option Nat) : M OciResult := do
  pass (ptr .stmt stmt ++ ptr .error error)
  answer .stmtPrepare

/-- `OCIAttrGet` on a statement handle. -/
def ociStmtAttrGet (attr : Attr) (stmt error : Option Nat) : M OciResult := do
  pass (ptr .stmt stmt ++ ptr .error error)
  answer (.attrGet attr 0)

/-- `OCIBindByName`: from now on the placeholder that `name` is taken for stands
for the memory `reg`. -/
def ociBindByName (stmt error : Option Nat) (name : TString) (reg : Registration) :
    M OciResult := do
  pass (ptr .stmt stmt ++ ptr .error error)
  let r ← answer .bindByName
  if r.done then
    let w ← get
    match stmt with
    | some h => modifyStmtState h fun s => { s with
        binds := (name, reg) ::
          s.binds.filter fun e => w.cfg.placeholder e.1 ≠ w.cfg.placeholder name }
    | none => pure ()
  return r

/-- A new cursor on the statement handle `h`. -/
def openCursor (h : Nat) : M Unit := modify fun w =>
  let e := w.oci.execs + 1
  { w with oci := { w.oci with
      execs := e
      stmt := Function.update w.oci.stmt h
        { w.oci.stmt h with exec := e, query := w.cfg.answers e, delivered := 0 } } }

/-- A new cursor on the statement handle found in the bound memory, if that is
the `m_rsHandle` of a parameter. -/
def openBound (reg : Registration) : M Unit := do
  let w ← get
  match reg.valuep with
  | .rsHandle p => (w.params p).m_rsHandle.forM openCursor
  | _ => pure ()

/-- `OCIStmtExecute`. -/
def ociStmtExecute (svcContext stmt error : Option Nat) : M OciResult := do
  pass (ptr .svcctx svcContext ++ ptr .stmt stmt ++ ptr .error error)
  let r ← answer .stmtExecute
  if r.done then
    match stmt with
    | some h =>
      openCursor h
      let w ← get
      (w.oci.stmt h).binds.forM fun e => openBound e.2
    | none => pure ()
  return r

-- ---------------------------------------------------------------------------
-- Describing, defining and fetching
-- ---------------------------------------------------------------------------

/-- `OCIParamGet`: the descriptor of the column at `pos`. -/
def ociParamGet (stmt error : Option Nat) (pos : Nat) : M (OciResult × Option Nat) := do
  pass (ptr .stmt stmt ++ ptr .error error)
  let r ← answer (.paramGet pos)
  if r.done then
    let d ← acquire .descriptor (stmt.map (Res.mk .stmt))
    return (r, some d)
  else
    return (r, none)

/-- `OCIAttrGet` on a parameter descriptor. -/
def ociParamAttrGet (attr : Attr) (pos : Nat) (param error : Option Nat) : M OciResult := do
  pass (ptr .descriptor param ++ ptr .error error)
  answer (.attrGet attr pos)

/-- `OCIDescriptorFree`. -/
def ociDescriptorFree (pos : Nat) (d : Nat) : M OciResult := do
  pass [⟨.descriptor, d⟩]
  let r ← answer (.descriptorFree pos)
  release ⟨.descriptor, d⟩ (r = .success)
  return r

/-- `OCIDefineByPos`: rows fetched from now on go to the buffers of `col`, whose
elements are `valueSz` bytes apart. -/
def ociDefineByPos (stmt error : Option Nat) (pos : Nat) (col valueSz : Nat) : M OciResult := do
  pass (ptr .stmt stmt ++ ptr .error error)
  let r ← answer (.defineByPos pos)
  if r.done then
    match stmt with
    | some h =>
      modify fun w => { w with
        cols := Function.update w.cols col { w.cols col with valueSz := valueSz } }
      modifyStmtState h fun s => { s with defines := Function.update s.defines pos (some col) }
    | none => pure ()
  return r

/-- The 0-based column of the query that is delivered to the buffers of `col`. -/
def StmtState.columnOf (s : StmtState) (col : Nat) : Option Nat :=
  (List.range s.query.desc.length).find? fun c => s.defines (c + 1) = some col

/-- The buffers a fetch writes. -/
def StmtState.targets (s : StmtState) : List Nat :=
  (List.range s.query.desc.length).filterMap fun c => s.defines (c + 1)

/-- The number of rows a fetch of `n` delivers. -/
def StmtState.nextRows (s : StmtState) (n : Nat) : Nat :=
  min n (s.query.rows.length - s.delivered)

/-- A column's slots after the next `k` rows were delivered to it. -/
def StmtState.deliver (s : StmtState) (k : Nat) (col : Nat) (slots : Nat → Slot) :
    Nat → Slot :=
  match s.columnOf col with
  | some c => fun j => if j < k then s.query.cell (s.delivered + j) c else slots j
  | none => slots

/-- `OCIStmtFetch` of `n` rows, for the result set `rs`. -/
def ociStmtFetch (rs : Nat) (stmt error : Option Nat) (n : Nat) : M OciResult := do
  pass (ptr .stmt stmt ++ ptr .error error)
  let r ← answer .stmtFetch
  match stmt with
  | none => return .invalidHandle
  | some h =>
    let w ← get
    let s := w.oci.stmt h
    if r.done ∨ r = .noData then
      let k := s.nextRows n
      modify fun w => { w with
        cols := fun col => { w.cols col with slots := s.deliver k col (w.cols col).slots } }
      modifyStmtState h fun s => { s with delivered := s.delivered + k }
      logRead (.fetch rs s.exec (if 0 < k then s.targets else []))
      if k < n then return .noData
      else if r = .noData then return .success
      else return r
    else
      logRead (.fetch rs s.exec [])
      return r

/-- `OCIAttrGet` of `OCI_ATTR_ROW_COUNT`, for the result set `rs`: the rows
delivered from the current cursor, a 32-bit number. -/
def ociRowCount (rs : Nat) (stmt error : Option Nat) : M (OciResult × Nat) := do
  let r ← ociStmtAttrGet .rowCount stmt error
  match stmt with
  | some h =>
    if r.done then
      let w ← get
      logRead (.rowCount rs (w.oci.stmt h).exec)
      return (r, (w.oci.stmt h).delivered % 2 ^ 32)
    else return (r, 0)
  | none => return (r, 0)

/-- `OCIAttrGet` of `OCI_ATTR_PARAM_COUNT`: the number of columns. -/
def ociParamCount (stmt error : Option Nat) : M (OciResult × Nat) := do
  let r ← ociStmtAttrGet .paramCount stmt error
  let w ← get
  match stmt with
  | some h => return (r, (w.oci.stmt h).query.desc.length)
  | none => return (r, 0)

end Epol
