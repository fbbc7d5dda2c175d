import EpOraLibrary.Lib.Memory
import EpOraLibrary.Model.DateTime
import EpOraLibrary.Model.ResultSet

/-!
# EpOraLibrary — parameters

`epParameter.cpp` and the inline `IsNull` and `ToNull`: construction and
binding, the assignments and the readers. The fetch buffer is given by its
bytes; a `TCHAR` takes `tcharSize` of them, low byte first.
-/

namespace Epol

open Ledger Prog

def MAX_OUTPUT_TEXT_BYTES : Nat := 4096

def FETCH_SIZE : Nat := 200000

/-- The prefixes of parameter names. -/
def PP_ARRAY : TChar := 't'.toNat
def PP_NUMERIC : TChar := 'n'.toNat
def PP_DATE : TChar := 'd'.toNat
def PP_TEXT : TChar := 's'.toNat
def PP_RESULT_SET : TChar := 'c'.toNat

-- ---------------------------------------------------------------------------
-- Bytes
-- ---------------------------------------------------------------------------

/-- `memcpy (buf + off, bytes, ..)`. -/
def writeBytes (buf : Nat → Nat) (off : Nat) (bytes : List Nat) : Nat → Nat :=
  fun i => if off ≤ i ∧ i < off + bytes.length then bytes.getD (i - off) 0 else buf i

/-- The bytes of a `TCHAR`. -/
def Setting.tcharBytes (cfg : Setting) (ch : TChar) : List Nat :=
  if cfg.unicode then [ch % 2 ^ 8, ch / 2 ^ 8 % 2 ^ 8] else [ch % 2 ^ 8]

def Setting.textBytes (cfg : Setting) (s : TString) : List Nat := s.flatMap cfg.tcharBytes

/-- The bytes of an `OCIDate`. -/
def OciDate.bytes (d : OciDate) : List Nat :=
  let y := (d.yyyy % 2 ^ 16).toNat
  [y % 2 ^ 8, y / 2 ^ 8, d.mm % 2 ^ 8, d.dd % 2 ^ 8, d.hh % 2 ^ 8, d.mi % 2 ^ 8, d.ss % 2 ^ 8]

-- ---------------------------------------------------------------------------
-- The type of a parameter
-- ---------------------------------------------------------------------------

/-- The first character of a zero-terminated text. -/
def firstChar (s : TString) : TChar := s.headD 0

/-- The type a parameter is bound as: the asked one, or for `DT_UNKNOWN` the
one its prefix stands for; `none` for an unknown prefix. -/
def Parameter.typeOf (pointerSize : Nat) (type : DataType) (pre : TChar) :
    Option (DataType × Nat × Nat) :=
  if type = .number ∨ type = .unknown ∧ pre = PP_NUMERIC then
    some (.number, SQLT_VNU, sizeofOciNumber)
  else if type = .date ∨ type = .unknown ∧ pre = PP_DATE then
    some (.date, SQLT_ODT, sizeofOciDate)
  else if type = .text ∨ type = .unknown ∧ pre = PP_TEXT then
    some (.text, SQLT_STR, MAX_OUTPUT_TEXT_BYTES)
  else if type = .resultSet ∨ type = .unknown ∧ pre = PP_RESULT_SET then
    some (.resultSet, SQLT_RSET, pointerSize)
  else none

/-- `Parameter::setupType`. -/
def Parameter.setupType (p : Nat) (paramName : TString) (type : DataType) : M Unit := do
  let w ← get
  let name := if firstChar paramName = ':'.toNat then paramName.tail else paramName
  let isArray := firstChar name = PP_ARRAY
  let name := if isArray then name.tail else name
  if isArray then modifyParam p fun param => { param with m_isArray := true }
  match Parameter.typeOf w.cfg.pointerSize type (firstChar name) with
  | some (paramType, ociType, size) =>
    modifyParam p fun param => { param with
      m_paramType := paramType
      m_ociType := ociType
      m_size := size }
  | none => throw (.oralib .badParamPrefix (some paramName))

-- ---------------------------------------------------------------------------
-- Binding
-- ---------------------------------------------------------------------------

/-- The content of a new buffer: zero, the current date, or the empty text. -/
def Parameter.initial (cfg : Setting) (type : DataType) : Option (Nat → Nat) :=
  match type with
  | .number => some (writeBytes (fun _ => 0) 0 cfg.zeroNumber)
  | .date => some (writeBytes (fun _ => 0) 0 cfg.sysDate.bytes)
  | .text => some (fun _ => 0)
  | _ => none

/-- The second OCI call of a bind, in the Unicode build. -/
def Parameter.setCharset (result : OciResult) : M OciResult := do
  let w ← get
  if w.cfg.unicode then
    result.andThen (ociAttrSet .charsetId 0 (ptr .error w.conn.m_errorHandle))
  else pure result

/-- `Parameter::bind`. -/
def Parameter.bind (p stmt : Nat) : M Unit := do
  let w ← get
  let param := w.params p
  match Parameter.initial w.cfg param.m_paramType with
  | none => throw (.oralib .internal (some (tstr "Unsupported internal type")))
  | some buffer =>
    if param.m_paramType = .number ∨ param.m_paramType = .date then
      pass (ptr .error w.conn.m_errorHandle)
    modifyParam p fun param => { param with
      m_fetchBuffer := some buffer
      m_dataLen := param.m_size % 2 ^ 16 }
    let result ← ociBindByName (w.stmts stmt).m_stmtHandle w.conn.m_errorHandle param.m_paramName
      { valuep := .buffer p, indp := some (.indicator p), alenp := some (.dataLen p) }
    let result ← setCharset result
    if result ≠ .success then
      throwOnError result w.conn.m_errorHandle (some param.m_paramName)
    modifyParam p fun param => { param with m_stmt := some stmt }

def setRsHandle (p h : Nat) (w : World) : World :=
  { w with params := Function.update w.params p { w.params p with m_rsHandle := some h } }

/-- `Parameter::bindResultSet`. -/
def Parameter.bindResultSet (p stmt : Nat) : M Unit := do
  let w ← get
  let name := (w.params p).m_paramName
  let result ← ociHandleAlloc w.conn.m_envHandle .stmt (setRsHandle p)
  let result ← result.orThrow
    (do
      let result ← ociBindByName (w.stmts stmt).m_stmtHandle w.conn.m_errorHandle name
        { valuep := .rsHandle p, indp := none, alenp := none }
      setCharset result)
    (throwOnEnv result w.conn.m_envHandle none)
  if result ≠ .success then throwOnError result w.conn.m_errorHandle (some name)
  modifyParam p fun param => { param with m_stmt := some stmt }

/-- `Parameter::attach`. -/
def Parameter.attach (p stmt : Nat) (name : TString) (type : DataType) : M Unit := do
  modifyParam p fun param => { param with m_paramName := name }
  setupType p name type
  modifyParam p fun param => { param with
    m_indicator := ORADATA_NULL
    m_dataLen := 0
    m_fetchBuffer := none
    m_stmt := none
    m_rsHandle := none
    m_resultSet := none }
  let w ← get
  if (w.params p).m_paramType = .resultSet then bindResultSet p stmt else bind p stmt

/-- `Parameter::Parameter`. -/
def Parameter.new (stmt : Nat) (name : TString) (type : DataType) : M Nat := do
  let p ← acquire .parameter none
  modifyParam p fun _ => {}
  constructing ⟨.parameter, p⟩ (attach p stmt name type) (cleanUp p)
  return p

-- ---------------------------------------------------------------------------
-- Assignments
-- ---------------------------------------------------------------------------

/-- Write to the fetch buffer, if there is one. -/
def Parameter.write (off : Nat) (bytes : List Nat) (param : Parameter) : Parameter :=
  { param with m_fetchBuffer := param.m_fetchBuffer.map fun buf => writeBytes buf off bytes }

/-- The length `operator= (EpTString)` stores, before the terminator. -/
def Parameter.storedLength (cfg : Setting) (size : Nat) (text : TString) : Nat :=
  let dataLen := text.length * cfg.tcharSize % 2 ^ 16
  if size < dataLen then (size - 2) / 2 * 2 % 2 ^ 16 else dataLen

/-- `Parameter::operator= (EpTString)`. -/
def Parameter.assignText (p : Nat) (text : TString) : M Unit := do
  let w ← get
  let param := w.params p
  if text.length = 0 then modifyParam p fun param => { param with m_indicator := ORADATA_NULL }
  else if param.m_paramType = .text then
    let dataLen := storedLength w.cfg param.m_size text
    modifyParam p (write 0 ((w.cfg.textBytes text).take dataLen))
    modifyParam p (write (dataLen / w.cfg.tcharSize * w.cfg.tcharSize) (w.cfg.tcharBytes 0))
    modifyParam p fun param => { param with
      m_dataLen := (dataLen + w.cfg.tcharSize) % 2 ^ 16
      m_indicator := ORADATA_OK }
  else throw (.oralib .badInputType none)

/-- What the assignments of a `double` and a `long` have in common. -/
def Parameter.assignNumber (p : Nat) (converted : Except OciResult OciNumber) : M Unit := do
  let w ← get
  if (w.params p).m_paramType = .number then
    let number ← convert converted
    modifyParam p (write 0 number)
    modifyParam p fun param => { param with m_indicator := ORADATA_OK }
  else throw (.oralib .badInputType none)

/-- `Parameter::operator= (double)`. -/
def Parameter.assignReal (p : Nat) (value : Double) : M Unit := do
  let w ← get
  assignNumber p (w.cfg.numberFromReal value)

/-- `Parameter::operator= (long)`. -/
def Parameter.assignInt (p : Nat) (value : Int) : M Unit := do
  let w ← get
  assignNumber p (w.cfg.numberFromInt value)

/-- `Parameter::operator= (const DateTime&)`, of the date as `SetOciDate` makes
it. -/
def Parameter.assignDate (p : Nat) (dateTime : OciDate) : M Unit := do
  let w ← get
  if (w.params p).m_paramType = .date then
    modifyParam p (write 0 dateTime.bytes)
    modifyParam p fun param => { param with m_indicator := ORADATA_OK }
  else throw (.oralib .badInputType none)

/-- `Parameter::operator= (const DateTime&)`. -/
def Parameter.assignDateTime (p : Nat) (dateTime : DateTime) : M Unit :=
  Parameter.assignDate p dateTime.setOciDate

/-- `Parameter::ToNull`. -/
def Parameter.toNull (p : Nat) : M Unit :=
  modifyParam p fun param => { param with m_indicator := ORADATA_NULL }

-- ---------------------------------------------------------------------------
-- Output
-- ---------------------------------------------------------------------------

/-- `Parameter::IsNull`. -/
def Parameter.isNull (p : Nat) : M Bool := do
  let w ← get
  return (w.params p).m_indicator = ORADATA_NULL

/-- The `TCHAR` at position `k` of a buffer. -/
def Setting.tcharAt (cfg : Setting) (buf : Nat → Nat) (k : Nat) : TChar :=
  if cfg.unicode then buf (k * 2) + buf (k * 2 + 1) * 2 ^ 8 else buf k

/-- `Parameter::ToString`. The terminator is looked for up to the first
`TCHAR` behind the buffer, further out than which no assignment puts one. -/
def Parameter.toString (p : Nat) : M TString := do
  let w ← get
  let param := w.params p
  if param.m_paramType = .text ∧ param.m_indicator ≠ ORADATA_NULL then
    return param.m_fetchBuffer.elim [] fun buf =>
      Memory.cstring (w.cfg.tcharAt buf) 0 (param.m_size / w.cfg.tcharSize + 1)
  else throw (.oralib .badOutputType none)

/-- The `OCINumber` a buffer starts with. -/
def numberAt (buf : Nat → Nat) : OciNumber := (List.range sizeofOciNumber).map buf

/-- The `OCIDate` a buffer starts with; its year is signed. -/
def dateAt (buf : Nat → Nat) : OciDate :=
  let y : Nat := buf 0 + buf 1 * 2 ^ 8
  { yyyy := if y < 2 ^ 15 then (y : Int) else (y : Int) - 2 ^ 16
    mm := buf 2
    dd := buf 3
    hh := buf 4
    mi := buf 5
    ss := buf 6 }

/-- What `ToDouble`, `ToLong` and `ToDateTime` have in common: the buffer of a
parameter of type `type` that is not NULL is handed to `read`. -/
def Parameter.output {α : Type} (type : DataType) (p : Nat) (read : (Nat → Nat) → M α) : M α := do
  let w ← get
  let param := w.params p
  if param.m_paramType = type ∧ param.m_indicator ≠ ORADATA_NULL then
    read (param.m_fetchBuffer.getD fun _ => 0)
  else throw (.oralib .badOutputType none)

/-- `Parameter::ToDouble`. -/
def Parameter.toDouble (p : Nat) : M Double := do
  let w ← get
  Parameter.output .number p fun buf => convert (w.cfg.numberToReal (numberAt buf))

/-- `Parameter::ToLong`. -/
def Parameter.toLong (p : Nat) : M Int := do
  let w ← get
  Parameter.output .number p fun buf => convert (w.cfg.numberToInt (numberAt buf))

/-- `Parameter::ToDateTime`; `none` where the buffer holds no month. -/
def Parameter.toDateTime (p : Nat) : M (Option DateTime) :=
  Parameter.output .date p fun buf => return DateTime.ofOciDate (dateAt buf)

-- ---------------------------------------------------------------------------
-- Cursor parameters
-- ---------------------------------------------------------------------------

/-- `Parameter::ToResultSet`. -/
def Parameter.toResultSet (p : Nat) : M Nat := do
  let param := (← get).params p
  if param.m_paramType = .resultSet then
    match param.m_resultSet with
    | some r => return r
    | none =>
      let r ← ResultSet.new param.m_rsHandle FETCH_SIZE
      modifyParam p fun param => { param with m_resultSet := some r }
      ResultSet.fetchRows r
      return r
  else throw (.oralib .badOutputType none)

end Epol
