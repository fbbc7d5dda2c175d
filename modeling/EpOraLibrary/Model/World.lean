import EpOraLibrary.Lib.Ledger
import EpOraLibrary.Lib.Program

/-!
# EpOraLibrary — data model

The objects of the library (`Connection`, `Statement`, `Parameter`,
`ResultSet`, `Column`), the state OCI keeps behind its handles, and the
`World` that holds both. The fields of the classes keep their names.

* Pointers are `Option Nat`, `none` being `NULL`. Handles, descriptors and
  objects are numbered from one supply (`World.fresh`), so no number is handed
  out twice; `Res` is a number together with what it stands for.
* All objects of a world belong to its one `Connection`, so the `m_conn`
  pointers are left out. An object's record stays readable after its release,
  as memory does; what was released is on record in `World.trace`.
* What a call to OCI answers is looked up in `World.outcome`, an arbitrary
  function that may be different for every call an application makes.
* The texts and handles that no function below reads (source file and line of
  an error, the implicit bind and define handles) are left out; what OCI keeps
  behind a define handle is `Column.valueSz`.
-/

namespace Epol

/-- A `TCHAR` by its code: 16 bits wide in the Unicode build, 8 in the ANSI
build. -/
abbrev TChar := Nat

abbrev TString := List TChar

/-- A text literal. -/
def tstr (s : String) : TString := s.toList.map Char.toNat

-- ---------------------------------------------------------------------------
-- Resources and the calls to OCI
-- ---------------------------------------------------------------------------

/-- What a number stands for: an OCI handle, a parameter descriptor (`OCIParam`)
or an object of the library. -/
inductive Kind
  | env | server | error | session | svcctx | stmt
  | descriptor
  | statement | resultSet | column | parameter
deriving DecidableEq

structure Res where
  kind : Kind
  id   : Nat
deriving DecidableEq

/-- The resource behind a pointer, if any. -/
def ptr (kind : Kind) (p : Option Nat) : List Res := p.toList.map (Res.mk kind)

/-- Return codes of OCI. -/
inductive OciResult
  | success | successWithInfo | error | noData | invalidHandle | needData
  | stillExecuting | continued
deriving DecidableEq

/-- The codes with which a call has done its work. -/
def OciResult.done : OciResult → Bool
  | .success | .successWithInfo => true
  | _ => false

inductive Attr
  | server | session | username | password | nonblockingMode
  | stmtType | paramCount | rowCount
  | name | dataType | dataSize | charsetId
deriving DecidableEq

/-- The calls whose outcome the library looks at or depends on. `pos` is the
1-based position of a column, 0 where there is none. -/
inductive OciCall
  | envCreate
  | handleAlloc (kind : Kind)
  | handleFree (r : Res)
  | serverAttach | serverDetach | sessionBegin | sessionEnd
  | attrSet (attr : Attr) (pos : Nat)
  | attrGet (attr : Attr) (pos : Nat)
  | stmtPrepare | stmtExecute | stmtFetch
  | paramGet (pos : Nat)
  | descriptorFree (pos : Nat)
  | defineByPos (pos : Nat)
  | bindByName
deriving DecidableEq

-- ---------------------------------------------------------------------------
-- Enumerations
-- ---------------------------------------------------------------------------

inductive DataType
  | unknown | number | date | text | resultSet
deriving DecidableEq

inductive StatementType
  | unknown | select | update | delete | insert | create | drop | alter | begin | declare
deriving DecidableEq

inductive ErrorCode
  | envCreateFailed | timeout | noMemory | badParamType | poolNotSetup | badInputType
  | badOutputType | badTransform | badParamPrefix | unsupOraType | parameterNotFound
  | columnNotFound | internal
deriving DecidableEq

/-- An `OraError`: an OCI return code (`ET_ORACLE`) or a code of the library
(`ET_ORALIB`), and the format text the throw site passed, if any. -/
inductive OraError
  | oracle (code : OciResult) (format : Option TString)
  | oralib (code : ErrorCode) (format : Option TString)
deriving DecidableEq

-- ---------------------------------------------------------------------------
-- Values and result tables
-- ---------------------------------------------------------------------------

/-- A `double` by its bits. -/
abbrev Double := UInt64

/-- An `OCINumber` by its bytes. -/
abbrev OciNumber := List Nat

structure OciDate where
  yyyy : Int
  mm   : Nat
  dd   : Nat
  hh   : Nat
  mi   : Nat
  ss   : Nat
deriving DecidableEq, Inhabited

inductive Value
  | number (n : OciNumber)
  | date (d : OciDate)
  | text (s : TString)
deriving DecidableEq

instance : Inhabited Value := ⟨.text []⟩

/-- One slot of a column's buffers: the indicator, the data length and the
data. It is also what the server delivers for one column of one row. -/
structure Slot where
  indicator  : Int
  dataLength : Nat
  value      : Value
deriving DecidableEq, Inhabited

/-- How the server describes a column. The name attribute is a pointer into
the descriptor's memory together with a length: `name` is the text of that
length, `nameTail` what stands behind it up to the next NUL, and `nameStale`
what a reader finds at the pointer once the descriptor has been freed. -/
structure ColumnDesc where
  name      : TString
  nameTail  : TString
  nameStale : TString
  ociType   : Nat
  size      : Nat
deriving DecidableEq, Inhabited

/-- What one execution opens a cursor on. -/
structure Query where
  desc : List ColumnDesc
  rows : List (List Slot)
deriving DecidableEq, Inhabited

/-- The slot the server delivers for column `c` of row `i`. -/
def Query.cell (q : Query) (i c : Nat) : Slot := (q.rows.getD i []).getD c default

-- ---------------------------------------------------------------------------
-- The state behind the handles
-- ---------------------------------------------------------------------------

/-- Memory handed to OCI by a bind: the fetch buffer, `m_rsHandle`,
`m_indicator` or `m_dataLen` of a `Parameter`. -/
inductive Addr
  | buffer (param : Nat)
  | rsHandle (param : Nat)
  | indicator (param : Nat)
  | dataLen (param : Nat)
deriving DecidableEq

structure Registration where
  valuep : Addr
  indp   : Option Addr
  alenp  : Option Addr
deriving DecidableEq

/-- What OCI keeps for a statement handle. -/
structure StmtState where
  /-- the number of the execution that opened the current cursor, 0 if none -/
  exec      : Nat := 0
  query     : Query := default
  /-- rows delivered from the current cursor -/
  delivered : Nat := 0
  /-- the column whose buffers are defined for a position -/
  defines   : Nat → Option Nat := fun _ => none
  /-- the memory bound to a placeholder, under the name it was bound by -/
  binds     : List (TString × Registration) := []

instance : Inhabited StmtState := ⟨{}⟩

/-- What was asked of a cursor, newest first: a fetch on behalf of the result
set `rs` (which execution's cursor it read and whose buffers it wrote), and a
row count read on its behalf. -/
inductive ReadEvent
  | fetch (rs : Nat) (exec : Nat) (wrote : List Nat)
  | rowCount (rs : Nat) (exec : Nat)
deriving DecidableEq

structure Oci where
  /-- server handles attached to a server -/
  attached : Nat → Bool := fun _ => false
  /-- session handles with a session begun -/
  begun    : Nat → Bool := fun _ => false
  stmt     : Nat → StmtState := fun _ => {}
  /-- cursors opened so far -/
  execs    : Nat := 0
  log      : List ReadEvent := []

/-- The surroundings of a run, which no call changes: the build, what the
server answers, how OCI converts numbers and which placeholder it takes a name
for. -/
structure Setting where
  unicode      : Bool
  /-- the result the `e`-th cursor is opened on -/
  answers      : Nat → Query
  stmtTypeOf   : TString → StatementType
  /-- the placeholder a name stands for: OCI does not tell small letters from
  capitals, and the colon may be left out -/
  placeholder  : TString → TString
  numberToReal : OciNumber → Except OciResult Double
  numberToInt  : OciNumber → Except OciResult Int
  numberFromReal : Double → Except OciResult OciNumber
  numberFromInt  : Int → Except OciResult OciNumber
  /-- what `OCINumberSetZero` writes -/
  zeroNumber   : OciNumber
  sysDate      : OciDate
  /-- `sizeof` a pointer -/
  pointerSize  : Nat

/-- `sizeof (TCHAR)`. -/
def Setting.tcharSize (cfg : Setting) : Nat := if cfg.unicode then 2 else 1

theorem Setting.tcharSize_cases (cfg : Setting) : cfg.tcharSize = 1 ∨ cfg.tcharSize = 2 := by
  unfold Setting.tcharSize
  split <;> omega

theorem Setting.tcharSize_pos (cfg : Setting) : 0 < cfg.tcharSize := by
  have hCases := cfg.tcharSize_cases
  omega

theorem Setting.tcharSize_le (cfg : Setting) : cfg.tcharSize ≤ 2 := by
  have hCases := cfg.tcharSize_cases
  omega

-- ---------------------------------------------------------------------------
-- The objects
-- ---------------------------------------------------------------------------

structure Connection where
  m_envHandle        : Option Nat := none
  m_serverHandle     : Option Nat := none
  m_errorHandle      : Option Nat := none
  m_sessionHandle    : Option Nat := none
  m_svcContextHandle : Option Nat := none
  m_isOpened         : Bool := false
  m_isBlocking       : Bool := false
deriving DecidableEq, Inhabited

/-- The arrays `m_indicators`, `m_dataLengths` and `m_fetchBuffer` are given by
their lengths (`none` for `NULL`) and, slot by slot, by `slots`: the value of the
`j`-th slot is the `j`-th element OCI writes to the buffer. -/
structure Column where
  m_colName     : TString := []
  m_colType     : DataType := .unknown
  m_ociType     : Nat := 0
  m_size        : Nat := 0
  m_indicators  : Option Nat := none
  m_dataLengths : Option Nat := none
  m_fetchBuffer : Option Nat := none
  slots         : Nat → Slot := fun _ => default
  /-- the size of an element, which OCI was told and keeps behind `m_defineHandle` -/
  valueSz       : Nat := 0
  m_resultSet   : Option Nat := none

instance : Inhabited Column := ⟨{}⟩

structure ResultSet where
  m_columns     : List Nat := []
  m_columnsMap  : List (TString × Nat) := []
  m_rsHandle    : Option Nat := none
  m_stmt        : Option Nat := none
  m_fetchCount  : Nat := 0
  m_rowsFetched : Nat := 0
  m_currentRow  : Nat := 0
  m_isEod       : Bool := false
  m_isDescribed : Bool := false
  m_isDefined   : Bool := false
deriving DecidableEq, Inhabited

/-- `m_fetchBuffer` is given by its bytes. -/
structure Parameter where
  m_paramName   : TString := []
  m_paramType   : DataType := .unknown
  m_ociType     : Nat := 0
  m_size        : Nat := 0
  m_indicator   : Int := 0
  m_dataLen     : Nat := 0
  m_fetchBuffer : Option (Nat → Nat) := none
  m_isArray     : Bool := false
  m_stmt        : Option Nat := none
  m_rsHandle    : Option Nat := none
  m_resultSet   : Option Nat := none

instance : Inhabited Parameter := ⟨{}⟩

structure Statement where
  m_parameters    : List Nat := []
  m_parametersMap : List (TString × Nat) := []
  m_stmtHandle    : Option Nat := none
  m_stmtType      : StatementType := .unknown
  m_isPrepared    : Bool := false
  m_isExecuted    : Bool := false
deriving DecidableEq, Inhabited

structure World where
  cfg     : Setting
  /-- what OCI answers to the calls of the API call in progress -/
  outcome : OciCall → OciResult
  conn    : Connection := {}
  oci     : Oci := {}
  stmts   : Nat → Statement := fun _ => {}
  params  : Nat → Parameter := fun _ => {}
  rsets   : Nat → ResultSet := fun _ => {}
  cols    : Nat → Column := fun _ => {}
  /-- the next number to hand out -/
  fresh   : Nat := 0
  trace   : Ledger.Trace Res := []

/-- A procedure of the library. -/
abbrev M := EStateM OraError World

/-- `map [key] = v` on a `std::map`. -/
def mapInsert (key : TString) (v : Nat) (m : List (TString × Nat)) : List (TString × Nat) :=
  (key, v) :: m.filter fun e => e.1 ≠ key

/-- `map.find (key)`. -/
def mapFind (key : TString) (m : List (TString × Nat)) : Option Nat :=
  (m.find? fun e => e.1 = key).map Prod.snd

theorem mapFind_mapInsert (key name : TString) (v : Nat) (m : List (TString × Nat)) :
    mapFind key (mapInsert name v m) = if key = name then some v else mapFind key m := by
  unfold mapFind mapInsert
  rw [List.find?_cons]
  by_cases hk : name = key
  · subst hk
    simp
  · have hRest : (fun e : TString × Nat =>
        decide (decide (e.1 ≠ name) = true ∧ decide (e.1 = key) = true)) =
        fun e => decide (e.1 = key) := by
      funext e
      by_cases he : e.1 = key
      · simp [he, Ne.symm hk]
      · simp [he]
    rw [if_neg (Ne.symm hk)]
    simp only [hk, decide_false, List.find?_filter, hRest]

end Epol
