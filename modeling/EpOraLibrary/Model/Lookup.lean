import EpOraLibrary.Model.Statement

/-!
# EpOraLibrary — lookups

The four `operator[]` of `ResultSet` and `Statement`. They read containers and
change nothing, so they are functions of the object. `vector::at` has a failure
of its own, which is no `OraError`.
-/

namespace Epol

/-- The numbers of the first column and of the first parameter. -/
def FIRST_COLUMN_NO : Nat := 0
def FIRST_PARAMETER_NO : Nat := 0

/-- What a lookup may throw: an `OraError`, or the `std::out_of_range` of
`vector::at`. -/
inductive Thrown
  | oraError (e : OraError)
  | outOfRange
deriving DecidableEq

-- ---------------------------------------------------------------------------
-- By index
-- ---------------------------------------------------------------------------

/-- `items.at (index)`. -/
def vectorAt (items : List Nat) (index : Nat) : Except Thrown Nat :=
  match items[index]? with
  | some item => .ok item
  | none => .error .outOfRange

/-- What both lookups by index do, in a numbering that begins at `first`. -/
def elementNo (first : Nat) (code : ErrorCode) (items : List Nat) (index : Nat) :
    Except Thrown Nat :=
  if index < first ∨ items.length < index then
    .error (.oraError (.oralib code (some (tstr "%d"))))
  else vectorAt items (index - first)

/-- `ResultSet::operator[] (unsigned short)`, with `first` for
`FIRST_COLUMN_NO`. -/
def ResultSet.columnNo (first : Nat) (rs : ResultSet) (columnIndex : Nat) : Except Thrown Nat :=
  elementNo first .columnNotFound rs.m_columns columnIndex

/-- `Statement::operator[] (unsigned short)`, with `first` for
`FIRST_PARAMETER_NO`. -/
def Statement.parameterNo (first : Nat) (st : Statement) (paramIndex : Nat) :
    Except Thrown Nat :=
  elementNo first .parameterNotFound st.m_parameters paramIndex

-- ---------------------------------------------------------------------------
-- By name
-- ---------------------------------------------------------------------------

/-- `ResultSet::operator[] (const TCHAR*)`; `toUpper` stands for
`epl::Locale::ToUpper`. -/
def ResultSet.columnNamed (toUpper : TString → TString) (rs : ResultSet)
    (columnName : TString) : Except OraError Nat :=
  match mapFind (toUpper columnName) rs.m_columnsMap with
  | some c => .ok c
  | none => .error (.oralib .columnNotFound (some columnName))

/-- `Statement::operator[] (const TCHAR*)`. -/
def Statement.parameterNamed (st : Statement) (paramName : TString) : Except OraError Nat :=
  match st.find paramName with
  | some p => .ok p
  | none => .error (.oralib .parameterNotFound (some paramName))

end Epol
