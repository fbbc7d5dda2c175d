import EpOraLibrary.Lib.Format
import EpOraLibrary.Model.World

/-!
# EpOraLibrary — the texts of errors

`epOraError.cpp`: what the constructors of an `OraError` make its description
of. The format a throw site passes is interpreted by `STPrintf_V`, which
behaves like `vsnprintf`; the throw sites pass no further arguments but for
the index lookups.
-/

namespace Epol

def ERROR_FORMAT_MAX_MSG_LEN : Nat := 1024

/-- `OraError::oralibError`. -/
def ErrorCode.oralibError : ErrorCode → TString
  | .envCreateFailed => tstr "(EC_ENV_CREATE_FAILED) Environment handle creation failed"
  | .timeout => tstr "(EC_TIMEOUT) Statement took too long to complete and has been aborted"
  | .noMemory => tstr "(EC_NO_MEMORY) Memory allocation request has failed"
  | .badParamType => tstr "(EC_BAD_PARAM_TYPE) Parameter type is incorrect"
  | .poolNotSetup => tstr "(EC_POOL_NOT_SETUP) Connection pool has not been setup yet"
  | .badInputType => tstr "(EC_BAD_INPUT_TYPE) Input data doesn't have expected type"
  | .badOutputType => tstr "(EC_BAD_OUTPUT_TYPE) Cannot convert to requested type"
  | .badTransform => tstr "(EC_BAD_TRANSFORM) Requested transformation is not possible"
  | .badParamPrefix => tstr "(EC_BAD_PARAM_PREFIX) Parameter prefix is not known"
  | .internal => tstr "(EC_INTERNAL) Internal library error. Please, report to developers"
  | .unsupOraType => tstr
      "(EC_UNSUP_ORA_TYPE) Unsupported Oracle type - cannot be converted to numeric, date or text"
  | .parameterNotFound =>
      tstr "(EC_PARAMETER_NOT_FOUND) Name not found in statement's parameters"
  | .columnNotFound =>
      tstr "(EC_COLUMN_NOT_FOUND) Result set doesn't contain column with such name"

/-- `OraError::oracleError`, with the text `OCIErrorGet` gives. -/
def OciResult.oracleError (errorText : TString) : OciResult → TString
  | .success => tstr "(OCI_SUCCESS)"
  | .successWithInfo => tstr "(OCI_SUCCESS_WITH_INFO)" ++ tstr " " ++ errorText
  | .error => tstr "(OCI_ERROR)" ++ tstr " " ++ errorText
  | .noData => tstr "(OCI_NO_DATA)" ++ tstr " " ++ errorText
  | .invalidHandle => tstr "(OCI_INVALID_HANDLE)"
  | .needData => tstr "(OCI_NEED_DATA)"
  | .stillExecuting => tstr "(OCI_STILL_EXECUTING)" ++ tstr " " ++ errorText
  | .continued => tstr "(OCI_CONTINUE)"

/-- `epl::System::STPrintf_V` without arguments: what it leaves in a buffer of
`size` characters, if that depends on no argument. -/
def STPrintf_V (size : Nat) (format : TString) : Option TString :=
  (Format.output format).map fun text => text.take (size - 1)

/-- `OraError::concatMessage`. -/
def concatMessage (description format : TString) : Option TString :=
  (STPrintf_V (ERROR_FORMAT_MAX_MSG_LEN - 1) format).map fun buffer =>
    description ++ tstr ": " ++ buffer

/-- `m_description` before the format is looked at. -/
def OraError.code (errorText : TString) : OraError → TString
  | .oracle code _ => code.oracleError errorText
  | .oralib code _ => code.oralibError

/-- The format the throw site passed. -/
def OraError.format : OraError → Option TString
  | .oracle _ format => format
  | .oralib _ format => format

/-- `m_description`, if it depends on no argument that was not passed. -/
def OraError.description (errorText : TString) (e : OraError) : Option TString :=
  match e.format with
  | some format => concatMessage (e.code errorText) format
  | none => some (e.code errorText)

end Epol
