/-! # Exit codes by name -/

namespace TraceLedger.ExitStatus

/-- The codes that have a name. -/
def names : List (UInt32 × String) := [
  (0, "Ok"),
  (1, "SysErrSenderInvalid"),
  (2, "SysErrSenderStateInvalid"),
  (4, "SysErrIllegalInstruction"),
  (5, "SysErrInvalidReceiver"),
  (6, "SysErrInsufficientFunds"),
  (7, "SysErrOutOfGas"),
  (9, "SysErrIllegalExitCode"),
  (10, "SysErrFatal"),
  (11, "SysErrMissingReturn"),
  (16, "ErrIllegalArgument"),
  (17, "ErrNotFound"),
  (18, "ErrForbidden"),
  (19, "ErrInsufficientFunds"),
  (20, "ErrIllegalState"),
  (21, "ErrSerialization"),
  (22, "ErrUnhandledMessage"),
  (23, "ErrUnspecified"),
  (24, "ErrAssertionFailed"),
  (25, "ErrReadOnly"),
  (26, "ErrNotPayable")]

/-- The name of success. -/
def ok : String := "Ok"

/-- The status of a call without a receipt. -/
def unknown : String := "Unknown"

/-- The status of a call with the given exit code. -/
def ofCode (code : UInt32) : String :=
  match names.find? (·.1 = code) with
  | some (_, name) => name
  | none => "ExitCode(" ++ toString code ++ ")"

end TraceLedger.ExitStatus
