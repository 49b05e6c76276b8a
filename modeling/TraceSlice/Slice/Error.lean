import TraceSlice.Backend.Basic

/-!
# Errors of a session

A `SliceError` reports a request that was refused or a backend that failed (specification, §E3). What cannot be
decoded or evaluated is no error: it reads as empty or zero (§7 (a) and (c)).
-/

namespace TraceSlice

/-- Why an operation on a session fails. -/
inductive SliceError where
  /-- The backend cannot answer. -/
  | backend (cause : BackendError)
  /-- There is no tracked operand at the index. -/
  | invalidOperandIndex (index size : Nat)
  /-- There is no sliced instruction at the index. -/
  | invalidInstructionIndex (index size : Nat)
  /-- The expression names nothing that can be tracked. -/
  | invalidExpression (expression : String)
  /-- The architecture is not known. -/
  | unsupportedArchitecture (name : String)
deriving DecidableEq, Repr

/-- The wording of each `SliceError`. -/
def SliceError.message : SliceError → String
  | .backend cause => cause.message
  | .invalidOperandIndex index size =>
    "no tracked operand at index " ++ Text.decimal index ++ " (" ++ Text.decimal size ++ " tracked)"
  | .invalidInstructionIndex index size =>
    "no sliced instruction at index " ++ Text.decimal index ++ " (" ++ Text.decimal size ++ " in slice)"
  | .invalidExpression expression => "could not resolve expression `" ++ expression ++ "`"
  | .unsupportedArchitecture name => "unsupported architecture `" ++ name ++ "`"

end TraceSlice
