import TraceSlice.Expr.Token
import TraceSlice.Instruction

/-!
# Backends

A `Backend` holds a recorded execution and stands at one position of it. It answers questions about the machine at
that position and moves one instruction back or forth: the capability contract of the specification, §6. A decoder
sees it through a `View`, which has no failures.
-/

namespace TraceSlice

/-- Which way a backend moves. -/
inductive StepDirection where
  /-- To the instruction executed before. -/
  | backward
  /-- To the instruction executed next. -/
  | forward
deriving DecidableEq, Repr

/-- The word for a direction in a `BackendError`. -/
def StepDirection.render : StepDirection → String
  | .backward => "backward"
  | .forward => "forward"

/-- Why a backend cannot answer (specification, §E3). -/
inductive BackendError where
  /-- It cannot move. -/
  | failedToStep (direction : StepDirection)
  /-- There is no instruction at the address. -/
  | failedToDisassemble (pc : Word)
  /-- The byte at the address is not known. -/
  | failedToReadMemory (address : Word)
  /-- The expression has no value. -/
  | failedToEvaluate (expression : String) (cause : Option Expr.EvalError)
  /-- It has no such ability. -/
  | unsupported (ability : String)
deriving DecidableEq, Repr

/-- The wording of each `BackendError`. -/
def BackendError.message : BackendError → String
  | .failedToStep direction => "failed to step " ++ direction.render
  | .failedToDisassemble pc => "no instruction at " ++ Text.hex pc
  | .failedToReadMemory address => "failed to read memory at " ++ Text.hex address
  | .failedToEvaluate expression _ => "failed to evaluate `" ++ expression ++ "`"
  | .unsupported ability => "backend cannot " ++ ability

/-- A recorded execution that can be asked about its current position. `Replay` is one, and `Faulty` makes another out
of any. -/
class Backend (β : Type) where
  /-- The name of the architecture. -/
  architectureName : β → String
  /-- How many instructions were executed before the current one. -/
  position : β → Nat
  /-- The address of the current instruction. -/
  programCounter : β → Except BackendError Word
  /-- Moves one instruction back. At the start of history nothing changes, and that is no error. -/
  stepBackward : β → Except BackendError β
  /-- Moves one instruction forth. At the end of history nothing changes, and that is no error. -/
  stepForward : β → Except BackendError β
  /-- The text of the instruction at an address. -/
  disassemble : β → Word → Except BackendError String
  /-- A byte of memory as it was before the current instruction ran. -/
  readByte : β → Word → Except BackendError Byte
  /-- The value of an expression in which `$name` stands for a register. -/
  evaluate : β → String → Except BackendError Word
  /-- The value of an expression that is used as an address. -/
  evaluateAddress : β → String → Except BackendError Word := evaluate
  /-- Where the current instruction comes from. -/
  sourceLocation? : β → Option SourceLocation
  /-- The variable or function that covers an address. -/
  symbolFor? : β → Word → Option String
  /-- May code run at this address? -/
  isExecutable : β → Word → Bool
  /-- The number of the signal that ended the program. -/
  terminationSignal : β → Except BackendError Int32
  /-- Is the current instruction inside a call of the function? -/
  isInsideFunction : β → String → Bool := fun _ _ => false
  /-- Is the current instruction inside a call of a function from the file? -/
  isInsideFile : β → String → Bool := fun _ _ => false

/-- What a decoder sees of a machine. What the machine cannot answer reads as zero (specification, §7 (c)). -/
structure View where
  /-- The value of an expression. -/
  evaluate : String → Word
  /-- The value of an expression that is used as an address. -/
  evaluateAddress : String → Word
  /-- A byte of memory. -/
  byte : Word → Byte

/-- The view of `b` at its current position. -/
def Backend.view {β : Type} [Backend β] (b : β) : View where
  evaluate expression := (Backend.evaluate b expression).toOption.getD 0
  evaluateAddress expression := (Backend.evaluateAddress b expression).toOption.getD 0
  byte address := (Backend.readByte b address).toOption.getD 0

end TraceSlice
