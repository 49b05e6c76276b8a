import TraceSlice.Backend.Basic

/-!
# A backend that refuses requests

Debuggers fail: a step may time out, memory may be unreadable. A `Faulty` backend wraps another one and refuses the
requests that its `Faults` name, so that what a session does about failures can be seen. It knows nothing of call
stacks.
-/

namespace TraceSlice

/-- The requests that are refused. -/
structure Faults where
  /-- Positions at which moving fails. -/
  stepAt : List Nat := []
  /-- Positions at which the program counter cannot be read. -/
  pcAt : List Nat := []
  /-- Addresses that cannot be disassembled. -/
  disassemble : List Word := []
  /-- Addresses that cannot be read. -/
  read : List Word := []
  /-- Expressions that cannot be evaluated. -/
  eval : List String := []
  /-- What is added to the value of every expression that is used as an address. -/
  bias : Word := 0
deriving DecidableEq, Repr

/-- A backend with faults. -/
structure Faulty (β : Type) where
  /-- The backend that answers. -/
  inner : β
  /-- The requests it refuses. -/
  faults : Faults

namespace Faulty

variable {β : Type} [Backend β]

/-- Moves by `move` unless the current position is one where `Faults` says that moving fails. -/
def step (b : Faulty β) (direction : StepDirection) (move : β → Except BackendError β) :
    Except BackendError (Faulty β) :=
  if b.faults.stepAt.contains (Backend.position b.inner) then .error (.failedToStep direction)
  else
    match move b.inner with
    | .ok inner => .ok { b with inner }
    | .error err => .error err

/-- Evaluates an expression unless `Faults` names it as refused. -/
def evaluate (b : Faulty β) (expression : String) : Except BackendError Word :=
  if b.faults.eval.contains expression then .error (.failedToEvaluate expression none)
  else Backend.evaluate b.inner expression

instance : Backend (Faulty β) where
  architectureName b := Backend.architectureName b.inner
  position b := Backend.position b.inner
  programCounter b :=
    if b.faults.pcAt.contains (Backend.position b.inner) then
      .error (.unsupported "read the program counter")
    else Backend.programCounter b.inner
  stepBackward b := b.step .backward Backend.stepBackward
  stepForward b := b.step .forward Backend.stepForward
  disassemble b address :=
    if b.faults.disassemble.contains address then .error (.failedToDisassemble address)
    else Backend.disassemble b.inner address
  readByte b address :=
    if b.faults.read.contains address then .error (.failedToReadMemory address)
    else Backend.readByte b.inner address
  evaluate := evaluate
  evaluateAddress b expression :=
    match b.evaluate expression with
    | .ok value => .ok (value + b.faults.bias)
    | .error err => .error err
  sourceLocation? b := Backend.sourceLocation? b.inner
  symbolFor? b := Backend.symbolFor? b.inner
  isExecutable b := Backend.isExecutable b.inner
  terminationSignal b := Backend.terminationSignal b.inner

end Faulty

end TraceSlice
