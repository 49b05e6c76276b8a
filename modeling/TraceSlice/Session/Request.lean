import TraceSlice.Session.Triage

/-!
# Requests

What users ask of a session (specification, §E8), as data, so that a whole dialogue is a list of `Request`s. Every
request is performed by one function (`Session.perform`), which returns the session and the reply together: a request
that fails says in what state it leaves the session.
-/

namespace TraceSlice

/-- Something that a user asks of a session. -/
inductive Request where
  /-- Track what an expression names (`addExpression`). -/
  | track (expression : String)
  /-- Add the current instruction to the slice and track what it reads (`addCurrentInstruction`). -/
  | current
  /-- Stop tracking the operand at an index (`Slice.removeOperand`). -/
  | removeOperand (index : Nat)
  /-- Follow the tracked operand at an index, or none (`Slice.setFollowed`). -/
  | follow (index : Option Nat)
  /-- Take the instruction at an index out of the slice (`Slice.removeInstruction`). -/
  | removeInstruction (index : Nat)
  /-- Stop. -/
  | stop
  /-- Step back (`reverseStep`). -/
  | back
  /-- Walk back (`compute`). -/
  | compute (mode : StepMode)
deriving DecidableEq, Repr

/-- What a session replies to a request that succeeds; `Session.perform` puts failures beside it. -/
inductive Reply where
  /-- It is done. -/
  | done
  /-- So many operands are newly tracked. -/
  | tracking (count : Nat)
  /-- This operand is no longer tracked. -/
  | removed (operand : Operand)
  /-- This instruction is no longer part of the slice. -/
  | removedInstruction (insn : Instruction)
  /-- Was the step back progress? -/
  | stepped (progress : Bool)
  /-- The walk has ended so. -/
  | walked (outcome : Outcome)
deriving DecidableEq, Repr

namespace Session

variable {β : Type} [Backend β]

/-- Performs a request. `hooks` are those that run while walking. -/
def perform (hooks : List Hook) (s : Session β) : Request → Session β × Except SliceError Reply
  | .track expression =>
    let (s, answer) := s.addExpression expression
    (s, answer.map .tracking)
  | .current =>
    let (s, answer) := s.addCurrentInstruction
    (s, answer.map fun _ => .done)
  | .removeOperand index =>
    let (slice, answer) := s.slice.removeOperand index
    ({ s with slice }, answer.map .removed)
  | .follow index =>
    let (slice, answer) := s.slice.setFollowed index
    ({ s with slice }, answer.map fun _ => .done)
  | .removeInstruction index =>
    let (slice, answer) := s.slice.removeInstruction index
    ({ s with slice }, answer.map .removedInstruction)
  | .stop => (s.stop, .ok .done)
  | .back =>
    let (s, answer) := s.reverseStep
    (s, answer.map .stepped)
  | .compute mode =>
    let (s, answer) := s.compute hooks mode
    (s, answer.map .walked)

end Session

/-- `Session.perform` with the slicer's hooks. -/
def Slicer.perform {β : Type} [Backend β] (slicer : Slicer β) (request : Request) :
    Slicer β × Except SliceError Reply :=
  let (session, reply) := slicer.session.perform slicer.hooks.onMatch request
  ({ slicer with session }, reply)

end TraceSlice
