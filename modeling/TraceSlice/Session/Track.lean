import TraceSlice.Session.Basic

/-!
# Tracking on request

Users track registers, memory operands and single bytes by expression (`addExpression`), or everything that the
current instruction reads (`addCurrentInstruction`), as the specification says in §E8. What an expression names is
looked up first (`resolve`); only then is any of it tracked. Like `reverseStep`, these operations return the session
together with their answer.
-/

namespace TraceSlice.Session

variable {β : Type} [Backend β]

/-- The bytes that a memory operand names, without the registers of its address (`Decode.Context.argument`). -/
def memoryBytes (s : Session β) (text : List Char) : List Operand :=
  let ctx : Decode.Context := { arch := s.arch.description, view := Backend.view s.backend }
  (Use.sources (ctx.argument text .source)).filter Operand.isMemory

/-- The operands that an expression names: a register after `$`, the bytes of a memory operand, or else
the single byte at the address that the expression denotes. -/
def resolve (s : Session β) (expression : String) : Except SliceError (List Operand) :=
  let text := Text.trim expression.toList
  let trimmed := String.ofList text
  if text.head? = some '$' then
    match s.arch.description.register? (String.ofList (text.drop 1)) with
    | none => .error (.invalidExpression trimmed)
    | some register =>
      match Backend.evaluate s.backend (Decode.registerExpression register.name) with
      | .error err => .error (.backend err)
      | .ok value => .ok [.ofRegister register value]
  else if Text.contains "PTR".toList text || text.head? = some '[' then
    let bytes := s.memoryBytes text
    if bytes.isEmpty then .error (.invalidExpression trimmed) else .ok bytes
  else
    match Backend.evaluateAddress s.backend trimmed with
    | .error err => .error (.backend err)
    | .ok address =>
      match Backend.readByte s.backend address with
      | .error err => .error (.backend err)
      | .ok byte => .ok [.ofMemory address byte]

/-- Tracks operands one after the other (`Tracked.extend`). -/
def addOperands (s : Session β) (operands : List Operand) : Session β :=
  { s with slice := { s.slice with tracked := s.slice.tracked.extend operands } }

/-- Tracks what an expression names (`resolve`), and answers how many operands are new. -/
def addExpression (s : Session β) (expression : String) : Session β × Except SliceError Nat :=
  match s.resolve expression with
  | .error err => (s, .error err)
  | .ok operands =>
    let (tracked, count) := s.slice.tracked.insertAll (operands.map s.withSymbol)
    ({ s with slice := { s.slice with tracked } }, .ok count)

/-- Adds the instruction at the current position to the slice and tracks what it reads (`trackableSources`). -/
def addCurrentInstruction (s : Session β) : Session β × Except SliceError Unit :=
  match Backend.programCounter s.backend with
  | .error err => (s, .error (.backend err))
  | .ok pc =>
    let s := s.withPc pc
    let insn := s.locate (s.instructionAt pc)
    let s := (s.remember insn).addOperands (s.trackableSources insn)
    ({ s with slice := s.slice.pushInstruction insn }, .ok ())

/-- The sliced instructions one to a line (`Instruction.renderLines`): what a saved slice holds. -/
def saved (s : Session β) : String := Instruction.renderLines s.slice.instructions

end TraceSlice.Session
