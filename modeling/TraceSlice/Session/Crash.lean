import TraceSlice.Session.Walk

/-!
# Seeding a crashed session

The signal that ended a program says what to trace back (specification, §4.4). After a bad access these are the
registers that formed the address, and all that was read if the stack itself was at fault (`isStackFault`); after an
arithmetic fault the registers that formed an address; after a jump out of the code the instruction pointer
(`seedInvalidPc`). An abort says nothing by itself. `seed` chooses.
-/

namespace TraceSlice

/-- What seeding came to. -/
inductive SeedReport where
  /-- Nothing was seeded; hooks are expected to take over. -/
  | abort
  /-- The program counter left the executable memory; the instruction pointer is tracked. -/
  | invalidProgramCounter (pc : Word)
  /-- An access failed. -/
  | invalidAccess (signal : Signal) (seeded : Nat) (monitorStack : Bool)
  /-- An arithmetic operation failed. -/
  | arithmetic (seeded : Nat)
  /-- The signal says nothing. -/
  | unhandled (signal : Signal)
deriving DecidableEq, Repr

/-- Was there anything to go on? Only an `unhandled` signal says that there was not. -/
def SeedReport.isHandled : SeedReport → Bool
  | .unhandled _ => false
  | _ => true

namespace Session

variable {β : Type} [Backend β]

/-- Do faults of the mnemonic come from the stack itself? `suspects` then holds all that was read. -/
def isStackFault (mnemonic : String) : Bool := ["ret", "leave", "pop", "push"].contains mnemonic

/-- The sources of a faulting instruction that are to blame: all of them after a stack fault, and else the registers
that formed an address (`isMemoryAccess`). -/
def suspects (stackFault : Bool) (insn : Instruction) : List Operand :=
  insn.sources.filter fun operand => stackFault || (operand.isRegister && operand.isMemoryAccess)

/-- Is the operand a stack, frame or instruction pointer? One among the seeds switches `monitorStack` on. -/
def isPointer (s : Session β) (operand : Operand) : Bool :=
  operand.register?.any fun register => s.arch.description.isPointerGroup register.group

/-- Seeds from the instruction that faulted: its `suspects` are tracked, and it joins the slice. -/
def seedFault (s : Session β) (signal : Signal) (pc : Word) : SeedReport × Session β :=
  let insn := s.locate (s.instructionAt pc)
  let arithmetic := signal == .floatingPoint
  let suspected := suspects (!arithmetic && isStackFault insn.mnemonic) insn
  let monitor := !arithmetic && suspected.any s.isPointer
  let (tracked, count) := s.slice.tracked.insertAll suspected
  let seeded :=
    { s.remember insn with
      slice := { s.slice with tracked }.pushInstruction insn
      monitorStack := s.monitorStack || monitor }
  (if arithmetic then .arithmetic count else .invalidAccess signal count monitor, seeded)

/-- Seeds from a program counter outside the executable memory: the instruction pointer itself, with `monitorStack`
on. -/
def seedInvalidPc (s : Session β) (pc : Word) : Except SliceError (SeedReport × Session β) :=
  let name := s.arch.description.instructionPointer
  match s.arch.description.register? name with
  | none => .error (.invalidExpression name)
  | some register =>
    .ok (.invalidProgramCounter pc,
      { s.addOperands [.ofRegister register pc] with monitorStack := true })

/-- Seeds the tracked operands from the way the program ended. A program counter outside the executable memory
(`seedInvalidPc`) counts whichever signal reported it. -/
def seed (s : Session β) : Except SliceError (SeedReport × Session β) :=
  match Backend.terminationSignal s.backend with
  | .error err => .error (.backend err)
  | .ok number =>
    let signal := Signal.ofNumber number
    let s := { s with slice := { s.slice with signal := some signal } }
    if signal = .abort then .ok (.abort, s)
    else
      match Backend.programCounter s.backend with
      | .error err => .error (.backend err)
      | .ok pc =>
        let s := s.withPc pc
        if !Backend.isExecutable s.backend pc then s.seedInvalidPc pc
        else if signal = .bus ∨ signal = .segmentationFault ∨ signal = .floatingPoint then
          .ok (s.seedFault signal pc)
        else .ok (.unhandled signal, s)

end Session

end TraceSlice
