import TraceSlice.Text.Numeral
import TraceSlice.Text.Blank

/-!
# Target architectures

An architecture is known by its `Description` (specification, §9 and §E6): its register families, the registers with a
special role, its system calls and its pointer width. Registers that name parts of one machine register form a
`RegisterGroup`; two registers are the same storage exactly if their groups have the same `canonical` name
(`Operand.same`).
-/

namespace TraceSlice

/-- The names of one machine register and its parts, widest first. -/
structure RegisterGroup where
  /-- The widest name, which identifies the group. -/
  canonical : String
  /-- The narrower names. -/
  aliases : List String
deriving DecidableEq, Repr

namespace RegisterGroup

/-- All names of the group, widest first. -/
def names (group : RegisterGroup) : List String := group.canonical :: group.aliases

/-- Does the group have this name? -/
def contains (group : RegisterGroup) (name : String) : Bool := group.names.contains name

end RegisterGroup

/-- A register: one name of a `RegisterGroup`. -/
structure Register where
  /-- The name in use. -/
  name : String
  /-- The group it belongs to. -/
  group : RegisterGroup
deriving DecidableEq, Repr

/-- A system call: what `Effect.syscall` needs to know of it. -/
structure Syscall where
  /-- The number that selects it. -/
  number : Word
  /-- Its name. -/
  name : String
  /-- How many argument registers it reads. -/
  arguments : Nat
deriving DecidableEq, Repr

/-- The description of an architecture. The decoder takes it as a parameter, so that one table of mnemonics serves all
architectures. -/
structure Description where
  /-- The name it goes by. -/
  name : String
  /-- The size of a pointer in bytes. -/
  pointerWidth : Nat
  /-- The register groups. -/
  registers : List RegisterGroup
  /-- Pseudo registers that always hold zero. -/
  zeroRegisters : List String
  /-- The top of the stack. -/
  stackPointer : String
  /-- The base of the current frame. -/
  framePointer : String
  /-- The program counter. -/
  instructionPointer : String
  /-- Where string operations read. -/
  sourceIndex : String
  /-- Where string operations write. -/
  destinationIndex : String
  /-- The counter of loops and repeated string operations. -/
  counter : String
  /-- The accumulator. -/
  accumulator : String
  /-- The upper half of wide products and quotients. -/
  data : String
  /-- Where functions and system calls leave their result. -/
  returnRegister : String
  /-- Where the number of a system call stands. -/
  syscallNumber : String
  /-- Where the arguments of a system call stand, in order. -/
  syscallArguments : List String
  /-- The known system calls. -/
  syscalls : List Syscall
  /-- The number of the system call that reads into a buffer. -/
  readSyscall : Word
  /-- The register that points at the buffer of that system call. -/
  readBuffer : String
  /-- Does interrupt 0x80 make a system call? -/
  legacySyscallGate : Bool

namespace Description

/-- Every register, group by group, each group in the order of `names`. -/
def allRegisters (arch : Description) : List Register :=
  arch.registers.flatMap fun group => group.names.map fun name => ⟨name, group⟩

/-- The register with the given name, if some group `contains` it. -/
def register? (arch : Description) (name : String) : Option Register :=
  arch.allRegisters.find? fun register => register.name == name

/-- The group with a register of the given name. -/
def group? (arch : Description) (name : String) : Option RegisterGroup :=
  (arch.register? name).map (·.group)

/-- The longer of two register names; the later one if they are equally long. `registerAtHead?` folds it. -/
def longer (best : Option Register) (register : Register) : Option Register :=
  match best with
  | none => some register
  | some other => if other.name.length ≤ register.name.length then some register else some other

/-- The longest register name that `text` starts with. -/
def registerAtHead? (arch : Description) (text : List Char) : Option Register :=
  (arch.allRegisters.filter fun register => register.name.toList.isPrefixOf text).foldl longer none

/-- The first of `zeroRegisters` that `text` starts with. -/
def zeroRegisterAtHead? (arch : Description) (text : List Char) : Option String :=
  arch.zeroRegisters.find? fun name => name.toList.isPrefixOf text

/-- Does the name belong to a zero register? -/
def isZeroRegister (arch : Description) (name : String) : Bool := arch.zeroRegisters.contains name

/-- Does the group hold the stack, frame or instruction pointer? Its registers are the ones `Session.isIgnored` passes
over unless the stack is monitored. -/
def isPointerGroup (arch : Description) (group : RegisterGroup) : Bool :=
  group.contains arch.stackPointer || group.contains arch.framePointer ||
    group.contains arch.instructionPointer

/-- The system call with the given number. -/
def syscall? (arch : Description) (number : Word) : Option Syscall :=
  arch.syscalls.find? fun call => call.number == number

/-- `value` read as a signed integer of pointer width. -/
def signed (arch : Description) (value : Word) : Int :=
  if arch.pointerWidth = 4 then
    if value.toNat % UInt32.size < 0x80000000 then ((value.toNat % UInt32.size : Nat) : Int)
    else ((value.toNat % UInt32.size : Nat) : Int) - UInt32.size
  else value.toSigned

end Description

end TraceSlice
