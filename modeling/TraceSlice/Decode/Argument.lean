import TraceSlice.Decode.Address

/-!
# Textual arguments

An `argument` of an instruction is a memory operand, a number, a zero register or a register, judged by its text. Text
that is none of these, and memory of a thread-local segment, stands for nothing: a decode gap (specification, §7 (a)),
not an error.
-/

namespace TraceSlice.Decode

/-- The number of bytes that a size keyword such as `DWORD` announces. -/
def sizeKeyword? : String → Option Nat
  | "BYTE" => some 1
  | "WORD" => some 2
  | "DWORD" => some 4
  | "FWORD" => some 6
  | "QWORD" => some 8
  | "TBYTE" => some 10
  | "TWORD" => some 10
  | "XMMWORD" => some 16
  | "OWORD" => some 16
  | "YMMWORD" => some 32
  | _ => none

/-- What decoding an argument depends on: the architecture, the `View` of the machine, and the target a comment gave.
-/
structure Context where
  /-- The architecture. -/
  arch : Description
  /-- The machine before the instruction runs. -/
  view : View
  /-- The address the disassembler computed for a relative operand. -/
  target : Option Word := none

namespace Context

/-- The operand of the register called `name`, if the architecture has it. -/
def registerOperand? (ctx : Context) (name : String) : Option Operand :=
  (ctx.arch.register? name).map fun register =>
    .ofRegister register (ctx.view.evaluate (registerExpression register.name))

/-- The use of the register called `name`; names the architecture does not have are not used. -/
def register (ctx : Context) (name : String) (direction : Direction) : List Use :=
  match ctx.registerOperand? name with
  | some operand => [⟨direction, operand⟩]
  | none => []

/-- The uses a memory operand stands for (`memoryUses`). -/
def memory (ctx : Context) (text : List Char) (width : Nat) (direction : Direction) : List Use :=
  memoryUses ctx.arch ctx.view ctx.target text width direction

/-- Is the text an absolute address after a segment prefix, or an address in brackets? -/
def isBareAddress (text : List Char) : Bool :=
  "[".toList.isPrefixOf text ||
    match segment? text with
    | some (_, rest) => "0x".toList.isPrefixOf rest
    | none => false

/-- The width and the expression of a memory operand with a size keyword: the keyword is the first word, and the
expression follows the word `PTR`. A keyword that `sizeKeyword?` does not know announces no bytes. -/
def sizedAddress (text : List Char) : Nat × List Char :=
  match Text.words text with
  | [] => (0, [])
  | keyword :: words =>
    ((sizeKeyword? (String.ofList keyword)).getD 0,
      Text.join [' '] ((words.dropWhile (· ≠ "PTR".toList)).drop 1))

/-- The use of an immediate or a register, or none if `text` is neither. A zero register is the immediate zero. -/
def scalar (ctx : Context) (text : List Char) (direction : Direction) : List Use :=
  if text.head?.any Char.isDigit then
    match Text.numeral? text with
    | some (value, _) => [⟨direction, .ofImmediate value⟩]
    | none => []
  else if ctx.arch.isZeroRegister (String.ofList text) then [⟨direction, .ofImmediate 0⟩]
  else ctx.register (String.ofList text) direction

/-- The uses that one textual argument stands for. A memory operand without a size keyword is as wide as a pointer of
the architecture, which settles the open question of the specification, §9. -/
def argument (ctx : Context) (text : List Char) (direction : Direction) : List Use :=
  let text := Text.trim text
  if text.isEmpty then []
  else if Text.contains "fs:".toList text || Text.contains "gs:".toList text then []
  else if isBareAddress text then ctx.memory text ctx.arch.pointerWidth direction
  else if Text.contains "PTR".toList text then
    ctx.memory (sizedAddress text).2 (sizedAddress text).1 direction
  else ctx.scalar text direction

end Context

end TraceSlice.Decode
