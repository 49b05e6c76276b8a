import TraceSlice.Decode.Argument

/-!
# Effects of instructions

An `Effect` says which textual arguments an instruction reads and writes, and which operands it touches without naming
them: stack slots, flags, index registers, the arguments of system calls. Most instructions are a `shape`; the others
are the special cases of the specification, §4.1 and §E9. `footprint` turns an effect into uses.
-/

namespace TraceSlice.Decode

/-- What a string operation does. -/
inductive StringOp where
  /-- Copies memory to memory. -/
  | move
  /-- Copies the accumulator to memory. -/
  | store
  /-- Copies memory to the accumulator. -/
  | load
  /-- Compares the accumulator with memory. -/
  | scan
  /-- Compares memory with memory. -/
  | compare
deriving DecidableEq, Repr

/-- Does the operation read through the source index? -/
def StringOp.usesSourceIndex : StringOp → Bool
  | .move | .load | .compare => true
  | .store | .scan => false

/-- Does the operation go through the destination index? -/
def StringOp.usesDestinationIndex : StringOp → Bool
  | .move | .store | .scan | .compare => true
  | .load => false

/-- The effect of an instruction on its operands. `families` gives each mnemonic one. -/
inductive Effect where
  /-- Each textual argument has a fixed direction. -/
  | shape (directions : List Direction)
  /-- As `xor eax,eax`: two sources of the same text only write the destination. -/
  | selfClearing
  /-- Computes an address without touching memory. -/
  | loadAddress
  /-- Blends two vectors, by a mask in a register if `masked`. -/
  | blend (masked : Bool)
  /-- Multiplies. -/
  | multiply
  /-- Divides. -/
  | divide
  /-- Compares with the accumulator and exchanges. -/
  | compareExchange
  /-- Widens the accumulator in place. -/
  | convertExtend
  /-- Widens the accumulator into the data register. -/
  | convertSplit
  /-- Loads the flags into a register. -/
  | loadFlags
  /-- Stores a register into the flags. -/
  | storeFlags
  /-- Adjusts the accumulator before a division. -/
  | adjustDivision
  /-- Counts down and jumps. -/
  | loop
  /-- A string operation, of the width of a pointer unless it gives one. -/
  | string (op : StringOp) (width : Option Nat)
  /-- Saves a value on the stack. -/
  | push
  /-- Restores a value from the stack. -/
  | pop
  /-- Saves the flags on the stack. -/
  | pushFlags
  /-- Restores the flags from the stack. -/
  | popFlags
  /-- Saves all general registers in slots of the given width. -/
  | pushAll (slot : Nat)
  /-- Restores all general registers from slots of the given width. -/
  | popAll (slot : Nat)
  /-- Calls a function. -/
  | call
  /-- Returns from a function. -/
  | nearReturn
  /-- Returns to another segment. -/
  | farReturn
  /-- Returns from an interrupt. -/
  | interruptReturn
  /-- Sets up a stack frame. -/
  | enter
  /-- Takes down a stack frame. -/
  | leave
  /-- Calls the system. -/
  | syscall
  /-- Raises an interrupt, which may call the system. -/
  | interrupt
deriving DecidableEq, Repr

/-- What an instruction uses, and the note that decoding leaves on it (`Instruction.annotate`). -/
structure Footprint where
  /-- The uses, in order. -/
  uses : List Use := []
  /-- The note. -/
  note : Option String := none
deriving DecidableEq, Repr

/-- The textual arguments of an instruction. -/
abbrev Arguments := List (List Char)

namespace Context

/-! ### Parts of effects -/

/-- The uses of the argument at `index`; a missing `argument` is not used. -/
def argumentAt (ctx : Context) (args : Arguments) (index : Nat) (direction : Direction) : List Use :=
  match args[index]? with
  | some text => ctx.argument text direction
  | none => []

/-- The uses of arguments with fixed directions, in order: the arity is that of `directions`, whatever is written. -/
def shape (ctx : Context) (args : Arguments) (directions : List Direction) : List Use :=
  (List.zipWith ctx.argument args directions).flatten

/-- `width` bytes of stack at `offset` bytes from its top, as the stack pointer of `ctx` has it. -/
def stackSlot (ctx : Context) (offset : Int) (width : Nat) (direction : Direction) : List Use :=
  let top := ctx.arch.stackPointer
  let text :=
    if offset = 0 then "[" ++ top ++ "]"
    else if offset < 0 then "[" ++ top ++ "-" ++ Text.hexNat offset.natAbs ++ "]"
    else "[" ++ top ++ "+" ++ Text.hexNat offset.natAbs ++ "]"
  ctx.memory text.toList width direction

/-- Memory at the address that `register` holds. -/
def indirect (ctx : Context) (register : String) (width : Nat) (direction : Direction) : List Use :=
  ctx.memory ("[" ++ register ++ "]").toList width direction

/-- The name of the accumulator's lowest `width` bytes, as a string operation without operands uses it. -/
def sizedAccumulator (ctx : Context) (width : Nat) : String :=
  match width with
  | 1 => "al"
  | 2 => "ax"
  | 4 => "eax"
  | _ => ctx.arch.accumulator

/-- Does the argument name a vector register? -/
def isVector (arg : List Char) : Bool :=
  "xmm".toList.isPrefixOf arg || "ymm".toList.isPrefixOf arg

/-- The general registers in the order in which `pushAll` saves them. -/
def savedRegisters (slot : Nat) : List String :=
  if slot = 2 then ["ax", "cx", "dx", "bx", "sp", "bp", "si", "di"]
  else ["eax", "ecx", "edx", "ebx", "esp", "ebp", "esi", "edi"]

/-- Saves all of `savedRegisters`: each below the one before. -/
def pushAll (ctx : Context) (slot : Nat) : List Use :=
  (savedRegisters slot).zipIdx.flatMap (fun (register, index) =>
    ctx.stackSlot (-((index + 1 : Nat) * slot : Int)) slot .destination ++
      ctx.register register .source) ++
    ctx.register ctx.arch.stackPointer .destination

/-- Restores all of `savedRegisters`, in reverse. The saved stack pointer, in the fourth slot, is discarded. -/
def popAll (ctx : Context) (slot : Nat) : List Use :=
  (savedRegisters slot).reverse.zipIdx.flatMap (fun (register, index) =>
    ctx.stackSlot ((index * slot : Nat) : Int) slot .source ++
      if index = 3 then [] else ctx.register register .destination) ++
    ctx.register ctx.arch.stackPointer .destination

/-- The operands of a string operation that are written out, each an `argument`. -/
def stringArguments (ctx : Context) (args : Arguments) : StringOp → List Use
  | .move | .store | .load => ctx.shape args [.destination, .source]
  | .scan | .compare => ctx.shape args [.source, .source]

/-- The operands of a string operation that are understood: memory through the index registers, and
`sizedAccumulator`. -/
def stringDefaults (ctx : Context) (width : Nat) : StringOp → List Use
  | .move =>
    ctx.indirect ctx.arch.sourceIndex width .source ++
      ctx.indirect ctx.arch.destinationIndex width .destination
  | .store =>
    ctx.indirect ctx.arch.destinationIndex width .destination ++
      ctx.register (ctx.sizedAccumulator width) .source
  | .load =>
    ctx.indirect ctx.arch.sourceIndex width .source ++
      ctx.register (ctx.sizedAccumulator width) .destination
  | .scan =>
    ctx.register (ctx.sizedAccumulator width) .source ++
      ctx.indirect ctx.arch.destinationIndex width .source
  | .compare =>
    ctx.indirect ctx.arch.sourceIndex width .source ++
      ctx.indirect ctx.arch.destinationIndex width .source

/-- A string operation. Vector instructions share some of its mnemonics, and are told apart by their arguments
(`isVector`). -/
def string (ctx : Context) (args : Arguments) (op : StringOp) (width : Option Nat) : List Use :=
  if args.any isVector then
    match op with
    | .compare => ctx.shape args [.both, .source, .source]
    | _ => ctx.shape args [.destination, .source]
  else
    (if args.isEmpty then ctx.stringDefaults (width.getD ctx.arch.pointerWidth) op
      else ctx.stringArguments args op) ++
    (if op.usesSourceIndex then ctx.register ctx.arch.sourceIndex .both else []) ++
    (if op.usesDestinationIndex then ctx.register ctx.arch.destinationIndex .both else [])

/-- A system call. `lastReturn` is what it returned: the system call that reads into a buffer has written as many
bytes as that says, if it is positive (`Description.signed`). A known call (`syscall?`) overwrites the register of its
number and reads its argument registers. -/
def syscall (ctx : Context) (lastReturn : Word) : Footprint :=
  let arch := ctx.arch
  let number := ctx.view.evaluate (registerExpression arch.syscallNumber)
  let buffer :=
    if number = arch.readSyscall ∧ 0 < arch.signed lastReturn then
      ctx.indirect arch.readBuffer lastReturn.toNat .destination
    else []
  match arch.syscall? number with
  | none => { uses := buffer }
  | some call =>
    { uses := buffer ++ ctx.register arch.syscallNumber .destination ++
        (arch.syscallArguments.take call.arguments).flatMap (ctx.register · .source)
      note := some ("<" ++ call.name ++ ">") }

/-- A return that pops the given number of stack slots. -/
def returnUses (ctx : Context) (slots : Nat) : List Use :=
  ctx.register ctx.arch.instructionPointer .destination ++
    ctx.register ctx.arch.stackPointer .destination ++
    (List.range slots).flatMap fun index =>
      ctx.stackSlot ((index * ctx.arch.pointerWidth : Nat) : Int) ctx.arch.pointerWidth .source

/-- The uses of an effect that does not call the system; for the others see `footprint`. -/
def uses (ctx : Context) (args : Arguments) : Effect → List Use
  | .shape directions => ctx.shape args directions
  | .selfClearing =>
    match args with
    | [dst, a, b] =>
      if a = b then ctx.argument dst .destination
      else ctx.shape args [.destination, .source, .source]
    | [dst, src] =>
      if dst = src then ctx.argument dst .destination else ctx.shape args [.both, .source]
    | _ => ctx.shape args [.both, .source]
  | .loadAddress =>
    ctx.argumentAt args 0 .destination ++
      match args[1]? with
      | some text => ctx.memory text 0 .source
      | none => []
  | .blend masked =>
    ctx.shape args [.both, .source] ++
      if masked then
        match args[2]? with
        | some mask => ctx.argument mask .source
        | none => ctx.register "xmm0" .source
      else []
  | .multiply =>
    match args.length with
    | 1 =>
      ctx.argumentAt args 0 .source ++ ctx.register ctx.arch.accumulator .both ++
        ctx.register ctx.arch.data .destination
    | 2 => ctx.shape args [.both, .source]
    | _ => ctx.shape args [.destination, .source, .source]
  | .divide =>
    ctx.argumentAt args 0 .source ++ ctx.register ctx.arch.accumulator .both ++
      ctx.register ctx.arch.data .both
  | .compareExchange =>
    ctx.shape args [.both, .source] ++ ctx.register ctx.arch.accumulator .both
  | .convertExtend => ctx.register ctx.arch.accumulator .both
  | .convertSplit =>
    ctx.register ctx.arch.accumulator .source ++ ctx.register ctx.arch.data .destination
  | .loadFlags => ctx.register "eflags" .source ++ ctx.register "ah" .destination
  | .storeFlags => ctx.register "ah" .source ++ ctx.register "eflags" .destination
  | .adjustDivision => ctx.register "ah" .source ++ ctx.register "al" .both
  | .loop => ctx.argumentAt args 0 .source ++ ctx.register ctx.arch.counter .both
  | .string op width => ctx.string args op width
  | .push =>
    ctx.stackSlot (-ctx.arch.pointerWidth) ctx.arch.pointerWidth .destination ++
      ctx.register ctx.arch.stackPointer .destination ++ ctx.argumentAt args 0 .source
  | .pop =>
    ctx.stackSlot 0 ctx.arch.pointerWidth .source ++
      ctx.register ctx.arch.stackPointer .destination ++ ctx.argumentAt args 0 .destination
  | .pushFlags =>
    ctx.stackSlot (-ctx.arch.pointerWidth) ctx.arch.pointerWidth .destination ++
      ctx.register ctx.arch.stackPointer .destination ++ ctx.register "eflags" .source
  | .popFlags =>
    ctx.stackSlot 0 ctx.arch.pointerWidth .source ++
      ctx.register ctx.arch.stackPointer .destination ++ ctx.register "eflags" .destination
  | .pushAll slot => if ctx.arch.pointerWidth = 4 then ctx.pushAll slot else []
  | .popAll slot => if ctx.arch.pointerWidth = 4 then ctx.popAll slot else []
  | .call =>
    ctx.argumentAt args 0 .source ++ ctx.register ctx.arch.instructionPointer .destination ++
      ctx.register ctx.arch.stackPointer .destination ++
      ctx.stackSlot (-ctx.arch.pointerWidth) ctx.arch.pointerWidth .destination
  | .nearReturn => ctx.returnUses 1
  | .farReturn => ctx.returnUses 2
  | .interruptReturn => ctx.returnUses 3
  | .enter =>
    ctx.stackSlot (-ctx.arch.pointerWidth) ctx.arch.pointerWidth .destination ++
      ctx.register ctx.arch.framePointer .both ++ ctx.register ctx.arch.stackPointer .destination
  | .leave =>
    ctx.register ctx.arch.framePointer .destination ++
      ctx.register ctx.arch.stackPointer .destination ++
      ctx.indirect ctx.arch.framePointer ctx.arch.pointerWidth .source
  | .syscall | .interrupt => []

/-- The footprint of an effect. An interrupt is a `syscall` if it goes through the legacy gate. -/
def footprint (ctx : Context) (args : Arguments) (lastReturn : Word) : Effect → Footprint
  | .syscall => ctx.syscall lastReturn
  | .interrupt =>
    if args.head? = some "0x80".toList ∧ ctx.arch.legacySyscallGate then ctx.syscall lastReturn
    else {}
  | effect => { uses := ctx.uses args effect }

end Context

end TraceSlice.Decode
