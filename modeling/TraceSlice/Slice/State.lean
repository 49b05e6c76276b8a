import TraceSlice.Slice.Error
import TraceSlice.Slice.Signal
import TraceSlice.Slice.Tracked

/-!
# The state of a slice

What a session has found so far (specification, §3 and §E8): the operands it still traces back (`Slice.tracked`), the
instructions that joined the slice, newest execution first (`Slice.instructions`), and the operand the user follows
(`Slice.followed`). An operation that can fail returns the slice together with its answer, so that what a failure
leaves behind is part of the definition.
-/

namespace TraceSlice

/-- The state of a slice. -/
structure Slice where
  /-- The operands being traced back. -/
  tracked : Tracked := {}
  /-- The instructions of the slice, in the order in which they joined it. -/
  instructions : List Instruction := []
  /-- The operand whose next write ends a walk. -/
  followed : Option Operand := none
  /-- The signal that ended the program. -/
  signal : Option Signal := none
  /-- The address of the instruction to be looked at next. -/
  pc : Word := 0
  /-- Has nobody asked to stop? -/
  running : Bool := true
deriving DecidableEq, Repr

namespace Slice

/-- Is the operand the followed one, by `Operand.same`? -/
def isFollowed (slice : Slice) (operand : Operand) : Bool :=
  match slice.followed with
  | some followed => followed.same operand
  | none => false

/-- Tracks an operand (`Tracked.insert`), and answers whether it is new. -/
def addOperand (slice : Slice) (operand : Operand) : Slice × Bool :=
  let (tracked, added) := slice.tracked.insert operand
  ({ slice with tracked }, added)

/-- Stops tracking the operand at `index`, and following it. The answer is the operand. -/
def removeOperand (slice : Slice) (index : Nat) : Slice × Except SliceError Operand :=
  match slice.tracked.get? index with
  | none => (slice, .error (.invalidOperandIndex index slice.tracked.size))
  | some operand =>
    ({ slice with
        tracked := slice.tracked.eraseIdx index
        followed := if slice.isFollowed operand then none else slice.followed },
      .ok operand)

/-- Follows the tracked operand at an index, or none; an index out of range is refused. -/
def setFollowed (slice : Slice) : Option Nat → Slice × Except SliceError Unit
  | none => ({ slice with followed := none }, .ok ())
  | some index =>
    match slice.tracked.get? index with
    | none => (slice, .error (.invalidOperandIndex index slice.tracked.size))
    | some operand => ({ slice with followed := some operand }, .ok ())

/-- Lets an instruction join the slice. -/
def pushInstruction (slice : Slice) (insn : Instruction) : Slice :=
  { slice with instructions := slice.instructions ++ [insn] }

/-- Takes the instruction at `index` out of the slice. The answer is the instruction. -/
def removeInstruction (slice : Slice) (index : Nat) : Slice × Except SliceError Instruction :=
  match slice.instructions[index]? with
  | none => (slice, .error (.invalidInstructionIndex index slice.instructions.length))
  | some insn => ({ slice with instructions := slice.instructions.eraseIdx index }, .ok insn)

/-- Asks a walk to stop before its next instruction (specification, §5): `running` is looked at once a turn. -/
def stop (slice : Slice) : Slice := { slice with running := false }

/-! ### Listings -/

/-- The tracked operands, numbered from one, with a mark on the one that `isFollowed`. -/
def operandListing (slice : Slice) : String :=
  "--- operand list ---\n" ++
    String.join (slice.tracked.toList.zipIdx.map fun (operand, index) =>
      Text.decimal (index + 1) ++ "\t" ++ operand.render ++
        (if slice.isFollowed operand then " (following)" else "") ++ "\n")

/-- Does the instruction only keep stack frames? `instructionListing` may leave such instructions out. -/
def isFrameInstruction (insn : Instruction) : Bool := ["call", "ret", "leave"].contains insn.mnemonic

/-- `count` instructions of the slice, or all, from the one numbered `start` on; numbers start at one. With `hide`, a
listing that is not verbose leaves out instructions that only keep stack frames (`isFrameInstruction`); the others
keep their numbers. -/
def instructionListing (slice : Slice) (start : Nat) (count : Option Nat) (verbose hide : Bool) :
    String :=
  "--- slice instructions ---\n" ++
    if slice.instructions.isEmpty then "no instructions\n"
    else
      let chosen := slice.instructions.zipIdx.drop (start - 1)
      let chosen :=
        match count with
        | some n => chosen.take n
        | none => chosen
      let shown := chosen.filter fun entry => !(hide && !verbose && isFrameInstruction entry.1)
      String.join (shown.map fun (insn, index) =>
        Text.decimal (index + 1) ++ "\t" ++ insn.render verbose ++ "\n")

end Slice

end TraceSlice
