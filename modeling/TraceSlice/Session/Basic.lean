import TraceSlice.Arch.Select
import TraceSlice.Config
import TraceSlice.Decode.Basic
import TraceSlice.Slice.State

/-!
# Sessions

A `Session` is a backend together with everything that changes while slicing. This module starts sessions (`start`),
decodes instructions with their session's knowledge (`instructionAt`, `locate`), and steps back through history
(`reverseStep`; specification, §4.3, step 6).
-/

namespace TraceSlice

/-- What hooks write into the `journal`. -/
inductive Note where
  /-- An instruction wrote tracked operands. -/
  | matched (hook : Option String) (pc : Word) (written newSources : List Operand)
      (tracked sliced : Nat)
  /-- A crashed session has been seeded. -/
  | started (pc : Word) (texts : List String)
  /-- An expression has been tracked, with this many new operands. -/
  | tracking (count : Nat)
  /-- An operation failed. -/
  | failed (cause : SliceError)
deriving DecidableEq, Repr

/-- A slicing session over a backend; the walk, the seeding and the requests all change one of these. -/
structure Session (β : Type) where
  /-- The recorded execution. -/
  backend : β
  /-- The architecture. -/
  arch : Arch
  /-- The configuration it was started with. -/
  config : Config
  /-- Are stack, frame and instruction pointers tracked? -/
  monitorStack : Bool
  /-- The value of the return register before the last step back. -/
  lastReturn : Word := 0
  /-- The address decoded last, and whether the instruction there repeats. -/
  decoded : Option (Word × Bool) := none
  /-- What has been found. -/
  slice : Slice := {}
  /-- Has the culprit of a corruption been named? -/
  culpritFound : Bool := false
  /-- What hooks have written down, oldest first. -/
  journal : List Note := []

namespace Session

variable {β : Type} [Backend β]

/-- Starts a session at the backend's position, with the architecture that `Arch.ofName?` finds. -/
def start (backend : β) (config : Config) : Except SliceError (Session β) :=
  match Arch.ofName? (Backend.architectureName backend) with
  | none => .error (.unsupportedArchitecture (Backend.architectureName backend))
  | some arch =>
    match Backend.programCounter backend with
    | .error err => .error (.backend err)
    | .ok pc => .ok { backend, arch, config, monitorStack := config.monitorStack, slice := { pc } }

/-! ### Small updates -/

/-- Replaces the address to be looked at next. -/
def withPc (s : Session β) (pc : Word) : Session β := { s with slice := { s.slice with pc } }

/-- Asks the walk to stop (`Slice.stop`). -/
def stop (s : Session β) : Session β := { s with slice := s.slice.stop }

/-- Writes a note into the `journal`. -/
def note (s : Session β) (entry : Note) : Session β := { s with journal := s.journal ++ [entry] }

/-! ### Decoding -/

/-- The instruction at `pc`, as `Decode.decode` sees it on the machine at the current position. An address without an
instruction has an empty text. -/
def instructionAt (s : Session β) (pc : Word) : Instruction :=
  Decode.decode s.arch.description (Backend.view s.backend) s.lastReturn pc
    ((Backend.disassemble s.backend pc).toOption.getD "")

/-- Remembers that an instruction was decoded; `repeatsAt` asks for it. -/
def remember (s : Session β) (insn : Instruction) : Session β :=
  { s with decoded := some (insn.pc, insn.isRepeating) }

/-- Is the operand left untracked? Immediates are, and so are stack, frame and instruction pointers (`isPointerGroup`)
unless `monitorStack` (specification, §4.3, step 4). -/
def isIgnored (s : Session β) (operand : Operand) : Bool :=
  operand.isImmediate ||
    match operand.register? with
    | some register => !s.monitorStack && s.arch.description.isPointerGroup register.group
    | none => false

/-- The operands that an instruction contributes to the tracked set: its sources but for those that `isIgnored`. -/
def trackableSources (s : Session β) (insn : Instruction) : List Operand :=
  insn.sources.filter fun operand => !s.isIgnored operand

/-- Where the current instruction comes from, if `Config.showsLines`. -/
def sourceLocation? (s : Session β) : Option SourceLocation :=
  if s.config.showsLines then Backend.sourceLocation? s.backend else none

/-- Gives an operand in memory the name of its variable, if `Config.showsNames`. -/
def withSymbol (s : Session β) (operand : Operand) : Operand :=
  if s.config.showsNames then
    match operand.address? with
    | some address => { operand with symbol := Backend.symbolFor? s.backend address }
    | none => operand
  else operand

/-- Attaches the debug information that the configuration asks for: `sourceLocation?` and `withSymbol`. -/
def locate (s : Session β) (insn : Instruction) : Instruction :=
  { insn with
    location := s.sourceLocation?
    sources := insn.sources.map s.withSymbol
    destinations := insn.destinations.map s.withSymbol }

/-! ### Stepping back -/

/-- The value of the counter register, by which a repeating instruction shows that it moved. -/
def counter? (s : Session β) : Option Word :=
  (Backend.evaluate s.backend
    (Decode.registerExpression s.arch.description.counter)).toOption

/-- Records the value of the return register in `lastReturn`, for the system call that the next step back may meet. -/
def recordReturn (s : Session β) : Session β :=
  { s with
    lastReturn :=
      (Backend.view s.backend).evaluate
        (Decode.registerExpression s.arch.description.returnRegister) }

/-- Does the instruction at `pc` repeat in place? The last `decoded` instruction is known; of any other the text
decides. -/
def repeatsAt (s : Session β) (pc : Word) : Bool :=
  let ofText :=
    match Backend.disassemble s.backend pc with
    | .ok text => Instruction.isRepeatPrefix (String.ofList (Text.trimStart text.toList))
    | .error _ => false
  match s.decoded with
  | some (address, repeating) => if address = pc then repeating else ofText
  | none => ofText

/-- Steps one instruction back. The answer is false once history is exhausted: the program counter did not move, nor
did the `counter?` of an instruction that repeats in place (specification, §E9). -/
def reverseStep (s : Session β) : Session β × Except SliceError Bool :=
  let recorded := s.recordReturn
  match Backend.stepBackward s.backend with
  | .error err => (recorded, .error (.backend err))
  | .ok backend =>
    let moved := { recorded with backend }
    match Backend.programCounter backend with
    | .error err => (moved, .error (.backend err))
    | .ok pc =>
      let arrived := moved.withPc pc
      if pc ≠ s.slice.pc then (arrived, .ok true)
      else
        (arrived, .ok (arrived.repeatsAt s.slice.pc && s.counter?.isSome && arrived.counter? != s.counter?))

end Session

end TraceSlice
