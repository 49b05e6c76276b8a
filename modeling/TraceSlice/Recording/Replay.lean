import TraceSlice.Arch.Select
import TraceSlice.Backend.Basic
import TraceSlice.Expr.Eval
import TraceSlice.Recording.Format

/-!
# Replaying a recording

A `Replay` stands on one step of a recording (specification, §E11). The steps before it are its `past`, newest first,
so that looking a register or a byte of memory up is a search back through the past (`registerValue?`, `byte?`);
memory changes only after a step, while register values are those before it. The module ends with the `Backend`
instance.
-/

namespace TraceSlice

/-- A recording with a current step. -/
structure Replay where
  /-- What is known of the process as a whole. -/
  process : Process
  /-- The architecture. -/
  arch : Arch
  /-- The steps before the current one, newest first. -/
  past : List Step
  /-- The current step. -/
  current : Step
  /-- The steps after the current one, oldest first. -/
  future : List Step
deriving DecidableEq, Repr

/-- Why a recording cannot be replayed: it is no recording, has no steps, or is of an unknown architecture. -/
inductive ReplayError where
  /-- Its text is not that of a recording. -/
  | malformed
  /-- It has no steps. -/
  | emptyRecording
  /-- Its architecture is not known. -/
  | unsupportedArchitecture (name : String)
deriving DecidableEq, Repr

/-- The error's wording. -/
def ReplayError.message : ReplayError → String
  | .malformed => "malformed recording"
  | .emptyRecording => "recording has no steps"
  | .unsupportedArchitecture name => "unsupported architecture `" ++ name ++ "`"

namespace Replay

/-! ### Opening -/

/-- A replay of `recording`, standing on its newest step. -/
def ofRecording (recording : Recording) : Except ReplayError Replay :=
  match recording.steps.reverse with
  | [] => .error .emptyRecording
  | newest :: older =>
    match Arch.ofName? recording.archName with
    | none => .error (.unsupportedArchitecture recording.archName)
    | some arch => .ok ⟨recording.toProcess, arch, older, newest, []⟩

/-- A replay of the recording with the given text (`Recording.parse?`). -/
def ofText (text : String) : Except ReplayError Replay :=
  match Recording.parse? text with
  | some recording => ofRecording recording
  | none => .error .malformed

/-! ### Steps -/

/-- All steps, oldest first: `back` and `forth` move along them. -/
def steps (replay : Replay) : List Step := replay.past.reverse ++ replay.current :: replay.future

/-- How many steps lie before the current one; a step is named by it. -/
def position (replay : Replay) : Nat := replay.past.length

/-- The replay one step earlier; the same replay if there is no earlier step. -/
def back (replay : Replay) : Replay :=
  match replay.past with
  | [] => replay
  | step :: older => { replay with past := older, current := step, future := replay.current :: replay.future }

/-- The replay one step later; the same replay if there is no later step. -/
def forth (replay : Replay) : Replay :=
  match replay.future with
  | [] => replay
  | step :: newer => { replay with past := replay.current :: replay.past, current := step, future := newer }

/-- `back` keeps the steps. -/
@[simp] theorem steps_back (replay : Replay) : replay.back.steps = replay.steps := by
  unfold back
  split
  · rfl
  · next h => simp [steps, h]

/-- `forth` keeps the steps. -/
@[simp] theorem steps_forth (replay : Replay) : replay.forth.steps = replay.steps := by
  unfold forth
  split
  · rfl
  · next h => simp [steps, h]

@[simp] theorem position_back (replay : Replay) : replay.back.position = replay.position - 1 := by
  unfold back
  split
  · next h => simp [position, h]
  · next h => simp [position, h]

@[simp] theorem process_back (replay : Replay) : replay.back.process = replay.process := by
  unfold back
  split <;> rfl

@[simp] theorem process_forth (replay : Replay) : replay.forth.process = replay.process := by
  unfold forth
  split <;> rfl

@[simp] theorem arch_back (replay : Replay) : replay.back.arch = replay.arch := by
  unfold back
  split <;> rfl

theorem ofRecording_inv {recording : Recording} {replay : Replay} (h : ofRecording recording = .ok replay) :
    ∃ arch newest older, Arch.ofName? recording.archName = some arch ∧
      recording.steps.reverse = newest :: older ∧
      replay = ⟨recording.toProcess, arch, older, newest, []⟩ := by
  unfold ofRecording at h
  split at h
  · cases h
  · next newest older hsteps =>
    split at h
    · cases h
    · next arch harch => exact ⟨arch, newest, older, harch, hsteps, (Except.ok.inj h).symm⟩

/-- A replay from `ofRecording` has the steps of the recording and stands on the newest. -/
theorem steps_of_ofRecording {recording : Recording} {replay : Replay}
    (h : ofRecording recording = .ok replay) : replay.steps = recording.steps := by
  unfold ofRecording at h
  split at h
  · simp at h
  · next newest older hr =>
    split at h
    · simp at h
    · simp only [Except.ok.injEq] at h
      subst h
      simpa [steps] using (congrArg List.reverse hr).symm

/-! ### Registers -/

/-- The latest value recorded under `name`, at or before the current step. -/
def recorded? (replay : Replay) (name : String) : Option Word :=
  (replay.current :: replay.past).findSome? fun step => step.registers.get? name

/-- Does the name denote bits 8 to 15 of a register? -/
def isHighByte (name : String) : Bool := ["ah", "bh", "ch", "dh"].contains name

/-- Is `name` one of the numbered registers, `r8` to `r15`, or a part of one? -/
def isNumbered (name : String) : Bool :=
  match name.toList with
  | 'r' :: c :: _ => c.isDigit
  | _ => false

/-- The first bit and the number of bits that `name` denotes in its full register, if it belongs to a general
register. -/
def bitsOf? (canonical name : String) : Option (Nat × Nat) :=
  let last := name.toList.getLast?
  if name = canonical then some (0, 64)
  else if isHighByte name then some (8, 8)
  else if isNumbered name && last == some 'd' then some (0, 32)
  else if isNumbered name && last == some 'w' then some (0, 16)
  else if isNumbered name && (last == some 'b' || last == some 'l') then some (0, 8)
  else if 2 ≤ name.length && last == some 'l' then some (0, 8)
  else if name.length = 3 && name.toList.head? == some 'e' then some (0, 32)
  else if name.length = 2 then some (0, 16)
  else none

/-- `count` bits of a word from bit `first` on. -/
def extract (word : Word) (first count : Nat) : Word :=
  UInt64.ofNat ((word.toNat >>> first) % (1 <<< count))

/-- The value of a register: what is `recorded?` under its own name, or else the bits it denotes (`bitsOf?`) in the
widest wider register that is recorded, or else zero. A register that is not general is only known when recorded.
Nothing is known of a name that the architecture does not have, unless it is recorded. -/
def registerValue? (replay : Replay) (name : String) : Option Word :=
  match replay.recorded? name with
  | some value => some value
  | none =>
    match replay.arch.description.group? name with
    | none => none
    | some group =>
      match bitsOf? group.canonical name with
      | none => some 0
      | some (first, count) =>
        let wider := (group.names.takeWhile (· ≠ name)).filter fun other => !isHighByte other
        some (extract ((wider.findSome? replay.recorded?).getD 0) first count)

/-! ### Memory -/

/-- The byte that `writes` leaves at an address: the last one written there. -/
def written? (writes : List (Word × Byte)) (address : Word) : Option Byte :=
  (writes.reverse.find? fun entry => entry.1 == address).map (·.2)

/-- The byte at an address before the current step: what the latest earlier step wrote there (`written?`), or else
what the initial memory holds. -/
def byte? (replay : Replay) (address : Word) : Option Byte :=
  (replay.past.findSome? fun step => written? step.writes address).or
    (written? replay.process.memory address)

/-! ### Code and symbols -/

/-- The text of the instruction at an address: that of the oldest step with this address. -/
def instructionAt? (replay : Replay) (address : Word) : Option String :=
  (replay.steps.find? fun step => step.pc == address).map (·.asm)

/-- The symbol that covers an address. -/
def symbolCovering? (replay : Replay) (address : Word) : Option Symbol :=
  replay.process.symbols.find? fun symbol => symbol.covers address

/-- The name of the symbol that covers an address (`symbolCovering?`), and the distance from its start. -/
def symbolFor? (replay : Replay) (address : Word) : Option String :=
  (replay.symbolCovering? address).map fun symbol =>
    if address = symbol.first then symbol.name
    else symbol.name ++ "+" ++ Text.hex (address - symbol.first)

/-- May code run at an address? Without recorded ranges, the addresses of the steps are `executable`. -/
def isExecutable (replay : Replay) (address : Word) : Bool :=
  if replay.process.executable.isEmpty then replay.steps.any fun step => step.pc == address
  else replay.process.executable.any fun range => range.1 ≤ address && address < range.2

/-- Where the current step comes from: its function is that of the innermost frame, or else `symbolCovering?` its
address. -/
def sourceLocation? (replay : Replay) : Option SourceLocation :=
  let step := replay.current
  if step.file.isEmpty then none
  else
    let symbol :=
      match step.frames with
      | frame :: _ => frame.function
      | [] => ((replay.symbolCovering? step.pc).map (·.name)).getD ""
    some ⟨step.file, step.line, symbol⟩

/-- Is the current step inside a call of the function? Without frames, `symbolCovering?` the address decides. -/
def isInsideFunction (replay : Replay) (name : String) : Bool :=
  let step := replay.current
  if step.frames.isEmpty then (replay.symbolCovering? step.pc).map (·.name) == some name
  else step.frames.any fun frame => frame.function == name

/-- Is the current step inside a call of a function from the file? Without frames, the step's own `file` decides. -/
def isInsideFile (replay : Replay) (name : String) : Bool :=
  let step := replay.current
  if step.frames.isEmpty then step.file == name
  else step.frames.any fun frame => frame.file == name

/-! ### The backend -/

/-- The value of an expression at the current step: `Expr.evaluate` over `registerValue?`. -/
def evaluate (replay : Replay) (expression : String) : Except BackendError Word :=
  match Expr.evaluate replay.registerValue? expression with
  | .ok value => .ok value
  | .error err => .error (.failedToEvaluate expression (some err))

instance : Backend Replay where
  architectureName replay := replay.process.archName
  position := position
  programCounter replay := .ok replay.current.pc
  stepBackward replay := .ok replay.back
  stepForward replay := .ok replay.forth
  disassemble replay address :=
    match replay.instructionAt? address with
    | some text => .ok text
    | none => .error (.failedToDisassemble address)
  readByte replay address :=
    match replay.byte? address with
    | some byte => .ok byte
    | none => .error (.failedToReadMemory address)
  evaluate := evaluate
  evaluateAddress := evaluate
  sourceLocation? := sourceLocation?
  symbolFor? := symbolFor?
  isExecutable := isExecutable
  terminationSignal replay :=
    match replay.process.signal with
    | some signal => .ok signal
    | none => .error (.unsupported "report a termination signal")
  isInsideFunction := isInsideFunction
  isInsideFile := isInsideFile

end Replay

end TraceSlice
