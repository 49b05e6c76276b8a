import Mathlib.Logic.Function.Basic
import TraceSlice.Proofs.Course
import TraceSlice.Proofs.Request

/-!
# Looking back and replaying forth

A replay keeps no machine state. To read a byte (`byte?`) or a register (`recorded?`) it searches its past, newest
step first, and within a step the latest write first. The other way round, a `Machine` starts with the initial memory
and executes the steps in order, each time overwriting what it held. The two agree wherever a replay stands
(`lookup_eq_forward_replay`).

Memory and registers are off by one against each other: a snapshot is taken before its step runs and the writes happen
while it runs, so that on arrival at a step (`arrive`) its snapshot counts already and its writes do not yet.
-/

namespace TraceSlice

namespace Replay

theorem written?_cons (entry : Word × Byte) (writes : List (Word × Byte)) (address : Word) :
    written? (entry :: writes) address =
      (written? writes address).or (if entry.1 = address then some entry.2 else none) := by
  by_cases h : entry.1 = address <;>
    cases hfind : writes.reverse.find? (fun entry => entry.1 == address) <;>
      simp [written?, List.find?_append, h, hfind]

theorem written?_eq_none {writes : List (Word × Byte)} {address : Word} :
    written? writes address = none ↔ ∀ entry ∈ writes, entry.1 ≠ address := by
  simp [written?]

end Replay

/-- What a forward execution holds: bytes and registers that have been given a value so far. -/
structure Machine where
  memory : Word → Option Byte
  registers : String → Option Word

namespace Machine

def store (machine : Machine) (entry : Word × Byte) : Machine :=
  { machine with memory := Function.update machine.memory entry.1 (some entry.2) }

/-- A machine on which nothing has run, with `image` loaded into its memory entry by entry. -/
def load (image : List (Word × Byte)) : Machine := image.foldl store ⟨fun _ => none, fun _ => none⟩

/-- Takes over `snapshot`. Registers that it does not name keep their values. -/
def observe (machine : Machine) (snapshot : Registers) : Machine :=
  { machine with registers := fun name => (snapshot.get? name).or (machine.registers name) }

def execute (machine : Machine) (step : Step) : Machine :=
  step.writes.foldl store (machine.observe step.registers)

/-- The machine when the step with the given number is about to run, all steps before it having run. -/
def arrive (machine : Machine) : List Step → Nat → Machine
  | [], _ => machine
  | step :: _, 0 => machine.observe step.registers
  | step :: steps, i + 1 => (machine.execute step).arrive steps i

/-- The machine on arrival at step `i` of a recording. -/
def before (recording : Recording) (i : Nat) : Machine := (load recording.memory).arrive recording.steps i

theorem arrive_append (machine : Machine) (older : List Step) (current : Step) (newer : List Step) :
    machine.arrive (older ++ current :: newer) older.length =
      (older.foldl execute machine).observe current.registers := by
  induction older generalizing machine with
  | nil => rfl
  | cons step older ih => exact ih (machine.execute step)

/-! ### Writes -/

@[simp] theorem registers_foldl_store (machine : Machine) (writes : List (Word × Byte)) :
    (writes.foldl store machine).registers = machine.registers := by
  induction writes generalizing machine with
  | nil => rfl
  | cons entry writes ih => exact ih (machine.store entry)

/-- Storing one write after the other leaves what `written?`, the search for the latest of them, finds. -/
theorem memory_foldl_store (machine : Machine) (writes : List (Word × Byte)) (address : Word) :
    (writes.foldl store machine).memory address =
      (Replay.written? writes address).or (machine.memory address) := by
  induction writes generalizing machine with
  | nil => rfl
  | cons entry writes ih =>
      -- the later writes are stored last and searched first
      rw [List.foldl_cons, ih, Replay.written?_cons, Option.or_assoc]
      congr 1
      by_cases h : entry.1 = address
      · simp [store, h]
      · simp [store, h, Function.update_of_ne (Ne.symm h)]

theorem memory_load (image : List (Word × Byte)) (address : Word) :
    (load image).memory address = Replay.written? image address := by
  simp [load, memory_foldl_store]

/-! ### Steps -/

theorem memory_foldl_execute (machine : Machine) (past : List Step) (address : Word) :
    (past.reverse.foldl execute machine).memory address =
      (past.findSome? fun step => Replay.written? step.writes address).or (machine.memory address) := by
  rw [List.foldl_reverse]
  induction past with
  | nil => rfl
  | cons step past ih =>
      rw [List.foldr_cons, execute, memory_foldl_store, List.findSome?_cons]
      show (Replay.written? step.writes address).or ((past.foldr _ machine).memory address) = _
      rw [ih]
      cases Replay.written? step.writes address <;> simp

theorem registers_foldl_execute (machine : Machine) (past : List Step) (name : String) :
    (past.reverse.foldl execute machine).registers name =
      (past.findSome? fun step => step.registers.get? name).or (machine.registers name) := by
  rw [List.foldl_reverse]
  induction past with
  | nil => rfl
  | cons step past ih =>
      rw [List.foldr_cons, execute, registers_foldl_store, List.findSome?_cons]
      show (step.registers.get? name).or ((past.foldr _ machine).registers name) = _
      rw [ih]
      cases step.registers.get? name <;> simp

end Machine

namespace Replay

/-! ### Moving about -/

def move (replay : Replay) : StepDirection → Except BackendError Replay
  | .backward => Backend.stepBackward replay
  | .forward => Backend.stepForward replay

/-- `move` leads to a step of the same recording. -/
theorem exists_move (replay : Replay) (direction : StepDirection) :
    ∃ here, replay.move direction = .ok here ∧ here.steps = replay.steps ∧ here.process = replay.process := by
  cases direction with
  | backward => exact ⟨replay.back, rfl, by simp, by simp⟩
  | forward => exact ⟨replay.forth, rfl, by simp, by simp⟩

theorem exists_moves (replay : Replay) (directions : List StepDirection) :
    ∃ here, directions.foldlM move replay = .ok here ∧ here.steps = replay.steps ∧
      here.process = replay.process := by
  induction directions generalizing replay with
  | nil => exact ⟨replay, rfl, rfl, rfl⟩
  | cons direction directions ih =>
      obtain ⟨next, hmove, hsteps, hprocess⟩ := replay.exists_move direction
      obtain ⟨here, hmoves, hsteps', hprocess'⟩ := ih next
      refine ⟨here, ?_, hsteps'.trans hsteps, hprocess'.trans hprocess⟩
      rw [List.foldlM_cons, hmove]
      exact hmoves

/-! ### What a replay finds -/

variable {recording : Recording} {here : Replay}

/-- A replay and a `Machine` that has run up to the same step. -/
theorem before_eq (hsteps : here.steps = recording.steps) :
    Machine.before recording here.position =
      (here.past.reverse.foldl Machine.execute (Machine.load recording.memory)).observe
        here.current.registers := by
  have harrive := Machine.arrive_append (Machine.load recording.memory) here.past.reverse here.current here.future
  rw [List.length_reverse] at harrive
  rw [Machine.before, ← hsteps]
  exact harrive

theorem byte?_eq_before (hsteps : here.steps = recording.steps)
    (hprocess : here.process = recording.toProcess) (address : Word) :
    here.byte? address = (Machine.before recording here.position).memory address := by
  rw [before_eq hsteps, byte?, hprocess]
  show _ = (here.past.reverse.foldl Machine.execute (Machine.load recording.memory)).memory address
  rw [Machine.memory_foldl_execute, Machine.memory_load]

theorem recorded?_eq_before (hsteps : here.steps = recording.steps) (name : String) :
    here.recorded? name = (Machine.before recording here.position).registers name := by
  rw [before_eq hsteps, recorded?, List.findSome?_cons]
  show _ = (here.current.registers.get? name).or
    ((here.past.reverse.foldl Machine.execute (Machine.load recording.memory)).registers name)
  rw [Machine.registers_foldl_execute, Machine.load, Machine.registers_foldl_store]
  cases here.current.registers.get? name <;> simp

/-- `byte?` knows no byte exactly if the memory did not hold it at first and no step before has written it. -/
theorem byte?_eq_none (hsteps : here.steps = recording.steps) (hprocess : here.process = recording.toProcess)
    (address : Word) :
    here.byte? address = none ↔ (∀ entry ∈ recording.memory, entry.1 ≠ address) ∧
      ∀ step ∈ recording.steps.take here.position, ∀ entry ∈ step.writes, entry.1 ≠ address := by
  rw [← hsteps, take_position, byte?, hprocess, Option.or_eq_none_iff, List.findSome?_eq_none_iff]
  simp only [written?_eq_none, List.mem_reverse]
  exact and_comm

theorem recorded?_eq_none (hsteps : here.steps = recording.steps) (name : String) :
    here.recorded? name = none ↔
      ∀ step ∈ recording.steps.take (here.position + 1), name ∉ step.registers.names := by
  have hget (registers : Registers) : registers.get? name = none ↔ name ∉ registers.names := by
    simp only [Registers.get?, Registers.names, List.lookup_eq_none_iff, bne_iff_ne, List.mem_map, not_exists, not_and]
    exact forall₂_congr fun entry _ => ne_comm
  rw [← hsteps, take_position_succ, recorded?, List.findSome?_eq_none_iff]
  simp only [List.mem_reverse, hget]

/-- **Looking back is replaying forth.** Open a recording and move back and forth in it in any way. The byte read at
an address is the one that a `Machine` holds there which has loaded the initial memory and run all steps before the
current one; reading fails exactly if that memory has no entry for the address and none of these steps writes it. The
value `recorded?` for a register is the one that the machine holds after the snapshot of the current step; there is
none exactly if no step up to the current one names the register. -/
theorem lookup_eq_forward_replay (recording : Recording) (replay : Replay)
    (hopen : ofRecording recording = .ok replay) (directions : List StepDirection) :
    ∃ here, directions.foldlM move replay = .ok here ∧ here.position < recording.steps.length ∧
      (∀ address, Backend.readByte here address =
        match (Machine.before recording here.position).memory address with
        | some byte => .ok byte
        | none => .error (.failedToReadMemory address)) ∧
      (∀ address, Backend.readByte here address = .error (.failedToReadMemory address) ↔
        (∀ entry ∈ recording.memory, entry.1 ≠ address) ∧
          ∀ step ∈ recording.steps.take here.position, ∀ entry ∈ step.writes, entry.1 ≠ address) ∧
      (∀ name, here.recorded? name = (Machine.before recording here.position).registers name) ∧
      ∀ name, here.recorded? name = none ↔
        ∀ step ∈ recording.steps.take (here.position + 1), name ∉ step.registers.names := by
  obtain ⟨here, hmoves, hsteps, hprocess⟩ := replay.exists_moves directions
  rw [steps_of_ofRecording hopen] at hsteps
  obtain ⟨arch, newest, older, -, -, rfl⟩ := ofRecording_inv hopen
  have hread (address : Word) : Backend.readByte here address =
      match here.byte? address with
      | some byte => .ok byte
      | none => .error (.failedToReadMemory address) := rfl
  refine ⟨here, hmoves, hsteps ▸ here.position_lt, fun address => ?_, fun address => ?_,
    recorded?_eq_before hsteps, recorded?_eq_none hsteps⟩
  · rw [hread, byte?_eq_before hsteps hprocess]
  · rw [hread, ← byte?_eq_none hsteps hprocess]
    cases here.byte? address <;> simp

end Replay

/-- A recording that gives one byte several values: twice in the initial memory, and twice in its first step. -/
def rewrites : Recording where
  archName := "i386"
  memory := [(0x2000, 1), (0x2000, 2)]
  steps :=
    [{ pc := 0x1000, asm := "movs DWORD PTR es:[edi],DWORD PTR ds:[esi]",
       registers := .ofList [("ecx", 2), ("edi", 0x2000)], writes := [(0x2000, 3), (0x2000, 4)] },
      { pc := 0x1001, asm := "mov BYTE PTR [edi],cl", registers := .ofList [("ecx", 5)], writes := [(0x2000, 5)] },
      { pc := 0x1003, asm := "nop", registers := .ofList [("ecx", 6)] }]

namespace Replay

/-- After going back twice and forth once, the byte is the later of the two that the first step wrote, and the
counter the one that the second step started with. -/
theorem lookup_eq_forward_replay_at_rewrites :
    ∃ replay, ofRecording rewrites = .ok replay ∧
      ∃ here, [.backward, .backward, .forward].foldlM move replay = .ok here ∧ here.position = 1 ∧
        Backend.readByte here 0x2000 = .ok 4 ∧
        Backend.readByte here 0x3000 = .error (.failedToReadMemory 0x3000) ∧
        here.recorded? "ecx" = some 5 ∧ here.recorded? "eax" = none := by
  have hready : ∃ replay ∈ (ofRecording rewrites).toOption,
      ∃ here ∈ ([.backward, .backward, .forward].foldlM move replay).toOption, here.position = 1 := by
    decide +kernel
  obtain ⟨replay, hreplay, here, hhere, hposition⟩ := hready
  have hopen := Except.eq_ok_of_mem_toOption hreplay
  have hmoves := Except.eq_ok_of_mem_toOption hhere
  obtain ⟨here', hmoves', -, hread, hfails, hrecorded, hunnamed⟩ :=
    lookup_eq_forward_replay rewrites replay hopen [.backward, .backward, .forward]
  obtain rfl : here = here' := Except.ok.inj (hmoves.symm.trans hmoves')
  rw [hposition] at hread hfails hrecorded hunnamed
  refine ⟨replay, hopen, here, hmoves, hposition, ?_, (hfails _).mpr ?_, ?_, (hunnamed _).mpr ?_⟩
  · exact hread 0x2000
  · simp [rewrites, -Prod.forall]
  · exact hrecorded "ecx"
  · decide

end Replay

end TraceSlice
