import TraceSlice.Session.Triage

/-!
# Driving a slicer

A slicer is driven by walking back again and again (`Slicer.compute`) as long as a walk only ended because it found an
instruction (`Outcome.instructionFound`).
-/

namespace TraceSlice

/-- One walk of a `Drive`. -/
structure Stage where
  /-- Why the walk ended. -/
  outcome : Outcome
  /-- The newest instruction of the slice, if the walk ended because it joined. -/
  found : Option Instruction
deriving DecidableEq, Repr

/-- A drive: the slicer afterwards, the walks in order (`Stage`), and the failure that cut the drive short. -/
structure Drive (β : Type) where
  /-- The slicer afterwards. -/
  slicer : Slicer β
  /-- The walks. -/
  stages : List Stage
  /-- The failure, if there was one. -/
  failure : Option SliceError

namespace Slicer

variable {β : Type} [Backend β]

/-- Makes at most `fuel` walks; `drive` gives it enough. -/
def driveFor (mode : StepMode) : Nat → Slicer β → Drive β
  | 0, slicer => ⟨slicer, [], none⟩
  | fuel + 1, slicer =>
    match slicer.compute mode with
    | (slicer, .error err) => ⟨slicer, [], some err⟩
    | (slicer, .ok .instructionFound) =>
      let rest := driveFor mode fuel slicer
      { rest with
        stages := ⟨.instructionFound, slicer.session.slice.instructions.getLast?⟩ :: rest.stages }
    | (slicer, .ok outcome) => ⟨slicer, [⟨outcome, none⟩], none⟩

/-- Drives a slicer to its end. A walk that found an instruction has moved back, so there are no more
walks than the position and one. -/
def drive (slicer : Slicer β) (mode : StepMode) : Drive β :=
  driveFor mode (Backend.position slicer.session.backend + 1) slicer

end Slicer

end TraceSlice
