import TraceSlice.Session.React

/-!
# Walking back

A walk goes back through history from the current position, turn by turn (`walk`, `turn`): the slicing engine of the
specification, §4.3. A turn looks at one instruction and matches it against the tracked operands (`meet`, `visit`): if
it writes one of them it joins the slice, what it writes stops being tracked, and what it reads starts being tracked
(`settle`). The walk ends when nothing is tracked any more, when history is exhausted, or when something asked for it
to end; `Outcome` says which.
-/

namespace TraceSlice

/-- How far a walk goes. -/
inductive StepMode where
  /-- Until the slice is complete or history is exhausted. -/
  | run
  /-- Until the next instruction joins the slice. -/
  | step
deriving DecidableEq, Repr

/-- Why a walk ended (specification, §E8). -/
inductive Outcome where
  /-- There was nothing to track. -/
  | noOperands
  /-- Nothing is tracked any more. -/
  | operandExhausted
  /-- History is exhausted. -/
  | historyExhausted
  /-- An instruction joined the slice, in `step` mode. -/
  | instructionFound
  /-- The followed operand was written. -/
  | followedMatched
  /-- Somebody asked to stop. -/
  | stopped
deriving DecidableEq, Repr

/-- The wording of each `Outcome`. -/
def Outcome.render : Outcome → String
  | .noOperands => "no operands to track"
  | .operandExhausted => "slice complete"
  | .historyExhausted => "reached end of recording"
  | .instructionFound => "next slice instruction found"
  | .followedMatched => "followed operand matched"
  | .stopped => "slice stopped"

/-- What matching one instruction came to: the session, whether the instruction was relevant, and whether it wrote the
followed operand. -/
structure Visit (β : Type) where
  /-- The session afterwards. -/
  session : Session β
  /-- Did the instruction join the slice? -/
  relevant : Bool
  /-- Did it write the followed operand? -/
  followed : Bool

namespace Session

variable {β : Type} [Backend β]

/-- The tracked operands that an instruction writes: the matches of the specification, §4.3, step 2. -/
def written (s : Session β) (insn : Instruction) : List Operand :=
  s.slice.tracked.toList.filter fun operand => operand.isIn insn.destinations

/-- Stops following an operand. -/
def unfollow (s : Session β) : Session β := { s with slice := { s.slice with followed := none } }

/-- Ends a match: neither the written operands nor the instruction's sources stay tracked, the new sources are
tracked, and the instruction joins the slice (`pushInstruction`). -/
def settle (event : Event β) : Session β :=
  let s := event.session
  let kept := s.slice.tracked.retain fun operand =>
    !operand.isIn event.written && !operand.isIn event.instruction.sources
  let slice := { s.slice with tracked := kept.extend event.newSources }
  { s with slice := slice.pushInstruction event.instruction }

/-- Matches one decoded instruction against the tracked operands: hooks by `Event.runAll`, the update by `settle`. -/
def visit (s : Session β) (hooks : List Hook) (insn : Instruction) : Visit β :=
  let written := s.written insn
  if written.isEmpty then ⟨s, false, false⟩
  else
    let followed := written.any s.slice.isFollowed
    let s := if followed then s.unfollow else s
    let insn := s.locate insn
    let event : Event β := ⟨s, insn, written, s.trackableSources insn⟩
    ⟨settle (event.runAll hooks), true, followed⟩

/-- The `visit` of the instruction that a session looks at. -/
def meet (s : Session β) (hooks : List Hook) : Visit β :=
  let insn := s.instructionAt s.slice.pc
  (s.remember insn).visit hooks insn

/-- One turn of a walk: the session after it, and how the walk ends with it, if it does. A turn that does not end the
walk has stepped back. -/
def turn (hooks : List Hook) (mode : StepMode) (s : Session β) :
    Session β × Option (Except SliceError Outcome) :=
  if !s.slice.running then (s, some (.ok .stopped))
  else
    let visited := s.meet hooks
    if visited.session.slice.tracked.isEmpty then (visited.session, some (.ok .operandExhausted))
    else
      match visited.session.reverseStep with
      | (s, .error err) => (s, some (.error err))
      | (s, .ok false) => (s, some (.ok .historyExhausted))
      | (s, .ok true) =>
        if visited.followed then (s, some (.ok .followedMatched))
        else if visited.relevant && mode == .step then (s, some (.ok .instructionFound))
        else (s, none)

/-- Walks back by at most `fuel` turns; `compute` gives it enough. -/
def walk (hooks : List Hook) (mode : StepMode) :
    Nat → Session β → Session β × Except SliceError Outcome
  | 0, s => (s, .ok .historyExhausted)
  | fuel + 1, s =>
    match s.turn hooks mode with
    | (s, some ended) => (s, ended)
    | (s, none) => walk hooks mode fuel s

/-- Gets a session ready for a walk: it is `running`, and looks at the instruction at its backend's position. -/
def ready (s : Session β) : Session β × Except SliceError Unit :=
  let s := { s with slice := { s.slice with running := true } }
  match Backend.programCounter s.backend with
  | .error err => (s, .error (.backend err))
  | .ok pc => (s.withPc pc, .ok ())

/-- Walks back from the current position. Each step back that counts lowers the position, so a walk looks
at no more instructions than the position and the current one. -/
def compute (s : Session β) (hooks : List Hook) (mode : StepMode) :
    Session β × Except SliceError Outcome :=
  if s.slice.tracked.isEmpty then (s, .ok .noOperands)
  else
    match s.ready with
    | (s, .error err) => (s, .error err)
    | (s, .ok ()) => s.walk hooks mode (Backend.position s.backend + 1)

end Session

end TraceSlice
