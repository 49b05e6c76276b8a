import TraceSlice.Session.Crash

/-!
# Triage of aborted programs

A program that aborts inside one of the C library's corruption checks has no faulting operand. The `triage` walks back
to the check that failed (`findCheck`), which is the last trigger instruction before the call of the reporting
function, seeds the slice from it (`seedCheck`), and attaches hooks that name the first instruction found to have
written the corrupted memory (`attachTrace`). The specification describes it in §E10.
-/

namespace TraceSlice

namespace Session

variable {β : Type} [Backend β]

/-- The corruption that was reported: the first one whose `function` the current position is inside of. -/
def corruption? (s : Session β) : Option Corruption :=
  [Corruption.heap, Corruption.stack].find? fun corruption =>
    Backend.isInsideFunction s.backend corruption.function

/-- The first word of an instruction's text, which the search takes for its mnemonic. -/
def firstWord (text : String) : String :=
  String.ofList ((Text.words text.toList).head?.getD [])

/-- Is it a call of `function`? -/
def isCallOf (function text : String) : Bool := firstWord text == "call" && Text.holds text function

/-- Steps back (`reverseStep`), over at most `fuel` instructions, until the text of an instruction passes the test.
The answer is false if history is exhausted first. -/
def rewindUntil (test : String → Bool) : Nat → Session β → Session β × Except SliceError Bool
  | 0, s => (s, .ok false)
  | fuel + 1, s =>
    match s.reverseStep with
    | (s, .error err) => (s, .error err)
    | (s, .ok false) => (s, .ok false)
    | (s, .ok true) =>
      match Backend.disassemble s.backend s.slice.pc with
      | .error err => (s, .error (.backend err))
      | .ok text => if test text then (s, .ok true) else rewindUntil test fuel s

/-- `rewindUntil` with fuel for the whole history. -/
def rewind (s : Session β) (test : String → Bool) : Session β × Except SliceError Bool :=
  rewindUntil test (Backend.position s.backend + 1) s

/-- Attaches the hooks that search for the culprit (`Corruption.attach`) to all tracked operands. -/
def attachTrace (s : Session β) (corruption : Corruption) : Session β :=
  { s with slice := { s.slice with tracked := s.slice.tracked.map corruption.relabeling } }

/-- Seeds from the check at the current position: `addCurrentInstruction`, then `attachTrace`, then a step back. -/
def seedCheck (s : Session β) (corruption : Corruption) : Session β :=
  match s.addCurrentInstruction with
  | (s, .error _) => s
  | (s, .ok ()) => (s.attachTrace corruption).reverseStep.1

/-- Searches back for the check at which an aborted program failed. The session stays where the search ended; if that
is at the check, the answer is the corruption that was reported. -/
def findCheck (s : Session β) : Session β × Option Corruption :=
  if s.slice.signal ≠ some .abort then (s, none)
  else
    match s.corruption? with
    | none => (s, none)
    | some corruption =>
      match s.rewind (isCallOf corruption.function) with
      | (s, .ok true) =>
        match s.rewind (firstWord · == corruption.trigger) with
        | (s, .ok true) => (s, some corruption)
        | (s, _) => (s, none)
      | (s, _) => (s, none)

/-- Seeds an aborted session from the check that failed. If `findCheck` does not find it, or history cannot be read,
the session stays where the search ended. -/
def triage (s : Session β) : Session β :=
  match s.findCheck with
  | (s, some corruption) => s.seedCheck corruption
  | (s, none) => s

/-- What a `StartHook` does. -/
def runStartHook (s : Session β) : StartHook → Session β
  | .nothing => s
  | .triage => s.triage
  | .log => s.note (.started s.slice.pc (s.slice.instructions.map (·.text)))
  | .track expression => s.trackAndNote expression
  | .current =>
    match s.addCurrentInstruction with
    | (s, .ok ()) => s
    | (s, .error err) => s.note (.failed err)
  | .stop => s.stop

end Session

/-- A session with the hooks it runs with. -/
structure Slicer (β : Type) where
  /-- The session. -/
  session : Session β
  /-- The hooks. -/
  hooks : Hooks

namespace Slicer

variable {β : Type} [Backend β]

/-- A slicer at the backend's position (`Session.start`). -/
def start (backend : β) (hooks : Hooks) (config : Config) : Except SliceError (Slicer β) :=
  match Session.start backend config with
  | .error err => .error err
  | .ok session => .ok ⟨session, hooks⟩

/-- A slicer at a crash: seeds from the signal (`seed`), steps back past the faulting instruction and runs the start
hooks (specification, §4.4). -/
def crashed (backend : β) (hooks : Hooks) (config : Config) :
    Except SliceError (Slicer β × SeedReport) :=
  match Session.start backend config with
  | .error err => .error err
  | .ok session =>
    match session.seed with
    | .error err => .error err
    | .ok (report, session) =>
      if !report.isHandled then .ok (⟨session, hooks⟩, report)
      else
        match session.reverseStep with
        | (_, .error err) => .error err
        | (session, .ok _) =>
          .ok (⟨hooks.onStart.foldl Session.runStartHook session, hooks⟩, report)

/-- Walks back with the slicer's hooks (`Session.compute`). -/
def compute (slicer : Slicer β) (mode : StepMode) : Slicer β × Except SliceError Outcome :=
  let (session, outcome) := slicer.session.compute slicer.hooks.onMatch mode
  ({ slicer with session }, outcome)

end Slicer

end TraceSlice
