import TraceSlice.Session.Track

/-!
# Reactions to a match

When an instruction writes tracked operands, hooks may change the instruction's notes, the operands about to be
tracked in place of the written ones, and the session (specification, §4.3, step 4). All three are an `Event`; `react`
says what each `Reaction` makes of it.
-/

namespace TraceSlice

/-- An instruction that writes tracked operands, while hooks look at it. -/
structure Event (β : Type) where
  /-- The session. -/
  session : Session β
  /-- The instruction. -/
  instruction : Instruction
  /-- The tracked operands it writes. -/
  written : List Operand
  /-- The operands about to replace them. -/
  newSources : List Operand

/-- The hook that carries the search for a culprit on: one for memory, one for registers (specification, §E10).
Immediates are never tracked and get none. -/
def Corruption.attach (corruption : Corruption) (operand : Operand) : Operand :=
  match operand.location with
  | .memory _ => { operand with hook := some ⟨some "abrt-memory", none, .traceMemory corruption⟩ }
  | .register _ =>
    { operand with hook := some ⟨some "abrt-register", none, .traceRegister corruption⟩ }
  | .immediate => operand

theorem Corruption.location_attach (corruption : Corruption) (operand : Operand) :
    (corruption.attach operand).location = operand.location := by
  unfold Corruption.attach
  split <;> rfl

/-- `attach` moves no operand, so `Tracked.map` takes it. -/
def Corruption.relabeling (corruption : Corruption) : Relabeling := ⟨corruption.attach, corruption.location_attach⟩

namespace Session

variable {β : Type} [Backend β]

/-- Tracks what an expression names (`addExpression`) and writes the outcome into the journal. -/
def trackAndNote (s : Session β) (expression : String) : Session β :=
  match s.addExpression expression with
  | (t, .ok count) => t.note (.tracking count)
  | (t, .error err) => t.note (.failed err)

end Session

namespace Event

variable {β : Type} [Backend β]

/-- Changes every new source by `f`. -/
def mapSources (event : Event β) (f : Operand → Operand) : Event β :=
  { event with newSources := event.newSources.map f }

/-- Blames the instruction for a corruption (`Corruption.blame`) and stops, unless `culpritFound`. -/
def blame (event : Event β) (corruption : Corruption) : Event β :=
  if event.session.culpritFound then event
  else
    { event with
      instruction := event.instruction.annotate corruption.blame
      session := { event.session with culpritFound := true }.stop }

/-- What a reaction makes of an event. `label` is what its hook calls itself. -/
def react (event : Event β) (label : Option String) : Reaction → Event β
  | .nothing => event
  | .log =>
    let slice := event.session.slice
    { event with
      session := event.session.note (.matched label event.instruction.pc event.written event.newSources
        slice.tracked.size slice.instructions.length) }
  | .annotate text => { event with instruction := event.instruction.annotate text }
  | .stop => { event with session := event.session.stop }
  | .clear => { event with newSources := [] }
  | .reverse => { event with newSources := event.newSources.reverse }
  | .keepRegisters => { event with newSources := event.newSources.filter Operand.isRegister }
  | .addMemory address => { event with newSources := event.newSources ++ [.ofMemory address 0] }
  | .addImmediate value => { event with newSources := event.newSources ++ [.ofImmediate value] }
  | .unfollow =>
    { event with
      session := { event.session with slice := { event.session.slice with followed := none } } }
  | .track expression => { event with session := event.session.trackAndNote expression }
  | .attach label guard reaction =>
    event.mapSources fun operand => { operand with hook := some ⟨label, guard, reaction⟩ }
  | .traceRegister corruption => event.mapSources corruption.attach
  | .traceMemory corruption =>
    if corruption = .heap ∧ Backend.isInsideFile event.session.backend "malloc.c" then
      event.mapSources corruption.attach
    else event.blame corruption

/-- Runs a hook, if it `accepts` this instruction. -/
def run (event : Event β) (hook : Hook) : Event β :=
  if hook.accepts event.instruction.mnemonic then event.react hook.label hook.reaction else event

/-- Runs the hooks registered for every match, then those attached to the written operands, by `run`. -/
def runAll (event : Event β) (hooks : List Hook) : Event β :=
  (hooks ++ event.written.filterMap (·.hook)).foldl run event

end Event

end TraceSlice
