import TraceSlice.Word
import TraceSlice.Corruption

/-!
# Hooks

A `Hook` reacts when an instruction writes a tracked operand (specification, §4.3 and §6). It may be registered for
every such instruction, or be attached to single operands (`Operand.hook`). Hooks are plain data, so operands that
carry them can be copied and compared (§9); what a `Reaction` does to a session is said in `React`, where sessions are
known.
-/

namespace TraceSlice

/-- What a hook does when an instruction writes a tracked operand. The *new sources* are the operands
about to replace the written ones in the tracked set. -/
inductive Reaction where
  /-- Does nothing. -/
  | nothing
  /-- Writes what happens into the journal. -/
  | log
  /-- Puts a note on the instruction. -/
  | annotate (text : String)
  /-- Asks the slice to stop. -/
  | stop
  /-- Drops all new sources. -/
  | clear
  /-- Reverses the new sources. -/
  | reverse
  /-- Keeps the registers among the new sources. -/
  | keepRegisters
  /-- Adds a byte of memory, of value zero, to the new sources. -/
  | addMemory (address : Word)
  /-- Adds an immediate to the new sources. -/
  | addImmediate (value : Word)
  /-- Stops following an operand. -/
  | unfollow
  /-- Tracks what an expression names. -/
  | track (expression : String)
  /-- Attaches a hook, given by its label, its guard and its reaction, to every new source. -/
  | attach (label : Option String) (guard : Option String) (reaction : Reaction)
  /-- Carries the search for a culprit on to the new sources, through a register. -/
  | traceRegister (corruption : Corruption)
  /-- Blames the instruction for a corruption, unless it is the allocator's own. -/
  | traceMemory (corruption : Corruption)
deriving DecidableEq, Inhabited, Repr

/-- A `Reaction` with a name, limited to one mnemonic if it has a `guard`. -/
structure Hook where
  /-- What it calls itself, if anything. -/
  label : Option String
  /-- The only mnemonic it reacts to, if it is choosy. -/
  guard : Option String
  /-- What it does. -/
  reaction : Reaction
deriving DecidableEq, Inhabited, Repr

namespace Hook

/-- The name under which an operand shows the hook: its `label`, if it has one. -/
def name (hook : Hook) : String := hook.label.getD "hook"

/-- Does the hook react to instructions with this mnemonic? `accepts` is asked before every reaction. -/
def accepts (hook : Hook) (mnemonic : String) : Bool :=
  match hook.guard with
  | some only => only == mnemonic
  | none => true

end Hook

/-- What a hook does once a crashed session has been seeded. -/
inductive StartHook where
  /-- Does nothing. -/
  | nothing
  /-- Searches an aborted program for the check that failed. -/
  | triage
  /-- Writes what has been seeded into the journal. -/
  | log
  /-- Tracks what an expression names. -/
  | track (expression : String)
  /-- Adds the current instruction to the slice. -/
  | current
  /-- Asks the slice to stop. -/
  | stop
deriving DecidableEq, Repr

/-- The hooks a slicer runs with, each list in the order of registration. -/
structure Hooks where
  /-- Hooks for every instruction that writes a tracked operand. -/
  onMatch : List Hook := []
  /-- Hooks for the start of a crashed session. -/
  onStart : List StartHook := []
deriving DecidableEq, Repr

/-- The hooks that come with the slicer: the triage of aborted programs (`StartHook.triage`). -/
def Hooks.bundled : Hooks := { onStart := [.triage] }

end TraceSlice
