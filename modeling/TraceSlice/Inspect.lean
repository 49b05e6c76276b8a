import TraceSlice.Session.Triage
import TraceSlice.Text.Quoted

/-!
# Inspecting values

For diagnosis, operands and slicers can be shown whole on one line, field by field: `Operand.inspect` and
`Slicer.inspect`. A value is first laid out (`Layout`), then rendered.
-/

namespace TraceSlice

/-- A value laid out for inspection. -/
inductive Layout where
  /-- A value shown as it is. -/
  | plain (text : String)
  /-- A record: a name and named fields. -/
  | record (name : String) (fields : List (String × Layout))
  /-- A variant with one value. -/
  | wrapped (name : String) (content : Layout)
  /-- A list. -/
  | list (elements : List Layout)

namespace Layout

mutual

/-- The line that shows a layout; the fields and elements are `renderFields` and `renderElements`. -/
def render : Layout → String
  | .plain text => text
  | .record name fields => name ++ " \x7b " ++ renderFields fields ++ " \x7d"
  | .wrapped name content => name ++ "(" ++ content.render ++ ")"
  | .list elements => "[" ++ renderElements elements ++ "]"

/-- Fields with commas between them. -/
def renderFields : List (String × Layout) → String
  | [] => ""
  | [(name, value)] => name ++ ": " ++ value.render
  | (name, value) :: rest => name ++ ": " ++ value.render ++ ", " ++ renderFields rest

/-- Elements with commas between them. -/
def renderElements : List Layout → String
  | [] => ""
  | [element] => element.render
  | element :: rest => element.render ++ ", " ++ renderElements rest

end

/-- A text, by `Text.quoted`. -/
def text (s : String) : Layout := .plain (Text.quoted s)

/-- A natural number. -/
def nat (n : Nat) : Layout := .plain (Text.decimal n)

/-- A truth value. -/
def bool (b : Bool) : Layout := .plain (if b then "true" else "false")

/-- A value that may be missing, shown as `Some` or `None`. -/
def optional {α : Type} (f : α → Layout) : Option α → Layout
  | some a => .wrapped "Some" (f a)
  | none => .plain "None"

end Layout

/-- The layout of a register. -/
def Register.layout (register : Register) : Layout :=
  .record "Register" [("name", .text register.name),
    ("group", .record "RegisterGroup" [("names", .list (register.group.names.map .text))])]

/-- The layout of a location. -/
def Location.layout : Location → Layout
  | .register r => .wrapped "Register" r.layout
  | .memory address => .wrapped "Memory" (.nat address.toNat)
  | .immediate => .plain "Immediate"

/-- The layout of an operand. -/
def Operand.layout (operand : Operand) : Layout :=
  .record "Operand" [("location", operand.location.layout), ("value", .plain (Text.hex operand.value)),
    ("is_memory_access", .bool operand.isMemoryAccess), ("symbol", .optional .text operand.symbol),
    ("hook", .optional (fun hook => .text hook.name) operand.hook)]

/-- The operand shown whole: `Operand.layout`, rendered. -/
def Operand.inspect (operand : Operand) : String := operand.layout.render

/-- The layout of a place in the source code. -/
def SourceLocation.layout (origin : SourceLocation) : Layout :=
  .record "SourceLocation" [("file", .text origin.file), ("line", .nat origin.line.toNat),
    ("symbol", .text origin.symbol)]

/-- The layout of an instruction. -/
def Instruction.layout (insn : Instruction) : Layout :=
  .record "Instruction" [("pc", .nat insn.pc.toNat), ("text", .text insn.text),
    ("prefix", .optional .text insn.leading), ("mnemonic", .text insn.mnemonic),
    ("sources", .list (insn.sources.map Operand.layout)),
    ("destinations", .list (insn.destinations.map Operand.layout)),
    ("location", .optional SourceLocation.layout insn.location), ("comment", .text insn.comment)]

/-- The layout of a signal. -/
def Signal.layout : Signal → Layout
  | .abort => .plain "Abort"
  | .bus => .plain "Bus"
  | .segmentationFault => .plain "SegmentationFault"
  | .floatingPoint => .plain "FloatingPoint"
  | .other number => .wrapped "Other" (.plain (Text.signedDecimal number.toInt))

/-- The layout of the state of a slice. -/
def Slice.layout (slice : Slice) : Layout :=
  .record "SliceState" [
    ("tracked", .wrapped "TrackedOperands" (.list (slice.tracked.toList.map Operand.layout))),
    ("instructions", .list (slice.instructions.map Instruction.layout)),
    ("followed", .optional Operand.layout slice.followed),
    ("signal", .optional Signal.layout slice.signal), ("pc", .nat slice.pc.toNat),
    ("keep_going", .bool slice.running)]

/-- The layout of a level of debug information. -/
def SymbolLevel.layout : SymbolLevel → Layout
  | .none => .plain "None"
  | .lines => .plain "Lines"
  | .names => .plain "Variables"

/-- The layout of a configuration. -/
def Config.layout (config : Config) : Layout :=
  .record "SliceConfig" [("symbol_level", config.symbolLevel.layout),
    ("monitor_stack", .bool config.monitorStack),
    ("hide_frame_instructions", .bool config.hideFrameInstructions)]

/-- The layout of a session. -/
def Session.layout {β : Type} (s : Session β) : Layout :=
  .record "Session" [("arch", .text s.arch.description.name), ("state", s.slice.layout),
    ("config", s.config.layout)]

/-- The layout of the registered hooks: how many there are. -/
def Hooks.layout (hooks : Hooks) : Layout :=
  .record "HookRegistry" [("match_hooks", .nat hooks.onMatch.length),
    ("session_start_hooks", .nat hooks.onStart.length)]

/-- The slicer shown whole: `Session.layout` and `Hooks.layout`, rendered. -/
def Slicer.inspect {β : Type} (slicer : Slicer β) : String :=
  (Layout.record "Slicer" [("session", slicer.session.layout), ("hooks", slicer.hooks.layout)]).render

end TraceSlice
