import TraceSlice.Json.Record
import TraceSlice.Json.Reader

/-!
# Configuration

A `Config` says how much debug information a slice carries (`SymbolLevel`), and what it leaves out (specification,
§E4).
-/

namespace TraceSlice

/-- How much debug information is attached to instructions and operands. -/
inductive SymbolLevel where
  /-- None. -/
  | none
  /-- The source file and line of every instruction. -/
  | lines
  /-- Lines, and the names of variables in memory. -/
  | names
deriving DecidableEq, Repr

/-- The word for a level; `SymbolLevel.ofWord?` reads it. -/
def SymbolLevel.render : SymbolLevel → String
  | .none => "none"
  | .lines => "lines"
  | .names => "variables"

/-- The level that a word names. -/
def SymbolLevel.ofWord? : String → Option SymbolLevel
  | "none" => some .none
  | "lines" => some .lines
  | "variables" => some .names
  | _ => Option.none

/-- Reads a level: its word (`SymbolLevel.ofWord?`), or an object with the word as the key of a `null`. -/
def SymbolLevel.ofJson? : Json → Option SymbolLevel
  | .string (some word) => SymbolLevel.ofWord? word
  | .object [(some word, .null)] => SymbolLevel.ofWord? word
  | _ => Option.none

/-- The configuration of a session. -/
structure Config where
  /-- How much debug information is attached. -/
  symbolLevel : SymbolLevel := .lines
  /-- Are stack, frame and instruction pointers tracked? -/
  monitorStack : Bool := false
  /-- Do listings leave out calls and returns? -/
  hideFrameInstructions : Bool := true
deriving DecidableEq, Repr

namespace Config

/-- Are instructions given their source file and line? They are from `SymbolLevel.lines` on. -/
def showsLines (config : Config) : Bool := config.symbolLevel != .none

/-- Are operands in memory given the names of their variables (`Session.withSymbol`)? -/
def showsNames (config : Config) : Bool := config.symbolLevel == .names

/-- Reads a configuration; every field has the default of `Config`. -/
def ofJson? (json : Json) : Option Config := do
  match ← json.fields? ["symbol_level", "monitor_stack", "hide_frame_instructions"] with
  | [level, monitor, hide] =>
    return { symbolLevel := ← Json.optional? .lines SymbolLevel.ofJson? level
             monitorStack := ← Json.optional? false Json.bool? monitor
             hideFrameInstructions := ← Json.optional? true Json.bool? hide }
  | _ => none

/-- Reads the text of a configuration: `Json.parse?`, then `ofJson?`. -/
def parse? (text : String) : Option Config :=
  match Json.parse? text with
  | some json => ofJson? json
  | none => none

end Config

end TraceSlice
