import TraceSlice.Recording.Basic
import TraceSlice.Json.Record
import TraceSlice.Json.Reader
import TraceSlice.Json.Printer

/-!
# The format of recordings

Recordings are JSON documents (specification, §E11). A word is written as an integer, or as a string with hexadecimal
digits after `0x`; a negative integer stands for the word with the same two's complement (`Word.ofJson?`). All fields
of steps and frames may be left out, and of a recording all but the architecture and the steps. Each `ofJson?` reads
what its `toJson` writes; `Recording.parse?` and `Recording.render` are the two on texts.
-/

namespace TraceSlice

/-! ### Words and bytes -/

/-- The word that hexadecimal digits denote; a plus sign may stand before them, and `Word.ofNat?` bounds the value. -/
def Word.ofHexDigits? (cs : List Char) : Option Word :=
  let digits := if "+".toList.isPrefixOf cs then cs.drop 1 else cs
  if digits.all (Text.isDigitIn 16) && !digits.isEmpty then Word.ofNat? (Text.valueOf 16 digits)
  else none

/-- The word that a text denotes: `Word.ofHexDigits?` after `0x` or `0X`. -/
def Word.ofText? (s : String) : Option Word :=
  match s.toList with
  | '0' :: 'x' :: digits => Word.ofHexDigits? digits
  | '0' :: 'X' :: digits => Word.ofHexDigits? digits
  | _ => none

/-- Reads a word: an integer of 64 bits of either sign, or a text by `Word.ofText?`. -/
def Word.ofJson? (json : Json) : Option Word :=
  match json with
  | .number _ => json.int?.map fun i => UInt64.ofInt i
  | .string (some s) => Word.ofText? s
  | _ => none

/-- Writes a word. -/
def Word.toJson (w : Word) : Json := Json.ofNat w.toNat

/-- Reads a byte. -/
def Byte.ofJson? (json : Json) : Option Byte :=
  (json.intBetween? 0 255).map fun i => UInt8.ofNat i.toNat

/-- Writes a byte. -/
def Byte.toJson (b : Byte) : Json := Json.ofNat b.toNat

/-- Reads a list of bytes with their addresses: the `memory` of a process or the `writes` of a step. -/
def bytesOfJson? (json : Json) : Option (List (Word × Byte)) :=
  json.list? (Json.pair? Word.ofJson? Byte.ofJson?)

/-- Writes a list of bytes with their addresses. -/
def bytesToJson (bytes : List (Word × Byte)) : Json :=
  .array (bytes.map fun entry => .array [Word.toJson entry.1, Byte.toJson entry.2])

/-! ### Registers, frames and symbols -/

/-- Reads one register value; a key that denotes no text is refused. -/
def Registers.entryOfJson? : Option String × Json → Option (String × Word)
  | (some name, value) => (Word.ofJson? value).map fun word => (name, word)
  | (none, _) => none

/-- Reads register values; the last value given to a register wins (`Registers.ofList`). -/
def Registers.ofJson? : Json → Option Registers
  | .object members => (members.mapM Registers.entryOfJson?).map Registers.ofList
  | _ => none

/-- Writes register values. -/
def Registers.toJson (registers : Registers) : Json :=
  .ofMembers (registers.entries.map fun entry => (entry.1, Word.toJson entry.2))

/-- Reads a call stack entry. -/
def Frame.ofJson? (json : Json) : Option Frame := do
  match ← json.fields? ["function", "file"] with
  | [function, file] =>
    return { function := ← Json.optional? "" Json.text? function
             file := ← Json.optional? "" Json.text? file }
  | _ => none

/-- Writes a call stack entry. -/
def Frame.toJson (frame : Frame) : Json :=
  .ofMembers [("function", .ofString frame.function), ("file", .ofString frame.file)]

/-- Reads a symbol. -/
def Symbol.ofJson? (json : Json) : Option Symbol := do
  match ← json.fields? ["name", "start", "end"] with
  | [name, first, finish] =>
    return { name := ← Json.required? Json.text? name
             first := ← Json.required? Word.ofJson? first
             finish := ← Json.required? Word.ofJson? finish }
  | _ => none

/-- Writes a symbol. -/
def Symbol.toJson (symbol : Symbol) : Json :=
  .ofMembers [("name", .ofString symbol.name), ("start", Word.toJson symbol.first),
    ("end", Word.toJson symbol.finish)]

/-! ### Steps and recordings -/

/-- Reads a line number. -/
def lineOfJson? (json : Json) : Option UInt32 :=
  (json.intBetween? 0 0xffffffff).map fun i => UInt32.ofNat i.toNat

/-- Reads a signal number. -/
def signalOfJson? (json : Json) : Option Int32 :=
  (json.intBetween? (-0x80000000) 0x7fffffff).map fun i => Int32.ofInt i

/-- Reads a step; every field has the default of `Step`. -/
def Step.ofJson? (json : Json) : Option Step := do
  match ← json.fields? ["pc", "asm", "registers", "writes", "file", "line", "frames"] with
  | [pc, asm, registers, writes, file, line, frames] =>
    return { pc := ← Json.optional? 0 Word.ofJson? pc
             asm := ← Json.optional? "" Json.text? asm
             registers := ← Json.optional? {} Registers.ofJson? registers
             writes := ← Json.optional? [] bytesOfJson? writes
             file := ← Json.optional? "" Json.text? file
             line := ← Json.optional? 0 lineOfJson? line
             frames := ← Json.optional? [] (Json.list? Frame.ofJson?) frames }
  | _ => none

/-- Writes a step. -/
def Step.toJson (step : Step) : Json :=
  .ofMembers [("pc", Word.toJson step.pc), ("asm", .ofString step.asm),
    ("registers", Registers.toJson step.registers), ("writes", bytesToJson step.writes),
    ("file", .ofString step.file), ("line", .ofNat step.line.toNat),
    ("frames", .array (step.frames.map Frame.toJson))]

/-- Reads a recording; only the architecture and the steps must be there. -/
def Recording.ofJson? (json : Json) : Option Recording := do
  match ← json.fields? ["arch", "signal", "executable", "symbols", "memory", "steps"] with
  | [archName, signal, executable, symbols, memory, steps] =>
    return { archName := ← Json.required? Json.text? archName
             signal := ← Json.optional? none (Json.nullable? signalOfJson?) signal
             executable :=
               ← Json.optional? [] (Json.list? (Json.pair? Word.ofJson? Word.ofJson?)) executable
             symbols := ← Json.optional? [] (Json.list? Symbol.ofJson?) symbols
             memory := ← Json.optional? [] bytesOfJson? memory
             steps := ← Json.required? (Json.list? Step.ofJson?) steps }
  | _ => none

/-- Writes a recording, all its fields included, also those that hold their defaults. -/
def Recording.toJson (recording : Recording) : Json :=
  .ofMembers [("arch", .ofString recording.archName),
    ("signal",
      match recording.signal with
      | some signal => .ofInt signal.toInt
      | none => .null),
    ("executable",
      .array (recording.executable.map fun range =>
        .array [Word.toJson range.1, Word.toJson range.2])),
    ("symbols", .array (recording.symbols.map Symbol.toJson)),
    ("memory", bytesToJson recording.memory),
    ("steps", .array (recording.steps.map Step.toJson))]

/-- Reads the text of a recording: `Json.parse?`, then `Recording.ofJson?`. -/
def Recording.parse? (text : String) : Option Recording :=
  match Json.parse? text with
  | some json => Recording.ofJson? json
  | none => none

/-- The text of a recording: `Recording.toJson`, then `Json.render`. -/
def Recording.render (recording : Recording) : String := recording.toJson.render

end TraceSlice
