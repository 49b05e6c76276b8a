import TraceSlice.Operand

/-!
# Instructions

An `Instruction` as it was decoded at one step of an execution: its text, the operands it reads and writes, and what
is known about its origin (specification, §3). `render` is the line that listings and saved slices show (§6).
-/

namespace TraceSlice

/-- A place in the source code. -/
structure SourceLocation where
  /-- The file. -/
  file : String
  /-- The line in it. -/
  line : UInt32
  /-- The enclosing function. -/
  symbol : String
deriving DecidableEq, Repr

/-- How an instruction uses an operand; an operand that is both read and written is one `Use`. -/
inductive Direction where
  /-- It reads it. -/
  | source
  /-- It writes it. -/
  | destination
  /-- It reads and writes it. -/
  | both
deriving DecidableEq, Repr

/-- Is the operand read? -/
def Direction.reads : Direction → Bool
  | .source | .both => true
  | .destination => false

/-- Is the operand written? -/
def Direction.writes : Direction → Bool
  | .destination | .both => true
  | .source => false

/-- One use of an operand, as the decoder finds it. -/
structure Use where
  /-- How it is used. -/
  direction : Direction
  /-- What is used. -/
  operand : Operand
deriving DecidableEq, Repr

/-- The operands that a list of uses reads, in order. -/
def Use.sources (uses : List Use) : List Operand :=
  (uses.filter fun use => use.direction.reads).map (·.operand)

/-- The operands that a list of uses writes, in order. -/
def Use.destinations (uses : List Use) : List Operand :=
  (uses.filter fun use => use.direction.writes).map (·.operand)

@[simp] theorem Use.sources_append (xs ys : List Use) :
    Use.sources (xs ++ ys) = Use.sources xs ++ Use.sources ys := by
  simp [Use.sources]

@[simp] theorem Use.destinations_append (xs ys : List Use) :
    Use.destinations (xs ++ ys) = Use.destinations xs ++ Use.destinations ys := by
  simp [Use.destinations]

/-- A decoded instruction. After `decode`, only `annotate` changes it. -/
structure Instruction where
  /-- Its address. -/
  pc : Word
  /-- Its text, without surrounding blanks. -/
  text : String
  /-- The prefix that decides whether it repeats. -/
  leading : Option String
  /-- Its mnemonic. -/
  mnemonic : String
  /-- The operands it reads. -/
  sources : List Operand := []
  /-- The operands it writes. -/
  destinations : List Operand := []
  /-- Where it comes from in the source code. -/
  location : Option SourceLocation := none
  /-- Notes on it. -/
  comment : String := ""
deriving DecidableEq, Repr

namespace Instruction

/-- An instruction without operands; blanks around `text` are dropped. -/
def ofText (pc : Word) (text : String) (leading : Option String) (mnemonic : String) : Instruction :=
  { pc, text := Text.trimmed text, leading, mnemonic }

/-- Adds the operands of `uses` after those already there: each to `sources`, to `destinations` or to both. -/
def addUses (insn : Instruction) (uses : List Use) : Instruction :=
  { insn with
    sources := insn.sources ++ Use.sources uses
    destinations := insn.destinations ++ Use.destinations uses }

/-- Adds a note after the notes already there; `render` shows them all. -/
def annotate (insn : Instruction) (note : String) : Instruction :=
  { insn with comment := if insn.comment.isEmpty then note else insn.comment ++ " " ++ note }

/-- Is `word` a prefix that makes an instruction repeat in place? -/
def isRepeatPrefix (word : String) : Bool := Text.startsWith word "rep"

/-- Can the instruction repeat, leaving the program counter where it is? The engine asks before it takes a standstill
for the end of the history. -/
def isRepeating (insn : Instruction) : Bool :=
  match insn.leading with
  | some word => isRepeatPrefix word
  | none => false

/-! ### Text -/

/-- Operands in brackets, each by `Operand.render`. -/
def renderOperands (operands : List Operand) : String :=
  "[" ++ ", ".intercalate (operands.map Operand.render) ++ "]"

/-- The instruction as listings show it: origin, address and text; the operands if `verbose`; the
variables it touches; and the notes on it. -/
def render (insn : Instruction) (verbose : Bool) : String :=
  let place := Text.hex insn.pc ++ ": " ++ insn.text
  let head :=
    match insn.location with
    | some origin =>
      if origin.file.isEmpty then place
      else origin.file ++ ":" ++ Text.decimal origin.line.toNat ++ " " ++ origin.symbol ++ " " ++ place
    | none => place
  let operands :=
    if verbose then
      "\n\t" ++ renderOperands insn.sources ++ " -> " ++ renderOperands insn.destinations
    else ""
  let symbols := (insn.sources ++ insn.destinations).filterMap (·.symbol)
  let names := if symbols.isEmpty then "" else " //" ++ String.join (symbols.map (" " ++ ·))
  let notes := if insn.comment.isEmpty then "" else " # " ++ insn.comment
  head ++ operands ++ names ++ notes

/-- The instructions one to a line, without `verbose`, as a saved slice holds them. -/
def renderLines (insns : List Instruction) : String :=
  String.join (insns.map fun insn => insn.render false ++ "\n")

end Instruction

end TraceSlice
