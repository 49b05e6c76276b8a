import TraceSlice.Backend.Basic

/-!
# Addressing expressions

A memory operand is written as an expression over registers and numbers, in brackets or after a segment prefix:
`[ebp-0x10]`, `es:[edi]`, `ds:0x804a000`. `pieces` first cuts the expression into pieces, which depends on the text
alone; then the registers get their values and the address is evaluated (`baseAddress`). Every register in the
expression is read, also when a later part of the text cannot be understood. This is the memory-expression resolver of
the specification, §4.2.
-/

namespace TraceSlice.Decode

/-- A piece of an addressing expression. -/
inductive Piece where
  /-- An operator, or a number as written. -/
  | text (text : List Char)
  /-- A register. -/
  | register (register : Register)
deriving DecidableEq, Repr

/-- The pieces of an addressing expression, and whether all of its text could be understood (`complete`). -/
structure Pieces where
  /-- The pieces in order, up to the first text that makes no sense. -/
  pieces : List Piece
  /-- Was the whole text understood? -/
  complete : Bool
deriving DecidableEq, Repr

/-- Puts one more piece in front. -/
def Pieces.cons (piece : Piece) (rest : Pieces) : Pieces :=
  { rest with pieces := piece :: rest.pieces }

/-- The letter of a segment prefix such as `es:` that a text starts with, and the text after it. Thread-local ones
(`isThreadLocal`) are told apart by the letter. -/
def segment? : List Char → Option (Char × List Char)
  | letter :: 's' :: ':' :: rest => if letter.toNat < 0x80 then some (letter, rest) else none
  | _ => none

/-- Thread-local segments, `fs` and `gs`, have a base that recordings do not know. -/
def isThreadLocal (letter : Char) : Bool := letter == 'f' || letter == 'g'

/-- What stands at the head of a text inside an addressing expression; `pieces` goes on from there. -/
inductive Head where
  /-- A piece that takes a number of characters. -/
  | piece (piece : Piece) (size : Nat)
  /-- Characters that contribute nothing. -/
  | skip (size : Nat)
  /-- Nothing that can be understood. -/
  | unknown
deriving DecidableEq, Repr

/-- The register that a text starts with (`registerAtHead?`), if any, as the head of an expression: a zero register is
the number zero. -/
def registerHead (arch : Description) (cs : List Char) : Head :=
  match arch.zeroRegisterAtHead? cs with
  | some name => .piece (.text ['0']) name.length
  | none =>
    match arch.registerAtHead? cs with
    | some register => .piece (.register register) register.name.length
    | none => .unknown

/-- Reads the head of a text. -/
def head (arch : Description) (c : Char) (rest : List Char) : Head :=
  if c = '[' ∨ c = ' ' then .skip 1
  else if c = '+' ∨ c = '-' ∨ c = '*' then .piece (.text [c]) 1
  else if c.isDigit then
    match Text.numeral? (c :: rest) with
    | some (_, size) => .piece (.text ((c :: rest).take size)) size
    | none => .unknown
  else
    match segment? (c :: rest) with
    | some (letter, _) => if isThreadLocal letter then .unknown else .skip 3
    | none => registerHead arch (c :: rest)

/-- Cuts the text of an addressing expression into pieces, one `head` after the other. -/
def pieces (arch : Description) (cs : List Char) : Pieces :=
  match cs with
  | [] => ⟨[], true⟩
  | c :: rest =>
    match head arch c rest with
    | .unknown => ⟨[], false⟩
    | .skip size => pieces arch (rest.drop (size - 1))
    | .piece piece size => (pieces arch (rest.drop (size - 1))).cons piece
termination_by cs.length
decreasing_by all_goals simp only [List.length_drop, List.length_cons]; omega

/-- The part of a memory operand's text that is the expression: up to the closing bracket. -/
def addressBody (cs : List Char) : List Char := (Text.trim cs).takeWhile (· ≠ ']')

/-! ### Evaluation -/

/-- The expression that asks for a register's value; `Expr.evaluate` reads it. -/
def registerExpression (name : String) : String := "$" ++ name

/-- The value a register contributes to an address. Pointers (`isPointerGroup`) are evaluated as addresses. -/
def addressValue (arch : Description) (view : View) (register : Register) : Word :=
  if arch.isPointerGroup register.group then view.evaluateAddress (registerExpression register.name)
  else view.evaluate (registerExpression register.name)

/-- A piece as it stands in the expression to evaluate: pointers by `addressValue`, other registers by name. -/
def Piece.resolve (arch : Description) (view : View) : Piece → String
  | .text chars => String.ofList chars
  | .register r =>
    if arch.isPointerGroup r.group then Text.hex (addressValue arch view r)
    else registerExpression r.name

/-- The register of a piece. -/
def Piece.register? : Piece → Option Register
  | .register r => some r
  | .text _ => none

/-- The registers that an expression mentions, in order; `addressUses` reads them all. -/
def Pieces.registers (scan : Pieces) : List Register := scan.pieces.filterMap Piece.register?

/-- Does the expression mention the instruction pointer? -/
def Pieces.isRelative (arch : Description) (scan : Pieces) : Bool :=
  scan.registers.any fun register => register.group.contains arch.instructionPointer

/-- The expression to evaluate: every piece by `Piece.resolve`. -/
def Pieces.resolve (arch : Description) (view : View) (scan : Pieces) : String :=
  String.join (scan.pieces.map (Piece.resolve arch view))

/-- The registers read to form an address, as uses of `Operand.addressRegister`. -/
def addressUses (arch : Description) (view : View) (scan : Pieces) : List Use :=
  scan.registers.map fun register =>
    ⟨.source, .addressRegister register (addressValue arch view register)⟩

/-- The uses of `width` bytes of memory from `base` on. Addresses wrap. -/
def byteUses (view : View) (base : Word) (width : Nat) (direction : Direction) : List Use :=
  (List.range width).map fun offset =>
    let address := base + UInt64.ofNat offset
    ⟨direction, .ofMemory address (view.byte address)⟩

/-- The address an expression denotes. Relative to the instruction pointer, addresses are formed from
the next instruction, which only the disassembler knows: its `target`, if it gave one, is the address. -/
def baseAddress (arch : Description) (view : View) (target : Option Word) (scan : Pieces) : Word :=
  match target with
  | some address =>
    if scan.isRelative arch then address else view.evaluateAddress (scan.resolve arch view)
  | none => view.evaluateAddress (scan.resolve arch view)

/-- The uses that a memory operand of `width` bytes stands for: the registers of its address (`addressUses`), and, if
the address could be understood, its bytes (`byteUses`). -/
def memoryUses (arch : Description) (view : View) (target : Option Word) (text : List Char)
    (width : Nat) (direction : Direction) : List Use :=
  let scan := pieces arch (addressBody text)
  if scan.complete && !scan.pieces.isEmpty then
    addressUses arch view scan ++
      byteUses view (baseAddress arch view target scan) width direction
  else addressUses arch view scan

end TraceSlice.Decode
