import TraceSlice.Expr.Token

/-!
# Evaluating addressing expressions

The address-arithmetic evaluator of the specification, §E7. The grammar is `sum := product (("+" | "-") product)*`,
`product := unary ("*" unary)*`, `unary := "-" unary | "+" unary | atom` and `atom := number | register | "(" sum
")"`. The evaluator takes one token at a time (`Reading.take`), from left to right, and keeps one `Level` per open
parenthesis. Arithmetic wraps at 64 bits, so a level needs only the sum of its finished products and the product of
its finished factors. The first token that cannot stand where it does ends the evaluation, and so does a register that
is not known. That this is recursive descent over the grammar is proved in `Proofs.Descent`.
-/

namespace TraceSlice.Expr

/-- A sum in the making, `total ± product * ± …`, its next factor still to be read. -/
structure Level where
  /-- The finished products, added up. -/
  total : Word
  /-- Is the product being read subtracted from them? -/
  subtracting : Bool
  /-- The finished factors of the product being read, multiplied. -/
  product : Word
  /-- Is the factor being read under an odd number of minus signs? -/
  negated : Bool
deriving DecidableEq, Repr

namespace Level

/-- Nothing has been read yet. -/
def start : Level := ⟨0, false, 1, false⟩

/-- One more minus sign stands before the factor. -/
def negate (level : Level) : Level := { level with negated := !level.negated }

/-- Completes the factor being read: it is negated if `negated` says so and multiplied to the product. -/
def factor (level : Level) (value : Word) : Level :=
  { level with
    product := level.product * (if level.negated then -value else value)
    negated := false }

/-- The value of the sum, its last product included, added or subtracted as `subtracting` says. -/
def value (level : Level) : Word :=
  if level.subtracting then level.total - level.product else level.total + level.product

/-- Begins the next product, which `subtracting` says to add or to subtract. -/
def next (level : Level) (subtracting : Bool) : Level := ⟨level.value, subtracting, 1, false⟩

end Level

/-- Where the evaluator stands in an expression. The last field holds the levels around the open parentheses,
innermost first. -/
inductive Reading where
  /-- An operand must follow. -/
  | operand (level : Level) (outer : List Level)
  /-- An operand is complete: an operator, a closing parenthesis or the end may follow. -/
  | operator (level : Level) (outer : List Level)
deriving DecidableEq, Repr

/-- Before the first token. -/
def Reading.start : Reading := .operand .start []

/-- Takes one token; an error (`EvalError`) carries the offset of the token it is about. -/
def Reading.take (registers : String → Option Word) :
    Reading → Nat × Token → Except EvalError Reading
  | .operand level outer, (offset, token) =>
    match token with
    | .number value => .ok (.operator (level.factor value) outer)
    | .register name =>
      match registers name with
      | some value => .ok (.operator (level.factor value) outer)
      | none => .error (.unknownRegister name)
    | .minus => .ok (.operand level.negate outer)
    | .plus => .ok (.operand level outer)
    | .openParen => .ok (.operand .start (level :: outer))
    | .star | .closeParen => .error (.unexpectedToken token.render offset)
  | .operator level outer, (offset, token) =>
    match token, outer with
    | .plus, _ => .ok (.operand (level.next false) outer)
    | .minus, _ => .ok (.operand (level.next true) outer)
    | .star, _ => .ok (.operand level outer)
    | .closeParen, around :: rest => .ok (.operator (around.factor level.value) rest)
    | _, _ => .error (.unexpectedToken token.render offset)

/-- The value at the end of an expression, if it may end here. -/
def Reading.finish : Reading → Except EvalError Word
  | .operator level [] => .ok level.value
  | _ => .error .unexpectedEnd

/-- The value of a list of tokens: a run of `Reading.take` from `Reading.start`. -/
def evaluateTokens (registers : String → Option Word) (ts : List (Nat × Token)) :
    Except EvalError Word :=
  match ts.foldlM (Reading.take registers) .start with
  | .error err => .error err
  | .ok reading => reading.finish

/-- The value of an expression whose registers have the values `registers` gives: `tokenize`, then `evaluateTokens`.
-/
def evaluate (registers : String → Option Word) (expression : String) : Except EvalError Word :=
  match tokenize expression with
  | .error err => .error err
  | .ok [] => .error .empty
  | .ok ts => evaluateTokens registers ts

end TraceSlice.Expr
