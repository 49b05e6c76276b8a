import TraceSlice.Text.Numeral

/-!
# Tokens of addressing expressions

Expressions such as `$ebp-0x10+$eax*4` are cut by `tokenize` into tokens by maximal munch, spaces and tabs between
them skipped (specification, §E7). Every token carries the byte offset, in UTF-8, at which it starts, so that an
`EvalError` can point at it.
-/

namespace TraceSlice.Expr

/-- A token. -/
inductive Token where
  /-- A number that fits 64 bits. -/
  | number (value : Word)
  /-- A register name after `$`. -/
  | register (name : String)
  /-- `+` -/
  | plus
  /-- `-` -/
  | minus
  /-- `*` -/
  | star
  /-- `(` -/
  | openParen
  /-- `)` -/
  | closeParen
deriving DecidableEq, Repr

/-- How a token is shown in an `EvalError`: numbers in hexadecimal, all else as written. -/
def Token.render : Token → String
  | .number value => Text.hex value
  | .register name => "$" ++ name
  | .plus => "+"
  | .minus => "-"
  | .star => "*"
  | .openParen => "("
  | .closeParen => ")"

/-- Why an expression has no value. -/
inductive EvalError where
  /-- There is no token in it. -/
  | empty
  /-- It names a register that is not known. -/
  | unknownRegister (name : String)
  /-- A token, or a character that starts none, that cannot stand where it does. -/
  | unexpectedToken (token : String) (offset : Nat)
  /-- It stops too early. -/
  | unexpectedEnd
deriving DecidableEq, Repr

/-- The wording of each `EvalError`, as the user reads it. -/
def EvalError.message : EvalError → String
  | .empty => "empty expression"
  | .unknownRegister name => "unknown register `$" ++ name ++ "`"
  | .unexpectedToken token offset =>
    "unexpected `" ++ token ++ "` at offset " ++ Text.decimal offset
  | .unexpectedEnd => "unexpected end of expression"

/-- A character that may stand in a register name. -/
def isNameChar (c : Char) : Bool := c.isAlphanum || c == '_'

/-- The token that `c` makes on its own. -/
def symbol? : Char → Option Token
  | '+' => some .plus
  | '-' => some .minus
  | '*' => some .star
  | '(' => some .openParen
  | ')' => some .closeParen
  | _ => none

/-- The token at the head of a text that does not start with a blank, and the number of characters it takes, all of
them ASCII. A number that `Text.numeral?` refuses makes the whole rest of the text unexpected; any other character
that starts no token is itself unexpected. -/
def token? (offset : Nat) (c : Char) (rest : List Char) : Except EvalError (Token × Nat) :=
  match symbol? c with
  | some token => .ok (token, 1)
  | none =>
    if c = '$' then
      let name := rest.takeWhile isNameChar
      .ok (.register (String.ofList name), name.length + 1)
    else if c.isDigit then
      match Text.numeral? (c :: rest) with
      | some (value, size) => .ok (.number value, size)
      | none => .error (.unexpectedToken (String.ofList (c :: rest)) offset)
    else .error (.unexpectedToken (String.singleton c) offset)

theorem token?_size_pos {offset : Nat} {c : Char} {rest : List Char} {token : Token} {size : Nat}
    (h : token? offset c rest = .ok (token, size)) : 0 < size := by
  unfold token? at h
  split at h
  · simp only [Except.ok.injEq, Prod.mk.injEq] at h; omega
  · split at h
    · simp only [Except.ok.injEq, Prod.mk.injEq] at h; omega
    · split at h
      · split at h
        · next value n hn =>
          simp only [Except.ok.injEq, Prod.mk.injEq] at h
          have := Text.numeral?_size_pos hn
          omega
        · simp at h
      · simp at h

/-- The tokens of a text that starts at byte `offset`, each (`token?`) with the offset of its first byte. -/
def tokens (offset : Nat) (cs : List Char) : Except EvalError (List (Nat × Token)) :=
  match cs with
  | [] => .ok []
  | c :: rest =>
    if c = ' ' ∨ c = '\t' then tokens (offset + 1) rest
    else
      match _found : token? offset c rest with
      | .error err => .error err
      | .ok (token, size) =>
        match tokens (offset + size) ((c :: rest).drop size) with
        | .error err => .error err
        | .ok more => .ok ((offset, token) :: more)
termination_by cs.length
decreasing_by
  · simp
  · have := token?_size_pos ‹_›
    simp only [List.length_drop, List.length_cons]
    omega

/-- The tokens of an expression, from byte 0. -/
def tokenize (expression : String) : Except EvalError (List (Nat × Token)) :=
  tokens 0 expression.toList

end TraceSlice.Expr
