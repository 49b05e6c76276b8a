import TraceSlice.Json.Basic

/-!
# Writing JSON text

`write` writes a value without white space. In strings the quote, the backslash and the control characters are
escaped, the common ones by letter (`escaped`); all other characters stand for themselves.
-/

namespace TraceSlice.Json

/-- `c` inside a string. -/
def escaped (c : Char) : List Char :=
  match c with
  | '"' => ['\\', '"']
  | '\\' => ['\\', '\\']
  | '\x08' => ['\\', 'b']
  | '\x0c' => ['\\', 'f']
  | '\n' => ['\\', 'n']
  | '\r' => ['\\', 'r']
  | '\t' => ['\\', 't']
  | c =>
    if c.toNat < 0x20 then
      ['\\', 'u', '0', '0', Nat.digitChar (c.toNat / 16), Nat.digitChar (c.toNat % 16)]
    else [c]

/-- A string in quotes. A string that denotes no text (`none`) is written as half a surrogate pair. -/
def writeText : Option String → List Char
  | some text => '"' :: text.toList.flatMap escaped ++ ['"']
  | none => ['"', '\\', 'u', 'd', '8', '0', '0', '"']

mutual

/-- The text of a value. -/
def write : Json → List Char
  | .null => "null".toList
  | .bool true => "true".toList
  | .bool false => "false".toList
  | .number literal => literal.toList
  | .string text => writeText text
  | .array elements => '[' :: writeElements elements ++ [']']
  | .object members => '\x7b' :: writeMembers members ++ ['\x7d']

/-- Array elements with commas between them. -/
def writeElements : List Json → List Char
  | [] => []
  | [element] => write element
  | element :: rest => write element ++ ',' :: writeElements rest

/-- Object members with commas between them. -/
def writeMembers : List (Option String × Json) → List Char
  | [] => []
  | [(key, value)] => writeText key ++ ':' :: write value
  | (key, value) :: rest => writeText key ++ ':' :: write value ++ ',' :: writeMembers rest

end

/-- `write` as a string. -/
def render (json : Json) : String := String.ofList json.write

end TraceSlice.Json
