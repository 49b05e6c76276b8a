import TraceSlice.Text.Hidden
import TraceSlice.Text.Numeral

/-!
# Quoted text

A text in double quotes, in which the quote, the backslash and every character without an appearance of its own
(`isHidden`) are escaped. `Inspect` lays strings out this way.
-/

namespace TraceSlice.Text

/-- `c` inside a quoted text: itself, an escape by letter, or its code point in braces. -/
def quotedChar (c : Char) : List Char :=
  match c with
  | '\x00' => ['\\', '0']
  | '\t' => ['\\', 't']
  | '\r' => ['\\', 'r']
  | '\n' => ['\\', 'n']
  | '"' => ['\\', '"']
  | '\\' => ['\\', '\\']
  | c => if isHidden c then "\\u\x7b".toList ++ Nat.toDigits 16 c.toNat ++ ['\x7d'] else [c]

/-- `s` in quotes, character by character (`quotedChar`). -/
def quoted (s : String) : String :=
  String.ofList ('"' :: s.toList.flatMap quotedChar ++ ['"'])

end TraceSlice.Text
