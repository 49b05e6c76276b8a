import TraceSlice.Text.Numeral

/-!
# JSON values

A `Json` value keeps what its text said: numbers keep their literal, so that `1`, `1.0` and `1e0` stay apart, and
objects keep every member in order, repeated keys included. What a literal denotes is asked afterwards, by `int?` and
`intBetween?`.
-/

namespace TraceSlice

/-- A JSON value. -/
inductive Json where
  /-- The literal `null`. -/
  | null
  /-- The literal `true` or `false`. -/
  | bool (value : Bool)
  /-- A number, as its literal. -/
  | number (literal : String)
  /-- A string; none if an escape in it names half a surrogate pair, which denotes no text. -/
  | string (text : Option String)
  /-- An array. -/
  | array (elements : List Json)
  /-- An object: its members in the order written. -/
  | object (members : List (Option String × Json))
deriving Repr, Inhabited

namespace Json

/-! ### Building values -/

/-- A string value; `text?` reads it back. -/
def ofString (s : String) : Json := .string (some s)

/-- An integer value, by `Text.signedDecimal`. -/
def ofInt (i : Int) : Json := .number (Text.signedDecimal i)

/-- A natural number value, by `Text.decimal`. -/
def ofNat (n : Nat) : Json := .number (Text.decimal n)

/-- An object from keys and values. -/
def ofMembers (members : List (String × Json)) : Json :=
  .object (members.map fun (key, value) => (some key, value))

/-! ### Reading values -/

/-- The text of a string value. -/
def text? : Json → Option String
  | .string text => text
  | _ => none

/-- The truth value of a boolean. -/
def bool? : Json → Option Bool
  | .bool value => some value
  | _ => none

/-- The elements of an array. -/
def elements? : Json → Option (List Json)
  | .array elements => some elements
  | _ => none

/-- The integer that a literal without fraction and exponent denotes. A minus sign before zero makes the literal
denote a fractional number, so `-0` has none. -/
def integerOf? (literal : List Char) : Option Int :=
  match literal with
  | '-' :: digits =>
    if digits.all (Text.isDigitIn 10) && Text.valueOf 10 digits != 0 then
      some (-(Text.valueOf 10 digits : Int))
    else none
  | digits =>
    if digits.all (Text.isDigitIn 10) && !digits.isEmpty then some (Text.valueOf 10 digits) else none

/-- The integer a number value denotes (`integerOf?`), if it has 64 bits with or without sign. -/
def int? : Json → Option Int
  | .number literal =>
    match integerOf? literal.toList with
    | some i => if -0x8000000000000000 ≤ i ∧ i < 0x10000000000000000 then some i else none
    | none => none
  | _ => none

/-- `int?` between two bounds, both included. -/
def intBetween? (low high : Int) (json : Json) : Option Int :=
  match json.int? with
  | some i => if low ≤ i ∧ i ≤ high then some i else none
  | none => none

/-- The values of all members with the given key, in order. -/
def valuesOf (key : String) (members : List (Option String × Json)) : List Json :=
  members.filterMap fun (name, value) => if name = some key then some value else none

/-- The last value given to `key`, if `json` is an object that has it. -/
def get? (json : Json) (key : String) : Option Json :=
  match json with
  | .object members => (valuesOf key members).getLast?
  | _ => none

end Json

end TraceSlice
