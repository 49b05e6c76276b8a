import TraceSlice.Json.Basic

/-!
# Records in JSON

A record is written as an object of named fields, or as an array of its fields in order (`fields?`). Unknown fields
are ignored, also when they are repeated; a known field that is repeated is an error, and so are more array elements
than there are fields. `required?` and `optional?` then read the fields one by one.
-/

namespace TraceSlice.Json

/-- The value of one field of an object; `none` if the field is repeated, `some none` if it is missing. -/
def field? (members : List (Option String × Json)) (name : String) : Option (Option Json) :=
  match valuesOf name members with
  | [] => some none
  | [value] => some (some value)
  | _ => none

/-- The values of a record's fields, in the order of `names`, missing fields as `none`; `none` if the value is no such
record. -/
def fields? (names : List String) : Json → Option (List (Option Json))
  | .object members =>
    if members.all fun member => member.1.isSome then names.mapM (field? members) else none
  | .array elements =>
    if elements.length ≤ names.length then
      some (elements.map some ++ List.replicate (names.length - elements.length) none)
    else none
  | _ => none

/-- Reads, by `read`, a field that must be there. -/
def required? {α : Type} (read : Json → Option α) : Option Json → Option α
  | some value => read value
  | none => none

/-- Reads, by `read`, a field that is `fallback` when it is missing. -/
def optional? {α : Type} (fallback : α) (read : Json → Option α) : Option Json → Option α
  | some value => read value
  | none => some fallback

/-- Reads an array of values of one kind; one element that `read` refuses refuses the array. -/
def list? {α : Type} (read : Json → Option α) : Json → Option (List α)
  | .array elements => elements.mapM read
  | _ => none

/-- Reads an array of exactly two values. -/
def pair? {α β : Type} (readFirst : Json → Option α) (readSecond : Json → Option β) :
    Json → Option (α × β)
  | .array [a, b] =>
    match readFirst a, readSecond b with
    | some x, some y => some (x, y)
    | _, _ => none
  | _ => none

/-- Reads a value that may be `null`. -/
def nullable? {α : Type} (read : Json → Option α) : Json → Option (Option α)
  | .null => some none
  | value => (read value).map some

end TraceSlice.Json
