/-!
# Blanks, trimming and splitting

Texts are scanned as lists of characters. A *blank* (`isBlank`) is any character with the Unicode property
`White_Space`; `trim` and `words` use that class, never the smaller ASCII one. `pieces` and `splitFirst?` cut at
characters of any other class.
-/

namespace TraceSlice.Text

/-- The inclusive code point ranges of the Unicode property `White_Space`. -/
def blankRanges : List (Nat × Nat) :=
  [(0x09, 0x0d), (0x20, 0x20), (0x85, 0x85), (0xa0, 0xa0), (0x1680, 0x1680), (0x2000, 0x200a),
   (0x2028, 0x2029), (0x202f, 0x202f), (0x205f, 0x205f), (0x3000, 0x3000)]

/-- Does `c` have the property `White_Space`? The table is `blankRanges`. -/
def isBlank (c : Char) : Bool :=
  blankRanges.any fun range => range.1 ≤ c.toNat && c.toNat ≤ range.2

/-! ### Trimming -/

/-- Drops the blanks `cs` starts with. -/
def trimStart (cs : List Char) : List Char := cs.dropWhile isBlank

/-- Drops the blanks `cs` ends with. -/
def trimEnd (cs : List Char) : List Char := (cs.reverse.dropWhile isBlank).reverse

/-- `trimStart`, then `trimEnd`. -/
def trim (cs : List Char) : List Char := trimEnd (trimStart cs)

/-- `trim` on strings. -/
def trimmed (s : String) : String := String.ofList (trim s.toList)

/-! ### Splitting -/

/-- The pieces of a text between the characters that satisfy `sep`. There is one piece more than
there are separators, and the pieces may be empty. -/
def pieces (sep : Char → Bool) : List Char → List (List Char)
  | [] => [[]]
  | c :: cs =>
    if sep c then [] :: pieces sep cs
    else
      match pieces sep cs with
      | [] => [[c]]
      | piece :: rest => (c :: piece) :: rest

/-- The maximal blank-free runs of a text: the `pieces` between blanks, the empty ones left out. -/
def words (cs : List Char) : List (List Char) :=
  (pieces isBlank cs).filter fun piece => !piece.isEmpty

/-- What stands before and after the first character that satisfies `sep`, if there is one. -/
def splitFirst? (sep : Char → Bool) : List Char → Option (List Char × List Char)
  | [] => none
  | c :: cs =>
    if sep c then some ([], cs)
    else (splitFirst? sep cs).map fun (before, after) => (c :: before, after)

/-- Joins pieces with `sep` between them: `pieces` the other way. -/
def join (sep : List Char) : List (List Char) → List Char
  | [] => []
  | [piece] => piece
  | piece :: rest => piece ++ sep ++ join sep rest

/-! ### Searching -/

/-- Does `pattern` stand anywhere in the text? -/
def contains (pattern : List Char) : List Char → Bool
  | [] => pattern.isEmpty
  | c :: cs => pattern.isPrefixOf (c :: cs) || contains pattern cs

/-- `List.isPrefixOf` on strings. -/
def startsWith (s pattern : String) : Bool := pattern.toList.isPrefixOf s.toList

/-- `contains` on strings. -/
def holds (s pattern : String) : Bool := contains pattern.toList s.toList

/-- The ASCII lower case of a string (`Char.toLower`); other letters stay. -/
def lowered (s : String) : String := String.ofList (s.toList.map Char.toLower)

/-! ### Small lemmas -/

theorem trimStart_sublist (cs : List Char) : (trimStart cs).Sublist cs :=
  List.dropWhile_sublist _

theorem length_trimStart_le (cs : List Char) : (trimStart cs).length ≤ cs.length :=
  (trimStart_sublist cs).length_le

theorem pieces_ne_nil (sep : Char → Bool) (cs : List Char) : pieces sep cs ≠ [] := by
  cases cs with
  | nil => simp [pieces]
  | cons c cs =>
    unfold pieces
    split
    · simp
    · split <;> simp

/-- What `splitFirst?` cuts at a separator is put together again by that separator. -/
theorem splitFirst?_eq_some {sep : Char → Bool} {cs before after : List Char}
    (h : splitFirst? sep cs = some (before, after)) :
    ∃ c, sep c = true ∧ cs = before ++ c :: after := by
  induction cs generalizing before with
  | nil => simp [splitFirst?] at h
  | cons c cs ih =>
    unfold splitFirst? at h
    split at h
    · next hc =>
      simp only [Option.some.injEq, Prod.mk.injEq] at h
      exact ⟨c, hc, by simp [← h.1, h.2]⟩
    · obtain ⟨⟨b, a⟩, hs, he⟩ := Option.map_eq_some_iff.mp h
      simp only [Prod.mk.injEq] at he
      obtain ⟨d, hd, hcs⟩ := ih (by rw [hs, he.2])
      exact ⟨d, hd, by simp [hcs, ← he.1]⟩

end TraceSlice.Text
