import TraceSlice.Json.Basic

/-!
# Reading JSON text

Reading is strict: no comments, trailing commas, leading zeros, byte order mark or raw control characters, and nothing
but white space around the document. `lexemes?` cuts the text into lexemes, and a machine with a stack of open
brackets (`Expecting.take`) folds the lexemes into a value; `parse?` is the two together.
-/

namespace TraceSlice.Json

/-! ### Lexemes -/

/-- The lexemes of JSON. -/
inductive Lexeme where
  /-- `{` -/
  | openBrace
  /-- `}` -/
  | closeBrace
  /-- `[` -/
  | openBracket
  /-- `]` -/
  | closeBracket
  /-- `,` -/
  | comma
  /-- `:` -/
  | colon
  /-- A string, as the text it denotes. -/
  | text (text : Option String)
  /-- A number, or one of the words `null`, `true` and `false`. -/
  | scalar (value : Json)
deriving Repr

/-- The body of a string up to its closing quote, escapes untouched, and what follows the quote. Raw control
characters are refused. `units?` reads the body. -/
def quoted? : List Char → Option (List Char × List Char)
  | [] => none
  | '"' :: rest => some ([], rest)
  | '\\' :: c :: rest => (quoted? rest).map fun (body, after) => ('\\' :: c :: body, after)
  | c :: rest =>
    if c.toNat < 0x20 then none
    else (quoted? rest).map fun (body, after) => (c :: body, after)

/-- The character a one-letter escape stands for; `escaped` writes all of them but the slash. -/
def shortEscape? : Char → Option Char
  | '"' => some '"'
  | '\\' => some '\\'
  | '/' => some '/'
  | 'b' => some '\x08'
  | 'f' => some '\x0c'
  | 'n' => some '\n'
  | 'r' => some '\r'
  | 't' => some '\t'
  | _ => none

/-- The code units of a string body: characters as code points, and an escape with four hexadecimal
digits as the unit it names, which may be half a surrogate pair. -/
def units? : List Char → Option (List Nat)
  | [] => some []
  | '\\' :: 'u' :: a :: b :: c :: d :: rest =>
    if [a, b, c, d].all (Text.isDigitIn 16) then
      (units? rest).map (Text.valueOf 16 [a, b, c, d] :: ·)
    else none
  | '\\' :: c :: rest =>
    match shortEscape? c with
    | some e => (units? rest).map (e.toNat :: ·)
    | none => none
  | '\\' :: [] => none
  | c :: rest => (units? rest).map (c.toNat :: ·)

/-- Is the unit the first half of a surrogate pair? -/
def isHighHalf (unit : Nat) : Bool := 0xd800 ≤ unit && unit < 0xdc00

/-- Is the unit the second half of a surrogate pair? -/
def isLowHalf (unit : Nat) : Bool := 0xdc00 ≤ unit && unit < 0xe000

/-- The characters of a list of code units. A first half (`isHighHalf`) must be followed by a second half
(`isLowHalf`), and the two make one character; a half on its own denotes nothing. -/
def characters? : List Nat → Option (List Char)
  | [] => some []
  | high :: low :: rest =>
    if isHighHalf high then
      if isLowHalf low then
        (characters? rest).map
          (Char.ofNat (0x10000 + (high - 0xd800) * 0x400 + (low - 0xdc00)) :: ·)
      else none
    else if isLowHalf high then none
    else (characters? (low :: rest)).map (Char.ofNat high :: ·)
  | [unit] => if isHighHalf unit || isLowHalf unit then none else some [Char.ofNat unit]

/-- A string lexeme and what follows it, from the text after its opening quote. Halves that `characters?` cannot pair
leave a string without text, not an error. -/
def lexText? (cs : List Char) : Option (Option String × List Char) :=
  match quoted? cs with
  | some (body, after) => (units? body).map fun units => ((characters? units).map String.ofList, after)
  | none => none

/-- A run of decimal digits that is not empty, and what follows it. -/
def lexDigits? (cs : List Char) : Option (List Char × List Char) :=
  let digits := cs.takeWhile (Text.isDigitIn 10)
  if digits.isEmpty then none else some (digits, cs.dropWhile (Text.isDigitIn 10))

/-- The part of a number before its fraction: a lone zero, or digits (`lexDigits?`) that do not start with zero. -/
def lexWhole? : List Char → Option (List Char × List Char)
  | '0' :: rest => some (['0'], rest)
  | cs => lexDigits? cs

/-- The fraction of a number, which may be missing. -/
def lexFraction? : List Char → Option (List Char × List Char)
  | '.' :: rest => (lexDigits? rest).map fun (digits, after) => ('.' :: digits, after)
  | cs => some ([], cs)

/-- The sign of an exponent, which may be missing. -/
def lexSign : List Char → List Char × List Char
  | '+' :: rest => (['+'], rest)
  | '-' :: rest => (['-'], rest)
  | cs => ([], cs)

/-- The exponent of a number, which may be missing. -/
def lexExponent? : List Char → Option (List Char × List Char)
  | c :: rest =>
    if c = 'e' ∨ c = 'E' then
      (lexDigits? (lexSign rest).2).map fun (digits, after) =>
        (c :: (lexSign rest).1 ++ digits, after)
    else some ([], c :: rest)
  | [] => some ([], [])

/-- The number literal at the head of a text, after an optional minus sign has been read: `lexWhole?`, `lexFraction?`
and `lexExponent?` in a row. -/
def lexUnsigned? (cs : List Char) : Option (List Char × List Char) :=
  match lexWhole? cs with
  | none => none
  | some (whole, rest) =>
    match lexFraction? rest with
    | none => none
    | some (fraction, rest) =>
      (lexExponent? rest).map fun (exponent, rest) => (whole ++ fraction ++ exponent, rest)

/-- The number literal at the head of a text, its minus sign included. -/
def lexNumber? : List Char → Option (List Char × List Char)
  | '-' :: rest => (lexUnsigned? rest).map fun (literal, after) => ('-' :: literal, after)
  | cs => lexUnsigned? cs

/-- White space between lexemes. This is not `Text.isBlank`: JSON knows four such characters. -/
def isSpace (c : Char) : Bool := c == ' ' || c == '\t' || c == '\n' || c == '\r'

/-- The lexeme at the head of a text that starts with no white space, and what follows it. -/
def lexeme? : List Char → Option (Lexeme × List Char)
  | '\x7b' :: rest => some (.openBrace, rest)
  | '\x7d' :: rest => some (.closeBrace, rest)
  | '[' :: rest => some (.openBracket, rest)
  | ']' :: rest => some (.closeBracket, rest)
  | ',' :: rest => some (.comma, rest)
  | ':' :: rest => some (.colon, rest)
  | '"' :: rest => (lexText? rest).map fun (text, after) => (.text text, after)
  | 'n' :: 'u' :: 'l' :: 'l' :: rest => some (.scalar .null, rest)
  | 't' :: 'r' :: 'u' :: 'e' :: rest => some (.scalar (.bool true), rest)
  | 'f' :: 'a' :: 'l' :: 's' :: 'e' :: rest => some (.scalar (.bool false), rest)
  | cs => (lexNumber? cs).map fun (literal, after) => (.scalar (.number (String.ofList literal)), after)

/-! ### Every lexeme takes at least one character -/

theorem quoted?_length {cs body after : List Char} (h : quoted? cs = some (body, after)) :
    after.length < cs.length := by
  fun_induction quoted? cs generalizing body with
  | case1 => simp at h
  | case2 rest => simp_all
  | case3 c rest ih =>
    obtain ⟨⟨b, a⟩, hq, he⟩ := Option.map_eq_some_iff.mp h
    simp only [Prod.mk.injEq] at he
    have := ih (by rw [hq, he.2])
    simp only [List.length_cons]; omega
  | case4 c rest _ _ hc => simp at h
  | case5 c rest _ _ hc ih =>
    obtain ⟨⟨b, a⟩, hq, he⟩ := Option.map_eq_some_iff.mp h
    simp only [Prod.mk.injEq] at he
    have := ih (by rw [hq, he.2])
    simp only [List.length_cons]; omega

theorem lexText?_length {cs after : List Char} {text : Option String}
    (h : lexText? cs = some (text, after)) : after.length < cs.length := by
  unfold lexText? at h
  split at h
  · next body rest hq =>
    obtain ⟨u, -, he⟩ := Option.map_eq_some_iff.mp h
    simp only [Prod.mk.injEq] at he
    have := quoted?_length hq
    rw [← he.2]; exact this
  · simp at h

theorem lexDigits?_length {cs digits after : List Char}
    (h : lexDigits? cs = some (digits, after)) : after.length < cs.length := by
  simp only [lexDigits?] at h
  split at h
  · simp at h
  · next hne =>
    simp only [Option.some.injEq, Prod.mk.injEq] at h
    have hsum := congrArg List.length
      (List.takeWhile_append_dropWhile (p := Text.isDigitIn 10) (l := cs))
    rw [List.isEmpty_iff] at hne
    have hpos := List.length_pos_iff.mpr hne
    rw [List.length_append] at hsum
    rw [← h.2]; omega

theorem lexWhole?_length {cs whole after : List Char}
    (h : lexWhole? cs = some (whole, after)) : after.length < cs.length := by
  unfold lexWhole? at h
  split at h
  · simp only [Option.some.injEq, Prod.mk.injEq] at h
    simp [← h.2]
  · exact lexDigits?_length h

theorem lexFraction?_length {cs fraction after : List Char}
    (h : lexFraction? cs = some (fraction, after)) : after.length ≤ cs.length := by
  unfold lexFraction? at h
  split at h
  · obtain ⟨⟨d, a⟩, hd, he⟩ := Option.map_eq_some_iff.mp h
    simp only [Prod.mk.injEq] at he
    have := lexDigits?_length hd
    simp only [List.length_cons, ← he.2]; omega
  · simp only [Option.some.injEq, Prod.mk.injEq] at h
    simp [← h.2]

theorem lexSign_length (cs : List Char) : (lexSign cs).2.length ≤ cs.length := by
  unfold lexSign
  split <;> simp

theorem lexExponent?_length {cs exponent after : List Char}
    (h : lexExponent? cs = some (exponent, after)) : after.length ≤ cs.length := by
  unfold lexExponent? at h
  split at h
  · next c rest =>
    split at h
    · obtain ⟨⟨d, a⟩, hd, he⟩ := Option.map_eq_some_iff.mp h
      simp only [Prod.mk.injEq] at he
      have h1 := lexDigits?_length hd
      have h2 := lexSign_length rest
      simp only [List.length_cons, ← he.2]; omega
    · simp only [Option.some.injEq, Prod.mk.injEq] at h
      simp [← h.2]
  · simp only [Option.some.injEq, Prod.mk.injEq] at h
    simp [← h.2]

theorem lexUnsigned?_length {cs literal after : List Char}
    (h : lexUnsigned? cs = some (literal, after)) : after.length < cs.length := by
  unfold lexUnsigned? at h
  split at h
  · simp at h
  · next whole rest hw =>
    split at h
    · simp at h
    · next fraction rest' hf =>
      obtain ⟨⟨e, a⟩, he, heq⟩ := Option.map_eq_some_iff.mp h
      simp only [Prod.mk.injEq] at heq
      have h1 := lexWhole?_length hw
      have h2 := lexFraction?_length hf
      have h3 := lexExponent?_length he
      rw [← heq.2]; omega

theorem lexNumber?_length {cs literal after : List Char}
    (h : lexNumber? cs = some (literal, after)) : after.length < cs.length := by
  unfold lexNumber? at h
  split at h
  · obtain ⟨⟨l, a⟩, hl, he⟩ := Option.map_eq_some_iff.mp h
    simp only [Prod.mk.injEq] at he
    have := lexUnsigned?_length hl
    simp only [List.length_cons, ← he.2]; omega
  · exact lexUnsigned?_length h

theorem lexeme?_length {cs after : List Char} {lexeme : Lexeme}
    (h : lexeme? cs = some (lexeme, after)) : after.length < cs.length := by
  unfold lexeme? at h
  split at h
  case h_7 rest =>
    obtain ⟨⟨t, a⟩, ht, he⟩ := Option.map_eq_some_iff.mp h
    simp only [Prod.mk.injEq] at he
    have := lexText?_length ht
    simp only [List.length_cons, ← he.2]; omega
  case h_11 =>
    obtain ⟨⟨l, a⟩, hl, he⟩ := Option.map_eq_some_iff.mp h
    simp only [Prod.mk.injEq] at he
    rw [← he.2]; exact lexNumber?_length hl
  all_goals
    simp only [Option.some.injEq, Prod.mk.injEq] at h
    simp only [List.length_cons, ← h.2]; omega

/-- All lexemes of a text (`lexeme?`), white space between them skipped. -/
def lexemes? (cs : List Char) : Option (List Lexeme) :=
  match cs with
  | [] => some []
  | c :: rest =>
    if isSpace c then lexemes? rest
    else
      match _found : lexeme? (c :: rest) with
      | none => none
      | some (lexeme, after) => (lexemes? after).map (lexeme :: ·)
termination_by cs.length
decreasing_by
  · simp
  · exact lexeme?_length ‹_›

/-! ### Values -/

/-- An open bracket, with what has been read inside it, newest first. `Expecting` holds a stack of these. -/
inductive Enclosure where
  /-- Inside an array. -/
  | array (before : List Json)
  /-- Inside an object, at the value of a key. -/
  | member (before : List (Option String × Json)) (key : Option String)

/-- What the reader is waiting for. The last field holds the open brackets (`Enclosure`), innermost first. -/
inductive Expecting where
  /-- A value. -/
  | value (outer : List Enclosure)
  /-- The first element of an array, or its end. -/
  | firstElement (outer : List Enclosure)
  /-- The first key of an object, or its end. -/
  | firstKey (outer : List Enclosure)
  /-- A further key of an object. -/
  | furtherKey (before : List (Option String × Json)) (outer : List Enclosure)
  /-- The colon after a key. -/
  | colon (before : List (Option String × Json)) (key : Option String) (outer : List Enclosure)
  /-- A separator, a closing bracket or the end, after a complete value. -/
  | separator (done : Json) (outer : List Enclosure)

/-- Starts a value: a scalar is complete at once, a bracket opens. -/
def beginValue (outer : List Enclosure) : Lexeme → Option Expecting
  | .scalar scalar => some (.separator scalar outer)
  | .text text => some (.separator (.string text) outer)
  | .openBracket => some (.firstElement outer)
  | .openBrace => some (.firstKey outer)
  | _ => none

/-- Takes one lexeme; `none` if it cannot stand here. -/
def Expecting.take : Expecting → Lexeme → Option Expecting
  | .value outer, lexeme => beginValue outer lexeme
  | .firstElement outer, .closeBracket => some (.separator (.array []) outer)
  | .firstElement outer, lexeme => beginValue (.array [] :: outer) lexeme
  | .firstKey outer, .closeBrace => some (.separator (.object []) outer)
  | .firstKey outer, .text key => some (.colon [] key outer)
  | .furtherKey before outer, .text key => some (.colon before key outer)
  | .colon before key outer, .colon => some (.value (.member before key :: outer))
  | .separator done (.array before :: outer), .comma =>
    some (.value (.array (done :: before) :: outer))
  | .separator done (.array before :: outer), .closeBracket =>
    some (.separator (.array (done :: before).reverse) outer)
  | .separator done (.member before key :: outer), .comma =>
    some (.furtherKey ((key, done) :: before) outer)
  | .separator done (.member before key :: outer), .closeBrace =>
    some (.separator (.object ((key, done) :: before).reverse) outer)
  | _, _ => none

/-- The value a list of lexemes spells, from `Expecting.value []` by `Expecting.take`. -/
def ofLexemes? (lexemes : List Lexeme) : Option Json :=
  match lexemes.foldlM Expecting.take (.value []) with
  | some (.separator value []) => some value
  | _ => none

/-- The value that a JSON text denotes: `lexemes?`, then `ofLexemes?`. -/
def parse? (s : String) : Option Json :=
  match lexemes? s.toList with
  | some lexemes => ofLexemes? lexemes
  | none => none

end TraceSlice.Json
