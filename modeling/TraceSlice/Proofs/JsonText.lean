import Mathlib.Data.List.TakeWhile
import TraceSlice.Json.Printer
import TraceSlice.Json.Reader
import TraceSlice.Proofs.Digits

/-!
# JSON text is read back as it was written

`parse?_render`: the text of a value whose numbers are JSON numbers denotes that value. The written text splits into
the lexemes of the value (`Proper.lexes`), whatever follows it, as long as no number goes on there; and the reader
folds the lexemes of a value into the value (`Proper.completes`), whatever brackets are open around it.
-/

namespace TraceSlice.Json

/-! ### Strings -/

theorem escaped_cases (c : Char) :
    (∃ letter, escaped c = ['\\', letter] ∧ shortEscape? letter = some c) ∨
      (c.toNat < 0x20 ∧
        escaped c = ['\\', 'u', '0', '0', Nat.digitChar (c.toNat / 16), Nat.digitChar (c.toNat % 16)]) ∨
      (0x20 ≤ c.toNat ∧ c ≠ '"' ∧ c ≠ '\\' ∧ escaped c = [c]) := by
  unfold escaped
  split
  · exact .inl ⟨_, rfl, rfl⟩
  · exact .inl ⟨_, rfl, rfl⟩
  · exact .inl ⟨_, rfl, rfl⟩
  · exact .inl ⟨_, rfl, rfl⟩
  · exact .inl ⟨_, rfl, rfl⟩
  · exact .inl ⟨_, rfl, rfl⟩
  · exact .inl ⟨_, rfl, rfl⟩
  · next hquote hbackslash _ _ _ _ _ =>
      split
      · next hc => exact .inr (.inl ⟨hc, rfl⟩)
      · next hc => exact .inr (.inr ⟨Nat.le_of_not_lt hc, hquote, hbackslash, rfl⟩)

/-- The digits of a control character's escape, as `escaped` writes them. -/
theorem control_digits {n : Nat} (h : n < 0x20) :
    ['0', '0', Nat.digitChar (n / 16), Nat.digitChar (n % 16)].all (Text.isDigitIn 16) = true ∧
      Text.valueOf 16 ['0', '0', Nat.digitChar (n / 16), Nat.digitChar (n % 16)] = n := by
  revert n
  decide

theorem quoted?_cons {c : Char} (hspace : 0x20 ≤ c.toNat) (hquote : c ≠ '"') (hbackslash : c ≠ '\\')
    (rest : List Char) :
    quoted? (c :: rest) = (quoted? rest).map fun (body, after) => (c :: body, after) := by
  simp [quoted?, hbackslash, Nat.not_lt.mpr hspace]

theorem quoted?_escape (letter : Char) (rest : List Char) :
    quoted? ('\\' :: letter :: rest) =
      (quoted? rest).map fun (body, after) => ('\\' :: letter :: body, after) := rfl

theorem ne_of_isDigitIn {c : Char} (h : Text.isDigitIn 16 c = true) : 0x20 ≤ c.toNat ∧ c ≠ '"' ∧ c ≠ '\\' := by
  obtain ⟨d, hd, rfl | rfl⟩ := (Text.isDigitIn_iff (Nat.le_refl 16)).mp h
  · interval_cases d <;> decide
  · interval_cases d <;> decide

theorem quoted?_escaped (c : Char) (rest : List Char) :
    quoted? (escaped c ++ rest) = (quoted? rest).map fun (body, after) => (escaped c ++ body, after) := by
  rcases escaped_cases c with ⟨letter, hc, -⟩ | ⟨hcontrol, hc⟩ | ⟨hspace, hquote, hbackslash, hc⟩
  · rw [hc]
    exact quoted?_escape letter rest
  · rw [hc]
    have hdigits := List.all_eq_true.mp (control_digits hcontrol).1
    have hskip {d : Char} (hd : d ∈ ['0', '0', Nat.digitChar (c.toNat / 16), Nat.digitChar (c.toNat % 16)])
        (rest : List Char) : quoted? (d :: rest) = (quoted? rest).map fun (body, after) => (d :: body, after) := by
      obtain ⟨h₁, h₂, h₃⟩ := ne_of_isDigitIn (hdigits d hd)
      exact quoted?_cons h₁ h₂ h₃ rest
    -- the backslash takes the letter with it, and the four digits after it stand for themselves
    simp only [List.cons_append, List.nil_append, quoted?_escape]
    rw [hskip (by simp), hskip (by simp), hskip (by simp), hskip (by simp)]
    simp [Function.comp_def]
  · rw [hc]
    exact quoted?_cons hspace hquote hbackslash rest

theorem quoted?_flatMap_escaped (cs rest : List Char) :
    quoted? (cs.flatMap escaped ++ '"' :: rest) = some (cs.flatMap escaped, rest) := by
  induction cs with
  | nil => rfl
  | cons c cs ih => rw [List.flatMap_cons, List.append_assoc, quoted?_escaped, ih, Option.map_some]

theorem units?_escaped (c : Char) (body : List Char) :
    units? (escaped c ++ body) = (units? body).map (c.toNat :: ·) := by
  rcases escaped_cases c with ⟨letter, hc, hletter⟩ | ⟨hcontrol, hc⟩ | ⟨-, -, hbackslash, hc⟩
  · rw [hc]
    have hu : letter ≠ 'u' := by
      rintro rfl
      cases hletter
    simp [units?, hu, hletter]
  · obtain ⟨hdigits, hvalue⟩ := control_digits hcontrol
    rw [hc]
    simp only [List.cons_append, List.nil_append, units?]
    rw [if_pos hdigits, hvalue]
  · rw [hc]
    simp [units?, hbackslash]

theorem units?_flatMap_escaped (cs : List Char) : units? (cs.flatMap escaped) = some (cs.map Char.toNat) := by
  induction cs with
  | nil => rfl
  | cons c cs ih => rw [List.flatMap_cons, units?_escaped, ih, Option.map_some, List.map_cons]

theorem isHighHalf_toNat (c : Char) : isHighHalf c.toNat = false := by
  have hvalid : c.toNat < 0xd800 ∨ 0xdfff < c.toNat ∧ c.toNat < 0x110000 := c.valid
  simp only [isHighHalf, Bool.and_eq_false_iff, decide_eq_false_iff_not]
  omega

theorem isLowHalf_toNat (c : Char) : isLowHalf c.toNat = false := by
  have hvalid : c.toNat < 0xd800 ∨ 0xdfff < c.toNat ∧ c.toNat < 0x110000 := c.valid
  simp only [isLowHalf, Bool.and_eq_false_iff, decide_eq_false_iff_not]
  omega

/-- No character is half a surrogate pair, so that `characters?` reads every character on its own. -/
theorem characters?_map_toNat : ∀ cs : List Char, characters? (cs.map Char.toNat) = some cs
  | [] => rfl
  | [c] => by simp [characters?, isHighHalf_toNat, isLowHalf_toNat]
  | c :: d :: cs => by
      have ih := characters?_map_toNat (d :: cs)
      rw [List.map_cons] at ih
      simp [characters?, isHighHalf_toNat, isLowHalf_toNat, ih]

theorem lexeme?_writeText (text : Option String) (rest : List Char) :
    lexeme? (writeText text ++ rest) = some (.text text, rest) := by
  cases text with
  | none => rfl
  | some text =>
      simp [writeText, lexeme?, lexText?, quoted?_flatMap_escaped, units?_flatMap_escaped, characters?_map_toNat]

/-! ### Numbers -/

/-- No number goes on at the head of the text. -/
def Delimits (rest : List Char) : Prop :=
  ∀ c, rest.head? = some c → Text.isDigitIn 10 c = false ∧ c ≠ '.' ∧ c ≠ 'e' ∧ c ≠ 'E'

theorem delimits_nil : Delimits [] := by
  intro c hc
  cases hc

theorem delimits_of_mem {c : Char} (h : c ∈ [',', ':', ']', '\x7d']) (rest : List Char) : Delimits (c :: rest) := by
  intro d hd
  cases hd
  simp only [List.mem_cons, List.not_mem_nil, or_false] at h
  rcases h with rfl | rfl | rfl | rfl <;> decide

/-- The literal is one number: `lexNumber?` takes it whole. -/
def IsNumber (literal : List Char) : Prop := lexNumber? literal = some (literal, [])

section

variable {cs taken after rest : List Char}

theorem lexDigits?_append (hrest : Delimits rest) (h : lexDigits? cs = some (taken, after)) :
    lexDigits? (cs ++ rest) = some (taken, after ++ rest) := by
  -- what follows a number starts with no digit, so both scans stop where the number ends
  have hstop : rest.takeWhile (Text.isDigitIn 10) = [] ∧ rest.dropWhile (Text.isDigitIn 10) = rest := by
    cases rest with
    | nil => simp
    | cons c rest => simp [(hrest c rfl).1]
  have htake : (cs ++ rest).takeWhile (Text.isDigitIn 10) = cs.takeWhile (Text.isDigitIn 10) := by
    rw [List.takeWhile_append, hstop.1]
    split
    · next hlength => rw [List.append_nil, (List.takeWhile_sublist _).eq_of_length hlength]
    · rfl
  have hdrop : (cs ++ rest).dropWhile (Text.isDigitIn 10) = cs.dropWhile (Text.isDigitIn 10) ++ rest := by
    rw [List.dropWhile_append, hstop.2]
    split
    · next hnil => rw [List.isEmpty_iff.mp hnil, List.nil_append]
    · rfl
  simp only [lexDigits?, htake, hdrop] at h ⊢
  split at h
  · cases h
  · next hdigits =>
      cases h
      rw [if_neg hdigits]

theorem lexWhole?_append (hrest : Delimits rest) (h : lexWhole? cs = some (taken, after)) :
    lexWhole? (cs ++ rest) = some (taken, after ++ rest) := by
  unfold lexWhole? at h
  split at h
  · cases h
    rfl
  · next hzero =>
      have hdigits := lexDigits?_append hrest h
      cases cs with
      | nil => cases h
      | cons c cs => simpa [lexWhole?, show c ≠ '0' by rintro rfl; exact hzero _ rfl] using hdigits

theorem lexFraction?_of_head? (h : cs.head? ≠ some '.') : lexFraction? cs = some ([], cs) := by
  unfold lexFraction?
  split
  · exact absurd rfl h
  · rfl

theorem lexFraction?_append (hrest : Delimits rest) (h : lexFraction? cs = some (taken, after)) :
    lexFraction? (cs ++ rest) = some (taken, after ++ rest) := by
  unfold lexFraction? at h
  split at h
  · obtain ⟨⟨digits, _⟩, hdigits, htaken⟩ := Option.map_eq_some_iff.mp h
    cases htaken
    simp [lexFraction?, lexDigits?_append hrest hdigits]
  · next hdot =>
      cases h
      apply lexFraction?_of_head?
      cases cs with
      | nil => exact fun hhead => (hrest _ hhead).2.1 rfl
      | cons c cs =>
          rintro ⟨⟩
          exact hdot _ rfl

theorem lexSign_append (h : cs ≠ []) : lexSign (cs ++ rest) = ((lexSign cs).1, (lexSign cs).2 ++ rest) := by
  cases cs with
  | nil => exact absurd rfl h
  | cons c cs =>
      by_cases hplus : c = '+'
      · simp [hplus, lexSign]
      by_cases hminus : c = '-'
      · simp [hminus, lexSign]
      simp [hplus, hminus, lexSign]

theorem lexExponent?_append (hrest : Delimits rest) (h : lexExponent? cs = some (taken, after)) :
    lexExponent? (cs ++ rest) = some (taken, after ++ rest) := by
  cases cs with
  | nil =>
      cases h
      cases rest with
      | nil => rfl
      | cons c rest => simp [lexExponent?, hrest c rfl]
  | cons c cs =>
      simp only [lexExponent?, List.cons_append] at h ⊢
      split at h
      · next hc =>
          obtain ⟨⟨digits, _⟩, hdigits, htaken⟩ := Option.map_eq_some_iff.mp h
          cases htaken
          have hcs : cs ≠ [] := by
            rintro rfl
            cases hdigits
          rw [if_pos hc, lexSign_append hcs, lexDigits?_append hrest hdigits]
          rfl
      · next hc =>
          cases h
          rw [if_neg hc]
          rfl

theorem lexUnsigned?_append (hrest : Delimits rest) (h : lexUnsigned? cs = some (taken, after)) :
    lexUnsigned? (cs ++ rest) = some (taken, after ++ rest) := by
  unfold lexUnsigned? at h
  split at h
  · cases h
  · next hwhole =>
      split at h
      · cases h
      · next hfraction =>
          obtain ⟨⟨digits, _⟩, hexponent, htaken⟩ := Option.map_eq_some_iff.mp h
          cases htaken
          simp [lexUnsigned?, lexWhole?_append hrest hwhole, lexFraction?_append hrest hfraction,
            lexExponent?_append hrest hexponent]

theorem lexNumber?_append (hrest : Delimits rest) (h : lexNumber? cs = some (taken, after)) :
    lexNumber? (cs ++ rest) = some (taken, after ++ rest) := by
  unfold lexNumber? at h
  split at h
  · obtain ⟨⟨literal, _⟩, hliteral, htaken⟩ := Option.map_eq_some_iff.mp h
    cases htaken
    simp [lexNumber?, lexUnsigned?_append hrest hliteral]
  · next hminus =>
      have hunsigned := lexUnsigned?_append hrest h
      cases cs with
      | nil => cases h
      | cons c cs => simpa [lexNumber?, show c ≠ '-' by rintro rfl; exact hminus _ rfl] using hunsigned

theorem head_of_lexUnsigned? (h : lexUnsigned? cs = some (taken, after)) :
    ∃ c tail, cs = c :: tail ∧ Text.isDigitIn 10 c = true := by
  cases cs with
  | nil => cases h
  | cons c cs =>
      refine ⟨c, cs, rfl, ?_⟩
      by_contra hdigit
      have hzero : c ≠ '0' := by
        rintro rfl
        exact hdigit rfl
      simp [lexUnsigned?, lexWhole?, hzero, lexDigits?, hdigit] at h

theorem head_of_lexNumber? (h : lexNumber? cs = some (taken, after)) :
    ∃ c tail, cs = c :: tail ∧ (c = '-' ∨ Text.isDigitIn 10 c = true) := by
  unfold lexNumber? at h
  split at h
  · exact ⟨_, _, rfl, .inl rfl⟩
  · obtain ⟨c, tail, hcs, hc⟩ := head_of_lexUnsigned? h
    exact ⟨c, tail, hcs, .inr hc⟩

theorem lexeme?_number {literal : List Char} (h : IsNumber literal) (hrest : Delimits rest) :
    lexeme? (literal ++ rest) = some (.scalar (.number (String.ofList literal)), rest) := by
  have hnumber := lexNumber?_append hrest h
  obtain ⟨c, tail, rfl, hc⟩ := head_of_lexNumber? h
  have hne (d : Char) (hd : d ≠ '-' ∧ Text.isDigitIn 10 d = false) : c ≠ d := by
    rintro rfl
    rcases hc with rfl | hc
    · exact hd.1 rfl
    · rw [hc] at hd
      cases hd.2
  unfold lexeme?
  split
  case h_11 => rw [hnumber]; rfl
  all_goals
    next heq =>
      exact absurd (List.cons.inj heq).1 (hne _ (by decide))

end

/-! ### The digits of integers -/

theorem head?_toDigits_ne {n : Nat} (h : 0 < n) : (Nat.toDigits 10 n).head? ≠ some '0' := by
  induction n using Nat.strongRecOn with
  | ind n ih =>
      rw [Nat.toDigits_eq_if (by decide)]
      split
      · next hn =>
          interval_cases n <;> decide
      · next hn =>
          rw [List.head?_append_of_ne_nil _ Nat.toDigits_ne_nil]
          exact ih (n / 10) (by omega) (by omega)

theorem all_isDigitIn_toDigits (n : Nat) : ∀ c ∈ Nat.toDigits 10 n, Text.isDigitIn 10 c = true :=
  ((Text.numeral_iff (by decide)).mp (Text.numeral_toDigits (by decide) (by decide) n)).2.1

theorem valueOf_toDigits (n : Nat) : Text.valueOf 10 (Nat.toDigits 10 n) = n :=
  ((Text.numeral_iff (by decide)).mp (Text.numeral_toDigits (by decide) (by decide) n)).2.2

theorem lexUnsigned?_toDigits (n : Nat) : lexUnsigned? (Nat.toDigits 10 n) = some (Nat.toDigits 10 n, []) := by
  have hdigits : lexDigits? (Nat.toDigits 10 n) = some (Nat.toDigits 10 n, []) := by
    have hall := all_isDigitIn_toDigits n
    simp [lexDigits?, List.takeWhile_eq_self_iff.mpr hall, List.dropWhile_eq_nil_iff.mpr hall, Nat.toDigits_ne_nil]
  have hwhole : lexWhole? (Nat.toDigits 10 n) = some (Nat.toDigits 10 n, []) := by
    rcases Nat.eq_zero_or_pos n with rfl | hn
    · rfl
    · unfold lexWhole?
      split
      · next heq => exact absurd (by rw [heq]; rfl) (head?_toDigits_ne hn)
      · exact hdigits
  simp [lexUnsigned?, hwhole, lexFraction?, lexExponent?]

/-- The digits of a number do not start with a minus sign. -/
theorem toDigits_ne_minus (n : Nat) (cs : List Char) : Nat.toDigits 10 n ≠ '-' :: cs := by
  intro h
  have hdigit := all_isDigitIn_toDigits n '-' (by simp [h])
  cases hdigit

theorem isNumber_decimal (n : Nat) : IsNumber (Text.decimal n).toList := by
  unfold IsNumber lexNumber?
  rw [Text.decimal, String.toList_ofList]
  split
  · next heq => exact absurd heq (toDigits_ne_minus n _)
  · exact lexUnsigned?_toDigits n

theorem isNumber_signedDecimal (i : Int) : IsNumber (Text.signedDecimal i).toList := by
  unfold Text.signedDecimal
  split
  · simp [IsNumber, Text.decimal, lexNumber?, lexUnsigned?_toDigits]
  · exact isNumber_decimal _

theorem integerOf?_decimal (n : Nat) : integerOf? (Text.decimal n).toList = some (n : Int) := by
  rw [Text.decimal, String.toList_ofList]
  unfold integerOf?
  split
  · next heq => exact absurd heq (toDigits_ne_minus n _)
  · have hall := List.all_eq_true.mpr (all_isDigitIn_toDigits n)
    simp [hall, Nat.toDigits_ne_nil, valueOf_toDigits]

theorem integerOf?_signedDecimal (i : Int) : integerOf? (Text.signedDecimal i).toList = some i := by
  unfold Text.signedDecimal
  split
  · next hneg =>
      have hall := List.all_eq_true.mpr (all_isDigitIn_toDigits i.natAbs)
      have hzero : i ≠ 0 := by omega
      simp [Text.decimal, integerOf?, hall, valueOf_toDigits, hzero, -Nat.cast_natAbs]
      omega
  · next hnonneg =>
      rw [integerOf?_decimal]
      congr 1
      omega

theorem int?_ofInt {i : Int} (hlow : -0x8000000000000000 ≤ i) (hhigh : i < 0x10000000000000000) :
    (ofInt i).int? = some i := by
  simp only [ofInt, int?, integerOf?_signedDecimal]
  rw [if_pos ⟨hlow, hhigh⟩]

theorem ofNat_eq_ofInt (n : Nat) : ofNat n = ofInt n := by
  simp [ofNat, ofInt, Text.signedDecimal]

/-! ### Splitting the text of a value into lexemes -/

mutual

/-- The lexemes of a value, in the order in which `write` writes them. -/
def lexemes : Json → List Lexeme
  | .null => [.scalar .null]
  | .bool value => [.scalar (.bool value)]
  | .number literal => [.scalar (.number literal)]
  | .string text => [.text text]
  | .array elements => .openBracket :: elementLexemes elements ++ [.closeBracket]
  | .object members => .openBrace :: memberLexemes members ++ [.closeBrace]

/-- The lexemes of array elements with commas between them. -/
def elementLexemes : List Json → List Lexeme
  | [] => []
  | [element] => lexemes element
  | element :: rest => lexemes element ++ .comma :: elementLexemes rest

/-- The lexemes of object members with commas between them. -/
def memberLexemes : List (Option String × Json) → List Lexeme
  | [] => []
  | [(key, value)] => .text key :: .colon :: lexemes value
  | (key, value) :: rest => .text key :: .colon :: lexemes value ++ .comma :: memberLexemes rest

end

theorem write_array (elements : List Json) : write (.array elements) = '[' :: writeElements elements ++ [']'] := rfl

theorem write_object (members : List (Option String × Json)) :
    write (.object members) = '\x7b' :: writeMembers members ++ ['\x7d'] := rfl

theorem lexemes_array (elements : List Json) :
    lexemes (.array elements) = .openBracket :: elementLexemes elements ++ [.closeBracket] := rfl

theorem lexemes_object (members : List (Option String × Json)) :
    lexemes (.object members) = .openBrace :: memberLexemes members ++ [.closeBrace] := rfl

/-- All numbers in the value are JSON numbers. -/
inductive Proper : Json → Prop
  | null : Proper .null
  | bool (value : Bool) : Proper (.bool value)
  | number {literal : String} : IsNumber literal.toList → Proper (.number literal)
  | string (text : Option String) : Proper (.string text)
  | array {elements : List Json} : (∀ element ∈ elements, Proper element) → Proper (.array elements)
  | object {members : List (Option String × Json)} : (∀ entry ∈ members, Proper entry.2) → Proper (.object members)

/-- Before anything that does not carry a number on (`Delimits`), the text splits into the lexemes. -/
def Lexes (text : List Char) (ls : List Lexeme) : Prop :=
  ∀ rest, Delimits rest → lexemes? (text ++ rest) = (lexemes? rest).map (ls ++ ·)

theorem lexemes?_cons {c : Char} {cs after : List Char} {l : Lexeme} (hspace : isSpace c = false)
    (h : lexeme? (c :: cs) = some (l, after)) : lexemes? (c :: cs) = (lexemes? after).map (l :: ·) := by
  rw [lexemes?, hspace]
  simp only [Bool.false_eq_true, if_false]
  split
  · next hnone =>
      rw [h] at hnone
      cases hnone
  · next hsome =>
      rw [h] at hsome
      cases hsome
      rfl

theorem lexemes?_writeText (key : Option String) (rest : List Char) :
    lexemes? (writeText key ++ rest) = (lexemes? rest).map (.text key :: ·) := by
  have hlexeme := lexeme?_writeText key rest
  cases key with
  | none => exact lexemes?_cons rfl hlexeme
  | some key => exact lexemes?_cons rfl hlexeme

theorem lexes_number {literal : String} (h : IsNumber literal.toList) :
    Lexes literal.toList [.scalar (.number literal)] := by
  intro rest hrest
  have hlexeme := lexeme?_number h hrest
  obtain ⟨c, tail, hcs, hc⟩ := head_of_lexNumber? h
  rw [String.ofList_toList, hcs] at hlexeme
  have hspace : isSpace c = false := by
    rcases hc with rfl | hc
    · rfl
    · obtain ⟨d, hd, rfl | rfl⟩ := (Text.isDigitIn_iff (by decide)).mp hc
      · interval_cases d <;> rfl
      · interval_cases d <;> rfl
  rw [hcs]
  exact lexemes?_cons hspace hlexeme

theorem lexes_elements : ∀ {elements : List Json},
    (∀ element ∈ elements, Lexes element.write element.lexemes) →
      Lexes (writeElements elements) (elementLexemes elements)
  | [], _ => by
      intro rest _
      simp [writeElements, elementLexemes]
  | [element], h => h element (by simp)
  | element :: second :: others, h => by
      intro rest hrest
      have ih := lexes_elements (fun e he => h e (List.mem_cons_of_mem element he)) rest hrest
      have hcomma := delimits_of_mem (c := ',') (by simp) (writeElements (second :: others) ++ rest)
      rw [writeElements, elementLexemes, List.append_assoc, List.cons_append, h element (by simp) _ hcomma,
        lexemes?_cons rfl rfl, ih]
      · simp [Function.comp_def]
      · simp
      · simp

theorem lexes_members : ∀ {members : List (Option String × Json)},
    (∀ entry ∈ members, Lexes entry.2.write entry.2.lexemes) →
      Lexes (writeMembers members) (memberLexemes members)
  | [], _ => by
      intro rest _
      simp [writeMembers, memberLexemes]
  | [(key, value)], h => by
      intro rest hrest
      rw [writeMembers, memberLexemes, List.append_assoc, lexemes?_writeText, List.cons_append,
        lexemes?_cons rfl rfl, h (key, value) (by simp) rest hrest]
      simp [Function.comp_def]
  | (key, value) :: second :: others, h => by
      intro rest hrest
      have ih := lexes_members (fun e he => h e (List.mem_cons_of_mem (key, value) he)) rest hrest
      have hcomma := delimits_of_mem (c := ',') (by simp) (writeMembers (second :: others) ++ rest)
      rw [writeMembers, memberLexemes]
      simp only [List.append_assoc, List.cons_append]
      rw [lexemes?_writeText, lexemes?_cons rfl rfl, h (key, value) (by simp) _ hcomma, lexemes?_cons rfl rfl, ih]
      · simp [Function.comp_def]
      · simp
      · simp

theorem Proper.lexes {json : Json} (h : json.Proper) : Lexes json.write json.lexemes := by
  induction h with
  | null => exact fun rest _ => lexemes?_cons rfl rfl
  | bool value =>
      intro rest _
      cases value with
      | false => exact lexemes?_cons rfl rfl
      | true => exact lexemes?_cons rfl rfl
  | number hliteral => exact lexes_number hliteral
  | string text => exact fun rest _ => lexemes?_writeText text rest
  | array _ ih =>
      intro rest _
      -- a number in last place ends at the closing bracket
      rw [write_array, lexemes_array]
      simp only [List.append_assoc, List.cons_append, List.nil_append]
      rw [lexemes?_cons rfl rfl, lexes_elements ih _ (delimits_of_mem (by simp) rest), lexemes?_cons rfl rfl]
      simp [Function.comp_def]
  | object _ ih =>
      intro rest _
      rw [write_object, lexemes_object]
      simp only [List.append_assoc, List.cons_append, List.nil_append]
      rw [lexemes?_cons rfl rfl, lexes_members ih _ (delimits_of_mem (by simp) rest), lexemes?_cons rfl rfl]
      simp [Function.comp_def]

theorem Proper.lexemes?_write {json : Json} (h : json.Proper) : lexemes? json.write = some json.lexemes := by
  have hlexes := h.lexes [] delimits_nil
  rw [List.append_nil, lexemes?, Option.map_some, List.append_nil] at hlexes
  exact hlexes

/-! ### Folding the lexemes into the value -/

/-- Wherever a value is expected (`Expecting.value`), the lexemes complete it. -/
def Completes (ls : List Lexeme) (json : Json) : Prop :=
  ∀ outer, ls.foldlM Expecting.take (.value outer) = some (.separator json outer)

/-- No value starts with a closing bracket. -/
theorem exists_lexemes_cons (json : Json) : ∃ first rest, json.lexemes = first :: rest ∧ first ≠ .closeBracket := by
  cases json <;> exact ⟨_, _, rfl, nofun⟩

/-- So a first element is read like any other: `firstElement` and `value` agree on it. -/
theorem take_firstElement (element : Json) (rest : List Json) (ls : List Lexeme) (outer : List Enclosure) :
    (elementLexemes (element :: rest) ++ ls).foldlM Expecting.take (.firstElement outer) =
      (elementLexemes (element :: rest) ++ ls).foldlM Expecting.take (.value (.array [] :: outer)) := by
  obtain ⟨first, others, hlexemes, hne⟩ := element.exists_lexemes_cons
  have htake : Expecting.take (.firstElement outer) first = Expecting.take (.value (.array [] :: outer)) first := by
    cases first with
    | closeBracket => exact absurd rfl hne
    | _ => rfl
  have hcons : ∃ tail, elementLexemes (element :: rest) ++ ls = first :: tail := by
    cases rest <;> simp [elementLexemes, hlexemes]
  obtain ⟨tail, hcons⟩ := hcons
  rw [hcons, List.foldlM_cons, List.foldlM_cons, htake]

theorem take_elements (before : List Json) (outer : List Enclosure) : ∀ (element : Json) (rest : List Json),
    (∀ e ∈ element :: rest, Completes e.lexemes e) →
      (elementLexemes (element :: rest) ++ [Lexeme.closeBracket]).foldlM Expecting.take
          (.value (.array before :: outer)) =
        some (.separator (.array (before.reverse ++ element :: rest)) outer)
  | element, [], h => by
      rw [elementLexemes, List.foldlM_append, h element (by simp)]
      simp [Expecting.take]
  | element, second :: others, h => by
      have ih := take_elements (element :: before) outer second others
        (fun e he => h e (List.mem_cons_of_mem element he))
      rw [elementLexemes, List.append_assoc, List.foldlM_append, h element (by simp)]
      · simpa [Expecting.take] using ih
      · simp

/-- The member lexemes, from where the first key is expected: `start` is one of the two states that expect a key. -/
theorem take_members (outer : List Enclosure) : ∀ (before : List (Option String × Json)) (start : Expecting)
    (entry : Option String × Json) (rest : List (Option String × Json)),
    (∀ key, start.take (.text key) = some (.colon before key outer)) →
    (∀ e ∈ entry :: rest, Completes e.2.lexemes e.2) →
      (memberLexemes (entry :: rest) ++ [Lexeme.closeBrace]).foldlM Expecting.take start =
        some (.separator (.object (before.reverse ++ entry :: rest)) outer)
  | before, start, (key, value), [], hstart, h => by
      have hvalue := h (key, value) (by simp) (.member before key :: outer)
      simp only [memberLexemes, List.cons_append, List.foldlM_cons, hstart]
      simp [Expecting.take, hvalue]
  | before, start, (key, value), second :: others, hstart, h => by
      have hvalue := h (key, value) (by simp) (.member before key :: outer)
      have ih := take_members outer ((key, value) :: before) (.furtherKey ((key, value) :: before) outer) second others
        (fun _ => rfl) (fun e he => h e (List.mem_cons_of_mem _ he))
      rw [memberLexemes]
      · simp only [List.cons_append, List.append_assoc, List.foldlM_cons, hstart]
        simpa [Expecting.take, hvalue] using ih
      · simp

theorem Proper.completes {json : Json} (h : json.Proper) : Completes json.lexemes json := by
  -- induction on the value: an array or object that is not empty is its members, each completed in turn
  induction h with
  | null => exact fun _ => rfl
  | bool value => exact fun _ => rfl
  | number hliteral => exact fun _ => rfl
  | string text => exact fun _ => rfl
  | @array elements _ ih =>
      intro outer
      cases elements with
      | nil => rfl
      | cons element rest =>
          have helements := take_elements [] outer element rest ih
          rw [← take_firstElement] at helements
          simpa [lexemes_array, Expecting.take, beginValue] using helements
  | @object members _ ih =>
      intro outer
      cases members with
      | nil => rfl
      | cons entry rest =>
          have hmembers := take_members outer [] (.firstKey outer) entry rest (fun _ => rfl) ih
          simpa [lexemes_object, Expecting.take, beginValue] using hmembers

/-- **Written text is read back.** `parse?` finds in the text of a value the value. -/
theorem parse?_render {json : Json} (h : json.Proper) : parse? json.render = some json := by
  simp [parse?, render, h.lexemes?_write, ofLexemes?, h.completes []]

end TraceSlice.Json
