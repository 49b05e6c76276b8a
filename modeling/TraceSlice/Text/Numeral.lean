import TraceSlice.Word

/-!
# Numerals

Literals are decimal, or hexadecimal after `0x` or `0X` (`numeral?`). A literal whose value does not fit 64 bits is no
literal at all (`Word.ofNat?`). Words are written in lower-case hexadecimal after `0x`, without padding (`hex`).
-/

namespace TraceSlice.Text

/-! ### Reading -/

/-- The value of a hexadecimal digit of either case. -/
def digit? (c : Char) : Option Nat :=
  if '0' ≤ c ∧ c ≤ '9' then some (c.toNat - 48)
  else if 'a' ≤ c ∧ c ≤ 'f' then some (c.toNat - 87)
  else if 'A' ≤ c ∧ c ≤ 'F' then some (c.toNat - 55)
  else none

/-- Is `c` a digit in the given base (at most 16, as `digit?` knows no others)? -/
def isDigitIn (base : Nat) (c : Char) : Bool :=
  match digit? c with
  | some d => d < base
  | none => false

/-- The number that a run of digits denotes; a character that is no `digit?` counts as zero. -/
def valueOf (base : Nat) (digits : List Char) : Nat :=
  digits.foldl (fun n c => n * base + (digit? c).getD 0) 0

/-- The word denoted by the longest run of digits at the head of `cs`, with the run's length. There is none if the run
is empty or `Word.ofNat?` refuses its value. -/
def digitRun? (base : Nat) (cs : List Char) : Option (Word × Nat) :=
  let run := cs.takeWhile (isDigitIn base)
  if run.isEmpty then none
  else (Word.ofNat? (valueOf base run)).map fun value => (value, run.length)

/-- The literal at the head of `cs`: its value and the number of characters it takes, all of them ASCII. `0x` with no
digit behind it is no literal. -/
def numeral? (cs : List Char) : Option (Word × Nat) :=
  match cs with
  | '0' :: 'x' :: digits => (digitRun? 16 digits).map fun (value, size) => (value, size + 2)
  | '0' :: 'X' :: digits => (digitRun? 16 digits).map fun (value, size) => (value, size + 2)
  | _ => digitRun? 10 cs

/-! ### Writing -/

/-- Decimal digits of a natural number. -/
def decimal (n : Nat) : String := String.ofList (Nat.toDigits 10 n)

/-- Decimal digits of an integer, after `-` if it is negative. -/
def signedDecimal (i : Int) : String :=
  if i < 0 then "-" ++ decimal i.natAbs else decimal i.natAbs

/-- Lower-case hexadecimal digits of a natural number after `0x`. -/
def hexNat (n : Nat) : String := String.ofList ('0' :: 'x' :: Nat.toDigits 16 n)

/-- `hexNat` of a word. -/
def hex (w : Word) : String := hexNat w.toNat

/-! ### Small lemmas -/

theorem digitRun?_size_pos {base : Nat} {cs : List Char} {value : Word} {size : Nat}
    (h : digitRun? base cs = some (value, size)) : 0 < size ∧ size ≤ cs.length := by
  simp only [digitRun?] at h
  split at h
  · simp at h
  · next hne =>
    obtain ⟨v, -, he⟩ := Option.map_eq_some_iff.mp h
    simp only [Prod.mk.injEq] at he
    have hle := (List.takeWhile_sublist (isDigitIn base) (l := cs)).length_le
    rw [List.isEmpty_iff] at hne
    have hpos := List.length_pos_iff.mpr hne
    omega

/-- A literal that `numeral?` finds is not empty and lies within the text. -/
theorem numeral?_size_pos {cs : List Char} {value : Word} {size : Nat}
    (h : numeral? cs = some (value, size)) : 0 < size ∧ size ≤ cs.length := by
  unfold numeral? at h
  split at h
  · obtain ⟨⟨v, n⟩, hr, he⟩ := Option.map_eq_some_iff.mp h
    have := digitRun?_size_pos hr
    simp only [Prod.mk.injEq] at he
    simp only [List.length_cons]
    omega
  · obtain ⟨⟨v, n⟩, hr, he⟩ := Option.map_eq_some_iff.mp h
    have := digitRun?_size_pos hr
    simp only [Prod.mk.injEq] at he
    simp only [List.length_cons]
    omega
  · exact digitRun?_size_pos h

end TraceSlice.Text
