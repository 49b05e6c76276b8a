import Mathlib.Data.List.Forall2
import Mathlib.Data.Nat.Digits.Defs
import Mathlib.Tactic.IntervalCases
import Mathlib.Tactic.Ring
import TraceSlice.Text.Numeral

/-!
# Digits and numerals

A numeral writes a number in a base, most significant digit first, letters in either case. Reading a run of digits
gives the number that it writes (`numeral_iff`), and the digits that numbers are printed with are numerals
(`numeral_toDigits`).
-/

namespace TraceSlice.Text

/-- `c` is the digit `d` of `base`, in either case. -/
def IsDigit (base d : Nat) (c : Char) : Prop := d < base ∧ (c = d.digitChar ∨ c = d.digitChar.toUpper)

instance (base d : Nat) (c : Char) : Decidable (IsDigit base d c) :=
  inferInstanceAs (Decidable (_ ∧ (_ ∨ _)))

/-- `text` writes `n` in `base`. Leading zeros do not matter. -/
def Numeral (base : Nat) (text : List Char) (n : Nat) : Prop :=
  text ≠ [] ∧ ∃ digits : List Nat, List.Forall₂ (IsDigit base) digits text ∧ Nat.ofDigits base digits.reverse = n

/-! ### Single digits -/

theorem toNat_le_of_digit? {c : Char} {d : Nat} (h : digit? c = some d) : c.toNat ≤ 102 := by
  unfold digit? at h
  split at h
  · next hc => exact Nat.le_trans hc.2 (by decide)
  · split at h
    · next hc => exact hc.2
    · split at h
      · next hc => exact Nat.le_trans hc.2 (by decide)
      · cases h

theorem digit?_eq_some_iff {c : Char} {d : Nat} : digit? c = some d ↔ IsDigit 16 d c := by
  constructor
  · intro h
    have htable : ∀ n < 103, ∀ d ∈ digit? (Char.ofNat n), IsDigit 16 d (Char.ofNat n) := by decide
    have hc := htable c.toNat (Nat.lt_succ_of_le (toNat_le_of_digit? h))
    rw [Char.ofNat_toNat] at hc
    exact hc d h
  · rintro ⟨hd, rfl | rfl⟩
    · interval_cases d <;> rfl
    · interval_cases d <;> rfl

theorem isDigitIn_iff {base : Nat} (hbase : base ≤ 16) {c : Char} :
    isDigitIn base c = true ↔ ∃ d, IsDigit base d c := by
  unfold isDigitIn
  constructor
  · intro h
    split at h
    · next d hd => exact ⟨d, by simpa using h, (digit?_eq_some_iff.mp hd).2⟩
    · cases h
  · rintro ⟨d, hd, hc⟩
    rw [digit?_eq_some_iff.mpr ⟨by omega, hc⟩]
    simpa using hd

/-! ### Runs of digits -/

/-- Reading on from `n` shifts it past the digits that follow (`Nat.ofDigits`). -/
theorem foldl_digits {base : Nat} (hbase : base ≤ 16) {digits : List Nat} {text : List Char}
    (h : List.Forall₂ (IsDigit base) digits text) (n : Nat) :
    text.foldl (fun n c => n * base + (digit? c).getD 0) n =
      n * base ^ text.length + Nat.ofDigits base digits.reverse := by
  induction h generalizing n with
  | nil => simp
  | @cons d c digits text hd hrest ih =>
      have hc : digit? c = some d := digit?_eq_some_iff.mpr ⟨by have := hd.1; omega, hd.2⟩
      rw [List.foldl_cons, ih, hc, List.reverse_cons, Nat.ofDigits_append, Nat.ofDigits_singleton,
        List.length_reverse, hrest.length_eq, List.length_cons, Option.getD_some]
      ring

theorem valueOf_eq_ofDigits {base : Nat} (hbase : base ≤ 16) {digits : List Nat} {text : List Char}
    (h : List.Forall₂ (IsDigit base) digits text) : valueOf base text = Nat.ofDigits base digits.reverse := by
  simp [valueOf, foldl_digits hbase h]

/-- Runs of digits are numerals, and `valueOf` reads them as the numbers that they write. -/
theorem numeral_iff {base : Nat} (hbase : base ≤ 16) {text : List Char} {n : Nat} :
    Numeral base text n ↔ text ≠ [] ∧ (∀ c ∈ text, isDigitIn base c = true) ∧ valueOf base text = n := by
  refine and_congr_right fun _ => ?_
  constructor
  · rintro ⟨digits, hdigits, rfl⟩
    refine ⟨?_, valueOf_eq_ofDigits hbase hdigits⟩
    -- without the goal's other facts, so that the induction is on the digits alone
    clear * - hdigits hbase
    induction hdigits with
    | nil => simp
    | cons hd _ ih => simpa [(isDigitIn_iff hbase).mpr ⟨_, hd⟩] using ih
  · rintro ⟨hall, rfl⟩
    have hdigits : List.Forall₂ (IsDigit base) (text.map fun c => (digit? c).getD 0) text := by
      rw [List.forall₂_map_left_iff, List.forall₂_same]
      intro c hc
      obtain ⟨d, hd⟩ := (isDigitIn_iff hbase).mp (hall c hc)
      rw [digit?_eq_some_iff.mpr ⟨Nat.lt_of_lt_of_le hd.1 hbase, hd.2⟩]
      exact hd
    exact ⟨_, hdigits, (valueOf_eq_ofDigits hbase hdigits).symm⟩

/-- `Nat.toDigits` prints a number as a numeral. -/
theorem numeral_toDigits {base : Nat} (hone : 1 < base) (hbase : base ≤ 16) (n : Nat) :
    Numeral base (Nat.toDigits base n) n := by
  induction n using Nat.strongRecOn with
  | ind n ih =>
      have hdigit : ∀ d < base, IsDigit base d d.digitChar := fun d hd => ⟨hd, .inl rfl⟩
      refine ⟨Nat.toDigits_ne_nil, ?_⟩
      rw [Nat.toDigits_eq_if hone]
      split
      · next hn => exact ⟨[n], .cons (hdigit n hn) .nil, by simp⟩
      · next hn =>
          obtain ⟨-, digits, hdigits, hvalue⟩ := ih (n / base) (Nat.div_lt_self (by omega) hone)
          refine ⟨digits ++ [n % base], ?_, ?_⟩
          · exact List.rel_append hdigits (.cons (hdigit _ (Nat.mod_lt _ (by omega))) .nil)
          · rw [List.reverse_append, List.reverse_singleton, List.singleton_append, Nat.ofDigits_cons, hvalue]
            exact Nat.mod_add_div n base

end TraceSlice.Text

namespace TraceSlice

/-! ### Words as integers -/

theorem Word.ofNat?_eq_some_iff {n : Nat} {w : Word} : Word.ofNat? n = some w ↔ w.toNat = n := by
  unfold Word.ofNat?
  split
  · next hlt =>
      rw [Option.some.injEq]
      constructor
      · rintro rfl
        exact UInt64.toNat_ofNat_of_lt' hlt
      · rintro rfl
        exact UInt64.ofNat_toNat
  · next hle =>
      constructor
      · intro h
        cases h
      · rintro rfl
        exact absurd w.toNat_lt hle

theorem Word.eq_ofInt_iff {v : Word} {i : Int} : v = UInt64.ofInt i ↔ (v.toNat : Int) = i % UInt64.size := by
  have hpos : (0 : Int) < UInt64.size := by decide
  have hmod := Int.emod_nonneg i (Int.ne_of_gt hpos)
  have hlt := Int.emod_lt_of_pos i hpos
  have hofInt : UInt64.ofInt i = UInt64.ofNat (i % UInt64.size).toNat := rfl
  rw [← UInt64.toNat_inj, hofInt, UInt64.toNat_ofNat_of_lt' (by omega)]
  omega

end TraceSlice
