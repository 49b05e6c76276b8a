import Mathlib.Data.List.TakeWhile
import TraceSlice.Proofs.Descent
import TraceSlice.Proofs.Digits

/-!
# Splitting an expression into terminals

A text is split by **maximal munch**: blanks apart, the next terminal is the longest one that the rest of the text
starts with. Cutting an expression into tokens finds this splitting whenever there is one and its numbers fit a word
(`splits_of_tokens`, `exists_tokens_of_splits`). Together with the grammar this says which expressions have a value,
and what it is (`evaluate_eq_ok_iff`).
-/

namespace TraceSlice

namespace Text

/-- A literal: decimal digits, or hexadecimal digits after `0x` or `0X`. -/
inductive Literal : List Char → Nat → Prop
  | decimal {text : List Char} {n : Nat} (h : Numeral 10 text n) : Literal text n
  | hexadecimal {x : Char} {digits : List Char} {n : Nat} (hx : x = 'x' ∨ x = 'X') (h : Numeral 16 digits n) :
      Literal ('0' :: x :: digits) n

/-- `digitRun?` reads the longest run of digits if it is a numeral that fits. -/
theorem digitRun?_eq_some_iff {base : Nat} (hbase : base ≤ 16) {cs : List Char} {w : Word} {size : Nat} :
    digitRun? base cs = some (w, size) ↔
      Numeral base (cs.takeWhile (isDigitIn base)) w.toNat ∧ (cs.takeWhile (isDigitIn base)).length = size := by
  rw [numeral_iff hbase]
  have hall : ∀ c ∈ cs.takeWhile (isDigitIn base), isDigitIn base c = true := fun c hc => List.mem_takeWhile_imp hc
  simp only [digitRun?, List.isEmpty_iff]
  split
  · next hnil => simp [hnil]
  · next hne =>
      simp only [Option.map_eq_some_iff, Word.ofNat?_eq_some_iff, Prod.mk.injEq]
      constructor
      · rintro ⟨v, hv, rfl, hsize⟩
        exact ⟨⟨hne, hall, hv.symm⟩, hsize⟩
      · rintro ⟨⟨-, -, hv⟩, hsize⟩
        exact ⟨w, hv.symm, rfl, hsize⟩

/-- Of the texts at the head of `cs` whose characters all pass a test, the longest run is the longest. -/
theorem length_le_takeWhile {p : Char → Bool} {text cs : List Char} (h : text <+: cs)
    (hp : ∀ c ∈ text, p c = true) : text.length ≤ (cs.takeWhile p).length := by
  obtain ⟨rest, rfl⟩ := h
  rw [List.takeWhile_append_of_pos hp, List.length_append]
  omega

theorem take_length_takeWhile (p : Char → Bool) (cs : List Char) :
    cs.take (cs.takeWhile p).length = cs.takeWhile p :=
  (List.prefix_iff_eq_take.mp (List.takeWhile_prefix p)).symm

/-- Does a text start as a hexadecimal `Literal` does? -/
def HexHead (cs : List Char) : Prop := ∃ x digits, cs = '0' :: x :: digits ∧ (x = 'x' ∨ x = 'X')

theorem numeral?_hexadecimal {x : Char} (hx : x = 'x' ∨ x = 'X') (digits : List Char) :
    numeral? ('0' :: x :: digits) = (digitRun? 16 digits).map fun (value, size) => (value, size + 2) := by
  rcases hx with rfl | rfl <;> rfl

theorem numeral?_decimal {cs : List Char} (h : ¬ HexHead cs) : numeral? cs = digitRun? 10 cs := by
  unfold numeral?
  split
  · next digits => exact absurd ⟨_, digits, rfl, .inl rfl⟩ h
  · next digits => exact absurd ⟨_, digits, rfl, .inr rfl⟩ h
  · rfl

theorem Literal.length_le {text cs : List Char} {n : Nat} (h : Literal text n) (hpre : text <+: cs)
    (hhex : ¬ HexHead cs) : text.length ≤ (cs.takeWhile (isDigitIn 10)).length := by
  cases h with
  | decimal h => exact length_le_takeWhile hpre ((numeral_iff (by decide)).mp h).2.1
  | hexadecimal hx h =>
      obtain ⟨rest, rfl⟩ := hpre
      exact absurd ⟨_, _, rfl, hx⟩ hhex

theorem Literal.length_le_of_hexHead {text digits : List Char} {n : Nat} {x : Char} (h : Literal text n)
    (hx : x = 'x' ∨ x = 'X') (hpre : text <+: '0' :: x :: digits) :
    text.length ≤ (digits.takeWhile (isDigitIn 16)).length + 2 := by
  cases h with
  | decimal h =>
      -- decimal digits end before the letter
      have hle := length_le_takeWhile hpre ((numeral_iff (by decide)).mp h).2.1
      have hone : ('0' :: x :: digits).takeWhile (isDigitIn 10) = ['0'] := by
        rcases hx with rfl | rfl <;> rfl
      rw [hone] at hle
      simp only [List.length_singleton] at hle
      omega
  | hexadecimal hx' h =>
      have hdigits := (List.cons_prefix_cons.mp (List.cons_prefix_cons.mp hpre).2).2
      have hle := length_le_takeWhile hdigits ((numeral_iff (by decide)).mp h).2.1
      simpa using hle

/-- What `numeral?` reads is a literal, and no longer literal stands there. -/
theorem literal_of_numeral? {cs : List Char} {w : Word} {size : Nat} (h : numeral? cs = some (w, size)) :
    Literal (cs.take size) w.toNat ∧
      ∀ text n, text <+: cs → Literal text n → text.length ≤ size := by
  by_cases hhex : HexHead cs
  · obtain ⟨x, digits, rfl, hx⟩ := hhex
    rw [numeral?_hexadecimal hx, Option.map_eq_some_iff] at h
    obtain ⟨⟨v, run⟩, hrun, heq⟩ := h
    cases heq
    obtain ⟨hnumeral, rfl⟩ := (digitRun?_eq_some_iff (by decide)).mp hrun
    refine ⟨?_, fun text n hpre hliteral => hliteral.length_le_of_hexHead hx hpre⟩
    rw [List.take_succ_cons, List.take_succ_cons, take_length_takeWhile]
    exact .hexadecimal hx hnumeral
  · rw [numeral?_decimal hhex] at h
    obtain ⟨hnumeral, rfl⟩ := (digitRun?_eq_some_iff (by decide)).mp h
    refine ⟨?_, fun text n hpre hliteral => hliteral.length_le hpre hhex⟩
    rw [take_length_takeWhile]
    exact .decimal hnumeral

/-- A run that no longer one continues is the longest run. -/
theorem takeWhile_eq_of_longest {p : Char → Bool} {text rest : List Char} (hp : ∀ c ∈ text, p c = true)
    (hlongest : ∀ longer, longer <+: text ++ rest → (∀ c ∈ longer, p c = true) → longer.length ≤ text.length) :
    (text ++ rest).takeWhile p = text := by
  have hle := hlongest _ (List.takeWhile_prefix p) fun c hc => List.mem_takeWhile_imp hc
  rw [List.takeWhile_append_of_pos hp] at hle ⊢
  rw [List.length_append] at hle
  rw [List.eq_nil_of_length_eq_zero (l := rest.takeWhile p) (by omega), List.append_nil]

theorem numeral_of_all {base : Nat} (hbase : base ≤ 16) {text : List Char} (hne : text ≠ [])
    (h : ∀ c ∈ text, isDigitIn base c = true) : Numeral base text (valueOf base text) :=
  (numeral_iff hbase).mpr ⟨hne, h, rfl⟩

/-- Decimal digits that no letter `x` follows do not start a hexadecimal literal. -/
theorem not_hexHead {text rest : List Char} {n : Nat} (h : Numeral 10 text n)
    (hrest : ∀ x more, rest = x :: more → x ≠ 'x' ∧ x ≠ 'X') : ¬ HexHead (text ++ rest) := by
  obtain ⟨hne, hall, -⟩ := (numeral_iff (by decide)).mp h
  rintro ⟨x, more, heq, hx⟩
  obtain ⟨c, text, rfl⟩ := List.exists_cons_of_ne_nil hne
  cases text with
  | nil =>
      have hx' := hrest x more (List.cons.inj heq).2
      rcases hx with rfl | rfl
      · exact hx'.1 rfl
      · exact hx'.2 rfl
  | cons c' text =>
      have hc' : c' = x := (List.cons.inj (List.cons.inj heq).2).1
      have hdigit := hall c' (by simp)
      rcases hx with rfl | rfl <;> subst hc' <;> cases hdigit

/-- A `Literal` that goes on no further is read, if it fits and is not the start of a broken hexadecimal one. -/
theorem numeral?_of_literal {text rest : List Char} {n : Nat} (h : Literal text n) (hfits : n < UInt64.size)
    (hlongest : ∀ longer m, longer <+: text ++ rest → Literal longer m → longer.length ≤ text.length)
    (hrest : ∀ x more, rest = x :: more → x ≠ 'x' ∧ x ≠ 'X') :
    ∃ w : Word, numeral? (text ++ rest) = some (w, text.length) ∧ w.toNat = n := by
  have hword : (UInt64.ofNat n).toNat = n := UInt64.toNat_ofNat_of_lt' hfits
  refine ⟨UInt64.ofNat n, ?_, hword⟩
  cases h with
  | decimal h =>
      -- a longer run of digits would be a longer literal
      have hrun : (text ++ rest).takeWhile (isDigitIn 10) = text := by
        refine takeWhile_eq_of_longest ((numeral_iff (by decide)).mp h).2.1 fun longer hpre hall => ?_
        rcases eq_or_ne longer [] with rfl | hne
        · exact Nat.zero_le _
        · exact hlongest longer _ hpre (.decimal (numeral_of_all (by decide) hne hall))
      rw [numeral?_decimal (not_hexHead h hrest), digitRun?_eq_some_iff (by decide), hrun, hword]
      exact ⟨h, rfl⟩
  | @hexadecimal x digits _ hx h =>
      have hrun : (digits ++ rest).takeWhile (isDigitIn 16) = digits := by
        refine takeWhile_eq_of_longest ((numeral_iff (by decide)).mp h).2.1 fun longer hpre hall => ?_
        rcases eq_or_ne longer [] with rfl | hne
        · exact Nat.zero_le _
        · have hle := hlongest ('0' :: x :: longer) _ (by simpa using hpre)
            (.hexadecimal hx (numeral_of_all (by decide) hne hall))
          simpa using hle
      have hdigits : digitRun? 16 (digits ++ rest) = some (UInt64.ofNat n, digits.length) := by
        rw [digitRun?_eq_some_iff (by decide), hrun, hword]
        exact ⟨h, rfl⟩
      rw [List.cons_append, List.cons_append, numeral?_hexadecimal hx, hdigits]
      rfl

end Text

namespace Expr

/-- A text spells a terminal. -/
inductive Spells : List Char → Terminal → Prop
  | plus : Spells ['+'] .plus
  | minus : Spells ['-'] .minus
  | star : Spells ['*'] .star
  | openParen : Spells ['('] .openParen
  | closeParen : Spells [')'] .closeParen
  | register {name : List Char} (h : ∀ c ∈ name, isNameChar c = true) :
      Spells ('$' :: name) (.register (String.ofList name))
  | number {text : List Char} {n : Nat} (h : Text.Literal text n) : Spells text (.number n)

/-- Nothing longer than `text` that spells a terminal stands at the head of `text ++ rest`. -/
def Longest (text rest : List Char) : Prop :=
  ∀ longer terminal, longer <+: text ++ rest → Spells longer terminal → longer.length ≤ text.length

/-- Splitting a text by maximal munch (`Longest`), with spaces and tabs between terminals. -/
inductive Splits : List Char → List Terminal → Prop
  | nil : Splits [] []
  | blank {c : Char} {cs : List Char} {ls : List Terminal} (hc : c = ' ' ∨ c = '\t') (h : Splits cs ls) :
      Splits (c :: cs) ls
  | terminal {text rest : List Char} {terminal : Terminal} {ls : List Terminal} (hspells : Spells text terminal)
      (hlongest : Longest text rest) (h : Splits rest ls) : Splits (text ++ rest) (terminal :: ls)

/-! ### Heads of terminals -/

theorem isDigit_iff {c : Char} : c.isDigit = true ↔ Text.isDigitIn 10 c = true := by
  constructor
  · intro h
    have hc : '0' ≤ c ∧ c ≤ '9' := by simpa [Char.isDigit, Char.le_def] using h
    have hle : c.toNat ≤ 57 := hc.2
    have hd : Text.digit? c = some (c.toNat - 48) := by rw [Text.digit?, if_pos hc]
    simp only [Text.isDigitIn, hd, decide_eq_true_eq]
    omega
  · intro h
    obtain ⟨d, hd, rfl | rfl⟩ := (Text.isDigitIn_iff (by decide)).mp h
    · interval_cases d <;> rfl
    · interval_cases d <;> rfl

theorem isDigit_of_literal {c : Char} {text : List Char} {n : Nat} (h : Text.Literal (c :: text) n) :
    c.isDigit = true := by
  cases h with
  | decimal h => exact isDigit_iff.mpr (((Text.numeral_iff (by decide)).mp h).2.1 c (by simp))
  | hexadecimal hx h => rfl

theorem symbol?_eq_none_of_isDigit {c : Char} (h : c.isDigit = true) : symbol? c = none := by
  unfold symbol?
  split <;> first | rfl | cases h

theorem spells_of_symbol? {c : Char} {token : Token} (h : symbol? c = some token) : Spells [c] token.terminal := by
  unfold symbol? at h
  split at h <;> cases h <;> constructor

/-- What a text that `Spells` a terminal starts with tells what the terminal is. -/
theorem Spells.head {c : Char} {text : List Char} {terminal : Terminal} (h : Spells (c :: text) terminal) :
    (text = [] ∧ ∃ token, symbol? c = some token ∧ token.terminal = terminal) ∨
      (c = '$' ∧ (∀ x ∈ text, isNameChar x = true) ∧ terminal = .register (String.ofList text)) ∨
        (c.isDigit = true ∧ ∃ n, terminal = .number n ∧ Text.Literal (c :: text) n) := by
  cases h with
  | register h => exact .inr (.inl ⟨rfl, h, rfl⟩)
  | number h => exact .inr (.inr ⟨isDigit_of_literal h, _, rfl, h⟩)
  | _ => exact .inl ⟨rfl, _, rfl, rfl⟩

theorem Spells.ne_nil {text : List Char} {terminal : Terminal} (h : Spells text terminal) : text ≠ [] := by
  cases h with
  | number h =>
      cases h with
      | decimal h => exact h.1
      | hexadecimal hx h => simp
  | _ => simp

/-! ### Single tokens -/

/-- The three kinds of token that `token?` finds: a symbol, a register and a number. -/
theorem token?_cases {offset : Nat} {c : Char} {rest : List Char} {token : Token} {size : Nat}
    (h : token? offset c rest = .ok (token, size)) :
    (symbol? c = some token ∧ size = 1) ∨
      (c = '$' ∧ token = .register (String.ofList (rest.takeWhile isNameChar)) ∧
        size = (rest.takeWhile isNameChar).length + 1) ∨
        (c.isDigit = true ∧ ∃ w, token = .number w ∧ Text.numeral? (c :: rest) = some (w, size)) := by
  unfold token? at h
  split at h
  · next found hsymbol =>
      cases h
      exact .inl ⟨hsymbol, rfl⟩
  · split at h
    · next hc =>
        cases h
        exact .inr (.inl ⟨hc, rfl, rfl⟩)
    · split at h
      · next hdigit =>
          split at h
          · next w n hw =>
              cases h
              exact .inr (.inr ⟨hdigit, w, rfl, hw⟩)
          · cases h
      · cases h

theorem spells_of_token? {offset : Nat} {c : Char} {rest : List Char} {token : Token} {size : Nat}
    (h : token? offset c rest = .ok (token, size)) : Spells ((c :: rest).take size) token.terminal := by
  rcases token?_cases h with ⟨hsymbol, rfl⟩ | ⟨rfl, rfl, rfl⟩ | ⟨-, w, rfl, hw⟩
  · exact spells_of_symbol? hsymbol
  · rw [List.take_succ_cons, Text.take_length_takeWhile]
    exact .register fun x hx => List.mem_takeWhile_imp hx
  · exact .number (Text.literal_of_numeral? hw).1

/-- Nothing longer than what `token?` finds stands there. -/
theorem length_le_of_token? {offset : Nat} {c : Char} {rest text : List Char} {token : Token} {size : Nat}
    {terminal : Terminal} (h : token? offset c rest = .ok (token, size)) (hpre : text <+: c :: rest)
    (hspells : Spells text terminal) : text.length ≤ size := by
  obtain ⟨c', text, rfl⟩ := List.exists_cons_of_ne_nil hspells.ne_nil
  obtain ⟨rfl, hpre'⟩ := List.cons_prefix_cons.mp hpre
  have hpos := token?_size_pos h
  rcases hspells.head with ⟨rfl, -⟩ | ⟨rfl, hname, -⟩ | ⟨hdigit, n, -, hliteral⟩
  · exact hpos
  · have hle := Text.length_le_takeWhile hpre' hname
    rcases token?_cases h with ⟨hsymbol, -⟩ | ⟨-, -, rfl⟩ | ⟨hdigit, -⟩
    · cases hsymbol
    · simpa using hle
    · cases hdigit
  · rcases token?_cases h with ⟨hsymbol, -⟩ | ⟨rfl, -, -⟩ | ⟨-, w, -, hw⟩
    · rw [symbol?_eq_none_of_isDigit hdigit] at hsymbol
      cases hsymbol
    · cases hdigit
    · exact (Text.literal_of_numeral? hw).2 _ n hpre hliteral

/-- The longest terminal at the head of a text is what `token?` finds, if it fits and is not the start of a broken
hexadecimal literal. -/
theorem token?_of_spells (offset : Nat) {c : Char} {text rest : List Char} {terminal : Terminal}
    (hspells : Spells (c :: text) terminal) (hlongest : Longest (c :: text) rest)
    (hfits : ∀ n, terminal = .number n → n < UInt64.size)
    (hrest : ∀ x more, rest = x :: more → x ≠ 'x' ∧ x ≠ 'X') :
    ∃ token, token? offset c (text ++ rest) = .ok (token, text.length + 1) ∧ token.terminal = terminal := by
  rcases hspells.head with ⟨rfl, token, hsymbol, hterminal⟩ | ⟨rfl, hname, rfl⟩ | ⟨hdigit, n, rfl, hliteral⟩
  · exact ⟨token, by rw [token?, hsymbol]; rfl, hterminal⟩
  · have hrun : (text ++ rest).takeWhile isNameChar = text := by
      refine Text.takeWhile_eq_of_longest hname fun longer hpre hall => ?_
      have hle := hlongest ('$' :: longer) _ (by simpa using hpre) (.register hall)
      simpa using hle
    refine ⟨.register (String.ofList text), ?_, rfl⟩
    simp [token?, symbol?, hrun]
  · obtain ⟨w, hw, rfl⟩ := Text.numeral?_of_literal hliteral (hfits n rfl)
      (fun longer m hpre h => hlongest longer _ hpre (.number h)) hrest
    have hne : c ≠ '$' := by
      rintro rfl
      cases hdigit
    refine ⟨.number w, ?_, rfl⟩
    rw [List.cons_append] at hw
    rw [token?, symbol?_eq_none_of_isDigit hdigit]
    simp [hne, hdigit, hw]

/-! ### All tokens -/

/-- `tokens` is a splitting by maximal munch (`Splits`). -/
theorem splits_of_tokens {offset : Nat} {cs : List Char} {ts : List (Nat × Token)}
    (h : tokens offset cs = .ok ts) : Splits cs (ts.map fun t => t.2.terminal) := by
  fun_induction tokens offset cs generalizing ts with
  | case1 =>
      cases h
      exact .nil
  | case2 offset c rest hc ih => exact .blank hc (ih h)
  | case3 offset c rest hc err htoken => cases h
  | case4 offset c rest hc token size htoken err hmore ih => cases h
  | case5 offset c rest hc token size htoken more hmore ih =>
      cases h
      have hlongest : Longest ((c :: rest).take size) ((c :: rest).drop size) := by
        intro longer terminal hpre hspells
        rw [List.take_append_drop] at hpre
        have hle := length_le_of_token? htoken hpre hspells
        rw [List.length_take]
        exact Nat.le_min.mpr ⟨hle, hpre.length_le⟩
      have hsplits := Splits.terminal (spells_of_token? htoken) hlongest (ih hmore)
      rwa [List.take_append_drop] at hsplits

/-- No text that starts with the letter of a hexadecimal literal can be split. -/
theorem Splits.head_ne {x : Char} {cs : List Char} {ls : List Terminal} (h : Splits (x :: cs) ls) :
    x ≠ 'x' ∧ x ≠ 'X' := by
  generalize hcs : x :: cs = text at h
  cases h with
  | nil => cases hcs
  | blank hc h =>
      cases hcs
      rcases hc with rfl | rfl <;> decide
  | terminal hspells hlongest h =>
      obtain ⟨c, text, rfl⟩ := List.exists_cons_of_ne_nil hspells.ne_nil
      cases hcs
      have hhead := hspells.head
      constructor <;> rintro rfl <;> simp [symbol?] at hhead

/-- A splitting by maximal munch is what `tokens` finds if its numbers fit. -/
theorem exists_tokens_of_splits {cs : List Char} {ls : List Terminal} (h : Splits cs ls)
    (hfits : ∀ n, .number n ∈ ls → n < UInt64.size) (offset : Nat) :
    ∃ ts, tokens offset cs = .ok ts ∧ ts.map (fun t => t.2.terminal) = ls := by
  induction h generalizing offset with
  | nil => exact ⟨[], by simp [tokens], rfl⟩
  | blank hc h ih =>
      obtain ⟨ts, hts, hls⟩ := ih hfits (offset + 1)
      exact ⟨ts, by rw [tokens, if_pos hc, hts], hls⟩
  | @terminal text rest terminal ls hspells hlongest h ih =>
      obtain ⟨c, text, rfl⟩ := List.exists_cons_of_ne_nil hspells.ne_nil
      obtain ⟨token, htoken, rfl⟩ := token?_of_spells offset hspells hlongest
        (fun n hn => hfits n (hn ▸ List.mem_cons_self)) (fun x more hmore => (hmore ▸ h).head_ne)
      obtain ⟨ts, hts, hls⟩ := ih (fun n hn => hfits n (List.mem_cons_of_mem _ hn)) (offset + (text.length + 1))
      refine ⟨(offset, token) :: ts, ?_, by rw [List.map_cons, hls]⟩
      -- no terminal is spelled with a blank in front
      have hblank : ¬ (c = ' ' ∨ c = '\t') := by
        have hhead := hspells.head
        rintro (rfl | rfl) <;> simp [symbol?] at hhead
      rw [List.cons_append, tokens, if_neg hblank]
      split
      · next err herr =>
          rw [htoken] at herr
          cases herr
      · next found size hfound =>
          rw [htoken] at hfound
          cases hfound
          simp [hts]

/-- `tokenize` makes one token of the name of a register after `$`. -/
theorem tokenize_register {name : String} (h : name.toList.all isNameChar = true) :
    tokenize ("$" ++ name) = .ok [(0, .register name)] := by
  have hrun : name.toList.takeWhile isNameChar = name.toList :=
    List.takeWhile_eq_self_iff.mpr (List.all_eq_true.mp h)
  have htoken : token? 0 '$' name.toList = .ok (.register name, name.toList.length + 1) := by
    simp [token?, symbol?, hrun]
  rw [tokenize, String.toList_append]
  show tokens 0 ('$' :: name.toList) = _
  rw [tokens, if_neg (by decide)]
  split
  · next err herr =>
      rw [htoken] at herr
      cases herr
  · next found size hfound =>
      rw [htoken] at hfound
      cases hfound
      simp [tokens]

theorem evaluate_register (registers : String → Option Word) {name : String}
    (h : name.toList.all isNameChar = true) :
    evaluate registers ("$" ++ name) =
      match registers name with
      | some value => .ok value
      | none => .error (.unknownRegister name) := by
  rw [evaluate, tokenize_register h]
  cases hvalue : registers name with
  | none => simp [evaluateTokens, Reading.start, Reading.take, hvalue, bind, Except.bind]
  | some value =>
      simp [evaluateTokens, Reading.start, Reading.take, Reading.finish, hvalue, bind, Except.bind, pure, Except.pure]

/-- The numbers of tokens fit. -/
theorem lt_size_of_mem {ts : List (Nat × Token)} {n : Nat} (h : .number n ∈ ts.map fun t => t.2.terminal) :
    n < UInt64.size := by
  obtain ⟨⟨offset, token⟩, -, htoken⟩ := List.mem_map.mp h
  cases token with
  | number w =>
      cases htoken
      exact w.toNat_lt
  | _ => cases htoken

/-- **Expressions mean what the grammar says.** `evaluate` gives an expression a value exactly if it splits by maximal
munch (`Splits`) into a sentence of the grammar (`Tree`) all of whose numbers fit 64 bits and all of whose registers
are known. The value is then that of the sentence over the integers, reduced modulo 2^64. The same value, or the same
error, comes of recursive descent (`evaluateByDescent`). -/
theorem evaluate_eq_ok_iff (registers : String → Option Word) (expression : String) (v : Word) :
    (evaluate registers expression = .ok v ↔
      ∃ tree : Tree .sum, Splits expression.toList tree.yield ∧
        (∀ n, .number n ∈ tree.yield → n < UInt64.size) ∧
        (∀ name, .register name ∈ tree.yield → (registers name).isSome = true) ∧
        (v.toNat : Int) = tree.value (integers registers) % UInt64.size) ∧
    evaluate registers expression = evaluateByDescent registers expression := by
  refine ⟨?_, evaluate_eq_descent registers expression⟩
  simp only [← Word.eq_ofInt_iff]
  unfold evaluate
  constructor
  · intro h
    split at h
    · cases h
    · cases h
    · next ts _ htokens =>
        obtain ⟨tree, hyield, hknown, hvalue⟩ := evaluateTokens_eq_ok_iff.mp h
        refine ⟨tree, hyield ▸ splits_of_tokens htokens, ?_, hknown, hvalue⟩
        intro n hn
        rw [hyield] at hn
        exact lt_size_of_mem hn
  · rintro ⟨tree, hsplits, hfits, hknown, hvalue⟩
    obtain ⟨ts, htokens, hyield⟩ := exists_tokens_of_splits hsplits hfits 0
    have hvalue' := evaluateTokens_eq_ok_iff.mpr ⟨tree, hyield.symm, hknown, hvalue⟩
    rw [tokenize, htokens]
    cases ts with
    -- no tree has an empty yield
    | nil => cases hvalue'
    | cons t ts => exact hvalue'

end Expr

end TraceSlice
