import Mathlib.Data.List.Chain
import TraceSlice.Proofs.Decoded
import TraceSlice.Proofs.Tokens

/-!
# Scanning addresses

The scanner of memory operands knows registers by their bare names and takes the longest name that a text starts with,
so whether it finds the registers that were meant depends on what follows them. What follows an operand of a sentence is
never another operand (`Tree.isChain_yield`). An operand is therefore **delimited**: the text goes on with a character
that no name and no number has, and a delimited name is the longest at its place (`Legible.registerAtHead?_eq`). So the
scanner finds the terminals of every address, whatever spaces, brackets and segment prefixes stand around them
(`Written.scan`).
-/

namespace TraceSlice

open TraceSlice.Expr (Terminal Tree isNameChar)

/-- A text that does not go on with a character of a name. -/
def Text.Delimited (rest : List Char) : Prop := ∀ c ∈ rest.head?, isNameChar c = false

namespace Text

/-- Before a delimited text, a run of characters of names (`isNameChar`) ends. -/
theorem Delimited.length_le {text rest longer : List Char} (hrest : Delimited rest) (hpre : longer <+: text ++ rest)
    (hall : ∀ c ∈ longer, isNameChar c = true) : longer.length ≤ text.length := by
  have hle := length_le_takeWhile hpre hall
  have hnil : rest.takeWhile isNameChar = [] := by
    cases rest with
    | nil => rfl
    | cons c rest => simp [hrest c rfl]
  rw [List.takeWhile_append] at hle
  split at hle
  · rwa [hnil, List.append_nil] at hle
  · exact Nat.le_trans hle (List.takeWhile_prefix _).length_le

theorem isNameChar_of_isDigitIn {base : Nat} (hbase : base ≤ 16) {c : Char} (h : isDigitIn base c = true) :
    isNameChar c = true := by
  obtain ⟨d, hd, hc⟩ := (isDigitIn_iff hbase).mp h
  have hd' : d < 16 := Nat.lt_of_lt_of_le hd hbase
  clear h hd
  interval_cases d <;> rcases hc with rfl | rfl <;> rfl

theorem Literal.isNameChar {text : List Char} {n : Nat} (h : Literal text n) : ∀ c ∈ text, isNameChar c = true := by
  cases h with
  | decimal h => exact fun c hc => isNameChar_of_isDigitIn (by decide) (((numeral_iff (by decide)).mp h).2.1 c hc)
  | @hexadecimal x digits _ hx h =>
      have hdigits := ((numeral_iff (by decide)).mp h).2.1
      intro c hc
      rcases List.mem_cons.mp hc with rfl | hc
      · rfl
      · rcases List.mem_cons.mp hc with rfl | hc
        · rcases hx with rfl | rfl <;> rfl
        · exact isNameChar_of_isDigitIn (by decide) (hdigits c hc)

/-- A delimited `Literal` that fits is read whole by `numeral?`. -/
theorem Literal.numeral?_append {text rest : List Char} {n : Nat} (h : Literal text n) (hfits : n < UInt64.size)
    (hrest : Delimited rest) : ∃ w : Word, numeral? (text ++ rest) = some (w, text.length) := by
  have hx : ∀ x more, rest = x :: more → x ≠ 'x' ∧ x ≠ 'X' := by
    intro x more hmore
    have hname := hrest x (by rw [hmore]; rfl)
    constructor <;> intro heq <;> subst heq <;> cases hname
  obtain ⟨w, hw, -⟩ := numeral?_of_literal h hfits (fun longer m hpre hlit => hrest.length_le hpre hlit.isNameChar) hx
  exact ⟨w, hw⟩

end Text

/-! ### Names -/

/-- A name: a letter, and characters of names. -/
def IsName (text : List Char) : Prop := text.head?.any Char.isAlpha = true ∧ text.all isNameChar = true

instance (text : List Char) : Decidable (IsName text) := inferInstanceAs (Decidable (_ ∧ _))

/-- Registers and zero registers are told apart by their names. Both descriptions are `Legible`. -/
structure Description.Legible (arch : Description) : Prop where
  /-- Registers have names. -/
  register : ∀ r ∈ arch.allRegisters, IsName r.name.toList
  /-- Zero registers have names. -/
  zero : ∀ z ∈ arch.zeroRegisters, IsName z.toList
  /-- No two registers have one name. -/
  unique : ∀ r ∈ arch.allRegisters, arch.register? r.name = some r
  /-- No register's name starts with that of a zero register. -/
  apart : ∀ r ∈ arch.allRegisters, ∀ z ∈ arch.zeroRegisters, ¬ z.toList <+: r.name.toList
  /-- No zero register's name starts with that of another. -/
  zeroApart : ∀ y ∈ arch.zeroRegisters, ∀ z ∈ arch.zeroRegisters, z.toList <+: y.toList → z = y

theorem Arch.legible (arch : Arch) : arch.description.Legible := by
  cases arch <;> exact ⟨by decide +kernel, by decide +kernel, by decide +kernel, by decide +kernel, by decide +kernel⟩

namespace IsName

variable {text : List Char}

theorem isNameChar (h : IsName text) : ∀ c ∈ text, isNameChar c = true := List.all_eq_true.mp h.2

theorem exists_cons (h : IsName text) : ∃ c more, text = c :: more ∧ c.isAlpha = true := by
  cases text with
  | nil => cases h.1
  | cons c more => exact ⟨c, more, rfl, by simpa using h.1⟩

end IsName

namespace Description

theorem longer_isSome (best : Option Register) (r : Register) :
    ∃ r', longer best r = some r' ∧ r.name.length ≤ r'.name.length ∧
      ∀ b ∈ best, b.name.length ≤ r'.name.length := by
  unfold longer
  cases best with
  | none => exact ⟨r, rfl, Nat.le_refl _, nofun⟩
  | some other =>
      dsimp only
      split
      · next hle => exact ⟨r, rfl, Nat.le_refl _, fun b hb => Option.some.inj hb ▸ hle⟩
      · next hlt => exact ⟨other, rfl, by omega, fun b hb => Option.some.inj hb ▸ Nat.le_refl _⟩

/-- The fold of `longer` finds a register no shorter than any of them. -/
theorem length_le_foldl_longer {registers : List Register} {best : Option Register} {r : Register}
    (h : r ∈ registers ∨ r ∈ best) : ∃ r', registers.foldl longer best = some r' ∧ r.name.length ≤ r'.name.length := by
  induction registers generalizing best r with
  | nil =>
      obtain hmem | hbest := h
      · cases hmem
      · exact ⟨r, hbest, Nat.le_refl _⟩
  | cons register rest ih =>
      obtain ⟨next, hnext, hregister, hbest⟩ := longer_isSome best register
      have hle : r ∈ rest ∨ r.name.length ≤ next.name.length := by
        obtain hmem | hmem := h
        · obtain rfl | hmem := List.mem_cons.mp hmem
          · exact .inr hregister
          · exact .inl hmem
        · exact .inr (hbest r hmem)
      rw [List.foldl_cons]
      obtain hmem | hle := hle
      · exact ih (.inl hmem)
      · obtain ⟨r', hr', hlonger⟩ := ih (r := next) (.inr hnext)
        exact ⟨r', hr', Nat.le_trans hle hlonger⟩

namespace Legible

variable {arch : Description} (h : arch.Legible)

include h

/-- A delimited register is the one that `registerAtHead?` finds. -/
theorem registerAtHead?_eq {r : Register} (hr : r ∈ arch.allRegisters) {rest : List Char}
    (hrest : Text.Delimited rest) : arch.registerAtHead? (r.name.toList ++ rest) = some r := by
  have hmem : r ∈ arch.allRegisters.filter fun register =>
      register.name.toList.isPrefixOf (r.name.toList ++ rest) := by
    simp [hr]
  obtain ⟨r', hr', hlonger⟩ := length_le_foldl_longer (.inl hmem : r ∈ _ ∨ r ∈ (none : Option Register))
  have hr'mem : r' ∈ arch.allRegisters ∧ r'.name.toList <+: r.name.toList ++ rest := by
    obtain hfound | hnone := foldl_longer_mem hr'
    · simpa using hfound
    · cases hnone
  -- both names are as long, and stand at the head of one text
  have hle := hrest.length_le hr'mem.2 (h.register r' hr'mem.1).isNameChar
  have hpre : r'.name.toList <+: r.name.toList :=
    List.prefix_of_prefix_length_le hr'mem.2 (List.prefix_append _ _) hle
  have hname : r'.name = r.name := by
    refine String.toList_injective (hpre.eq_of_length_le ?_)
    rwa [String.length_toList, String.length_toList]
  have heq := h.unique r' hr'mem.1
  rw [hname, h.unique r hr] at heq
  rw [registerAtHead?, hr', Option.some.inj heq]

theorem zeroRegisterAtHead?_eq_none {r : Register} (hr : r ∈ arch.allRegisters) {rest : List Char}
    (hrest : Text.Delimited rest) : arch.zeroRegisterAtHead? (r.name.toList ++ rest) = none := by
  refine List.find?_eq_none.mpr fun z hz hpre => ?_
  have hpre' : z.toList <+: r.name.toList ++ rest := by simpa using hpre
  have hle := hrest.length_le hpre' (h.zero z hz).isNameChar
  exact h.apart r hr z hz (List.prefix_of_prefix_length_le hpre' (List.prefix_append _ _) hle)

/-- A delimited zero register is the one that `zeroRegisterAtHead?` finds. -/
theorem zeroRegisterAtHead?_eq {z : String} (hz : z ∈ arch.zeroRegisters) {rest : List Char}
    (hrest : Text.Delimited rest) : arch.zeroRegisterAtHead? (z.toList ++ rest) = some z := by
  have hsome : (arch.zeroRegisterAtHead? (z.toList ++ rest)).isSome = true :=
    List.find?_isSome.mpr ⟨z, hz, by simp⟩
  obtain ⟨y, hy⟩ := Option.isSome_iff_exists.mp hsome
  have hmem : y ∈ arch.zeroRegisters := List.mem_of_find?_eq_some hy
  have hpre : y.toList <+: z.toList ++ rest := by simpa using List.find?_some hy
  have hle := hrest.length_le hpre (h.zero y hmem).isNameChar
  rw [hy, h.zeroApart z hz y hmem (List.prefix_of_prefix_length_le hpre (List.prefix_append _ _) hle)]

end Legible

end Description

/-! ### Sentences -/

namespace Expr

/-- Is the terminal a number or a register? -/
def Terminal.isOperand : Terminal → Bool
  | .number _ | .register _ => true
  | _ => false

/-- What may stand next to each other in a sentence: no operand directly follows another. -/
def Terminal.Follows (a b : Terminal) : Prop := a.isOperand = true → b.isOperand = false ∧ b ≠ .openParen

theorem Tree.isChain_yield {category : Category} (tree : Tree category) : tree.yield.IsChain Terminal.Follows := by
  -- an operator follows anything, and anything follows an operator
  have hjoin : ∀ {before after : List Terminal} {operator : Terminal}, before.IsChain Terminal.Follows →
      after.IsChain Terminal.Follows → operator.isOperand = false → operator ≠ .openParen →
        (before ++ operator :: after).IsChain Terminal.Follows := by
    intro before after operator hbefore hafter hoperator hparen
    refine List.isChain_append.mpr ⟨hbefore, List.isChain_cons.mpr ⟨?_, hafter⟩, ?_⟩
    · intro y _ h
      rw [hoperator] at h
      cases h
    · intro x _ y hy _
      cases hy
      exact ⟨hoperator, hparen⟩
  induction tree with
  | number value => exact List.isChain_singleton _
  | register name => exact List.isChain_singleton _
  | group inner ih =>
      refine List.isChain_cons.mpr ⟨fun y _ h => ?_, hjoin ih .nil rfl nofun⟩
      cases h
  | atom operand ih => exact ih
  | neg operand ih => exact hjoin .nil ih rfl nofun
  | pos operand ih => exact hjoin .nil ih rfl nofun
  | unary factor ih => exact ih
  | mul factors factor ih ih' => exact hjoin ih ih' rfl nofun
  | product term ih => exact ih
  | add terms term ih ih' => exact hjoin ih ih' rfl nofun
  | sub terms term ih ih' => exact hjoin ih ih' rfl nofun

end Expr

namespace Decode

/-! ### Addresses as they are written -/

/-- A text names a terminal inside an address: registers go by their bare names, and a zero register is a number. -/
inductive Names (arch : Description) : List Char → Terminal → Prop
  | plus : Names arch ['+'] .plus
  | minus : Names arch ['-'] .minus
  | star : Names arch ['*'] .star
  | number {text : List Char} {n : Nat} (h : Text.Literal text n) (hfits : n < UInt64.size) :
      Names arch text (.number n)
  | zero {z : String} (h : z ∈ arch.zeroRegisters) : Names arch z.toList (.number 0)
  | register {r : Register} (h : r ∈ arch.allRegisters) : Names arch r.name.toList (.register r.name)

/-- Terminals one after the other (`Names`), with any spaces around them. -/
inductive Spaced (arch : Description) : List Char → List Terminal → Prop
  | nil : Spaced arch [] []
  | space {cs : List Char} {ls : List Terminal} (h : Spaced arch cs ls) : Spaced arch (' ' :: cs) ls
  | terminal {text rest : List Char} {l : Terminal} {ls : List Terminal} (hnames : Names arch text l)
      (h : Spaced arch rest ls) : Spaced arch (text ++ rest) (l :: ls)

/-- Terminals (`Spaced`) after opening brackets and segment prefixes. Thread-local segments are left out. -/
inductive Bracketed (arch : Description) : List Char → List Terminal → Prop
  | terminals {cs : List Char} {ls : List Terminal} (h : Spaced arch cs ls) : Bracketed arch cs ls
  | space {cs : List Char} {ls : List Terminal} (h : Bracketed arch cs ls) : Bracketed arch (' ' :: cs) ls
  | bracket {cs : List Char} {ls : List Terminal} (h : Bracketed arch cs ls) : Bracketed arch ('[' :: cs) ls
  | segment {letter : Char} {cs : List Char} {ls : List Terminal} (hletter : letter ∈ ['c', 'd', 'e', 's'])
      (h : Bracketed arch cs ls) : Bracketed arch (letter :: 's' :: ':' :: cs) ls

/-- A text is an address that reads as a tree: its terminals are the tree's `yield`. Nothing counts after a closing
bracket. -/
inductive Written (arch : Description) : List Char → Tree .sum → Prop
  | bare {text : List Char} {tree : Tree .sum} (h : Bracketed arch text tree.yield) : Written arch text tree
  | closed {text : List Char} {tree : Tree .sum} (h : Bracketed arch text tree.yield) (after : List Char) :
      Written arch (text ++ ']' :: after) tree

section

variable {arch : Description}

/-! ### Characters of addresses -/

theorem Names.ne_nil (harch : arch.Legible) {text : List Char} {l : Terminal} (h : Names arch text l) : text ≠ [] := by
  cases h with
  | number h _ => exact (Expr.Spells.number h).ne_nil
  | zero h =>
      obtain ⟨c, more, hmore, -⟩ := (harch.zero _ h).exists_cons
      simp [hmore]
  | register h =>
      obtain ⟨c, more, hmore, -⟩ := (harch.register _ h).exists_cons
      simp [hmore]
  | _ => simp

theorem Names.isNameChar (harch : arch.Legible) {text : List Char} {l : Terminal} (h : Names arch text l)
    (hl : l.isOperand = true) : ∀ c ∈ text, isNameChar c = true := by
  cases h with
  | number h _ => exact h.isNameChar
  | zero h => exact (harch.zero _ h).isNameChar
  | register h => exact (harch.register _ h).isNameChar
  | _ => cases hl

theorem Names.eq_operator {text : List Char} {l : Terminal} (h : Names arch text l) (hl : l.isOperand = false) :
    ∃ c, text = [c] ∧ (c = '+' ∨ c = '-' ∨ c = '*') := by
  cases h with
  | plus => exact ⟨'+', rfl, by decide⟩
  | minus => exact ⟨'-', rfl, by decide⟩
  | star => exact ⟨'*', rfl, by decide⟩
  | _ => cases hl

/-- The characters of terminals and the spaces between them: those of names (`isNameChar`), spaces and operators. -/
theorem Spaced.mem (harch : arch.Legible) {cs : List Char} {ls : List Terminal} (h : Spaced arch cs ls) :
    ∀ c ∈ cs, isNameChar c = true ∨ c = ' ' ∨ c = '+' ∨ c = '-' ∨ c = '*' := by
  induction h with
  | nil => simp
  | space h ih =>
      intro c hc
      obtain rfl | hc := List.mem_cons.mp hc
      · exact .inr (.inl rfl)
      · exact ih c hc
  | @terminal text rest l ls hnames h ih =>
      intro c hc
      obtain hc | hc := List.mem_append.mp hc
      · cases hl : l.isOperand with
        | true => exact .inl (hnames.isNameChar harch hl c hc)
        | false =>
            obtain ⟨operator, rfl, hoperator⟩ := hnames.eq_operator hl
            rw [List.mem_singleton.mp hc]
            exact .inr (.inr hoperator)
      · exact ih c hc

theorem Spaced.colon_not_mem (harch : arch.Legible) {cs : List Char} {ls : List Terminal} (h : Spaced arch cs ls) :
    ':' ∉ cs := by
  intro hmem
  have hcases := h.mem harch _ hmem
  revert hcases
  decide

theorem Bracketed.bracket_not_mem (harch : arch.Legible) {cs : List Char} {ls : List Terminal}
    (h : Bracketed arch cs ls) : ']' ∉ cs := by
  induction h with
  | terminals h =>
      intro hmem
      have hcases := h.mem harch _ hmem
      revert hcases
      decide
  | space h ih => simpa using ih
  | bracket h ih => simpa using ih
  | @segment letter _ _ hletter h ih =>
      have hne : ']' ≠ letter := by
        intro heq
        simp [← heq] at hletter
      simpa [hne] using ih

/-- After an operand of a sentence, the text is `Delimited`. -/
theorem Spaced.delimited {cs : List Char} {ls : List Terminal} (h : Spaced arch cs ls)
    (hls : ∀ l ∈ ls.head?, l.isOperand = false) : Text.Delimited cs := by
  cases h with
  | nil => nofun
  | space h =>
      intro c hc
      cases hc
      rfl
  | terminal hnames h =>
      obtain ⟨operator, rfl, hoperator⟩ := hnames.eq_operator (hls _ rfl)
      intro c hc
      cases hc
      obtain rfl | rfl | rfl := hoperator <;> rfl

/-! ### Scanning -/

/-- What a piece of an address stands for: a register for itself, a text for the number or operator it spells. -/
inductive Denotes (arch : Description) : Piece → Terminal → Prop
  | plus : Denotes arch (.text ['+']) .plus
  | minus : Denotes arch (.text ['-']) .minus
  | star : Denotes arch (.text ['*']) .star
  | number {text : List Char} {n : Nat} (h : Text.Literal text n) (hfits : n < UInt64.size) :
      Denotes arch (.text text) (.number n)
  | register {r : Register} (h : r ∈ arch.allRegisters) : Denotes arch (.register r) (.register r.name)

theorem segment?_eq_none {cs : List Char} (h : ':' ∉ cs) : segment? cs = none := by
  unfold segment?
  split
  · next letter rest => simp at h
  · rfl

theorem isDigit_eq_false_of_isAlpha {c : Char} (h : c.isAlpha = true) : c.isDigit = false := by
  rw [Bool.eq_false_iff]
  intro hdigit
  obtain ⟨d, hd, rfl | rfl⟩ := (Text.isDigitIn_iff (by decide)).mp (Expr.isDigit_iff.mp hdigit)
  · interval_cases d <;> cases h
  · interval_cases d <;> cases h

/-- A name is neither a number nor an operator nor a segment prefix, so `head` takes it for a register. -/
theorem head_of_name {c : Char} {text rest : List Char} (hc : c.isAlpha = true) (hcolon : ':' ∉ c :: text ++ rest) :
    head arch c (text ++ rest) = registerHead arch (c :: text ++ rest) := by
  have hblank : ¬ (c = '[' ∨ c = ' ') := by
    rintro (rfl | rfl) <;> cases hc
  have hoperator : ¬ (c = '+' ∨ c = '-' ∨ c = '*') := by
    rintro (rfl | rfl | rfl) <;> cases hc
  rw [head, if_neg hblank, if_neg hoperator, if_neg (by simp [isDigit_eq_false_of_isAlpha hc])]
  rw [← List.cons_append, segment?_eq_none hcolon]

theorem head_of_literal {c : Char} {text rest : List Char} {n : Nat} (h : Text.Literal (c :: text) n)
    (hfits : n < UInt64.size) (hrest : Text.Delimited rest) :
    head arch c (text ++ rest) = .piece (.text (c :: text)) (text.length + 1) := by
  have hdigit := Expr.isDigit_of_literal h
  obtain ⟨w, hw⟩ := h.numeral?_append hfits hrest
  have hblank : ¬ (c = '[' ∨ c = ' ') := by
    rintro (rfl | rfl) <;> cases hdigit
  have hoperator : ¬ (c = '+' ∨ c = '-' ∨ c = '*') := by
    rintro (rfl | rfl | rfl) <;> cases hdigit
  rw [head, if_neg hblank, if_neg hoperator, if_pos hdigit, ← List.cons_append, hw]
  simp

/-- A delimited terminal is read by `pieces` as one piece, which `Denotes` it. -/
theorem Names.pieces_append (harch : arch.Legible) {text rest : List Char} {l : Terminal} (h : Names arch text l)
    (hrest : l.isOperand = true → Text.Delimited rest) (hcolon : ':' ∉ rest) :
    ∃ piece, pieces arch (text ++ rest) = (pieces arch rest).cons piece ∧ Denotes arch piece l := by
  have hne := h.ne_nil harch
  have hcolon' : l.isOperand = true → ':' ∉ text ++ rest := by
    intro hl hmem
    obtain hmem | hmem := List.mem_append.mp hmem
    · cases h.isNameChar harch hl _ hmem
    · exact hcolon hmem
  -- it is enough to know the head
  have hhead : ∀ {c : Char} {more : List Char} {piece : Piece}, text = c :: more →
      head arch c (more ++ rest) = .piece piece (more.length + 1) → Denotes arch piece l →
        ∃ piece, pieces arch (text ++ rest) = (pieces arch rest).cons piece ∧ Denotes arch piece l := by
    intro c more piece htext hpiece hstands
    refine ⟨piece, ?_, hstands⟩
    rw [htext, List.cons_append, pieces, hpiece]
    simp
  cases h with
  | plus => exact hhead rfl rfl .plus
  | minus => exact hhead rfl rfl .minus
  | star => exact hhead rfl rfl .star
  | number h hfits =>
      obtain ⟨c, more, rfl⟩ := List.exists_cons_of_ne_nil hne
      exact hhead rfl (head_of_literal h hfits (hrest rfl)) (.number h hfits)
  | @zero z hz =>
      obtain ⟨c, more, hmore, hc⟩ := (harch.zero z hz).exists_cons
      refine hhead hmore ?_ (.number (.decimal (n := 0) (Text.numeral_toDigits (by decide) (by decide) 0)) (by decide))
      rw [head_of_name hc (hmore ▸ hcolon' rfl), ← hmore, registerHead, harch.zeroRegisterAtHead?_eq hz (hrest rfl)]
      simp [← String.length_toList, hmore]
  | @register r hr =>
      obtain ⟨c, more, hmore, hc⟩ := (harch.register r hr).exists_cons
      refine hhead hmore ?_ (.register hr)
      rw [head_of_name hc (hmore ▸ hcolon' rfl), ← hmore, registerHead,
        harch.zeroRegisterAtHead?_eq_none hr (hrest rfl), harch.registerAtHead?_eq hr (hrest rfl)]
      simp [← String.length_toList, hmore]

/-- Pieces that stand for terminals one by one (`Denotes`), with nothing left over. -/
def Scans (arch : Description) (scan : Pieces) (ls : List Terminal) : Prop :=
  scan.complete = true ∧ List.Forall₂ (Denotes arch) scan.pieces ls

/-- Scanning finds the terminals of a sentence. -/
theorem Spaced.scan (harch : arch.Legible) {cs : List Char} {ls : List Terminal} (h : Spaced arch cs ls)
    (hchain : ls.IsChain Terminal.Follows) : Scans arch (pieces arch cs) ls := by
  induction h with
  | nil =>
      rw [pieces]
      exact ⟨rfl, .nil⟩
  | space h ih =>
      rw [pieces]
      exact ih hchain
  | terminal hnames h ih =>
      obtain ⟨hfollows, hchain⟩ := List.isChain_cons.mp hchain
      have hrest : _ → Text.Delimited _ := fun hl => h.delimited fun next hnext => (hfollows next hnext hl).1
      obtain ⟨piece, hpieces, hstands⟩ := hnames.pieces_append harch hrest (h.colon_not_mem harch)
      rw [hpieces]
      exact ⟨(ih hchain).1, .cons hstands (ih hchain).2⟩

theorem Bracketed.scan (harch : arch.Legible) {cs : List Char} {ls : List Terminal} (h : Bracketed arch cs ls)
    (hchain : ls.IsChain Terminal.Follows) : Scans arch (pieces arch cs) ls := by
  induction h with
  | terminals h => exact h.scan harch hchain
  | space h ih =>
      rw [pieces]
      exact ih hchain
  | bracket h ih =>
      rw [pieces]
      exact ih hchain
  | segment hletter h ih =>
      simp only [List.mem_cons, List.not_mem_nil, or_false] at hletter
      rw [pieces]
      rcases hletter with rfl | rfl | rfl | rfl <;> exact ih hchain

/-! ### Blanks around an address -/

theorem toNat_of_isNameChar {c : Char} (h : isNameChar c = true) : 48 ≤ c.toNat ∧ c.toNat ≤ 122 := by
  have hclass : ((decide (c.val ≥ 'A'.val ∧ c.val ≤ 'Z'.val) ||
      (decide (c.val ≥ 'a'.val) && decide (c.val ≤ 'z'.val))) ||
        (decide (c.val ≥ '0'.val) && decide (c.val ≤ '9'.val)) || c == '_') = true := h
  simp only [Bool.or_eq_true, Bool.and_eq_true, decide_eq_true_eq, ge_iff_le, UInt32.le_iff_toNat_le,
    beq_iff_eq] at hclass
  rcases hclass with ((h | h) | h) | rfl
  · exact ⟨Nat.le_trans (by decide) h.1, Nat.le_trans h.2 (by decide)⟩
  · exact ⟨Nat.le_trans (by decide) h.1, Nat.le_trans h.2 (by decide)⟩
  · exact ⟨Nat.le_trans (by decide) h.1, Nat.le_trans h.2 (by decide)⟩
  · decide

theorem isBlank_eq_false_of_isNameChar {c : Char} (h : isNameChar c = true) : Text.isBlank c = false := by
  have hrange := toNat_of_isNameChar h
  simp [Text.isBlank, Text.blankRanges]
  omega

/-- No terminal holds a blank. -/
theorem Names.isBlank (harch : arch.Legible) {text : List Char} {l : Terminal} (h : Names arch text l) :
    ∀ c ∈ text, Text.isBlank c = false := by
  intro c hc
  cases hl : l.isOperand with
  | true => exact isBlank_eq_false_of_isNameChar (h.isNameChar harch hl c hc)
  | false =>
      obtain ⟨operator, rfl, hoperator⟩ := h.eq_operator hl
      rw [List.mem_singleton.mp hc]
      obtain rfl | rfl | rfl := hoperator <;> decide

theorem trimEnd_append {text rest : List Char} (h : ∀ c ∈ text.getLast?, Text.isBlank c = false) :
    Text.trimEnd (text ++ rest) = text ++ Text.trimEnd rest := by
  have hrev : text.reverse.dropWhile Text.isBlank = text.reverse := by
    rw [← List.head?_reverse] at h
    cases hhead : text.reverse with
    | nil => rfl
    | cons c more => simp [h c (by rw [hhead]; rfl)]
  rw [Text.trimEnd, Text.trimEnd, List.reverse_append, List.dropWhile_append, hrev]
  split
  · next hnil => simp [List.isEmpty_iff.mp hnil]
  · simp

theorem trimEnd_cons_space (cs : List Char) :
    Text.trimEnd cs = [] ∧ Text.trimEnd (' ' :: cs) = [] ∨ Text.trimEnd (' ' :: cs) = ' ' :: Text.trimEnd cs := by
  unfold Text.trimEnd
  rw [List.reverse_cons, List.dropWhile_append]
  split
  · next hnil =>
      left
      rw [List.isEmpty_iff.mp hnil]
      exact ⟨rfl, by decide⟩
  · right
    simp

theorem Spaced.trimStart (harch : arch.Legible) {cs : List Char} {ls : List Terminal} (h : Spaced arch cs ls) :
    Spaced arch (Text.trimStart cs) ls := by
  induction h with
  | nil => exact .nil
  | space h ih => exact ih
  | @terminal text rest l ls hnames h ih =>
      obtain ⟨c, more, rfl⟩ := List.exists_cons_of_ne_nil (hnames.ne_nil harch)
      have hkept : Text.trimStart (c :: more ++ rest) = c :: more ++ rest := by
        simp [Text.trimStart, hnames.isBlank harch c List.mem_cons_self]
      rw [hkept]
      exact .terminal hnames h

theorem Spaced.trimEnd (harch : arch.Legible) {cs : List Char} {ls : List Terminal} (h : Spaced arch cs ls) :
    Spaced arch (Text.trimEnd cs) ls := by
  induction h with
  | nil => exact .nil
  | @space cs ls h ih =>
      obtain ⟨hnil, heq⟩ | heq := trimEnd_cons_space cs
      · rw [heq, ← hnil]
        exact ih
      · rw [heq]
        exact .space ih
  | terminal hnames h ih =>
      rw [trimEnd_append fun c hc => hnames.isBlank harch c (List.mem_of_getLast? hc)]
      exact .terminal hnames ih

theorem Bracketed.trimStart (harch : arch.Legible) {cs : List Char} {ls : List Terminal} (h : Bracketed arch cs ls) :
    Bracketed arch (Text.trimStart cs) ls := by
  induction h with
  | terminals h => exact .terminals (h.trimStart harch)
  | space h ih => exact ih
  | bracket h ih => exact .bracket h
  | @segment letter cs ls hletter h ih =>
      have hkept : Text.trimStart (letter :: 's' :: ':' :: cs) = letter :: 's' :: ':' :: cs := by
        simp only [List.mem_cons, List.not_mem_nil, or_false] at hletter
        rcases hletter with rfl | rfl | rfl | rfl <;> rfl
      rw [hkept]
      exact .segment hletter h

theorem Bracketed.trimEnd (harch : arch.Legible) {cs : List Char} {ls : List Terminal} (h : Bracketed arch cs ls) :
    Bracketed arch (Text.trimEnd cs) ls := by
  induction h with
  | terminals h => exact .terminals (h.trimEnd harch)
  | @space cs ls h ih =>
      obtain ⟨hnil, heq⟩ | heq := trimEnd_cons_space cs
      · rw [heq, ← hnil]
        exact ih
      · rw [heq]
        exact .space ih
  | @bracket cs ls h ih =>
      have hkept : Text.trimEnd (['['] ++ cs) = ['['] ++ Text.trimEnd cs := trimEnd_append (by simp; decide)
      exact hkept ▸ .bracket ih
  | @segment letter cs ls hletter h ih =>
      have hkept : Text.trimEnd ([letter, 's', ':'] ++ cs) = [letter, 's', ':'] ++ Text.trimEnd cs :=
        trimEnd_append (by simp; decide)
      exact hkept ▸ .segment hletter ih

theorem addressBody_closed {cs : List Char} (h : ']' ∉ Text.trimStart cs) (after : List Char) :
    addressBody (cs ++ ']' :: after) = Text.trimStart cs := by
  have hstart : Text.trimStart (cs ++ ']' :: after) = (Text.trimStart cs ++ [']']) ++ after := by
    rw [Text.trimStart, List.dropWhile_append]
    split
    · next hnil => simp [Text.trimStart, List.isEmpty_iff.mp hnil, show Text.isBlank ']' = false from by decide]
    · simp [Text.trimStart]
  have hend : Text.trimEnd ((Text.trimStart cs ++ [']']) ++ after) =
      (Text.trimStart cs ++ [']']) ++ Text.trimEnd after := trimEnd_append (by simp; decide)
  have hinside : ∀ c ∈ Text.trimStart cs, decide (c ≠ ']') = true := by
    intro c hc
    exact decide_eq_true fun heq => h (heq ▸ hc)
  rw [addressBody, Text.trim, hstart, hend, List.append_assoc, List.takeWhile_append_of_pos hinside]
  simp

/-- `pieces` scans an address into the terminals of its tree, wherever it ends and whatever spaces stand in it. -/
theorem Written.scan (harch : arch.Legible) {text : List Char} {tree : Tree .sum} (h : Written arch text tree) :
    Scans arch (pieces arch (addressBody text)) tree.yield := by
  cases h with
  | bare h =>
      have hopened := (h.trimStart harch).trimEnd harch
      have hbody : addressBody text = Text.trim text := by
        refine List.takeWhile_eq_self_iff.mpr fun c hc => decide_eq_true fun heq => ?_
        exact hopened.bracket_not_mem harch (heq ▸ hc)
      rw [hbody]
      exact hopened.scan harch tree.isChain_yield
  | closed h after =>
      have hopened := h.trimStart harch
      rw [addressBody_closed (hopened.bracket_not_mem harch)]
      exact hopened.scan harch tree.isChain_yield

end

end Decode

end TraceSlice
