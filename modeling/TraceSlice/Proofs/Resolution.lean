import TraceSlice.Proofs.Addressing
import TraceSlice.Recording.Replay

/-!
# Resolving addresses

The pieces of an address are put together again before they are evaluated, pointers by value and other registers after
`$`. Spaces are gone by then, so nothing but the pieces themselves keeps them apart. Again it is enough that operands
are delimited: each is then the longest terminal at its place (`longest_of_delimited`), and the resolved text splits
into the terminals of the address as written, with the pointers **settled**, that is, replaced by their values
(`splits_of_denotes`). Settling keeps the value of a tree (`Tree.value_settle`).
-/

namespace TraceSlice

open TraceSlice.Expr (Terminal Tree isNameChar)

/-- `hexNat` prints a number as a literal. -/
theorem Text.literal_hexNat (n : Nat) : Text.Literal (Text.hexNat n).toList n := by
  rw [Text.hexNat, String.toList_ofList]
  exact .hexadecimal (.inl rfl) (Text.numeral_toDigits (by decide) (by decide) n)

theorem ofInt_natCast (n : Nat) : UInt64.ofInt (n : Int) = UInt64.ofNat n := (Word.eq_ofInt_iff.mpr rfl).symm

namespace Expr

theorem Tree.yield_ne_nil {category : Category} (tree : Tree category) : tree.yield ≠ [] := by
  induction tree with
  | _ => simp_all [yield]

/-- A terminal whose register, if it has a `known` value, is replaced by it. -/
def Terminal.settle (known : String → Option Nat) : Terminal → Terminal
  | .register name =>
    match known name with
    | some value => .number value
    | none => .register name
  | terminal => terminal

theorem Terminal.settle_eq_number {known : String → Option Nat} {l : Terminal} {n : Nat}
    (h : l.settle known = .number n) : l = .number n ∨ ∃ name, known name = some n := by
  cases l with
  | register name =>
      cases hname : known name with
      | none => simp [settle, hname] at h
      | some m =>
          simp only [settle, hname, Terminal.number.injEq] at h
          exact .inr ⟨name, h ▸ hname⟩
  | _ => exact .inl h

theorem Terminal.settle_eq_register {known : String → Option Nat} {l : Terminal} {name : String}
    (h : l.settle known = .register name) : l = .register name := by
  cases l with
  | register other =>
      cases hother : known other with
      | none => simpa [settle, hother] using h
      | some m => simp [settle, hother] at h
  | _ => exact h

/-- A tree whose registers with `known` values are replaced by them. -/
def Tree.settle (known : String → Option Nat) {category : Category} : Tree category → Tree category
  | number value => number value
  | register name =>
    match known name with
    | some value => number value
    | none => register name
  | group inner => group (inner.settle known)
  | atom operand => atom (operand.settle known)
  | neg operand => neg (operand.settle known)
  | pos operand => pos (operand.settle known)
  | unary factor => unary (factor.settle known)
  | mul factors factor => mul (factors.settle known) (factor.settle known)
  | product term => product (term.settle known)
  | add terms term => add (terms.settle known) (term.settle known)
  | sub terms term => sub (terms.settle known) (term.settle known)

theorem Tree.yield_settle (known : String → Option Nat) {category : Category} (tree : Tree category) :
    (tree.settle known).yield = tree.yield.map (Terminal.settle known) := by
  induction tree with
  | register name => cases h : known name <;> simp [settle, yield, Terminal.settle, h]
  | _ => simp_all [settle, yield, Terminal.settle]

/-- Settling registers that have their values keeps the `value` of the tree. -/
theorem Tree.value_settle {known : String → Option Nat} {registers : String → Int}
    (hknown : ∀ name n, known name = some n → registers name = n) {category : Category} (tree : Tree category) :
    (tree.settle known).value registers = tree.value registers := by
  induction tree with
  | register name =>
      cases h : known name with
      | none => simp [settle, h]
      | some n => simp [settle, value, h, hknown name n h]
  | _ => simp_all [settle, value]

/-- An expression that splits (`Splits`) into a sentence whose numbers fit and whose registers are known has its
value. -/
theorem evaluate_of_splits {registers : String → Option Word} {expression : String} {tree : Tree .sum}
    (hsplits : Splits expression.toList tree.yield) (hfits : ∀ n, .number n ∈ tree.yield → n < UInt64.size)
    (hknown : ∀ name, .register name ∈ tree.yield → (registers name).isSome = true) :
    evaluate registers expression = .ok (tree.word registers) := by
  obtain ⟨ts, htokens, hyield⟩ := exists_tokens_of_splits hsplits hfits 0
  have hvalue := evaluateTokens_eq_ok_iff.mpr ⟨tree, hyield.symm, hknown, rfl⟩
  rw [evaluate, tokenize, htokens]
  cases ts with
  | nil => cases hvalue
  | cons t ts => exact hvalue

/-- A `Delimited` terminal is the longest at its place, and so is any operator. -/
theorem longest_of_delimited {text rest : List Char} {terminal : Terminal} (h : Spells text terminal)
    (hrest : terminal.isOperand = true → Text.Delimited rest) : Longest text rest := by
  intro longer other hpre hother
  obtain ⟨c, text, rfl⟩ := List.exists_cons_of_ne_nil h.ne_nil
  obtain ⟨c', longer, rfl⟩ := List.exists_cons_of_ne_nil hother.ne_nil
  obtain ⟨rfl, hpre'⟩ := List.cons_prefix_cons.mp hpre
  rw [List.length_cons, List.length_cons]
  obtain ⟨rfl, -⟩ | ⟨rfl, hname, -⟩ | ⟨hdigit, n, -, hliteral⟩ := hother.head
  · exact Nat.succ_le_succ (Nat.zero_le _)
  · cases h with
    | register _ => exact Nat.succ_le_succ ((hrest rfl).length_le hpre' hname)
    | number h => cases isDigit_of_literal h
  · have hchars : ∀ x ∈ longer, isNameChar x = true := fun x hx => hliteral.isNameChar x (List.mem_cons_of_mem _ hx)
    cases h with
    | number _ => exact Nat.succ_le_succ ((hrest rfl).length_le hpre' hchars)
    | _ => cases hdigit

end Expr

namespace Decode

section

variable {arch : Description}

/-! ### The resolved text -/

/-- The values of pointers, by name. -/
def pointerValue? (arch : Description) (view : View) (name : String) : Option Nat :=
  (arch.register? name).bind fun r =>
    if arch.isPointerGroup r.group then some (addressValue arch view r).toNat else none

theorem isOperand_settle (known : String → Option Nat) (l : Terminal) : (l.settle known).isOperand = l.isOperand := by
  cases l with
  | register name => cases h : known name <;> simp [Terminal.settle, Terminal.isOperand, h]
  | _ => rfl

/-- A piece is resolved to a text that spells the terminal that it `Denotes`, a pointer settled. -/
theorem Denotes.spells (harch : arch.Legible) {piece : Piece} {l : Terminal} (h : Denotes arch piece l) (view : View) :
    Expr.Spells (piece.resolve arch view).toList (l.settle (pointerValue? arch view)) := by
  cases h with
  | plus => simpa [Piece.resolve, Terminal.settle] using Expr.Spells.plus
  | minus => simpa [Piece.resolve, Terminal.settle] using Expr.Spells.minus
  | star => simpa [Piece.resolve, Terminal.settle] using Expr.Spells.star
  | number h hfits => simpa [Piece.resolve, Terminal.settle] using Expr.Spells.number h
  | @register r hr =>
      simp only [Piece.resolve, Terminal.settle, pointerValue?, harch.unique r hr, Option.bind_some]
      cases arch.isPointerGroup r.group with
      | true => exact .number (Text.literal_hexNat _)
      | false =>
          have hspells := Expr.Spells.register (harch.register r hr).isNameChar
          rw [String.ofList_toList] at hspells
          simpa [registerExpression] using hspells

theorem delimited_of_denotes {ps : List Piece} {ls : List Terminal} (h : List.Forall₂ (Denotes arch) ps ls)
    (hls : ∀ l ∈ ls.head?, l.isOperand = false) (view : View) :
    Text.Delimited (ps.flatMap fun piece => (piece.resolve arch view).toList) := by
  cases h with
  | nil => nofun
  | cons hstands h =>
      have hl := hls _ rfl
      intro c hc
      cases hstands with
      | number => cases hl
      | register => cases hl
      | _ =>
          simp [Piece.resolve] at hc
          subst hc
          rfl

/-- The resolved text splits into the terminals that the pieces `Denotes`, pointers settled. -/
theorem splits_of_denotes (harch : arch.Legible) {ps : List Piece} {ls : List Terminal}
    (h : List.Forall₂ (Denotes arch) ps ls) (hchain : ls.IsChain Terminal.Follows) (view : View) :
    Expr.Splits (ps.flatMap fun piece => (piece.resolve arch view).toList)
      (ls.map (Terminal.settle (pointerValue? arch view))) := by
  induction h with
  | nil => exact .nil
  | @cons piece l ps ls hstands h ih =>
      obtain ⟨hfollows, hchain⟩ := List.isChain_cons.mp hchain
      have hspells := hstands.spells harch view
      refine .terminal hspells (Expr.longest_of_delimited hspells fun hl => ?_) (ih hchain)
      rw [isOperand_settle] at hl
      exact delimited_of_denotes h (fun next hnext => (hfollows next hnext hl).1) view

theorem number_lt_of_denotes {ps : List Piece} {ls : List Terminal} (h : List.Forall₂ (Denotes arch) ps ls) {n : Nat}
    (hn : .number n ∈ ls) : n < UInt64.size := by
  induction h with
  | nil => cases hn
  | cons hstands h ih =>
      obtain rfl | hn := List.mem_cons.mp hn
      · cases hstands with
        | number _ hfits => exact hfits
      · exact ih hn

theorem register_mem_of_denotes {ps : List Piece} {ls : List Terminal} (h : List.Forall₂ (Denotes arch) ps ls)
    {name : String} (hname : .register name ∈ ls) : ∃ r ∈ arch.allRegisters, r.name = name := by
  induction h with
  | nil => cases hname
  | cons hstands h ih =>
      obtain rfl | hname := List.mem_cons.mp hname
      · cases hstands with
        | register hr => exact ⟨_, hr, rfl⟩
      · exact ih hname

end

end Decode

/-! ### The value of an address -/

/-- The register that a terminal names. -/
def Expr.Terminal.register? (arch : Description) : Terminal → Option Register
  | .register name => arch.register? name
  | _ => none

/-- The registers of a tree, as often as they occur and in order. -/
def Expr.Tree.registers (arch : Description) (tree : Tree .sum) : List Register :=
  tree.yield.filterMap (Terminal.register? arch)

/-- Does a tree mention the instruction pointer? -/
def Expr.Tree.isRelative (arch : Description) (tree : Tree .sum) : Bool :=
  (tree.registers arch).any fun r => r.group.contains arch.instructionPointer

theorem Expr.Tree.mem_allRegisters {arch : Description} {tree : Tree .sum} {r : Register}
    (hr : r ∈ tree.registers arch) : r ∈ arch.allRegisters := by
  obtain ⟨l, -, hl⟩ := List.mem_filterMap.mp hr
  cases l with
  | register name => exact (Description.register?_mem hl).1
  | _ => cases hl

theorem Decode.registers_of_denotes {arch : Description} (harch : arch.Legible) {ps : List Decode.Piece}
    {ls : List Terminal} (h : List.Forall₂ (Decode.Denotes arch) ps ls) :
    ps.filterMap Decode.Piece.register? = ls.filterMap (Terminal.register? arch) := by
  induction h with
  | nil => rfl
  | cons hstands h ih =>
      cases hstands with
      | @register r hr => simp [Decode.Piece.register?, Expr.Terminal.register?, harch.unique r hr, ih]
      | _ => exact ih

namespace Replay

/-- The value of a register at the current step. -/
def valueOf (replay : Replay) (r : Register) : Word := (replay.registerValue? r.name).getD 0

variable {replay : Replay}

theorem isSome_registerValue? {r : Register} (hr : r ∈ replay.arch.description.allRegisters) :
    (replay.registerValue? r.name).isSome = true := by
  unfold registerValue?
  split
  · rfl
  · have hgroup : replay.arch.description.group? r.name = some r.group := by
      rw [Description.group?, replay.arch.legible.unique r hr, Option.map_some]
    rw [hgroup]
    dsimp only
    split <;> rfl

/-- Whatever the architecture, a name stands for the value of the register with that name (`registerValue?`), or for
zero. -/
theorem view_evaluate_name {name : String} (h : name.toList.all isNameChar = true) :
    (Backend.view replay).evaluate (Decode.registerExpression name) = (replay.registerValue? name).getD 0 := by
  show (Replay.evaluate replay ("$" ++ name)).toOption.getD 0 = _
  rw [Replay.evaluate, Expr.evaluate_register _ h]
  cases replay.registerValue? name <;> rfl

theorem addressValue_name {arch : Description} {r : Register} (h : r.name.toList.all isNameChar = true) :
    Decode.addressValue arch (Backend.view replay) r = replay.valueOf r := by
  unfold Decode.addressValue
  split <;> exact view_evaluate_name h

theorem view_evaluate {r : Register} (hr : r ∈ replay.arch.description.allRegisters) :
    (Backend.view replay).evaluate (Decode.registerExpression r.name) = replay.valueOf r :=
  view_evaluate_name (replay.arch.legible.register r hr).2

theorem addressValue_view {r : Register} (hr : r ∈ replay.arch.description.allRegisters) :
    Decode.addressValue replay.arch.description (Backend.view replay) r = replay.valueOf r :=
  addressValue_name (replay.arch.legible.register r hr).2

theorem integers_of_pointerValue? {name : String} {n : Nat}
    (h : Decode.pointerValue? replay.arch.description (Backend.view replay) name = some n) :
    Expr.integers replay.registerValue? name = n := by
  obtain ⟨r, hr, hvalue⟩ := Option.bind_eq_some_iff.mp h
  obtain ⟨hmem, rfl⟩ := Description.register?_mem hr
  split at hvalue
  · rw [addressValue_view hmem] at hvalue
    rw [← Option.some.inj hvalue]
    rfl
  · cases hvalue

variable (replay) in
/-- A tree whose pointers are replaced by their values (`pointerValue?`). -/
def settled (tree : Tree .sum) : Tree .sum :=
  tree.settle (Decode.pointerValue? replay.arch.description (Backend.view replay))

variable {scan : Decode.Pieces} {tree : Tree .sum}

theorem number_lt_of_settled (h : Decode.Scans replay.arch.description scan tree.yield) :
    ∀ n, .number n ∈ (replay.settled tree).yield → n < UInt64.size := by
  intro n hn
  rw [settled, Tree.yield_settle] at hn
  obtain ⟨l, hl, hsettle⟩ := List.mem_map.mp hn
  obtain rfl | ⟨name, hname⟩ := Terminal.settle_eq_number hsettle
  · exact Decode.number_lt_of_denotes h.2 hl
  · have hlt := ((replay.registerValue? name).getD 0).toNat_lt
    have heq := integers_of_pointerValue? hname
    simp only [Expr.integers, Int.natCast_inj] at heq
    exact heq ▸ hlt

theorem isSome_of_settled (h : Decode.Scans replay.arch.description scan tree.yield) :
    ∀ name, .register name ∈ (replay.settled tree).yield → (replay.registerValue? name).isSome = true := by
  intro name hname
  rw [settled, Tree.yield_settle] at hname
  obtain ⟨l, hl, hsettle⟩ := List.mem_map.mp hname
  rw [Terminal.settle_eq_register hsettle] at hl
  obtain ⟨r, hr, rfl⟩ := Decode.register_mem_of_denotes h.2 hl
  exact isSome_registerValue? hr

/-- Evaluating the resolved text gives the value of the tree as written, reduced to a word (`Tree.word`). -/
theorem evaluateAddress_resolve (h : Decode.Scans replay.arch.description scan tree.yield) :
    (Backend.view replay).evaluateAddress (scan.resolve replay.arch.description (Backend.view replay)) =
      tree.word replay.registerValue? := by
  have hsplits : Expr.Splits (scan.resolve replay.arch.description (Backend.view replay)).toList
      (replay.settled tree).yield := by
    rw [settled, Tree.yield_settle, Decode.Pieces.resolve, String.toList_join, List.flatMap_map]
    exact Decode.splits_of_denotes replay.arch.legible h.2 tree.isChain_yield (Backend.view replay)
  show (Replay.evaluate replay _).toOption.getD 0 = _
  rw [Replay.evaluate, Expr.evaluate_of_splits hsplits (number_lt_of_settled h) (isSome_of_settled h), Tree.word,
    settled, Tree.value_settle fun name n => integers_of_pointerValue?]
  rfl

variable (replay) in
/-- The effective address of a tree over the integers. An address relative to the instruction pointer is the one that
the disassembler gives, if it gives one. -/
def effectiveAddress (target : Option Word) (tree : Tree .sum) : Int :=
  match target with
  | some address =>
    if tree.isRelative replay.arch.description then address.toNat
    else tree.value (Expr.integers replay.registerValue?)
  | none => tree.value (Expr.integers replay.registerValue?)

theorem registers_of_scans (h : Decode.Scans replay.arch.description scan tree.yield) :
    scan.registers = tree.registers replay.arch.description :=
  Decode.registers_of_denotes replay.arch.legible h.2

theorem baseAddress_eq (h : Decode.Scans replay.arch.description scan tree.yield) (target : Option Word) :
    Decode.baseAddress replay.arch.description (Backend.view replay) target scan =
      UInt64.ofInt (replay.effectiveAddress target tree) := by
  have hrelative : scan.isRelative replay.arch.description = tree.isRelative replay.arch.description := by
    rw [Decode.Pieces.isRelative, Expr.Tree.isRelative, registers_of_scans h]
  unfold Decode.baseAddress effectiveAddress
  rw [hrelative, evaluateAddress_resolve h]
  cases target with
  | none => rfl
  | some address =>
      dsimp only
      split
      · exact (Expr.ofInt_toNat address).symm
      · rfl

theorem addressUses_eq (h : Decode.Scans replay.arch.description scan tree.yield) :
    Decode.addressUses replay.arch.description (Backend.view replay) scan =
      (tree.registers replay.arch.description).map fun r => ⟨.source, .addressRegister r (replay.valueOf r)⟩ := by
  rw [Decode.addressUses, registers_of_scans h]
  exact List.map_congr_left fun r hr => by rw [addressValue_view (Tree.mem_allRegisters hr)]

theorem understood_of_scans (h : Decode.Scans replay.arch.description scan tree.yield) :
    (scan.complete && !scan.pieces.isEmpty) = true := by
  have hne : scan.pieces ≠ [] := by
    intro hnil
    have hforall := h.2
    rw [hnil, List.forall₂_nil_left_iff] at hforall
    exact tree.yield_ne_nil hforall
  simp [h.1, hne]

/-- The uses of a memory operand whose text is an address (`Written`): its registers, and its bytes from the effective
address on. -/
theorem memoryUses_eq {text : List Char} (h : Decode.Written replay.arch.description text tree) (target : Option Word)
    (width : Nat) (direction : Direction) :
    Decode.memoryUses replay.arch.description (Backend.view replay) target text width direction =
      ((tree.registers replay.arch.description).map fun r => ⟨.source, .addressRegister r (replay.valueOf r)⟩) ++
        Decode.byteUses (Backend.view replay) (UInt64.ofInt (replay.effectiveAddress target tree)) width direction := by
  have hscan := h.scan replay.arch.legible
  rw [Decode.memoryUses, if_pos (understood_of_scans hscan), addressUses_eq hscan, baseAddress_eq hscan]

/-- **An address resolves to its effective address.** A memory operand whose text is an address (`Written`), and which
is not relative to the instruction pointer or has no target, reads each register that the address mentions, in order
and with its value, and then touches as many bytes as it is wide, from the value of the address on. That is the value
over the integers, reduced modulo 2^64. -/
theorem memoryUses_at_effectiveAddress (replay : Replay) (target : Option Word) (text : List Char) (tree : Tree .sum)
    (width : Nat) (direction : Direction) (htext : Decode.Written replay.arch.description text tree)
    (htarget : target = none ∨ tree.isRelative replay.arch.description = false) :
    (∀ r ∈ tree.registers replay.arch.description, (replay.registerValue? r.name).isSome = true) ∧
      Decode.memoryUses replay.arch.description (Backend.view replay) target text width direction =
        ((tree.registers replay.arch.description).map fun r => ⟨.source, .addressRegister r (replay.valueOf r)⟩) ++
          (List.range width).map fun k : Nat =>
            let address := UInt64.ofInt (tree.value (Expr.integers replay.registerValue?) + (k : Int))
            ⟨direction, .ofMemory address ((Backend.view replay).byte address)⟩ := by
  have heffective : replay.effectiveAddress target tree = tree.value (Expr.integers replay.registerValue?) := by
    unfold effectiveAddress
    obtain rfl | hrelative := htarget
    · rfl
    · cases target with
      | none => rfl
      | some address => simp [hrelative]
  refine ⟨fun r hr => isSome_registerValue? (Tree.mem_allRegisters hr), ?_⟩
  rw [memoryUses_eq htext, heffective]
  congr 1
  refine List.map_congr_left fun k _ => ?_
  rw [UInt64.ofInt_add, ofInt_natCast]

/-- A replay on a step whose index register holds minus one. -/
def indexed : Replay where
  process := { archName := "i386:x86-64", memory := [(0x7ffdffff, 0x5a)] }
  arch := .x64
  past := []
  current := { registers := .ofList [("rbp", 0x7ffe0010), ("r9", 0xffffffffffffffff)] }
  future := []

/-- The address `rbp + r9*4 - 0xd + riz`. -/
def indexedAddress : Tree .sum :=
  .add (.sub (.add (.product (.unary (.atom (.register "rbp"))))
    (.mul (.unary (.atom (.register "r9"))) (.atom (.number 4)))) (.unary (.atom (.number 0xd))))
    (.unary (.atom (.number 0)))

/-- The index is negative, so the sum wraps. -/
theorem memoryUses_at_effectiveAddress_of_indexed :
    Decode.Written indexed.arch.description "ds:[ rbp+r9*4 -0xd + riz]".toList indexedAddress ∧
      Decode.memoryUses indexed.arch.description (Backend.view indexed) (some 0x1000)
          "ds:[ rbp+r9*4 -0xd + riz]".toList 2 .destination =
        [⟨.source, .addressRegister ⟨"rbp", ⟨"rbp", ["ebp", "bp", "bpl"]⟩⟩ 0x7ffe0010⟩,
          ⟨.source, .addressRegister ⟨"r9", ⟨"r9", ["r9d", "r9w", "r9b", "r9l"]⟩⟩ 0xffffffffffffffff⟩,
          ⟨.destination, .ofMemory 0x7ffdffff 0x5a⟩, ⟨.destination, .ofMemory 0x7ffe0000 0⟩] := by
  have hrbp : ⟨"rbp", ⟨"rbp", ["ebp", "bp", "bpl"]⟩⟩ ∈ indexed.arch.description.allRegisters := by decide +kernel
  have hr9 : ⟨"r9", ⟨"r9", ["r9d", "r9w", "r9b", "r9l"]⟩⟩ ∈ indexed.arch.description.allRegisters := by decide +kernel
  have hfour : Text.Literal ['4'] 4 := .decimal ⟨by simp, [4], .cons (by decide) .nil, by decide⟩
  have hdisplacement : Text.Literal ['0', 'x', 'd'] 0xd :=
    .hexadecimal (.inl rfl) ⟨by simp, [0xd], .cons (by decide) .nil, by decide⟩
  have hbody : Decode.Spaced indexed.arch.description
      (' ' :: ("rbp".toList ++ (['+'] ++ ("r9".toList ++ (['*'] ++ (['4'] ++ (' ' :: (['-'] ++
        (['0', 'x', 'd'] ++ (' ' :: (['+'] ++ (' ' :: ("riz".toList ++ []))))))))))))) indexedAddress.yield :=
    .space (.terminal (.register hrbp) (.terminal .plus (.terminal (.register hr9) (.terminal .star
      (.terminal (.number hfour (by decide)) (.space (.terminal .minus (.terminal (.number hdisplacement (by decide))
        (.space (.terminal .plus (.space (.terminal (.zero (by decide)) .nil))))))))))))
  have hwritten : Decode.Written indexed.arch.description "ds:[ rbp+r9*4 -0xd + riz]".toList indexedAddress := by
    have hletter : 'd' ∈ ['c', 'd', 'e', 's'] := by decide
    exact Decode.Written.closed (.segment hletter (.bracket (.terminals hbody))) []
  refine ⟨hwritten, ?_⟩
  rw [(memoryUses_at_effectiveAddress indexed _ _ _ 2 .destination hwritten (.inr (by decide +kernel))).2]
  decide +kernel

end Replay

end TraceSlice
