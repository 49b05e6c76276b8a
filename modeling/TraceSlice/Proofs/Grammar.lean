import TraceSlice.Expr.Eval

/-!
# The grammar of addressing expressions

A syntax tree (`Tree`) stands for one way to read a list of terminals as a sentence of the grammar (specification,
§E7)

* `sum := product (("+" | "-") product)*`
* `product := unary ("*" unary)*`
* `unary := "-" unary | "+" unary | atom`
* `atom := number | register | "(" sum ")"`

and has a value over the integers. The evaluator knows no trees: it folds tokens into levels of words. The two agree
(`evaluateTokens_eq_ok_iff`). From left to right this is what a reading **has read** (`HasRead`): the terminals taken
so far are an unfinished sentence, and every level holds the values of the trees that are complete in it. From right
to left it is one lemma per form of tree (`Tree.reads`).
-/

namespace TraceSlice.Expr

/-- A terminal of the grammar. Its numbers have no bound. -/
inductive Terminal where
  | number (value : Nat)
  | register (name : String)
  | plus
  | minus
  | star
  | openParen
  | closeParen
deriving DecidableEq, Repr

/-- The terminal that a token is: numbers lose their bound. -/
def Token.terminal : Token → Terminal
  | .number value => .number value.toNat
  | .register name => .register name
  | .plus => .plus
  | .minus => .minus
  | .star => .star
  | .openParen => .openParen
  | .closeParen => .closeParen

theorem Token.terminal_injective {a b : Token} (h : a.terminal = b.terminal) : a = b := by
  cases a <;> cases b <;> simp_all [Token.terminal, UInt64.toNat_inj]

/-- The nonterminals of the grammar. -/
inductive Category where
  | sum
  | product
  | unary
  | atom
deriving DecidableEq, Repr

/-- The syntax trees. Sums and products grow to the right, so their operators associate to the left. -/
inductive Tree : Category → Type where
  | number (value : Nat) : Tree .atom
  | register (name : String) : Tree .atom
  | group (inner : Tree .sum) : Tree .atom
  | atom (operand : Tree .atom) : Tree .unary
  | neg (operand : Tree .unary) : Tree .unary
  | pos (operand : Tree .unary) : Tree .unary
  | unary (factor : Tree .unary) : Tree .product
  | mul (factors : Tree .product) (factor : Tree .unary) : Tree .product
  | product (term : Tree .product) : Tree .sum
  | add (terms : Tree .sum) (term : Tree .product) : Tree .sum
  | sub (terms : Tree .sum) (term : Tree .product) : Tree .sum

namespace Tree

/-- The sentence that a tree reads, in the order of its tokens. -/
def yield {category : Category} : Tree category → List Terminal
  | number value => [.number value]
  | register name => [.register name]
  | group inner => .openParen :: inner.yield ++ [.closeParen]
  | atom operand => operand.yield
  | neg operand => .minus :: operand.yield
  | pos operand => .plus :: operand.yield
  | unary factor => factor.yield
  | mul factors factor => factors.yield ++ .star :: factor.yield
  | product term => term.yield
  | add terms term => terms.yield ++ .plus :: term.yield
  | sub terms term => terms.yield ++ .minus :: term.yield

/-- The value of a tree over the integers. -/
def value (registers : String → Int) {category : Category} : Tree category → Int
  | number value => value
  | register name => registers name
  | group inner => inner.value registers
  | atom operand => operand.value registers
  | neg operand => -operand.value registers
  | pos operand => operand.value registers
  | unary factor => factor.value registers
  | mul factors factor => factors.value registers * factor.value registers
  | product term => term.value registers
  | add terms term => terms.value registers + term.value registers
  | sub terms term => terms.value registers - term.value registers

end Tree

/-- Register values as integers; a register that is not known counts as zero. -/
def integers (registers : String → Option Word) (name : String) : Int := ((registers name).getD 0).toNat

/-- The `value` of a tree over the integers, reduced to a word. -/
def Tree.word (registers : String → Option Word) {category : Category} (tree : Tree category) : Word :=
  UInt64.ofInt (tree.value (integers registers))

theorem ofInt_toNat (w : Word) : UInt64.ofInt (w.toNat : Int) = w := by
  have hlt := w.toNat_lt
  rw [UInt64.ofInt, Int.emod_eq_of_lt (by omega) (by omega), Int.toNat_natCast, UInt64.ofNat_toNat]

section

variable {registers : String → Option Word}

namespace Tree

@[simp] theorem word_number (w : Word) : (number w.toNat).word registers = w := ofInt_toNat w

theorem word_register {name : String} {w : Word} (h : registers name = some w) :
    (register name).word registers = w := by
  simp [word, value, integers, h, ofInt_toNat]

@[simp] theorem word_group (inner : Tree .sum) : (group inner).word registers = inner.word registers := rfl

@[simp] theorem word_atom (operand : Tree .atom) : (atom operand).word registers = operand.word registers := rfl

@[simp] theorem word_neg (operand : Tree .unary) :
    (neg operand).word registers = -operand.word registers :=
  UInt64.ofInt_neg _

@[simp] theorem word_pos (operand : Tree .unary) : (pos operand).word registers = operand.word registers := rfl

@[simp] theorem word_unary (factor : Tree .unary) :
    (unary factor).word registers = factor.word registers := rfl

@[simp] theorem word_mul (factors : Tree .product) (factor : Tree .unary) :
    (mul factors factor).word registers = factors.word registers * factor.word registers :=
  UInt64.ofInt_mul _ _

@[simp] theorem word_product (term : Tree .product) :
    (product term).word registers = term.word registers := rfl

@[simp] theorem word_add (terms : Tree .sum) (term : Tree .product) :
    (add terms term).word registers = terms.word registers + term.word registers :=
  UInt64.ofInt_add _ _

@[simp] theorem word_sub (terms : Tree .sum) (term : Tree .product) :
    (sub terms term).word registers = terms.word registers - term.word registers := by
  rw [word, value, Int.sub_eq_add_neg, UInt64.ofInt_add, UInt64.ofInt_neg, UInt64.sub_eq_add_neg]
  rfl

end Tree

/-! ### Levels -/

namespace Level

theorem factor_factor (level : Level) (v w : Word) :
    (level.factor v).factor w = level.factor (v * w) := by
  cases h : level.negated <;>
    simp only [factor, h, Bool.false_eq_true, if_false, if_true, UInt64.mul_assoc, UInt64.neg_mul]

theorem negate_factor (level : Level) (v : Word) : level.negate.factor v = level.factor (-v) := by
  cases h : level.negated <;> simp [factor, negate, h]

@[simp] theorem value_factor_start (v : Word) : (start.factor v).value = v := by
  simp [factor, start, value]

@[simp] theorem value_factor_next (level : Level) (subtracting : Bool) (v : Word) :
    ((level.next subtracting).factor v).value =
      if subtracting then level.value - v else level.value + v := by
  cases subtracting <;> simp [factor, next, value]

end Level

/-! ### What has been read

The terminals taken since the innermost open parenthesis are a sum that may lack its last operand. -/

variable (registers) in
/-- A product begins after these terminals: nothing, or a sum and the operator behind it. -/
inductive Begun : Level → List Terminal → Prop
  | start : Begun .start []
  | plus (terms : Tree .sum) : Begun ⟨terms.word registers, false, 1, false⟩ (terms.yield ++ [.plus])
  | minus (terms : Tree .sum) : Begun ⟨terms.word registers, true, 1, false⟩ (terms.yield ++ [.minus])

variable (registers) in
/-- An operand must follow: a product has `Begun`, and there may be factors and signs before the operand. -/
inductive Awaiting : Level → List Terminal → Prop
  | begun {level : Level} {ls : List Terminal} (h : Begun registers level ls) : Awaiting level ls
  | star {level : Level} {ls : List Terminal} (h : Begun registers level ls) (factors : Tree .product) :
      Awaiting (level.factor (factors.word registers)) (ls ++ factors.yield ++ [.star])
  | plus {level : Level} {ls : List Terminal} (h : Awaiting level ls) : Awaiting level (ls ++ [.plus])
  | minus {level : Level} {ls : List Terminal} (h : Awaiting level ls) : Awaiting level.negate (ls ++ [.minus])

variable (registers) in
/-- The last product is complete. -/
inductive Complete : Level → List Terminal → Prop
  | product {level : Level} {ls : List Terminal} (h : Begun registers level ls) (term : Tree .product) :
      Complete (level.factor (term.word registers)) (ls ++ term.yield)

/-- An operand with its signs completes a product (`Complete`), whatever stands before it. -/
theorem Awaiting.operand {level : Level} {ls : List Terminal} (h : Awaiting registers level ls)
    (operand : Tree .unary) :
    Complete registers (level.factor (operand.word registers)) (ls ++ operand.yield) := by
  induction h generalizing operand with
  | begun h => exact .product h (.unary operand)
  | star h factors =>
      have hc := Complete.product h (.mul factors operand)
      rw [Level.factor_factor]
      simpa [Tree.yield] using hc
  | plus _ ih => simpa [Tree.yield] using ih (.pos operand)
  | minus _ ih =>
      rw [Level.negate_factor]
      simpa [Tree.yield] using ih (.neg operand)

theorem Awaiting.atom {level : Level} {ls : List Terminal} (h : Awaiting registers level ls)
    (operand : Tree .atom) :
    Complete registers (level.factor (operand.word registers)) (ls ++ operand.yield) :=
  h.operand (.atom operand)

/-- A level whose last product is `Complete` is a sum and holds its value. -/
theorem Complete.sum {level : Level} {ls : List Terminal} (h : Complete registers level ls) :
    ∃ terms : Tree .sum, terms.yield = ls ∧ terms.word registers = level.value := by
  cases h with
  | product h term =>
      cases h with
      | start => exact ⟨.product term, rfl, by simp⟩
      | plus terms => exact ⟨.add terms term, by simp [Tree.yield], by simp [Level.factor, Level.value]⟩
      | minus terms => exact ⟨.sub terms term, by simp [Tree.yield], by simp [Level.factor, Level.value]⟩

theorem Complete.star {level : Level} {ls : List Terminal} (h : Complete registers level ls) :
    Awaiting registers level (ls ++ [.star]) := by
  cases h with
  | product h term => exact .star h term

theorem Complete.plus {level : Level} {ls : List Terminal} (h : Complete registers level ls) :
    Awaiting registers (level.next false) (ls ++ [.plus]) := by
  obtain ⟨terms, rfl, hvalue⟩ := h.sum
  rw [Level.next, ← hvalue]
  exact .begun (.plus terms)

theorem Complete.minus {level : Level} {ls : List Terminal} (h : Complete registers level ls) :
    Awaiting registers (level.next true) (ls ++ [.minus]) := by
  obtain ⟨terms, rfl, hvalue⟩ := h.sum
  rw [Level.next, ← hvalue]
  exact .begun (.minus terms)

variable (registers) in
/-- The terminals up to the innermost open parenthesis. -/
inductive Enclosed : List Level → List Terminal → Prop
  | outermost : Enclosed [] []
  | openParen {outer : List Level} {before ls : List Terminal} {level : Level} (h : Enclosed outer before)
      (ha : Awaiting registers level ls) : Enclosed (level :: outer) (before ++ ls ++ [.openParen])

variable (registers) in
/-- A reading and the terminals that lead to it. -/
inductive HasRead : Reading → List Terminal → Prop
  | operand {outer : List Level} {before ls : List Terminal} {level : Level}
      (h : Enclosed registers outer before) (ha : Awaiting registers level ls) :
      HasRead (.operand level outer) (before ++ ls)
  | operator {outer : List Level} {before ls : List Terminal} {level : Level}
      (h : Enclosed registers outer before) (hc : Complete registers level ls) :
      HasRead (.operator level outer) (before ++ ls)

theorem HasRead.start : HasRead registers .start [] := .operand .outermost (.begun .start)

/-- One token leads on, by `Reading.take`. -/
theorem HasRead.take {reading next : Reading} {ls : List Terminal} {offset : Nat} {token : Token}
    (h : HasRead registers reading ls) (hnext : reading.take registers (offset, token) = .ok next) :
    HasRead registers next (ls ++ [token.terminal]) := by
  cases h with
  | operand h ha =>
      rw [List.append_assoc]
      cases token with
      | number value =>
          cases hnext
          simpa [Tree.yield, Token.terminal] using HasRead.operator h (ha.atom (.number value.toNat))
      | register name =>
          simp only [Reading.take] at hnext
          cases hname : registers name with
          | none => simp [hname] at hnext
          | some value =>
              simp only [hname, Except.ok.injEq] at hnext
              subst hnext
              have hc := ha.atom (.register name)
              rw [Tree.word_register hname] at hc
              exact .operator h hc
      | plus =>
          cases hnext
          exact .operand h ha.plus
      | minus =>
          cases hnext
          exact .operand h ha.minus
      | openParen =>
          cases hnext
          simpa [Token.terminal] using HasRead.operand (h.openParen ha) (.begun .start)
      | star => cases hnext
      | closeParen => cases hnext
  | operator h hc =>
      rw [List.append_assoc]
      cases token with
      | plus =>
          cases hnext
          exact .operand h hc.plus
      | minus =>
          cases hnext
          exact .operand h hc.minus
      | star =>
          cases hnext
          exact .operand h hc.star
      | closeParen =>
          cases h with
          | outermost => cases hnext
          | openParen h ha =>
              -- the sum in parentheses is an operand of the level around it
              cases hnext
              obtain ⟨inner, rfl, hvalue⟩ := hc.sum
              have hgroup := HasRead.operator h (ha.atom (.group inner))
              rw [Tree.word_group, hvalue] at hgroup
              simpa [Tree.yield, Token.terminal] using hgroup
      | number value => cases hnext
      | register name => cases hnext
      | openParen => cases hnext

/-- All tokens of a run lead on: `HasRead.take` along `foldlM`. -/
theorem HasRead.run {reading last : Reading} {ls : List Terminal} {ts : List (Nat × Token)}
    (h : HasRead registers reading ls) (hrun : ts.foldlM (Reading.take registers) reading = .ok last) :
    HasRead registers last (ls ++ ts.map fun t => t.2.terminal) := by
  induction ts generalizing reading ls with
  | nil =>
      cases hrun
      simpa using h
  | cons t ts ih =>
      rw [List.foldlM_cons] at hrun
      cases htake : reading.take registers t with
      | error err => simp [htake, bind, Except.bind] at hrun
      | ok next =>
          rw [htake] at hrun
          simpa using ih (h.take htake) hrun

/-- Where an expression may end (`Reading.finish`), its terminals are a sum. -/
theorem HasRead.finish {reading : Reading} {ls : List Terminal} {v : Word}
    (h : HasRead registers reading ls) (hfinish : reading.finish = .ok v) :
    ∃ tree : Tree .sum, tree.yield = ls ∧ tree.word registers = v := by
  cases h with
  | operand => cases hfinish
  | operator h hc =>
      cases h with
      | outermost =>
          cases hfinish
          exact hc.sum
      | openParen => cases hfinish

/-- A register that has been read is known. -/
theorem isSome_of_run {reading last : Reading} {ts : List (Nat × Token)} {name : String}
    (hrun : ts.foldlM (Reading.take registers) reading = .ok last)
    (hname : .register name ∈ ts.map fun t => t.2.terminal) : (registers name).isSome = true := by
  induction ts generalizing reading with
  | nil => simp at hname
  | cons t ts ih =>
      rw [List.foldlM_cons] at hrun
      cases htake : reading.take registers t with
      | error err => simp [htake, bind, Except.bind] at hrun
      | ok next =>
          rw [htake] at hrun
          rcases List.mem_cons.mp hname with heq | hname
          · obtain ⟨offset, token⟩ := t
            cases token with
            -- the reader takes a register only where an operand may stand, and only with a value
            | register other =>
                cases heq
                cases reading with
                | operand level outer =>
                    cases hvalue : registers name with
                    | none => simp [Reading.take, hvalue] at htake
                    | some value => rfl
                | operator level outer => cases htake
            | _ => cases heq
          · exact ih hrun hname

/-! ### How a tree is read -/

variable (registers) in
/-- Tokens that are read as one tree of a category with the given value. A factor multiplies the product being
read; a sum stands at the start of a level. -/
def Reads : Category → Word → List (Nat × Token) → Prop
  | .sum, value, ts => ∀ outer, ∃ level, ts.foldlM (Reading.take registers) (.operand .start outer) =
      .ok (.operator level outer) ∧ level.value = value
  | .product, value, ts => ∀ level outer, level.negated = false →
      ts.foldlM (Reading.take registers) (.operand level outer) = .ok (.operator (level.factor value) outer)
  | _, value, ts => ∀ level outer,
      ts.foldlM (Reading.take registers) (.operand level outer) = .ok (.operator (level.factor value) outer)

theorem run_append {reading middle : Reading} {before after : List (Nat × Token)}
    (h : before.foldlM (Reading.take registers) reading = .ok middle) :
    (before ++ after).foldlM (Reading.take registers) reading =
      after.foldlM (Reading.take registers) middle := by
  rw [List.foldlM_append, h]
  rfl

/-- Tokens that spell an operator and a rest begin with that operator. -/
theorem exists_cons_of_map (token : Token) {ts : List (Nat × Token)} {rest : List Terminal}
    (h : ts.map (fun t => t.2.terminal) = token.terminal :: rest) :
    ∃ offset after, ts = (offset, token) :: after ∧ after.map (fun t => t.2.terminal) = rest := by
  obtain ⟨⟨offset, other⟩, after, rfl, hother, hafter⟩ := List.map_eq_cons_iff.mp h
  obtain rfl : other = token := Token.terminal_injective hother
  exact ⟨offset, after, rfl, hafter⟩

/-- `Reads` a sum and one more product. -/
theorem Reads.next (subtracting : Bool) {terms term : Word} {before after : List (Nat × Token)} {offset : Nat}
    {token : Token} (hterms : Reads registers .sum terms before)
    (hterm : Reads registers .product term after)
    (htake : ∀ level outer, Reading.take registers (.operator level outer) (offset, token) =
      .ok (.operand (level.next subtracting) outer)) :
    Reads registers .sum (if subtracting then terms - term else terms + term)
      (before ++ (offset, token) :: after) := by
  intro outer
  obtain ⟨level, hrun, rfl⟩ := hterms outer
  refine ⟨(level.next subtracting).factor term, ?_, Level.value_factor_next level subtracting term⟩
  rw [run_append hrun, List.foldlM_cons, htake]
  exact hterm (level.next subtracting) outer rfl

/-- The tokens of a sentence are read as its tree (`Reads`), if its registers are known. -/
theorem Tree.reads {category : Category} (tree : Tree category) {ts : List (Nat × Token)}
    (hts : ts.map (fun t => t.2.terminal) = tree.yield)
    (hknown : ∀ name, .register name ∈ tree.yield → (registers name).isSome = true) :
    Reads registers category (tree.word registers) ts := by
  -- induction on the tree: each constructor's yield splits the tokens, and the runs over the parts compose
  induction tree generalizing ts with
  | number value =>
      obtain ⟨⟨offset, token⟩, rfl, htoken⟩ := List.map_eq_singleton_iff.mp hts
      intro level outer
      cases token with
      | number w =>
          cases htoken
          rw [Tree.word_number]
          rfl
      | _ => cases htoken
  | register name =>
      obtain ⟨offset, after, rfl, hafter⟩ := exists_cons_of_map (.register name) hts
      rw [List.map_eq_nil_iff.mp hafter]
      obtain ⟨w, hw⟩ := Option.isSome_iff_exists.mp (hknown name (List.mem_singleton.mpr rfl))
      intro level outer
      rw [Tree.word_register hw, List.foldlM_cons, Reading.take, hw]
      rfl
  | group inner ih =>
      obtain ⟨offset, after, rfl, hafter⟩ := exists_cons_of_map .openParen hts
      obtain ⟨middle, last, rfl, hmiddle, hlast⟩ := List.map_eq_append_iff.mp hafter
      obtain ⟨offset', after', rfl, hafter'⟩ := exists_cons_of_map .closeParen hlast
      rw [List.map_eq_nil_iff.mp hafter']
      intro level outer
      obtain ⟨sum, hrun, hvalue⟩ := ih hmiddle (fun name hname => hknown name (by simp [yield, hname])) (level :: outer)
      rw [List.foldlM_cons]
      show (middle ++ [(offset', Token.closeParen)]).foldlM (Reading.take registers)
        (.operand .start (level :: outer)) = _
      rw [run_append hrun, Tree.word_group, ← hvalue]
      rfl
  | atom operand ih => exact ih hts hknown
  | neg operand ih =>
      obtain ⟨offset, after, rfl, hafter⟩ := exists_cons_of_map .minus hts
      intro level outer
      have hrun := ih hafter (fun name hname => hknown name (List.mem_cons_of_mem _ hname)) level.negate outer
      rw [Tree.word_neg, ← Level.negate_factor]
      exact hrun
  | pos operand ih =>
      obtain ⟨offset, after, rfl, hafter⟩ := exists_cons_of_map .plus hts
      intro level outer
      exact ih hafter (fun name hname => hknown name (List.mem_cons_of_mem _ hname)) level outer
  | unary factor ih =>
      intro level outer _
      exact ih hts hknown level outer
  | mul factors factor ih ih' =>
      obtain ⟨before, rest, rfl, hbefore, hrest⟩ := List.map_eq_append_iff.mp hts
      obtain ⟨offset, after, rfl, hafter⟩ := exists_cons_of_map .star hrest
      intro level outer hlevel
      have hfactors := ih hbefore (fun name hname => hknown name (by simp [yield, hname])) level outer hlevel
      have hfactor := ih' hafter (fun name hname => hknown name (by simp [yield, hname]))
      rw [run_append hfactors, Tree.word_mul, ← Level.factor_factor]
      exact hfactor (level.factor (factors.word registers)) outer
  | product term ih =>
      intro outer
      exact ⟨Level.start.factor (term.word registers), ih hts hknown .start outer rfl,
        Level.value_factor_start _⟩
  | add terms term ih ih' =>
      obtain ⟨before, rest, rfl, hbefore, hrest⟩ := List.map_eq_append_iff.mp hts
      obtain ⟨offset, after, rfl, hafter⟩ := exists_cons_of_map .plus hrest
      have hterms := ih hbefore fun name hname => hknown name (by simp [yield, hname])
      have hterm := ih' hafter fun name hname => hknown name (by simp [yield, hname])
      rw [Tree.word_add]
      exact hterms.next false hterm fun level outer => rfl
  | sub terms term ih ih' =>
      obtain ⟨before, rest, rfl, hbefore, hrest⟩ := List.map_eq_append_iff.mp hts
      obtain ⟨offset, after, rfl, hafter⟩ := exists_cons_of_map .minus hrest
      have hterms := ih hbefore fun name hname => hknown name (by simp [yield, hname])
      have hterm := ih' hafter fun name hname => hknown name (by simp [yield, hname])
      rw [Tree.word_sub]
      exact hterms.next true hterm fun level outer => rfl

/-- **The evaluator reads the grammar.** `evaluateTokens` gives a list of tokens a value exactly if it is a sentence
whose registers are known, and then the value is that of its tree. -/
theorem evaluateTokens_eq_ok_iff {ts : List (Nat × Token)} {v : Word} :
    evaluateTokens registers ts = .ok v ↔
      ∃ tree : Tree .sum, tree.yield = ts.map (fun t => t.2.terminal) ∧
        (∀ name, .register name ∈ tree.yield → (registers name).isSome = true) ∧
        v = tree.word registers := by
  unfold evaluateTokens
  constructor
  · intro h
    split at h
    · cases h
    · next reading hrun =>
        obtain ⟨tree, hyield, hvalue⟩ := (HasRead.start.run hrun).finish h
        rw [List.nil_append] at hyield
        exact ⟨tree, hyield, fun name hname => isSome_of_run hrun (hyield ▸ hname), hvalue.symm⟩
  · rintro ⟨tree, hyield, hknown, rfl⟩
    obtain ⟨level, hrun, hvalue⟩ := tree.reads hyield.symm hknown []
    rw [Reading.start, hrun]
    exact congrArg Except.ok hvalue

end

end TraceSlice.Expr
