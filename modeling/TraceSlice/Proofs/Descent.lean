import TraceSlice.Proofs.Grammar

/-!
# Recursive descent

The functions of this module follow the grammar of addressing expressions rule by rule: `sum`, `product`, `unary` and
`atom` each read one phrase from the front of a list of tokens and hand on the rest (`Parsed`), and the loops behind the
first operand of a sum or a product are `sumRest` and `productRest`. `evaluateByDescent` reads a whole expression this
way. `evaluate` takes one token at a time instead and keeps what is open in its `Reading`. The two agree on every
expression, in the value and in the error that is reported (`evaluate_eq_descent`): wherever the evaluator stands, it
goes on as the rule does that is open there (`Agrees`), which is shown for one rule after the other, by induction on the
number of tokens left.
-/

namespace TraceSlice.Expr

/-- The value of a phrase, and the tokens behind it, of which there are fewer than the bound. -/
structure Parsed (bound : Nat) where
  /-- The value of the phrase. -/
  value : Word
  /-- The tokens behind the phrase. -/
  rest : List (Nat × Token)
  /-- They are fewer than the bound. -/
  within : rest.length < bound

/-- The same phrase under a greater `bound`. -/
def Parsed.widen {bound other : Nat} (parsed : Parsed bound) (h : bound ≤ other) : Parsed other :=
  ⟨parsed.value, parsed.rest, Nat.lt_of_lt_of_le parsed.within h⟩

/-- The error that `ts` starts with the wrong token, or is empty. -/
def unexpected : List (Nat × Token) → EvalError
  | [] => .unexpectedEnd
  | (offset, token) :: _ => .unexpectedToken token.render offset

/-- Takes the closing parenthesis that must stand behind the phrase. -/
def Parsed.close {bound : Nat} : Parsed bound → Except EvalError (Parsed bound)
  | ⟨value, (_, .closeParen) :: rest, h⟩ => .ok ⟨value, rest, Nat.lt_of_succ_lt h⟩
  | ⟨_, rest, _⟩ => .error (unexpected rest)

/-- The value of the phrase, which must be all there is: `Parsed.rest` is empty. -/
def Parsed.finish {bound : Nat} : Parsed bound → Except EvalError Word
  | ⟨value, [], _⟩ => .ok value
  | ⟨_, rest, _⟩ => .error (unexpected rest)

mutual

/-- `sum := product (("+" | "-") product)*`. -/
def sum (registers : String → Option Word) (ts : List (Nat × Token)) : Except EvalError (Parsed ts.length) := do
  let term ← product registers ts
  let total ← sumRest registers term.value term.rest
  return total.widen term.within
termination_by (ts.length, 3)
decreasing_by
  · exact Prod.Lex.right _ (by decide)
  · exact Prod.Lex.left _ _ term.within

/-- The products after the first, added to `value` or subtracted from it. -/
def sumRest (registers : String → Option Word) (value : Word) (ts : List (Nat × Token)) :
    Except EvalError (Parsed (ts.length + 1)) :=
  match ts with
  | (_, .plus) :: ts => do
    let term ← product registers ts
    let total ← sumRest registers (value + term.value) term.rest
    return total.widen (Nat.le_succ_of_le (Nat.le_succ_of_le term.within))
  | (_, .minus) :: ts => do
    let term ← product registers ts
    let total ← sumRest registers (value - term.value) term.rest
    return total.widen (Nat.le_succ_of_le (Nat.le_succ_of_le term.within))
  | ts => .ok ⟨value, ts, Nat.lt_succ_self _⟩
termination_by (ts.length, 0)
decreasing_by
  all_goals exact Prod.Lex.left _ _ (by first | exact Nat.lt_succ_self _ | exact Nat.lt_succ_of_lt term.within)

/-- `product := unary ("*" unary)*`. -/
def product (registers : String → Option Word) (ts : List (Nat × Token)) : Except EvalError (Parsed ts.length) := do
  let factor ← unary registers ts
  let term ← productRest registers factor.value factor.rest
  return term.widen factor.within
termination_by (ts.length, 2)
decreasing_by
  · exact Prod.Lex.right _ (by decide)
  · exact Prod.Lex.left _ _ factor.within

/-- The factors after the first, multiplied with `value`. -/
def productRest (registers : String → Option Word) (value : Word) (ts : List (Nat × Token)) :
    Except EvalError (Parsed (ts.length + 1)) :=
  match ts with
  | (_, .star) :: ts => do
    let factor ← unary registers ts
    let term ← productRest registers (value * factor.value) factor.rest
    return term.widen (Nat.le_succ_of_le (Nat.le_succ_of_le factor.within))
  | ts => .ok ⟨value, ts, Nat.lt_succ_self _⟩
termination_by (ts.length, 0)
decreasing_by
  all_goals exact Prod.Lex.left _ _ (by first | exact Nat.lt_succ_self _ | exact Nat.lt_succ_of_lt factor.within)

/-- `unary := "-" unary | "+" unary | atom`. -/
def unary (registers : String → Option Word) (ts : List (Nat × Token)) : Except EvalError (Parsed ts.length) :=
  match ts with
  | (_, .minus) :: ts => do
    let operand ← unary registers ts
    return ⟨-operand.value, operand.rest, Nat.lt_succ_of_lt operand.within⟩
  | (_, .plus) :: ts => do
    let operand ← unary registers ts
    return operand.widen (Nat.le_succ _)
  | ts => atom registers ts
termination_by (ts.length, 1)
decreasing_by
  · exact Prod.Lex.left _ _ (Nat.lt_succ_self _)
  · exact Prod.Lex.left _ _ (Nat.lt_succ_self _)
  · exact Prod.Lex.right _ (by decide)

/-- `atom := number | register | "(" sum ")"`. -/
def atom (registers : String → Option Word) (ts : List (Nat × Token)) : Except EvalError (Parsed ts.length) :=
  match ts with
  | (_, .number value) :: ts => .ok ⟨value, ts, Nat.lt_succ_self _⟩
  | (_, .register name) :: ts =>
    match registers name with
    | some value => .ok ⟨value, ts, Nat.lt_succ_self _⟩
    | none => .error (.unknownRegister name)
  | (_, .openParen) :: ts => do
    let inner ← sum registers ts
    let group ← inner.close
    return group.widen (Nat.le_succ _)
  | ts => .error (unexpected ts)
termination_by (ts.length, 0)
decreasing_by exact Prod.Lex.left _ _ (Nat.lt_succ_self _)

end

/-- The value of a list of tokens that is a `sum` as a whole. -/
def descend (registers : String → Option Word) (ts : List (Nat × Token)) : Except EvalError Word := do
  let whole ← sum registers ts
  whole.finish

/-- The value of an expression, read by recursive descent: `tokenize`, then `descend`. -/
def evaluateByDescent (registers : String → Option Word) (expression : String) : Except EvalError Word := do
  let ts ← tokenize expression
  if ts.isEmpty then throw .empty else descend registers ts

/-! ### The evaluator behind a phrase -/

section

variable {registers : String → Option Word}

variable (registers) in
/-- What `Reading.take` makes of tokens, from a reading on. -/
def resume (reading : Reading) (ts : List (Nat × Token)) : Except EvalError Word :=
  ts.foldlM (Reading.take registers) reading >>= Reading.finish

theorem resume_cons (reading : Reading) (t : Nat × Token) (ts : List (Nat × Token)) :
    resume registers reading (t :: ts) = reading.take registers t >>= fun next => resume registers next ts := by
  rw [resume, List.foldlM_cons, bind_assoc]
  rfl

theorem evaluateTokens_eq_resume (ts : List (Nat × Token)) :
    evaluateTokens registers ts = resume registers .start ts := by
  rw [evaluateTokens, resume]
  cases ts.foldlM (Reading.take registers) .start <;> rfl

variable (registers) in
/-- What the evaluator makes of the tokens behind a `sum`: the end, or the closing parenthesis of the level around it.
-/
def resumeAround (value : Word) : List Level → List (Nat × Token) → Except EvalError Word
  | [], [] => .ok value
  | around :: outer, (_, .closeParen) :: rest => resume registers (.operator (around.factor value) outer) rest
  | _, rest => .error (unexpected rest)

variable (registers) in
/-- What the evaluator makes of the tokens behind a `product`: more products, and then what stands behind the sum. -/
def resumeSum (level : Level) (outer : List Level) (ts : List (Nat × Token)) : Except EvalError Word := do
  let total ← sumRest registers level.value ts
  resumeAround registers total.value outer total.rest

variable (registers) in
/-- The evaluator reads the tokens as recursive descent does: where an operand must follow, a factor with its signs, and
behind a factor, the rest of the product. -/
structure Agrees (ts : List (Nat × Token)) : Prop where
  factor : ∀ (level : Level) outer, resume registers (.operand level outer) ts =
    unary registers ts >>= fun factor => resume registers (.operator (level.factor factor.value) outer) factor.rest
  rest : ∀ (level : Level) value outer, resume registers (.operator (level.factor value) outer) ts =
    productRest registers value ts >>= fun term => resumeSum registers (level.factor term.value) outer term.rest

/-! ### One rule of the grammar after the other -/

variable {ts : List (Nat × Token)}

/-- Whatever goes on behind a phrase looks at its value and its rest only, so the bound does not matter. -/
theorem bind_widen {bound other : Nat} (h : bound ≤ other) (phrase : Except EvalError (Parsed bound))
    (next : Word → List (Nat × Token) → Except EvalError Word) :
    ((phrase >>= fun parsed => pure (parsed.widen h)) >>= fun parsed => next parsed.value parsed.rest) =
      phrase >>= fun parsed => next parsed.value parsed.rest := by
  cases phrase <;> rfl

theorem resume_product (h : Agrees registers ts) (hshorter : ∀ rest, rest.length < ts.length → Agrees registers rest)
    (level : Level) (outer : List Level) :
    resume registers (.operand level outer) ts =
      product registers ts >>= fun term => resumeSum registers (level.factor term.value) outer term.rest := by
  rw [h.factor, product]
  cases unary registers ts with
  | error err => rfl
  | ok factor =>
      refine ((hshorter factor.rest factor.within).rest level factor.value outer).trans ?_
      exact (bind_widen _ _ fun value rest => resumeSum registers (level.factor value) outer rest).symm

theorem resume_sum (h : Agrees registers ts) (hshorter : ∀ rest, rest.length < ts.length → Agrees registers rest)
    (outer : List Level) :
    resume registers (.operand .start outer) ts =
      sum registers ts >>= fun total => resumeAround registers total.value outer total.rest := by
  rw [resume_product h hshorter, sum]
  cases product registers ts with
  | error err => rfl
  | ok term =>
      refine Eq.trans ?_ (bind_widen _ _ fun value rest => resumeAround registers value outer rest).symm
      show resumeSum registers (Level.start.factor term.value) outer term.rest = _
      rw [resumeSum, Level.value_factor_start]

/-- Behind a group in parentheses (`Parsed.close`), the evaluator goes on with the level around it. -/
theorem resumeAround_close {bound : Nat} (inner : Parsed bound) (level : Level) (outer : List Level) :
    resumeAround registers inner.value (level :: outer) inner.rest =
      inner.close >>= fun group => resume registers (.operator (level.factor group.value) outer) group.rest := by
  obtain ⟨value, rest, h⟩ := inner
  cases rest with
  | nil => rfl
  | cons t rest =>
      obtain ⟨offset, token⟩ := t
      cases token <;> rfl

/-- Where an operand must follow, the evaluator reads a `unary`, if what is in parentheses is read alike. -/
theorem resume_factor (hshorter : ∀ rest, rest.length < ts.length → Agrees registers rest) (level : Level)
    (outer : List Level) :
    resume registers (.operand level outer) ts =
      unary registers ts >>= fun factor =>
        resume registers (.operator (level.factor factor.value) outer) factor.rest := by
  cases ts with
  | nil =>
      rw [unary, atom]
      · rfl
      all_goals simp
  | cons t ts =>
      have hrest : Agrees registers ts := hshorter ts (Nat.lt_succ_self _)
      obtain ⟨offset, token⟩ := t
      rw [resume_cons]
      cases token with
      | minus =>
          -- the sign is taken by the level, or by the value of the operand behind it
          rw [unary]
          refine (hrest.factor level.negate outer).trans ?_
          cases unary registers ts with
          | error err => rfl
          | ok operand =>
              show resume registers (.operator (level.negate.factor operand.value) outer) operand.rest = _
              rw [Level.negate_factor]
              rfl
      | plus =>
          rw [unary]
          refine (hrest.factor level outer).trans ?_
          cases unary registers ts <;> rfl
      | openParen =>
          rw [unary, atom]
          · refine (resume_sum hrest (fun rest h => hshorter rest (Nat.lt_succ_of_lt h)) (level :: outer)).trans ?_
            cases sum registers ts with
            | error err => rfl
            | ok inner =>
                refine (resumeAround_close inner level outer).trans ?_
                exact (bind_widen _ _ fun value rest =>
                  resume registers (.operator (level.factor value) outer) rest).symm
          all_goals simp
      | register name =>
          rw [unary, atom]
          · rw [Reading.take]
            cases registers name <;> rfl
          all_goals simp
      | _ =>
          -- a number is an atom, and what starts no operand is reported alike
          rw [unary, atom]
          · rfl
          all_goals simp

/-- One more `product` is added to the sum, or subtracted from it. -/
theorem resume_next (hshorter : ∀ rest, rest.length ≤ ts.length → Agrees registers rest) {t : Nat × Token}
    (subtracting : Bool) (level : Level) (outer : List Level)
    (htake : Reading.take registers (.operator level outer) t = .ok (.operand (level.next subtracting) outer)) :
    resume registers (.operator level outer) (t :: ts) = (do
      let term ← product registers ts
      let total ←
        sumRest registers (if subtracting then level.value - term.value else level.value + term.value) term.rest
      resumeAround registers total.value outer total.rest) := by
  rw [resume_cons, htake]
  refine (resume_product (hshorter ts (Nat.le_refl _)) (fun rest h => hshorter rest (Nat.le_of_lt h))
    (level.next subtracting) outer).trans ?_
  simp only [resumeSum, Level.value_factor_next]

/-- Behind a product, the evaluator reads the rest of the sum. -/
theorem resume_eq_resumeSum (hshorter : ∀ rest, rest.length < ts.length → Agrees registers rest) (level : Level)
    (outer : List Level) (hstar : ∀ t ∈ ts.head?, t.2 ≠ .star) :
    resume registers (.operator level outer) ts = resumeSum registers level outer ts := by
  unfold resumeSum
  cases ts with
  | nil =>
      rw [sumRest]
      · cases outer <;> rfl
      all_goals simp
  | cons t rest =>
      have hrest : ∀ more, more.length ≤ rest.length → Agrees registers more :=
        fun more h => hshorter more (Nat.lt_succ_of_le h)
      obtain ⟨offset, token⟩ := t
      cases token with
      | plus =>
          rw [resume_next hrest false level outer rfl, sumRest]
          cases product registers rest with
          | error err => rfl
          | ok term => exact (bind_widen _ _ fun value rest => resumeAround registers value outer rest).symm
      | minus =>
          rw [resume_next hrest true level outer rfl, sumRest]
          cases product registers rest with
          | error err => rfl
          | ok term => exact (bind_widen _ _ fun value rest => resumeAround registers value outer rest).symm
      | star => exact absurd rfl (hstar _ rfl)
      | _ =>
          -- what is left is the end of the sum, or an error
          rw [sumRest, resume_cons]
          · cases outer <;> rfl
          all_goals simp

/-- Behind a factor, the evaluator reads the rest of the product (`productRest`) and then the rest of the sum
(`resumeSum`). -/
theorem resume_rest (hshorter : ∀ rest, rest.length < ts.length → Agrees registers rest) (level : Level) (value : Word)
    (outer : List Level) :
    resume registers (.operator (level.factor value) outer) ts =
      productRest registers value ts >>= fun term => resumeSum registers (level.factor term.value) outer term.rest := by
  by_cases hstar : ∀ t ∈ ts.head?, t.2 ≠ .star
  · rw [resume_eq_resumeSum hshorter _ _ hstar, productRest]
    · rfl
    · rintro offset rest rfl
      exact hstar _ rfl rfl
  · obtain ⟨offset, rest, rfl⟩ : ∃ offset rest, ts = (offset, .star) :: rest := by
      cases ts with
      | nil => simp at hstar
      | cons t rest => exact ⟨t.1, rest, by simpa [Prod.ext_iff] using hstar⟩
    have hrest : Agrees registers rest := hshorter rest (Nat.lt_succ_self _)
    rw [resume_cons, productRest]
    refine (hrest.factor (level.factor value) outer).trans ?_
    cases unary registers rest with
    | error err => rfl
    | ok factor =>
        have hmore : Agrees registers factor.rest := hshorter _ (Nat.lt_succ_of_lt factor.within)
        show resume registers (.operator ((level.factor value).factor factor.value) outer) factor.rest = _
        rw [Level.factor_factor, hmore.rest]
        exact (bind_widen _ _ fun value rest => resumeSum registers (level.factor value) outer rest).symm

/-- The evaluator reads every list of tokens as recursive descent does. -/
theorem agrees (ts : List (Nat × Token)) : Agrees registers ts := by
  induction h : ts.length using Nat.strongRecOn generalizing ts with
  | ind n ih =>
      subst h
      have hshorter : ∀ rest, rest.length < ts.length → Agrees registers rest := fun rest h => ih _ h rest rfl
      exact ⟨resume_factor hshorter, resume_rest hshorter⟩

theorem evaluateTokens_eq_descend (registers : String → Option Word) (ts : List (Nat × Token)) :
    evaluateTokens registers ts = descend registers ts := by
  rw [evaluateTokens_eq_resume, Reading.start, resume_sum (agrees ts) fun rest _ => agrees rest, descend]
  cases sum registers ts with
  | error err => rfl
  | ok whole =>
      obtain ⟨value, rest, h⟩ := whole
      cases rest <;> rfl

/-- **The evaluator is a recursive descent.** On every expression `evaluate` gives the same value or the same error as
`evaluateByDescent`. -/
theorem evaluate_eq_descent (registers : String → Option Word) (expression : String) :
    evaluate registers expression = evaluateByDescent registers expression := by
  rw [evaluate, evaluateByDescent]
  cases tokenize expression with
  | error err => rfl
  | ok ts =>
      cases ts with
      | nil => rfl
      | cons t ts => exact evaluateTokens_eq_descend registers (t :: ts)

end

end TraceSlice.Expr
