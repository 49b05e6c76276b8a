import Mathlib.Order.Bounds.Defs
import TraceSlice.Proofs.Addressing

/-!
# Where an expression goes wrong

The evaluator fails at a token, or at the end. The grammar has a word for each: terminals are **viable** (`IsViable`)
if some sentence starts with them, and a token **offends** (`Offends`) if those before it are viable and with it they
are not. The evaluator reports the first token that offends, and the end exactly if there is none and the expression
is still no sentence (`evaluate_error_iff`).

What the evaluator has computed does not matter here, only its `Outline`: whether an operand must follow, and how many
parentheses are open. Every tree leads from one outline to the next (`Tree.outline`), so where a token finds no
outline to go on to, no sentence does. And where all tokens do, closing the open parentheses makes a sentence of them
(`isViable_of_run`).
-/

namespace TraceSlice.Expr

/-- The terminals that tokens are. -/
def terminals (ts : List (Nat × Token)) : List Terminal := ts.map fun t => t.2.terminal

/-- The terminals are a sentence of the grammar: some `Tree` yields them. -/
def IsSentence (ls : List Terminal) : Prop := ∃ tree : Tree .sum, tree.yield = ls

/-- Some sentence (`IsSentence`) starts with the terminals. -/
def IsViable (ls : List Terminal) : Prop := ∃ rest, IsSentence (ls ++ rest)

/-- The tokens before the one at an index are viable, and with it they are not. -/
structure Offends (ts : List (Nat × Token)) (index : Nat) : Prop where
  before : IsViable (terminals (ts.take index))
  through : ¬ IsViable (terminals (ts.take (index + 1)))

theorem IsViable.left {ls rest : List Terminal} (h : IsViable (ls ++ rest)) : IsViable ls := by
  obtain ⟨more, hsentence⟩ := h
  exact ⟨rest ++ more, by rwa [← List.append_assoc]⟩

/-- What viable tokens start with is viable. -/
theorem isViable_take {ts : List (Nat × Token)} {i j : Nat} (hle : i ≤ j) (h : IsViable (terminals (ts.take j))) :
    IsViable (terminals (ts.take i)) := by
  obtain ⟨rest, hrest⟩ := List.take_prefix_take_left hle (l := ts)
  rw [← hrest, terminals, List.map_append] at h
  exact h.left

/-- At most one token `Offends`, so it is the first to do so. -/
theorem Offends.isLeast {ts : List (Nat × Token)} {i : Nat} (h : Offends ts i) : IsLeast {j | Offends ts j} i := by
  refine ⟨h, fun j hj => ?_⟩
  by_contra hlt
  exact hj.through (isViable_take (by omega) h.before)

/-! ### Outlines -/

/-- What decides which terminals may follow: `Reading` without its levels. -/
structure Outline where
  /-- Must an operand follow? -/
  awaiting : Bool
  /-- The number of open parentheses. -/
  depth : Nat
deriving DecidableEq, Repr

/-- The outline after one more terminal, if it may follow. -/
def Outline.take : Outline → Terminal → Option Outline
  | ⟨true, depth⟩, .number _ => some ⟨false, depth⟩
  | ⟨true, depth⟩, .register _ => some ⟨false, depth⟩
  | ⟨true, depth⟩, .plus => some ⟨true, depth⟩
  | ⟨true, depth⟩, .minus => some ⟨true, depth⟩
  | ⟨true, depth⟩, .openParen => some ⟨true, depth + 1⟩
  | ⟨false, depth⟩, .plus => some ⟨true, depth⟩
  | ⟨false, depth⟩, .minus => some ⟨true, depth⟩
  | ⟨false, depth⟩, .star => some ⟨true, depth⟩
  | ⟨false, depth + 1⟩, .closeParen => some ⟨false, depth⟩
  | _, _ => none

/-- A tree takes the place of an operand, at any depth. -/
theorem Tree.outline {category : Category} (tree : Tree category) (depth : Nat) :
    tree.yield.foldlM Outline.take ⟨true, depth⟩ = some ⟨false, depth⟩ := by
  induction tree generalizing depth with
  | number value => rfl
  | register name => rfl
  | group inner ih => simp [yield, Outline.take, ih]
  | atom operand ih => exact ih depth
  | neg operand ih => simp [yield, Outline.take, ih]
  | pos operand ih => simp [yield, Outline.take, ih]
  | unary factor ih => exact ih depth
  | mul factors factor ih ih' => simp [yield, Outline.take, ih, ih']
  | product term ih => exact ih depth
  | add terms term ih ih' => simp [yield, Outline.take, ih, ih']
  | sub terms term ih ih' => simp [yield, Outline.take, ih, ih']

/-- Terminals that are `IsViable` have an outline. -/
theorem IsViable.outline {ls : List Terminal} (h : IsViable ls) :
    ∃ outline, ls.foldlM Outline.take ⟨true, 0⟩ = some outline := by
  obtain ⟨rest, tree, htree⟩ := h
  have houtline := tree.outline 0
  rw [htree, List.foldlM_append] at houtline
  obtain ⟨outline, hls, -⟩ := Option.bind_eq_some_iff.mp houtline
  exact ⟨outline, hls⟩

/-- The outline of a reading. -/
def Reading.outline : Reading → Outline
  | .operand _ outer => ⟨true, outer.length⟩
  | .operator _ outer => ⟨false, outer.length⟩

section

variable {registers : String → Option Word}

/-- A token that is no unknown register is taken if the `Outline` has a place for it, and reported if not. -/
theorem Reading.take_cases (reading : Reading) (offset : Nat) {token : Token}
    (hknown : ∀ name, token = .register name → (registers name).isSome = true) :
    (∃ next, reading.take registers (offset, token) = .ok next ∧
        reading.outline.take token.terminal = some next.outline) ∨
      (reading.take registers (offset, token) = .error (.unexpectedToken token.render offset) ∧
        reading.outline.take token.terminal = none) := by
  cases reading with
  | operand level outer =>
      cases token with
      | register name =>
          obtain ⟨value, hvalue⟩ := Option.isSome_iff_exists.mp (hknown name rfl)
          exact .inl ⟨.operator (level.factor value) outer, by rw [Reading.take, hvalue], rfl⟩
      | star => exact .inr ⟨rfl, rfl⟩
      | closeParen => exact .inr ⟨rfl, rfl⟩
      | _ => exact .inl ⟨_, rfl, rfl⟩
  | operator level outer =>
      cases token with
      | plus => exact .inl ⟨_, rfl, rfl⟩
      | minus => exact .inl ⟨_, rfl, rfl⟩
      | star => exact .inl ⟨_, rfl, rfl⟩
      | closeParen =>
          -- only inside of a parenthesis
          cases outer with
          | nil => exact .inr ⟨rfl, rfl⟩
          | cons around rest => exact .inl ⟨_, rfl, rfl⟩
      | _ => exact .inr ⟨rfl, rfl⟩

/-- All tokens are taken, or one is reported, and up to this one they have no outline. -/
theorem run_cases (reading : Reading) {ts : List (Nat × Token)}
    (hknown : ∀ name, .register name ∈ terminals ts → (registers name).isSome = true) :
    (∃ last, ts.foldlM (Reading.take registers) reading = .ok last) ∨
      ∃ i offset token, ts[i]? = some (offset, token) ∧
        ts.foldlM (Reading.take registers) reading = .error (.unexpectedToken token.render offset) ∧
        (∃ last, (ts.take i).foldlM (Reading.take registers) reading = .ok last) ∧
        (terminals (ts.take (i + 1))).foldlM Outline.take reading.outline = none := by
  induction ts generalizing reading with
  | nil => exact .inl ⟨reading, rfl⟩
  | cons t ts ih =>
      obtain ⟨offset, token⟩ := t
      have hfirst : ∀ name, token = .register name → (registers name).isSome = true := by
        rintro name rfl
        exact hknown name List.mem_cons_self
      obtain ⟨next, htake, houtline⟩ | ⟨herror, hnone⟩ := reading.take_cases offset hfirst
      · have hrun : ∀ rest : List (Nat × Token), ((offset, token) :: rest).foldlM (Reading.take registers) reading =
            rest.foldlM (Reading.take registers) next := by
          intro rest
          rw [List.foldlM_cons, htake]
          rfl
        obtain ⟨last, hlast⟩ | ⟨i, o, found, hfound, herror, ⟨last, hlast⟩, hnone⟩ :=
          ih next fun name hname => hknown name (List.mem_cons_of_mem _ hname)
        · exact .inl ⟨last, by rw [hrun, hlast]⟩
        · refine .inr ⟨i + 1, o, found, hfound, by rw [hrun, herror], ⟨last, ?_⟩, ?_⟩
          · rw [List.take_succ_cons, hrun, hlast]
          · rw [List.take_succ_cons, terminals, List.map_cons, List.foldlM_cons, houtline]
            exact hnone
      · -- the first token is refused, so the tokens before it are none
        refine .inr ⟨0, offset, token, rfl, ?_, ⟨reading, rfl⟩, ?_⟩
        · rw [List.foldlM_cons, herror]
          rfl
        · rw [List.take_succ_cons, terminals, List.map_cons, List.foldlM_cons, hnone]
          rfl

/-! ### Completing an expression -/

/-- Tokens that complete an expression from a `Reading` on: an operand if one must follow, and all closing
parentheses. -/
def Reading.closing : Reading → List (Nat × Token)
  | .operand _ outer => (0, .number 0) :: List.replicate outer.length (0, .closeParen)
  | .operator _ outer => List.replicate outer.length (0, .closeParen)

variable (registers) in
theorem close_operator (level : Level) (outer : List Level) :
    ∃ last, (List.replicate outer.length (0, Token.closeParen)).foldlM (Reading.take registers)
      (.operator level outer) = .ok (.operator last []) := by
  induction outer generalizing level with
  | nil => exact ⟨level, rfl⟩
  | cons around rest ih =>
      rw [List.length_cons, List.replicate_succ, List.foldlM_cons]
      exact ih (around.factor level.value)

variable (registers) in
/-- Every reading can be completed. -/
theorem Reading.close (reading : Reading) :
    ∃ last, reading.closing.foldlM (Reading.take registers) reading = .ok (.operator last []) := by
  cases reading with
  | operand level outer =>
      rw [closing, List.foldlM_cons]
      exact close_operator registers (level.factor 0) outer
  | operator level outer => exact close_operator registers level outer

/-- Tokens that `Reading.take` takes are viable. -/
theorem isViable_of_run {ts : List (Nat × Token)} {reading : Reading}
    (h : ts.foldlM (Reading.take registers) .start = .ok reading) : IsViable (terminals ts) := by
  obtain ⟨last, hlast⟩ := reading.close registers
  have hrun : (ts ++ reading.closing).foldlM (Reading.take registers) .start = .ok (.operator last []) := by
    rw [run_append h, hlast]
  obtain ⟨tree, hyield, -⟩ := (HasRead.start.run hrun).finish rfl
  refine ⟨terminals reading.closing, tree, ?_⟩
  rw [hyield, List.nil_append, List.map_append]
  rfl

/-- Up to the token that is reported, the tokens are viable, and with it they are not: it `Offends`. -/
theorem offends_of_run {ts : List (Nat × Token)} {i : Nat}
    (hbefore : ∃ last, (ts.take i).foldlM (Reading.take registers) .start = .ok last)
    (hthrough : (terminals (ts.take (i + 1))).foldlM Outline.take Reading.start.outline = none) : Offends ts i where
  before := by
    obtain ⟨last, hlast⟩ := hbefore
    exact isViable_of_run hlast
  through := by
    intro hviable
    obtain ⟨outline, houtline⟩ := hviable.outline
    have hnone : (terminals (ts.take (i + 1))).foldlM Outline.take ⟨true, 0⟩ = none := hthrough
    rw [hnone] at houtline
    cases houtline

/-- If a token offends, the tokens as a whole are not viable. -/
theorem Offends.not_isViable {ts : List (Nat × Token)} {i : Nat} (h : Offends ts i) : ¬ IsViable (terminals ts) := by
  intro hviable
  have hall : terminals ts = terminals (ts.take (i + 1)) ++ terminals (ts.drop (i + 1)) := by
    rw [terminals, terminals, terminals, ← List.map_append, List.take_append_drop]
  rw [hall] at hviable
  exact h.through hviable.left

/-! ### Errors of tokens -/

/-- `evaluateTokens` gives the tokens a value exactly if they are a sentence. -/
theorem exists_evaluateTokens_iff {ts : List (Nat × Token)}
    (hknown : ∀ name, .register name ∈ terminals ts → (registers name).isSome = true) :
    (∃ v, evaluateTokens registers ts = .ok v) ↔ IsSentence (terminals ts) := by
  simp only [evaluateTokens_eq_ok_iff]
  constructor
  · rintro ⟨v, tree, hyield, -, -⟩
    exact ⟨tree, hyield⟩
  · rintro ⟨tree, hyield⟩
    exact ⟨_, tree, hyield, fun name hname => hknown name (hyield ▸ hname), rfl⟩

/-- The tokens have a value, or they end too early and are viable, or one of them `Offends` and is reported. -/
theorem evaluateTokens_cases {ts : List (Nat × Token)}
    (hknown : ∀ name, .register name ∈ terminals ts → (registers name).isSome = true) :
    (∃ v, evaluateTokens registers ts = .ok v) ∨
      (evaluateTokens registers ts = .error .unexpectedEnd ∧ IsViable (terminals ts)) ∨
        ∃ i offset token, ts[i]? = some (offset, token) ∧ Offends ts i ∧
          evaluateTokens registers ts = .error (.unexpectedToken token.render offset) := by
  obtain ⟨last, hrun⟩ | ⟨i, offset, token, htoken, herror, hbefore, hthrough⟩ := run_cases .start hknown
  · have hviable := isViable_of_run hrun
    have hfinish : evaluateTokens registers ts = last.finish := by rw [evaluateTokens, hrun]
    rw [hfinish]
    cases last with
    | operand level outer => exact .inr (.inl ⟨rfl, hviable⟩)
    | operator level outer =>
        cases outer with
        | nil => exact .inl ⟨_, rfl⟩
        | cons around rest => exact .inr (.inl ⟨rfl, hviable⟩)
  · refine .inr (.inr ⟨i, offset, token, htoken, offends_of_run hbefore hthrough, ?_⟩)
    rw [evaluateTokens, herror]

theorem evaluateTokens_unexpectedEnd_iff {ts : List (Nat × Token)}
    (hknown : ∀ name, .register name ∈ terminals ts → (registers name).isSome = true) :
    evaluateTokens registers ts = .error .unexpectedEnd ↔ ¬ IsSentence (terminals ts) ∧ IsViable (terminals ts) := by
  rw [← exists_evaluateTokens_iff hknown]
  obtain ⟨v, hv⟩ | ⟨hend, hviable⟩ | ⟨i, offset, token, -, hoffends, herror⟩ := evaluateTokens_cases hknown
  · simp [hv]
  · simp [hend, hviable]
  · simp [herror, hoffends.not_isViable]

theorem evaluateTokens_unexpectedToken_iff {ts : List (Nat × Token)}
    (hknown : ∀ name, .register name ∈ terminals ts → (registers name).isSome = true) {shown : String} {offset : Nat} :
    evaluateTokens registers ts = .error (.unexpectedToken shown offset) ↔
      ∃ i token, ts[i]? = some (offset, token) ∧ IsLeast {j | Offends ts j} i ∧ shown = token.render := by
  constructor
  · intro h
    obtain ⟨v, hv⟩ | ⟨hend, -⟩ | ⟨i, o, token, htoken, hoffends, herror⟩ := evaluateTokens_cases hknown
    · rw [hv] at h
      cases h
    · rw [hend] at h
      cases h
    · rw [herror] at h
      cases h
      exact ⟨i, token, htoken, hoffends.isLeast, rfl⟩
  · rintro ⟨i, token, htoken, ⟨hoffends, hfirst⟩, rfl⟩
    obtain ⟨v, hv⟩ | ⟨-, hviable⟩ | ⟨j, o, found, hfound, hoffends', herror⟩ := evaluateTokens_cases hknown
    · have hsentence := (exists_evaluateTokens_iff hknown).mp ⟨v, hv⟩
      exact absurd ⟨[], by rwa [List.append_nil]⟩ hoffends.not_isViable
    · exact absurd hviable hoffends.not_isViable
    · obtain rfl : j = i := Nat.le_antisymm (hoffends'.isLeast.2 hoffends) (hfirst hoffends')
      rw [htoken] at hfound
      cases hfound
      exact herror

end

/-! ### Where a token starts -/

theorem utf8Size_of_spells {text : List Char} {terminal : Terminal} (h : Spells text terminal) :
    ∀ c ∈ text, c.utf8Size = 1 := by
  have hname : ∀ c, isNameChar c = true → c.utf8Size = 1 := fun c hc => by
    rw [Char.utf8Size_eq_one_iff, UInt32.le_iff_toNat_le]
    exact Nat.le_trans (Decode.toNat_of_isNameChar hc).2 (by decide)
  cases h with
  | register h =>
      intro c hc
      obtain rfl | hc := List.mem_cons.mp hc
      · rfl
      · exact hname c (h c hc)
  | number h => exact fun c hc => hname c (h.isNameChar c hc)
  | _ =>
      intro c hc
      rw [List.mem_singleton.mp hc]
      rfl

theorem utf8ByteSize_ofList {cs : List Char} (h : ∀ c ∈ cs, c.utf8Size = 1) :
    (String.ofList cs).utf8ByteSize = cs.length := by
  induction cs with
  | nil => rfl
  | cons c cs ih =>
      obtain ⟨hc, hcs⟩ := List.forall_mem_cons.mp h
      rw [String.ofList_cons, String.utf8ByteSize_append, String.utf8ByteSize_singleton, hc, ih hcs, List.length_cons,
        Nat.add_comm]

theorem length_take_of_token? {offset : Nat} {c : Char} {rest : List Char} {token : Token} {size : Nat}
    (h : token? offset c rest = .ok (token, size)) : ((c :: rest).take size).length = size := by
  rw [List.length_take, Nat.min_eq_left]
  obtain ⟨-, rfl⟩ | ⟨-, -, rfl⟩ | ⟨-, w, -, hw⟩ := token?_cases h
  · simp
  · exact Nat.succ_le_succ (List.takeWhile_prefix _).length_le
  · exact (Text.numeral?_size_pos hw).2

/-- What stands before a token `Splits` into the tokens before it, and its offset is as much as that takes. -/
theorem split_of_tokens {offset : Nat} {cs : List Char} {ts : List (Nat × Token)} (h : tokens offset cs = .ok ts)
    {i o : Nat} {token : Token} (htoken : ts[i]? = some (o, token)) :
    ∃ head text rest, cs = head ++ text ++ rest ∧ offset + (String.ofList head).utf8ByteSize = o ∧
      Splits head (terminals (ts.take i)) ∧ Spells text token.terminal := by
  -- each case peels a blank or a token off the front, and the offsets add up in bytes
  fun_induction tokens offset cs generalizing ts i with
  | case1 =>
      cases h
      simp at htoken
  | case2 offset c rest hc ih =>
      obtain ⟨head, text, after, rfl, rfl, hsplits, hspells⟩ := ih h htoken
      have hblank : c.utf8Size = 1 := by obtain rfl | rfl := hc <;> rfl
      refine ⟨c :: head, text, after, rfl, ?_, .blank hc hsplits, hspells⟩
      rw [String.ofList_cons, String.utf8ByteSize_append, String.utf8ByteSize_singleton, hblank, Nat.add_assoc]
  | case3 offset c rest hc err hfirst => cases h
  | case4 offset c rest hc first size hfirst err hmore ih => cases h
  | case5 offset c rest hc first size hfirst more hmore ih =>
      cases h
      have hspells := spells_of_token? hfirst
      cases i with
      | zero =>
          cases htoken
          refine ⟨[], (c :: rest).take size, (c :: rest).drop size, ?_, rfl, .nil, hspells⟩
          rw [List.nil_append, List.take_append_drop]
      | succ i =>
          obtain ⟨head, text, after, hdrop, rfl, hsplits, hspells'⟩ := ih hmore htoken
          refine ⟨(c :: rest).take size ++ head, text, after, ?_, ?_, .terminal hspells ?_ hsplits, hspells'⟩
          · rw [List.append_assoc, List.append_assoc, ← List.append_assoc head, ← hdrop, List.take_append_drop]
          · rw [String.ofList_append, String.utf8ByteSize_append, utf8ByteSize_ofList (utf8Size_of_spells hspells),
              length_take_of_token? hfirst, Nat.add_assoc]
          · -- nothing longer stands there in the whole text, so nothing longer does in the part before the token
            intro longer terminal hpre hlonger
            have hwhole : (c :: rest).take size ++ head <+: c :: rest := by
              refine ⟨text ++ after, ?_⟩
              rw [List.append_assoc, ← List.append_assoc head, ← hdrop, List.take_append_drop]
            rw [length_take_of_token? hfirst]
            exact length_le_of_token? hfirst (hpre.trans hwhole) hlonger

/-- A terminal starts at a byte of an expression, after other terminals. -/
def StartsAt (expression : String) (offset : Nat) (before : List Terminal) (terminal : Terminal) : Prop :=
  ∃ head text rest : String, expression = head ++ text ++ rest ∧ head.utf8ByteSize = offset ∧
    Splits head.toList before ∧ Spells text.toList terminal

/-- The tokens of `tokenize` start where they say. -/
theorem startsAt_of_tokenize {expression : String} {ts : List (Nat × Token)} (h : tokenize expression = .ok ts)
    {i offset : Nat} {token : Token} (htoken : ts[i]? = some (offset, token)) :
    StartsAt expression offset (terminals (ts.take i)) token.terminal := by
  obtain ⟨head, text, rest, hexpression, hoffset, hsplits, hspells⟩ := split_of_tokens h htoken
  refine ⟨String.ofList head, String.ofList text, String.ofList rest, ?_, by rwa [Nat.zero_add] at hoffset, ?_, ?_⟩
  · rw [← String.ofList_append, ← String.ofList_append, ← hexpression, String.ofList_toList]
  · rwa [String.toList_ofList]
  · rwa [String.toList_ofList]

/-! ### Errors of expressions -/

/-- **Errors point at the first offending token.** For an expression that has tokens, all of whose registers are
known: `evaluate` reports that it ends too early exactly if its tokens are no sentence but some sentence starts with
them (`IsViable`). A token is reported, in its rendering and with the byte at which it starts, exactly if it is the
first one such that some sentence starts with the tokens before it, and none starts with these and the token itself
(`Offends`). Recursive descent reports the same. -/
theorem evaluate_error_iff (registers : String → Option Word) (expression : String) {ts : List (Nat × Token)}
    (htokens : tokenize expression = .ok ts) (hne : ts ≠ [])
    (hknown : ∀ name, .register name ∈ terminals ts → (registers name).isSome = true) :
    (evaluate registers expression = .error .unexpectedEnd ↔
      ¬ IsSentence (terminals ts) ∧ IsViable (terminals ts)) ∧
    (∀ shown offset, evaluate registers expression = .error (.unexpectedToken shown offset) ↔
      ∃ i token, ts[i]? = some (offset, token) ∧ IsLeast {j | Offends ts j} i ∧ shown = token.render) ∧
    (∀ i offset token, ts[i]? = some (offset, token) →
      StartsAt expression offset (terminals (ts.take i)) token.terminal) ∧
    evaluate registers expression = evaluateByDescent registers expression := by
  have hdescent := evaluate_eq_descent registers expression
  have hevaluate : evaluate registers expression = evaluateTokens registers ts := by
    obtain ⟨t, rest, rfl⟩ := List.exists_cons_of_ne_nil hne
    rw [evaluate, htokens]
  rw [hevaluate] at hdescent ⊢
  refine ⟨evaluateTokens_unexpectedEnd_iff hknown, fun shown offset => ?_, fun i offset token htoken => ?_, hdescent⟩
  · exact evaluateTokens_unexpectedToken_iff hknown
  · exact startsAt_of_tokenize htokens htoken

/-- The closing parenthesis at byte 9 offends, since an operand must follow the sign before it. Without the parenthesis
some sentence starts with the tokens, and the end is reported. -/
theorem evaluate_error_iff_at_dangling_sign :
    ∃ registers : String → Option Word, registers "eax" = some 3 ∧
      (∃ ts, tokenize "2 *($eax+)" = .ok ts ∧
        evaluate registers "2 *($eax+)" = .error (.unexpectedToken ")" 9) ∧
        ∃ i token, ts[i]? = some (9, token) ∧ IsLeast {j | Offends ts j} i ∧ ")" = token.render) ∧
      ∃ ts, tokenize "2 *($eax+" = .ok ts ∧
        evaluate registers "2 *($eax+" = .error .unexpectedEnd ∧
        ¬ IsSentence (terminals ts) ∧ IsViable (terminals ts) := by
  let registers : String → Option Word := fun name => if name = "eax" then some 3 else none
  let dangling : List (Nat × Token) :=
    [(0, .number 2), (2, .star), (3, .openParen), (4, .register "eax"), (8, .plus)]
  have hclosed : tokenize "2 *($eax+)" = .ok (dangling ++ [(9, .closeParen)]) := by decide +kernel
  have hopen : tokenize "2 *($eax+" = .ok dangling := by decide +kernel
  have htoken : evaluate registers "2 *($eax+)" = .error (.unexpectedToken ")" 9) := by decide +kernel
  have hend : evaluate registers "2 *($eax+" = .error .unexpectedEnd := by decide +kernel
  have hknown : ∀ name, .register name ∈ terminals dangling → (registers name).isSome = true := by
    simp [terminals, dangling, Token.terminal, registers]
  have hknown' : ∀ name, .register name ∈ terminals (dangling ++ [(9, .closeParen)]) →
      (registers name).isSome = true := by
    simp [terminals, dangling, Token.terminal, registers]
  refine ⟨registers, rfl, ⟨_, hclosed, htoken, ?_⟩, _, hopen, hend, ?_⟩
  · exact ((evaluate_error_iff registers _ hclosed (by simp) hknown').2.1 _ _).mp htoken
  · exact (evaluate_error_iff registers _ hopen (by simp [dangling]) hknown).1.mp hend

end TraceSlice.Expr
