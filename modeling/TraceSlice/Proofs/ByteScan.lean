import TraceSlice.Proofs.Boundaries
import TraceSlice.Proofs.ViablePrefix

/-!
# Scanning by bytes

The library scans lists of characters. Here the same scanners run over the bytes of a text (`numeral?`, `tokenize?`):
they keep an offset, test the single byte that stands there and cut slices. So they can break off, at a byte outside
the text or at a cut inside a character, and as nothing bounds their loops they can run forever.

A loop that makes its round at every boundary, and by that round comes to a later one, ends (`Advances.ends`). This is
so wherever the round does what a step over characters does, and the step takes ASCII characters, one or more
(`progresses_of_step`). Numbers and tokens are then found as over characters (`numeral?_eq`, `tokenize?_eq`).
-/

namespace TraceSlice.Utf8

open Text TraceSlice.Expr

/-! ### Loops -/

/-- The result of a scan: `none` if it breaks off or never ends. -/
abbrev Scan := Option

/-- What one round of a loop comes to: `done` with a result, or `more` to do from the next state. -/
inductive Round (σ ρ : Type) where
  /-- The loop goes on. -/
  | more (state : σ)
  /-- The loop ends. -/
  | done (result : ρ)

section

variable {σ ρ : Type}

/-- The loop that starts in a state ends with a result, after one round or more. -/
inductive Ends (round : σ → Scan (Round σ ρ)) : σ → ρ → Prop
  | done {state : σ} {result : ρ} (h : round state = some (.done result)) : Ends round state result
  | more {state next : σ} {result : ρ} (h : round state = some (.more next)) (hnext : Ends round next result) :
      Ends round state result

open Classical in
/-- Makes round after round until one is the last (`Ends`). There is no result if no round is, or if one cannot be
made. -/
noncomputable def loop (round : σ → Scan (Round σ ρ)) (state : σ) : Scan ρ :=
  if h : ∃ result, Ends round state result then some h.choose else none

/-- At every boundary a round can be made, and if it is not the last it leads on by a byte or more, to a boundary. -/
def Advances (text : String) (pos : σ → Nat) (round : σ → Scan (Round σ ρ)) : Prop :=
  ∀ state, IsBoundary text (pos state) →
    ∃ outcome, round state = some outcome ∧
      ∀ next, outcome = .more next → pos state < pos next ∧ IsBoundary text (pos next)

/-- A loop that `Advances`, and ends wherever it starts. -/
structure Progresses (text : String) (pos : σ → Nat) (round : σ → Scan (Round σ ρ)) : Prop where
  /-- Every round advances. -/
  advances : Advances text pos round
  /-- From every boundary the loop ends. -/
  ends : ∀ state, IsBoundary text (pos state) → ∃ result, Ends round state result

variable {text : String} {pos : σ → Nat} {round : σ → Scan (Round σ ρ)} {state next : σ} {result other : ρ}

theorem ends_iff_of_more (h : round state = some (.more next)) : Ends round state result ↔ Ends round next result := by
  constructor
  · intro hends
    cases hends with
    | done hdone =>
        rw [h] at hdone
        cases hdone
    | more hmore hnext =>
        rw [h] at hmore
        cases hmore
        exact hnext
  · exact .more h

theorem ends_iff_of_done (h : round state = some (.done result)) : Ends round state other ↔ other = result := by
  constructor
  · intro hends
    cases hends with
    | done hdone =>
        rw [h] at hdone
        cases hdone
        rfl
    | more hmore hnext =>
        rw [h] at hmore
        cases hmore
  · rintro rfl
    exact .done h

/-- A loop `Ends` with one result only. -/
theorem Ends.unique (h : Ends round state result) (hother : Ends round state other) : other = result := by
  induction h with
  | done hdone => exact (ends_iff_of_done hdone).mp hother
  | more hmore _ ih => exact ih ((ends_iff_of_more hmore).mp hother)

theorem loop_eq_some_iff : loop round state = some result ↔ Ends round state result := by
  unfold loop
  constructor
  · intro h
    split at h
    · next hends =>
        cases h
        exact hends.choose_spec
    · cases h
  · intro h
    have hends : ∃ result, Ends round state result := ⟨result, h⟩
    rw [dif_pos hends, h.unique hends.choose_spec]

theorem loop_more (h : round state = some (.more next)) : loop round state = loop round next := by
  ext result
  rw [loop_eq_some_iff, loop_eq_some_iff]
  exact ends_iff_of_more h

theorem loop_done (h : round state = some (.done result)) : loop round state = some result :=
  loop_eq_some_iff.mpr (.done h)

/-- A loop that `Advances` ends, since the text does. -/
theorem Advances.ends (h : Advances text pos round) (state : σ) (hstate : IsBoundary text (pos state)) :
    ∃ result, Ends round state result := by
  -- by how many bytes are left
  induction hleft : text.utf8ByteSize - pos state using Nat.strong_induction_on generalizing state with
  | h left ih =>
      obtain ⟨outcome, houtcome, hnext⟩ := h state hstate
      cases outcome with
      | done result => exact ⟨result, .done houtcome⟩
      | more next =>
          obtain ⟨hlt, hboundary⟩ := hnext next rfl
          have hle : pos next ≤ text.utf8ByteSize := hboundary.le_size
          obtain ⟨result, hresult⟩ := ih _ (by omega) next hboundary rfl
          exact ⟨result, .more houtcome hresult⟩

end

/-! ### Steps over characters -/

/-- A text starts with `n` characters that are all ASCII. -/
structure AsciiHead (n : Nat) (cs : List Char) : Prop where
  /-- There are so many. -/
  le : n ≤ cs.length
  /-- They are ASCII. -/
  ascii : ∀ c ∈ cs.take n, c.utf8Size = 1

theorem AsciiHead.zero (cs : List Char) : AsciiHead 0 cs := ⟨Nat.zero_le _, by simp⟩

theorem AsciiHead.cons {n : Nat} {c : Char} {cs : List Char} (hc : c.utf8Size = 1) (h : AsciiHead n cs) :
    AsciiHead (n + 1) (c :: cs) :=
  ⟨Nat.succ_le_succ h.le, List.forall_mem_cons.mpr ⟨hc, h.ascii⟩⟩

theorem AsciiHead.of_isPrefix {word cs : List Char} (h : word <+: cs) (hascii : ∀ c ∈ word, c.utf8Size = 1) :
    AsciiHead word.length cs :=
  ⟨h.length_le, by rwa [← List.prefix_iff_eq_take.mp h]⟩

theorem AsciiHead.takeWhile {p : Char → Bool} (hp : IsAscii p) (cs : List Char) :
    AsciiHead (cs.takeWhile p).length cs :=
  .of_isPrefix (List.takeWhile_prefix p) fun c hc => hp c (List.mem_takeWhile_imp hc)

theorem AsciiHead.size_eq {n : Nat} {cs : List Char} (h : AsciiHead n cs) :
    (String.ofList (cs.take n)).utf8ByteSize = n := by
  rw [utf8ByteSize_ofList h.ascii, List.length_take, Nat.min_eq_left h.le]

section

variable {text : String} {offset n : Nat} {rest : List Char}

/-- The characters of an `AsciiHead` take as many bytes. -/
theorem leaves_drop (h : Leaves text offset rest) (hn : AsciiHead n rest) :
    Leaves text (offset + n) (rest.drop n) := by
  have hadvance : Leaves text _ (rest.drop n) := Leaves.advance (by rwa [List.take_append_drop])
  rwa [hn.size_eq] at hadvance

theorem slice?_take (h : Leaves text offset rest) (hn : AsciiHead n rest) :
    slice? text offset (offset + n) = some (String.ofList (rest.take n)) := by
  rw [← List.take_append_drop n rest] at h
  have hslice := h.slice?_eq
  rwa [hn.size_eq] at hslice

end

/-- A loop `Progresses` if its round does what a step over characters does, and the step takes ASCII characters
(`AsciiHead`). -/
theorem progresses_of_step {σ ρ : Type} {text : String} {pos : σ → Nat} {round : σ → Scan (Round σ ρ)}
    (step : σ → List Char → Round σ ρ)
    (hround : ∀ state rest, Leaves text (pos state) rest → round state = some (step state rest))
    (hstep : ∀ state rest next, step state rest = .more next →
      ∃ n, 0 < n ∧ AsciiHead n rest ∧ pos next = pos state + n) :
    Progresses text pos round := by
  have hadvances : Advances text pos round := by
    intro state hstate
    obtain ⟨rest, hrest⟩ := isBoundary_iff.mp hstate
    refine ⟨_, hround state rest hrest, fun next hnext => ?_⟩
    obtain ⟨n, hpos, hn, heq⟩ := hstep state rest next hnext
    rw [heq]
    exact ⟨by omega, (leaves_drop hrest hn).isBoundary⟩
  exact ⟨hadvances, hadvances.ends⟩

/-! ### Numbers -/

theorem isAscii_isDigitIn (base : Nat) : IsAscii (isDigitIn base) := by
  intro c hc
  unfold isDigitIn at hc
  split at hc
  · next d hd => exact utf8Size_eq_one_iff.mpr (Nat.lt_of_le_of_lt (toNat_le_of_digit? hd) (by decide))
  · cases hc

/-- The word denoted by the run of digits at the head of a text, with the number of its bytes, if there is one:
`Text.digitRun?` by bytes. -/
def digitRun? (base : Nat) (text : String) : Scan (Option (Word × Nat)) :=
  let size := leading (isDigitIn base) text
  if size = 0 then return none
  else do
    let run ← slice? text 0 size
    return (Word.ofNat? (valueOf base run.toList)).map fun value => (value, size)

/-- The literal at the head of a text, its value and the number of its bytes: `Text.numeral?` by bytes. -/
def numeral? (text : String) : Scan (Option (Word × Nat)) :=
  if startsWith text "0x" || startsWith text "0X" then do
    let digits ← sliceFrom? text 2
    return (← digitRun? 16 digits).map fun (value, size) => (value, size + 2)
  else digitRun? 10 text

theorem digitRun?_eq (base : Nat) (text : String) : digitRun? base text = some (Text.digitRun? base text.toList) := by
  have hsize := leading_eq (isAscii_isDigitIn base) text
  have hslice := slice?_take (Leaves.zero text) (.takeWhile (isAscii_isDigitIn base) text.toList)
  rw [Nat.zero_add, take_length_takeWhile] at hslice
  rw [digitRun?, Text.digitRun?, hsize]
  by_cases hempty : text.toList.takeWhile (isDigitIn base) = []
  · simp [hempty]
  · have hpos : (text.toList.takeWhile (isDigitIn base)).length ≠ 0 := by simpa using hempty
    simp [hpos, hempty, hslice]

theorem startsWith_hexadecimal_iff (text : String) :
    (startsWith text "0x" || startsWith text "0X") = true ↔ HexHead text.toList := by
  simp only [startsWith, Bool.or_eq_true, List.isPrefixOf_iff_prefix]
  constructor
  · rintro (⟨digits, hdigits⟩ | ⟨digits, hdigits⟩)
    · exact ⟨'x', digits, hdigits.symm, .inl rfl⟩
    · exact ⟨'X', digits, hdigits.symm, .inr rfl⟩
  · rintro ⟨x, digits, htext, rfl | rfl⟩
    · exact .inl ⟨digits, htext.symm⟩
    · exact .inr ⟨digits, htext.symm⟩

theorem numeral?_eq (text : String) : numeral? text = some (Text.numeral? text.toList) := by
  unfold numeral?
  by_cases hhex : HexHead text.toList
  · rw [if_pos ((startsWith_hexadecimal_iff text).mpr hhex)]
    obtain ⟨x, digits, htext, hx⟩ := hhex
    have hsize : x.utf8Size = 1 := by rcases hx with rfl | rfl <;> rfl
    have hzero := Leaves.zero text
    rw [htext] at hzero
    have hdigits : Leaves text 2 digits := (hzero.tail rfl).tail hsize
    rw [hdigits.sliceFrom?_eq, htext, numeral?_hexadecimal hx]
    simp [digitRun?_eq]
  · rw [if_neg (mt (startsWith_hexadecimal_iff text).mp hhex), digitRun?_eq, numeral?_decimal hhex]

/-! ### Tokens -/

/-- One round in search of the end of a name (`isNameChar`). -/
def nameRound (text : String) (pos : Nat) : Scan (Round Nat Nat) :=
  if pos < text.utf8ByteSize then do
    if isNameChar (← byte? text pos) then return .more (pos + 1) else return .done pos
  else return .done pos

/-- Where a scanner stands, and what it has found. -/
structure Cursor (α : Type) where
  /-- The offset of the next byte. -/
  pos : Nat
  /-- What was found before it. -/
  found : List α

/-- One round of the tokenizer at a byte with the code of `c`. -/
noncomputable def tokenAt (text : String) (pos : Nat) (found : List (Nat × Token)) (c : Char) :
    Scan (Round (Cursor (Nat × Token)) (Except EvalError (List (Nat × Token)))) :=
  if c = ' ' ∨ c = '\t' then return .more ⟨pos + 1, found⟩
  else
    match symbol? c with
    | some token => return .more ⟨pos + 1, found ++ [(pos, token)]⟩
    | none =>
      if c = '$' then do
        let stop ← loop (nameRound text) (pos + 1)
        let name ← slice? text (pos + 1) stop
        return .more ⟨stop, found ++ [(pos, .register name)]⟩
      else if c.isDigit then do
        match ← numeral? (← sliceFrom? text pos) with
        | some (value, size) => return .more ⟨pos + size, found ++ [(pos, .number value)]⟩
        | none => return .done (.error (.unexpectedToken (← sliceFrom? text pos) pos))
      else do
        let rest ← sliceFrom? text pos
        return .done (.error (.unexpectedToken (String.ofList (rest.toList.take 1)) pos))

/-- One round of the tokenizer: `tokenAt` at the byte that stands there. -/
noncomputable def tokenRound (text : String) (cursor : Cursor (Nat × Token)) :
    Scan (Round (Cursor (Nat × Token)) (Except EvalError (List (Nat × Token)))) :=
  if cursor.pos < text.utf8ByteSize then do
    tokenAt text cursor.pos cursor.found (← byte? text cursor.pos)
  else return .done (.ok cursor.found)

/-- The tokens of an expression, each with the offset of its first byte: `Expr.tokenize` by bytes. -/
noncomputable def tokenize? (text : String) : Scan (Except EvalError (List (Nat × Token))) :=
  loop (tokenRound text) ⟨0, []⟩

/-- What a round of the tokenizer comes to by what `token?` found. -/
def tokenOutcome (cursor : Cursor (Nat × Token)) :
    Except EvalError (Token × Nat) → Round (Cursor (Nat × Token)) (Except EvalError (List (Nat × Token)))
  | .error err => .done (.error err)
  | .ok (token, size) => .more ⟨cursor.pos + size, cursor.found ++ [(cursor.pos, token)]⟩

/-- What `tokenRound` comes to at the characters that are left. -/
def tokenStep (cursor : Cursor (Nat × Token)) :
    List Char → Round (Cursor (Nat × Token)) (Except EvalError (List (Nat × Token)))
  | [] => .done (.ok cursor.found)
  | c :: rest =>
    if c = ' ' ∨ c = '\t' then .more ⟨cursor.pos + 1, cursor.found⟩
    else tokenOutcome cursor (token? cursor.pos c rest)

/-- What `nameRound` comes to at the characters that are left. -/
def nameStep (pos : Nat) : List Char → Round Nat Nat
  | [] => .done pos
  | c :: _ => if isNameChar c then .more (pos + 1) else .done pos

section

variable {text : String} {rest : List Char}

theorem isAscii_isNameChar : IsAscii isNameChar := fun _ hc =>
  utf8Size_eq_one_iff.mpr (Nat.lt_of_le_of_lt (Decode.toNat_of_isNameChar hc).2 (by decide))

theorem nameRound_eq {pos : Nat} (h : Leaves text pos rest) : nameRound text pos = some (nameStep pos rest) := by
  unfold nameRound
  cases rest with
  | nil =>
      rw [if_neg (mt h.lt_size_iff.mp (by simp))]
      rfl
  | cons c rest =>
      rw [if_pos (h.lt_size_iff.mpr (by simp)), h.byte?_cons]
      show (if isNameChar (initial c) then _ else _) = some (if isNameChar c then _ else _)
      rw [isAscii_isNameChar.congr_initial]
      split <;> rfl

theorem loop_nameRound {pos : Nat} (h : Leaves text pos rest) :
    loop (nameRound text) pos = some (pos + (rest.takeWhile isNameChar).length) := by
  induction rest generalizing pos with
  | nil => exact loop_done (nameRound_eq h)
  | cons c rest ih =>
      have hround := nameRound_eq h
      by_cases hc : isNameChar c = true
      · have hnext := h.tail (isAscii_isNameChar c hc)
        rw [nameStep, if_pos hc] at hround
        rw [loop_more hround, ih hnext, List.takeWhile_cons_of_pos hc, List.length_cons]
        congr 1
        omega
      · rw [nameStep, if_neg hc] at hround
        rw [loop_done hround, List.takeWhile_cons_of_neg hc]
        rfl

theorem isAscii_isDigit : IsAscii Char.isDigit := fun c hc => isAscii_isDigitIn 10 c (isDigit_iff.mp hc)

theorem symbol?_eq_none {c : Char} (h : c.utf8Size ≠ 1) : symbol? c = none := by
  cases hsymbol : symbol? c with
  | none => rfl
  | some token => exact absurd (utf8Size_of_spells (spells_of_symbol? hsymbol) c (by simp)) h

/-- At a character that is not ASCII, `tokenAt` finds no token. -/
theorem tokenAt_other (pos : Nat) (found : List (Nat × Token)) {c : Char} (h : c.utf8Size ≠ 1) :
    tokenAt text pos found c = do
      let rest ← sliceFrom? text pos
      return .done (.error (.unexpectedToken (String.ofList (rest.toList.take 1)) pos)) := by
  have hne : ∀ d : Char, d.utf8Size = 1 → c ≠ d := fun d hd hcd => h (hcd ▸ hd)
  have hblank : ¬ (c = ' ' ∨ c = '\t') := not_or.mpr ⟨hne ' ' rfl, hne '\t' rfl⟩
  rw [tokenAt, if_neg hblank, symbol?_eq_none h]
  dsimp only
  rw [if_neg (hne '$' rfl), if_neg (mt (isAscii_isDigit c) h)]

/-- At a character, `tokenAt` does what `tokenStep` does there. -/
theorem tokenAt_eq {pos : Nat} (found : List (Nat × Token)) {c : Char} (h : Leaves text pos (c :: rest)) :
    tokenAt text pos found c = some (tokenStep ⟨pos, found⟩ (c :: rest)) := by
  rw [tokenAt, tokenStep]
  by_cases hblank : c = ' ' ∨ c = '\t'
  · rw [if_pos hblank, if_pos hblank]
    rfl
  rw [if_neg hblank, if_neg hblank, token?]
  cases hsymbol : symbol? c with
  | some token => rfl
  | none =>
      dsimp only
      by_cases hdollar : c = '$'
      · have hname : Leaves text (pos + 1) rest := h.tail (hdollar ▸ rfl)
        -- the sigil is one byte, so the name's loop starts at a boundary
        rw [if_pos hdollar, if_pos hdollar, loop_nameRound hname]
        show (slice? text _ _).bind _ = _
        rw [slice?_take hname (.takeWhile isAscii_isNameChar rest), take_length_takeWhile, Nat.add_right_comm]
        rfl
      · rw [if_neg hdollar, if_neg hdollar]
        by_cases hdigit : c.isDigit = true
        · rw [if_pos hdigit, if_pos hdigit, h.sliceFrom?_eq]
          show (numeral? _).bind _ = _
          rw [numeral?_eq, String.toList_ofList]
          cases Text.numeral? (c :: rest) <;> rfl
        · rw [if_neg hdigit, if_neg hdigit, h.sliceFrom?_eq]
          show some _ = _
          rw [String.toList_ofList]
          rfl

theorem tokenRound_eq (cursor : Cursor (Nat × Token)) (h : Leaves text cursor.pos rest) :
    tokenRound text cursor = some (tokenStep cursor rest) := by
  unfold tokenRound
  cases rest with
  | nil =>
      rw [if_neg (mt h.lt_size_iff.mp (by simp))]
      rfl
  | cons c rest =>
      rw [if_pos (h.lt_size_iff.mpr (by simp)), h.byte?_cons]
      exact (congr_initial (fun c hc => tokenAt_other cursor.pos cursor.found hc) c).trans (tokenAt_eq cursor.found h)

theorem asciiHead_of_token? {offset : Nat} {c : Char} {token : Token} {size : Nat}
    (h : token? offset c rest = .ok (token, size)) : AsciiHead size (c :: rest) := by
  have hlength := length_take_of_token? h
  rw [List.length_take] at hlength
  exact ⟨by omega, utf8Size_of_spells (spells_of_token? h)⟩

theorem asciiHead_of_blank {c : Char} (h : c = ' ' ∨ c = '\t') : AsciiHead 1 (c :: rest) := by
  rcases h with rfl | rfl <;> exact .cons rfl (.zero rest)

/-- The loop of `nameRound` progresses: it follows `nameStep`. -/
theorem progresses_nameRound (text : String) : Progresses text id (nameRound text) := by
  refine progresses_of_step nameStep (fun pos rest h => nameRound_eq h) fun pos rest next hnext => ?_
  cases rest with
  | nil => cases hnext
  | cons c rest =>
      rw [nameStep] at hnext
      split at hnext
      · next hc =>
          cases hnext
          exact ⟨1, Nat.one_pos, .cons (isAscii_isNameChar c hc) (.zero rest), rfl⟩
      · cases hnext

/-- The loop of `tokenRound` progresses: it follows `tokenStep`. -/
theorem progresses_tokenRound (text : String) : Progresses text Cursor.pos (tokenRound text) := by
  refine progresses_of_step tokenStep (fun cursor rest h => tokenRound_eq cursor h) fun cursor rest next hnext => ?_
  cases rest with
  | nil => cases hnext
  | cons c rest =>
      rw [tokenStep] at hnext
      split at hnext
      · next hblank =>
          cases hnext
          exact ⟨1, Nat.one_pos, asciiHead_of_blank hblank, rfl⟩
      · cases htoken : token? cursor.pos c rest with
        | error err =>
            rw [htoken] at hnext
            cases hnext
        | ok found =>
            rw [htoken] at hnext
            cases hnext
            exact ⟨found.2, token?_size_pos htoken, asciiHead_of_token? htoken, rfl⟩

/-- From a boundary on, the loop of `tokenRound` finds the `tokens` of what is left. -/
theorem loop_tokenRound {pos : Nat} (h : Leaves text pos rest) (found : List (Nat × Token)) :
    loop (tokenRound text) ⟨pos, found⟩ = some ((tokens pos rest).map (found ++ ·)) := by
  -- each case of the character scan is one round of the byte loop, from the boundary where the rest begins
  fun_induction tokens pos rest generalizing found with
  | case1 pos =>
      rw [loop_done (tokenRound_eq ⟨pos, found⟩ h)]
      simp [Except.map]
  | case2 pos c rest hblank ih =>
      have hround := tokenRound_eq ⟨pos, found⟩ h
      rw [tokenStep, if_pos hblank] at hround
      rw [loop_more hround, ih (leaves_drop h (asciiHead_of_blank hblank))]
  | case3 pos c rest hblank err htoken =>
      have hround := tokenRound_eq ⟨pos, found⟩ h
      rw [tokenStep, if_neg hblank, htoken] at hround
      rw [loop_done hround]
      rfl
  | case4 pos c rest hblank token size htoken err hmore ih =>
      have hround := tokenRound_eq ⟨pos, found⟩ h
      rw [tokenStep, if_neg hblank, htoken] at hround
      rw [loop_more hround, ih (leaves_drop h (asciiHead_of_token? htoken)), hmore]
      rfl
  | case5 pos c rest hblank token size htoken more hmore ih =>
      have hround := tokenRound_eq ⟨pos, found⟩ h
      rw [tokenStep, if_neg hblank, htoken] at hround
      rw [loop_more hround, ih (leaves_drop h (asciiHead_of_token? htoken)), hmore]
      simp [Except.map]

theorem tokenize?_eq (text : String) : tokenize? text = some (tokenize text) := by
  rw [tokenize?, loop_tokenRound (Leaves.zero text), tokenize]
  cases tokens 0 text.toList <;> rfl

end

end TraceSlice.Utf8
