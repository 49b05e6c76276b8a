import Mathlib.Data.List.Induction
import Mathlib.Data.List.TakeWhile
import TraceSlice.Decode.Basic

/-!
# Words and prefixes of an instruction

Decoding reads an instruction's text word by word and peels off the words that are prefixes, but never the last one.
This module says so of the list of words, without following the scanner: which words are peeled off (`peeled`), which
of them counts (`leading_decode`), and hence whether the decoded instruction repeats (`isRepeating_decode`). A cheaper
test only looks at how the text starts, and so at the first word (`isRepeatPrefix_trimStart`). The two agree unless a
prefix that repeats is **buried** behind others, or the first word is a **stray** that looks like such a prefix and is
none (`isRepeating_decode_eq_iff`).
-/

namespace TraceSlice

namespace Text

/-! ### Words -/

theorem pieces_append {sep : Char → Bool} {c : Char} (hc : sep c = true) (before after : List Char) :
    pieces sep (before ++ c :: after) = pieces sep before ++ pieces sep after := by
  induction before with
  | nil => simp [pieces, hc]
  | cons d before ih =>
      rw [List.cons_append, pieces, pieces]
      cases hd : sep d with
      | true => simp [ih]
      | false =>
          obtain ⟨piece, rest, hpieces⟩ := List.exists_cons_of_ne_nil (pieces_ne_nil sep before)
          simp [ih, hpieces]

theorem pieces_of_none {sep : Char → Bool} {cs : List Char} (h : ∀ c ∈ cs, sep c = false) : pieces sep cs = [cs] := by
  induction cs with
  | nil => rfl
  | cons c cs ih =>
      obtain ⟨hc, hcs⟩ := List.forall_mem_cons.mp h
      simp [pieces, hc, ih hcs]

/-- A blank separates `words`. -/
theorem words_append {c : Char} (hc : isBlank c = true) (before after : List Char) :
    words (before ++ c :: after) = words before ++ words after := by
  simp [words, pieces_append hc]

theorem words_of_blank {c : Char} (hc : isBlank c = true) (cs : List Char) : words (c :: cs) = words cs :=
  words_append hc [] cs

/-- A text without blanks is one word. -/
theorem words_of_solid {cs : List Char} (hne : cs ≠ []) (h : ∀ c ∈ cs, isBlank c = false) : words cs = [cs] := by
  simp [words, pieces_of_none h, hne]

@[simp] theorem words_trimStart (cs : List Char) : words (trimStart cs) = words cs := by
  unfold trimStart
  induction cs with
  | nil => rfl
  | cons c cs ih =>
      rw [List.dropWhile_cons]
      split
      · next hc => rw [ih, words_of_blank hc]
      · rfl

@[simp] theorem words_trimEnd (cs : List Char) : words (trimEnd cs) = words cs := by
  unfold trimEnd
  induction cs using List.reverseRecOn with
  | nil => rfl
  | append_singleton cs c ih =>
      rw [List.reverse_append, List.reverse_singleton, List.singleton_append, List.dropWhile_cons]
      split
      · next hc =>
          rw [ih, words_append hc]
          exact (List.append_nil _).symm
      · simp

@[simp] theorem words_trim (cs : List Char) : words (trim cs) = words cs := by
  rw [trim, words_trimEnd, words_trimStart]

theorem eq_false_of_dropWhile_eq_cons {sep : Char → Bool} {cs rest : List Char} {c : Char}
    (h : cs.dropWhile sep = c :: rest) : sep c = false := by
  have hne : cs.dropWhile sep ≠ [] := by simp [h]
  simpa [h] using List.head_dropWhile_not sep hne

/-- A text that is not blank starts with a word, and the `words` after it are those of what follows it. -/
theorem words_cons {cs : List Char} (h : trimStart cs ≠ []) :
    words cs = (trimStart cs).takeWhile (!isBlank ·) :: words ((trimStart cs).dropWhile (!isBlank ·)) := by
  have hne : (trimStart cs).takeWhile (!isBlank ·) ≠ [] := by
    obtain ⟨c, rest, hcs⟩ := List.exists_cons_of_ne_nil h
    simp [hcs, eq_false_of_dropWhile_eq_cons hcs]
  have hsolid : ∀ c ∈ (trimStart cs).takeWhile (!isBlank ·), isBlank c = false := fun c hc => by
    simpa using List.mem_takeWhile_imp hc
  have hword := words_of_solid hne hsolid
  rw [← words_trimStart cs]
  nth_rewrite 1 [← List.takeWhile_append_dropWhile (p := (!isBlank ·)) (l := trimStart cs)]
  cases hrest : (trimStart cs).dropWhile (!isBlank ·) with
  | nil => rw [List.append_nil, hword]; rfl
  | cons c rest =>
      have hc : isBlank c = true := by simpa using eq_false_of_dropWhile_eq_cons hrest
      rw [words_append hc, words_of_blank hc, hword, List.singleton_append]

theorem words_eq_nil_iff {cs : List Char} : words cs = [] ↔ trimStart cs = [] := by
  constructor
  · intro h
    by_contra hne
    simp [words_cons hne] at h
  · intro h
    rw [← words_trimStart, h]
    rfl

/-- Where `splitFirst?` cuts a text. -/
theorem splitFirst?_eq (sep : Char → Bool) (cs : List Char) :
    splitFirst? sep cs =
      if cs.any sep then some (cs.takeWhile (!sep ·), (cs.dropWhile (!sep ·)).tail) else none := by
  induction cs with
  | nil => rfl
  | cons c cs ih =>
      rw [splitFirst?, ih]
      cases hc : sep c with
      | true => simp [hc]
      | false => by_cases hany : cs.any sep = true <;> simp [hc, hany]

end Text

namespace Decode

open Text

/-! ### Cutting off one word -/

theorem splitWord_eq (cs : List Char) :
    splitWord cs = ((trimStart cs).takeWhile (!isBlank ·), trim ((trimStart cs).dropWhile (!isBlank ·))) := by
  unfold splitWord
  rw [splitFirst?_eq]
  generalize trimStart cs = text
  by_cases hany : text.any isBlank = true
  · rw [if_pos hany]
    cases hrest : text.dropWhile (!isBlank ·) with
    | nil => simp_all
    | cons c rest =>
        -- the blank that ends the word is trimmed off with those after it
        have hc : isBlank c = true := by simpa using eq_false_of_dropWhile_eq_cons hrest
        simp [trim, trimStart, hc]
  · rw [if_neg hany]
    have hsolid : ∀ c ∈ text, isBlank c = false := by simpa using hany
    have hword : text.takeWhile (!isBlank ·) = text := by simpa using hsolid
    have hrest : text.dropWhile (!isBlank ·) = [] := by simpa using hsolid
    have hend : trimEnd text = text := by
      rw [trimEnd, List.reverse_eq_iff, List.dropWhile_eq_self_iff]
      intro hpos
      simp [hsolid]
    simp only [hword, hrest, hend]
    rfl

/-- The words of a text are the first one (`splitWord`) and those of what follows it. -/
theorem words_eq_splitWord {cs : List Char} (h : words cs ≠ []) :
    words cs = (splitWord cs).1 :: words (splitWord cs).2 := by
  rw [splitWord_eq, words_trim]
  exact words_cons (mt words_eq_nil_iff.mpr h)

/-- What follows the first word is trimmed by `splitWord`, so that it is empty if it is blank. -/
theorem splitWord_snd_eq_nil {cs : List Char} (h : words (splitWord cs).2 = []) : (splitWord cs).2 = [] := by
  rw [splitWord_eq, words_trim, words_eq_nil_iff] at h
  rw [splitWord_eq]
  show trimEnd (trimStart _) = []
  rw [h]
  rfl

/-! ### Prefixes -/

/-- Does the word start like a prefix that repeats? This is all that `isRepeatPrefix` looks at. -/
def isRepeatWord (word : List Char) : Bool := Instruction.isRepeatPrefix (String.ofList word)

/-- The prefix that counts once `word` has been read too: a later one only if it repeats. `peel` folds this. -/
def carry (leading : Option String) (word : List Char) : Option String :=
  if leading.isNone || isRepeatWord word then some (String.ofList word) else leading

/-- The words that are peeled off as prefixes: those the text starts with, but never its last word. -/
def peeled (words : List (List Char)) : List (List Char) := words.dropLast.takeWhile isPrefixWord

@[simp] theorem peeled_nil : peeled [] = [] := rfl

@[simp] theorem peeled_singleton (word : List Char) : peeled [word] = [] := rfl

theorem peeled_cons_cons (word next : List Char) (rest : List (List Char)) :
    peeled (word :: next :: rest) = if isPrefixWord word then word :: peeled (next :: rest) else [] := by
  simp [peeled, List.takeWhile_cons]

/-- `peel` reads the words from left to right. -/
theorem leading_peel (leading : Option String) (word rest : List Char) (hrest : words rest = [] → rest = []) :
    (peel leading word rest).leading = (peeled (word :: words rest)).foldl carry leading := by
  fun_induction peel leading word rest with
  | case1 leading word rest more name leading' ih =>
      rw [ih splitWord_snd_eq_nil, words_eq_splitWord (mt hrest more.2), peeled_cons_cons, if_pos more.1]
      rfl
  | case2 leading word rest more =>
      -- peeling ends at the last word, prefix or not, or else at a word that is no prefix
      cases hwords : words rest with
      | nil => rfl
      | cons next others =>
          have hword : isPrefixWord word = false := by
            cases hword : isPrefixWord word with
            | false => rfl
            | true =>
                refine absurd ⟨hword, fun hnil => ?_⟩ more
                rw [hnil] at hwords
                cases hwords
          rw [peeled_cons_cons, hword]
          rfl

theorem leading_decode (arch : Description) (view : View) (lastReturn pc : Word) (text : String) :
    (decode arch view lastReturn pc text).leading =
      (peeled (words (splitComment text.toList).1)).foldl carry none := by
  have hparts : (decode arch view lastReturn pc text).leading =
      (anatomy (trim (splitComment text.toList).1)).leading := by
    unfold decode
    dsimp only
    split <;> rfl
  rw [hparts, anatomy, leading_peel _ _ _ splitWord_snd_eq_nil]
  by_cases hwords : words (splitComment text.toList).1 = []
  · have hnil : trim (splitComment text.toList).1 = [] := by
      rw [trim, words_eq_nil_iff.mp hwords]
      rfl
    rw [hwords, hnil]
    rfl
  · rw [← words_eq_splitWord (by rwa [words_trim]), words_trim]

/-! ### Prefixes that repeat -/

theorem isRepeating_eq_any (insn : Instruction) :
    insn.isRepeating = insn.leading.any Instruction.isRepeatPrefix := by
  unfold Instruction.isRepeating
  cases insn.leading <;> rfl

/-- The prefix that counts (`carry`) repeats if any prefix does. -/
theorem any_foldl_carry (leading : Option String) (words : List (List Char)) :
    (words.foldl carry leading).any Instruction.isRepeatPrefix =
      (leading.any Instruction.isRepeatPrefix || words.any isRepeatWord) := by
  induction words generalizing leading with
  | nil => simp
  | cons word words ih =>
      have hcarry : (carry leading word).any Instruction.isRepeatPrefix =
          (leading.any Instruction.isRepeatPrefix || isRepeatWord word) := by
        unfold carry isRepeatWord
        cases leading with
        | none => simp
        | some name => cases h : Instruction.isRepeatPrefix (String.ofList word) <;> simp [h]
      rw [List.foldl_cons, ih, hcarry, List.any_cons, Bool.or_assoc]

/-- A decoded instruction repeats if one of the prefixes that are `peeled` off it does. -/
theorem isRepeating_decode (arch : Description) (view : View) (lastReturn pc : Word) (text : String) :
    (decode arch view lastReturn pc text).isRepeating =
      (peeled (words (splitComment text.toList).1)).any isRepeatWord := by
  rw [isRepeating_eq_any, leading_decode, any_foldl_carry]
  rfl

theorem isPrefixOf_takeWhile (keep : Char → Bool) {pattern : List Char} (h : pattern.all keep = true)
    (cs : List Char) : pattern.isPrefixOf (cs.takeWhile keep) = pattern.isPrefixOf cs := by
  induction pattern generalizing cs with
  | nil => simp
  | cons d pattern ih =>
      simp only [List.all_cons, Bool.and_eq_true] at h
      cases cs with
      | nil => rfl
      | cons c cs =>
          cases hc : keep c with
          | true => simp [hc, List.isPrefixOf, ih h.2]
          | false =>
              have hne : (d == c) = false := by
                rw [beq_eq_false_iff_ne]
                rintro rfl
                simp [h.1] at hc
              simp [hc, List.isPrefixOf, hne]

theorem isRepeatPrefix_ofList (cs : List Char) :
    Instruction.isRepeatPrefix (String.ofList cs) = ['r', 'e', 'p'].isPrefixOf cs := by
  simp [Instruction.isRepeatPrefix, startsWith]

theorem splitComment_fst (cs : List Char) : (splitComment cs).1 = cs.takeWhile (!· == '#') := by
  rw [splitComment, splitFirst?_eq]
  by_cases hany : cs.any (· == '#') = true
  · rw [if_pos hany]
    rfl
  · rw [if_neg hany]
    simp only [List.any_beq', List.contains_iff_mem] at hany
    refine Eq.symm (List.takeWhile_eq_self_iff.mpr fun c hc => ?_)
    simpa using ne_of_mem_of_not_mem hc hany

/-- No blank starts a comment, so that `trimStart` and `splitComment` may change places. -/
theorem trimStart_splitComment (cs : List Char) :
    trimStart (splitComment cs).1 = (trimStart cs).takeWhile (!· == '#') := by
  rw [splitComment_fst]
  unfold trimStart
  induction cs with
  | nil => rfl
  | cons c cs ih =>
      by_cases hblank : isBlank c = true
      · have hc : (c == '#') = false := by
          rw [beq_eq_false_iff_ne]
          rintro rfl
          exact absurd hblank (by decide)
        simpa [hc, hblank] using ih
      · by_cases hc : (c == '#') = true <;> simp [hc, hblank]

/-- A text starts like a prefix that repeats if its first word does (`isRepeatWord`). -/
theorem isRepeatPrefix_trimStart (cs : List Char) :
    Instruction.isRepeatPrefix (String.ofList (trimStart cs)) =
      (words (splitComment cs).1).head?.any isRepeatWord := by
  rw [isRepeatPrefix_ofList, ← isPrefixOf_takeWhile (!· == '#') (by decide), ← trimStart_splitComment]
  by_cases hbody : trimStart (splitComment cs).1 = []
  · rw [hbody, words_eq_nil_iff.mpr hbody]
    rfl
  · rw [words_cons hbody, List.head?_cons, Option.any_some, isRepeatWord, isRepeatPrefix_ofList,
      isPrefixOf_takeWhile _ (by decide)]

/-! ### The two tests compared -/

/-- The words start with prefixes, of which `word` is the first that repeats, and more follow. -/
structure Repeats (words before : List (List Char)) (word : List Char) (after : List (List Char)) : Prop where
  words_eq : words = before ++ word :: after
  others : ∀ other ∈ before, isPrefixWord other = true ∧ isRepeatWord other = false
  peels : isPrefixWord word = true
  repeats : isRepeatWord word = true
  more : after ≠ []

/-- A prefix that repeats stands behind others. -/
def Buried (words : List (List Char)) : Prop := ∃ before word after, Repeats words before word after ∧ before ≠ []

/-- The first word starts like a prefix that repeats and is not peeled off: it is no prefix, or nothing follows it. -/
def Stray (words : List (List Char)) : Prop :=
  ∃ word after, words = word :: after ∧ isRepeatWord word = true ∧ (isPrefixWord word = true → after = [])

/-- Looking at how the text starts does not tell whether the decoded instruction repeats: it is `Buried` or a `Stray`.
-/
def Misread (words : List (List Char)) : Prop := Buried words ∨ Stray words

theorem any_peeled_iff {words : List (List Char)} :
    (peeled words).any isRepeatWord = true ↔ ∃ before word after, Repeats words before word after := by
  -- the last word is never peeled, so the step needs two words in hand
  induction words with
  | nil =>
      refine ⟨fun h => by simp at h, fun ⟨before, word, after, h⟩ => ?_⟩
      simpa using h.words_eq
  | cons first words ih =>
      cases words with
      | nil =>
          refine ⟨fun h => by simp at h, fun ⟨before, word, after, h⟩ => ?_⟩
          have hlength := congrArg List.length h.words_eq
          have hmore := List.length_pos_iff.mpr h.more
          simp at hlength
          omega
      | cons next words =>
          rw [peeled_cons_cons]
          constructor
          · intro h
            cases hfirst : isPrefixWord first with
            | false => simp [hfirst] at h
            | true =>
                cases hrepeats : isRepeatWord first with
                | true => exact ⟨[], first, next :: words, rfl, by simp, hfirst, hrepeats, by simp⟩
                | false =>
                    obtain ⟨before, word, after, hfound⟩ := ih.mp (by simpa [hfirst, hrepeats] using h)
                    refine ⟨first :: before, word, after, ?_, ?_, hfound.peels, hfound.repeats, hfound.more⟩
                    · rw [hfound.words_eq, List.cons_append]
                    · exact List.forall_mem_cons.mpr ⟨⟨hfirst, hrepeats⟩, hfound.others⟩
          · intro ⟨before, word, after, h⟩
            cases before with
            | nil =>
                obtain ⟨rfl, -⟩ := List.cons_eq_cons.mp h.words_eq
                simp [h.peels, h.repeats]
            | cons other before =>
                obtain ⟨rfl, hwords⟩ := List.cons_eq_cons.mp h.words_eq
                obtain ⟨⟨hfirst, -⟩, hothers⟩ := List.forall_mem_cons.mp h.others
                have hrest := ih.mpr ⟨before, word, after, hwords, hothers, h.peels, h.repeats, h.more⟩
                simp [hfirst, hrest]

theorem buried_iff {words : List (List Char)} :
    Buried words ↔ words.head?.any isRepeatWord = false ∧ (peeled words).any isRepeatWord = true := by
  rw [any_peeled_iff]
  constructor
  · intro ⟨before, word, after, h, hne⟩
    refine ⟨?_, before, word, after, h⟩
    obtain ⟨other, before, rfl⟩ := List.exists_cons_of_ne_nil hne
    simpa [h.words_eq] using (h.others other List.mem_cons_self).2
  · intro ⟨hhead, before, word, after, h⟩
    refine ⟨before, word, after, h, ?_⟩
    rintro rfl
    simp [h.words_eq, h.repeats] at hhead

theorem stray_iff {words : List (List Char)} :
    Stray words ↔ words.head?.any isRepeatWord = true ∧ (peeled words).any isRepeatWord = false := by
  rw [← Bool.not_eq_true, any_peeled_iff]
  constructor
  · intro ⟨word, after, hwords, hrepeats, halone⟩
    refine ⟨by simpa [hwords] using hrepeats, fun ⟨before, found, rest, h⟩ => ?_⟩
    cases before with
    | nil =>
        obtain ⟨rfl, rfl⟩ := List.cons_eq_cons.mp (hwords.symm.trans h.words_eq)
        exact h.more (halone h.peels)
    | cons other before =>
        obtain ⟨rfl, -⟩ := List.cons_eq_cons.mp (hwords.symm.trans h.words_eq)
        simp [(h.others word List.mem_cons_self).2] at hrepeats
  · intro ⟨hhead, hnone⟩
    cases words with
    | nil => simp at hhead
    | cons word after =>
        refine ⟨word, after, rfl, by simpa using hhead, fun hpeels => ?_⟩
        by_contra hmore
        exact hnone ⟨[], word, after, rfl, by simp, hpeels, by simpa using hhead, hmore⟩

theorem misread_iff {words : List (List Char)} :
    Misread words ↔ words.head?.any isRepeatWord ≠ (peeled words).any isRepeatWord := by
  rw [Misread, buried_iff, stray_iff]
  cases words.head?.any isRepeatWord <;> cases (peeled words).any isRepeatWord <;> simp

/-- Looking at how the text starts and decoding it give the same answer, unless the text is `Misread`. -/
theorem isRepeating_decode_eq_iff (arch : Description) (view : View) (lastReturn pc : Word) (text : String) :
    (decode arch view lastReturn pc text).isRepeating =
        Instruction.isRepeatPrefix (String.ofList (trimStart text.toList)) ↔
      ¬Misread (words (splitComment text.toList).1) := by
  rw [isRepeating_decode, isRepeatPrefix_trimStart, misread_iff, not_not, eq_comm]

end Decode

end TraceSlice
