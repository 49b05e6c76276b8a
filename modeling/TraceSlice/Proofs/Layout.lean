import Mathlib.Data.List.DropRight
import TraceSlice.Proofs.Addressing
import TraceSlice.Proofs.Prefixes

/-!
# Instructions laid out word by word

A text of an instruction is put together from prefixes, a mnemonic and arguments with blanks between them. Taking the
text apart undoes that: the prefixes are peeled off one by one, whatever blanks separate them, and what they leave is
what the text without them is taken apart into (`anatomy_led`). Blanks around a text never matter (`splitWord_trim`).
-/

namespace TraceSlice

namespace Text

/-! ### Trimming -/

theorem trimEnd_cons (c : Char) (cs : List Char) :
    trimEnd (c :: cs) = if trimEnd cs = [] ∧ isBlank c = true then [] else c :: trimEnd cs := by
  unfold trimEnd
  rw [List.reverse_cons, List.dropWhile_append]
  cases hrest : cs.reverse.dropWhile isBlank with
  | nil => cases hc : isBlank c <;> simp [hc]
  | cons d rest => simp

theorem trimStart_trimEnd (cs : List Char) : trimStart (trimEnd cs) = trimEnd (trimStart cs) := by
  unfold trimStart
  induction cs with
  | nil => rfl
  | cons c cs ih =>
      cases hc : isBlank c with
      | true =>
          rw [trimEnd_cons, List.dropWhile_cons_of_pos hc, ← ih]
          split
          · next hnil => rw [hnil.1]
          · rw [List.dropWhile_cons_of_pos hc]
      | false => simp [trimEnd_cons, hc]

theorem trim_trimEnd (cs : List Char) : trim (trimEnd cs) = trim cs := by
  rw [trim, trimStart_trimEnd, trimEnd, trimEnd, List.reverse_reverse, List.dropWhile_idempotent isBlank]
  rfl

theorem trim_trim (cs : List Char) : trim (trim cs) = trim cs := by
  have hstart : trimStart (trimStart cs) = trimStart cs := List.dropWhile_idempotent isBlank cs
  rw [trim, trim, ← trim, trim_trimEnd, trim, hstart]

/-- `trimEnd` leaves the first word of a text. -/
theorem takeWhile_trimEnd (cs : List Char) :
    (trimEnd cs).takeWhile (!isBlank ·) = cs.takeWhile (!isBlank ·) := by
  induction cs with
  | nil => rfl
  | cons c cs ih =>
      rw [trimEnd_cons]
      cases hc : isBlank c with
      | true => split <;> simp [hc]
      | false => simp [hc, ih]

theorem dropWhile_trimEnd (cs : List Char) :
    (trimEnd cs).dropWhile (!isBlank ·) = trimEnd (cs.dropWhile (!isBlank ·)) := by
  induction cs with
  | nil => rfl
  | cons c cs ih =>
      cases hc : isBlank c with
      | true =>
          rw [List.dropWhile_cons_of_neg (by simp [hc]), trimEnd_cons]
          split <;> simp [hc]
      | false => simp [trimEnd_cons, hc, ih]

/-! ### Words and gaps -/

theorem exists_mem_pieces {sep : Char → Bool} {c : Char} (hc : sep c = false) {cs : List Char} (h : c ∈ cs) :
    ∃ piece ∈ pieces sep cs, c ∈ piece := by
  induction cs with
  | nil => cases h
  | cons d cs ih =>
      rw [pieces]
      obtain ⟨first, rest, hpieces⟩ := List.exists_cons_of_ne_nil (pieces_ne_nil sep cs)
      rw [hpieces] at ih ⊢
      cases hd : sep d with
      | true =>
          have hne : c ≠ d := fun heq => by simp [← heq, hc] at hd
          obtain ⟨piece, hpiece, hmem⟩ := ih (List.mem_of_ne_of_mem hne h)
          exact ⟨piece, List.mem_cons_of_mem _ hpiece, hmem⟩
      | false =>
          show ∃ piece ∈ (d :: first) :: rest, c ∈ piece
          rcases List.mem_cons.mp h with rfl | hmem
          · exact ⟨c :: first, List.mem_cons_self, List.mem_cons_self⟩
          · obtain ⟨piece, hpiece, hmem⟩ := ih hmem
            rcases List.mem_cons.mp hpiece with rfl | hrest
            · exact ⟨d :: piece, List.mem_cons_self, List.mem_cons_of_mem _ hmem⟩
            · exact ⟨piece, List.mem_cons_of_mem _ hrest, hmem⟩

/-- A character that is not blank belongs to one of the `words`. -/
theorem exists_mem_words {c : Char} (hc : isBlank c = false) {cs : List Char} (h : c ∈ cs) :
    ∃ word ∈ words cs, c ∈ word := by
  obtain ⟨piece, hpiece, hmem⟩ := exists_mem_pieces hc h
  exact ⟨piece, List.mem_filter.mpr ⟨hpiece, by simpa using List.ne_nil_of_mem hmem⟩, hmem⟩

/-- A text of one word is that word with blanks around it. -/
theorem trim_eq_of_words_eq {cs word : List Char} (h : words cs = [word]) : trim cs = word := by
  have hne : trimStart cs ≠ [] := fun hnil => by simp [words_eq_nil_iff.mpr hnil] at h
  rw [words_cons hne, List.cons.injEq, words_eq_nil_iff] at h
  obtain ⟨hword, hrest⟩ := h
  have hsolid : ∀ c ∈ word.reverse, ¬ isBlank c = true := fun c hc => by
    rw [List.mem_reverse, ← hword] at hc
    simpa using List.mem_takeWhile_imp hc
  have hstop : word.reverse.dropWhile isBlank = word.reverse := by
    cases hrev : word.reverse with
    | nil => rfl
    | cons c rest => exact List.dropWhile_cons_of_neg (hsolid c (by simp [hrev]))
  have hblank := List.dropWhile_eq_nil_iff.mp hrest
  have hsplit : trimStart cs = word ++ (trimStart cs).dropWhile (!isBlank ·) := by
    rw [← hword, List.takeWhile_append_dropWhile]
  rw [trim, trimEnd, hsplit, List.reverse_append,
    List.dropWhile_append_of_pos fun c hc => hblank c (List.mem_reverse.mp hc), hstop, List.reverse_reverse]

/-- A word has characters, none of which is blank. -/
structure IsWord (word : List Char) : Prop where
  ne_nil : word ≠ []
  solid : ∀ c ∈ word, isBlank c = false

/-- A gap has characters, all of which are blank. -/
structure IsGap (gap : List Char) : Prop where
  ne_nil : gap ≠ []
  blank : ∀ c ∈ gap, isBlank c = true

instance (word : List Char) : Decidable (IsWord word) :=
  decidable_of_iff (word ≠ [] ∧ word.all (!isBlank ·) = true)
    ⟨fun h => ⟨h.1, by simpa using h.2⟩, fun h => ⟨h.ne_nil, by simpa using h.solid⟩⟩

instance (gap : List Char) : Decidable (IsGap gap) :=
  decidable_of_iff (gap ≠ [] ∧ gap.all isBlank = true)
    ⟨fun h => ⟨h.1, by simpa using h.2⟩, fun h => ⟨h.ne_nil, by simpa using h.blank⟩⟩

theorem IsWord.trim_append_ne_nil {word : List Char} (hword : IsWord word) (rest : List Char) :
    trim (word ++ rest) ≠ [] := by
  obtain ⟨c, more, rfl⟩ := List.exists_cons_of_ne_nil hword.ne_nil
  have hblank := hword.solid c (by simp)
  intro hnil
  have hwords : words (c :: more ++ rest) = [] := by rw [← words_trim, hnil]; rfl
  have hstart := List.dropWhile_eq_nil_iff.mp (words_eq_nil_iff.mp hwords) c (by simp)
  simp [hblank] at hstart

theorem IsWord.trimStart_append {word : List Char} (hword : IsWord word) (rest : List Char) :
    trimStart (word ++ rest) = word ++ rest := by
  obtain ⟨c, more, rfl⟩ := List.exists_cons_of_ne_nil hword.ne_nil
  simp [trimStart, hword.solid c (by simp)]

/-- `splitWord` takes a word off a text, which ends before a gap. -/
theorem IsWord.splitWord_append {word gap : List Char} (hword : IsWord word) (hgap : IsGap gap) (rest : List Char) :
    Decode.splitWord (word ++ gap ++ rest) = (word, trim rest) := by
  have hsolid : ∀ c ∈ word, (!isBlank c) = true := fun c hc => by simp [hword.solid c hc]
  obtain ⟨c, more, rfl⟩ := List.exists_cons_of_ne_nil hgap.ne_nil
  have hc : isBlank c = true := hgap.blank c (by simp)
  rw [Decode.splitWord_eq, List.append_assoc, hword.trimStart_append, List.takeWhile_append_of_pos hsolid,
    List.dropWhile_append_of_pos hsolid]
  have hrest : trim (c :: more ++ rest) = trim rest := by
    rw [trim, trimStart, List.dropWhile_append_of_pos hgap.blank]
    rfl
  simp [hc, ← hrest]

theorem IsWord.splitWord {word : List Char} (hword : IsWord word) : Decode.splitWord word = (word, []) := by
  have hsolid : ∀ c ∈ word, (!isBlank c) = true := fun c hc => by simp [hword.solid c hc]
  have hstart : trimStart word = word := by simpa using hword.trimStart_append []
  rw [Decode.splitWord_eq, hstart, List.takeWhile_eq_self_iff.mpr hsolid, List.dropWhile_eq_nil_iff.mpr hsolid]
  rfl

end Text

namespace Decode

open Text

/-- Blanks around a text do not matter. -/
theorem splitWord_trim (cs : List Char) : splitWord (trim cs) = splitWord cs := by
  have hstart : trimStart (trim cs) = trimEnd (trimStart cs) := by
    rw [trim, trimStart_trimEnd, trimStart, trimStart, List.dropWhile_idempotent isBlank]
  rw [splitWord_eq, splitWord_eq, hstart, takeWhile_trimEnd, dropWhile_trimEnd, trim_trimEnd]

theorem anatomy_trim (cs : List Char) : anatomy (trim cs) = anatomy cs := by
  rw [anatomy, anatomy, splitWord_trim]

/-- A text whose first word is no prefix has that word for its mnemonic and the words after it for its arguments
(`anatomy`). -/
theorem anatomy_of_words {body word : List Char} {others : List (List Char)} (hwords : words body = word :: others)
    (hword : isPrefixWord word = false) :
    anatomy body = ⟨none, word, (splitWord body).2⟩ ∧ words (splitWord body).2 = others := by
  have hsplit := words_eq_splitWord (by simp [hwords] : words body ≠ [])
  rw [hwords, List.cons.injEq] at hsplit
  obtain ⟨hfirst, hrest⟩ := hsplit
  refine ⟨?_, hrest.symm⟩
  rw [anatomy, peel, dif_neg (by simp [← hfirst, hword]), ← hfirst]

/-! ### Comments -/

theorem splitComment_of_not_mem {cs : List Char} (h : '#' ∉ cs) : splitComment cs = (cs, []) := by
  have hany : ¬ cs.any (· == '#') = true := by simpa using h
  rw [splitComment, splitFirst?_eq, if_neg hany]
  rfl

/-- A text, and a comment behind it if there is one. -/
def commented (body : List Char) (comment : Option (List Char)) : List Char :=
  body ++ (comment.map ('#' :: ·)).getD []

theorem splitComment_commented {body : List Char} (h : '#' ∉ body) (comment : Option (List Char)) :
    splitComment (commented body comment) = (body, comment.getD []) := by
  cases comment with
  | none =>
      rw [commented, Option.map_none, Option.getD_none, List.append_nil, splitComment_of_not_mem h]
  | some comment =>
      have hall : ∀ c ∈ body, (!(c == '#')) = true := fun c hc => by simpa using ne_of_mem_of_not_mem hc h
      rw [splitComment, splitFirst?_eq]
      simp [commented, List.takeWhile_append_of_pos hall, List.dropWhile_append_of_pos hall]

/-- What `decode` makes of a text and a comment: the comment is no part of it, but may give a target
(`commentTarget?`). -/
theorem decode_commented (arch : Description) (view : View) (lastReturn pc : Word) {body : List Char}
    (h : '#' ∉ body) (comment : Option (List Char)) :
    decode arch view lastReturn pc (String.ofList (commented body comment)) =
      let parts := anatomy body
      let found := parts.footprint { arch, view, target := comment.bind commentTarget? } lastReturn
      { pc, text := String.ofList (trim body), leading := parts.leading, mnemonic := String.ofList parts.mnemonic,
        sources := Use.sources found.uses, destinations := Use.destinations found.uses,
        comment := found.note.getD "" } := by
  have htarget : commentTarget? (comment.getD []) = comment.bind commentTarget? := by
    cases comment <;> rfl
  unfold decode
  rw [String.toList_ofList, splitComment_commented h]
  dsimp only
  rw [anatomy_trim, htarget]
  cases ((anatomy body).footprint { arch, view, target := comment.bind commentTarget? } lastReturn).note <;>
    simp [Instruction.addUses, Instruction.annotate, Instruction.ofText, trimmed, trim_trim]

/-! ### Prefixes in front of a text -/

/-- A text with words in front, each with what stands between it and the next. -/
def led (leading : List (List Char × List Char)) (body : List Char) : List Char :=
  leading.foldr (fun word rest => word.1 ++ word.2 ++ rest) body

/-- Every word is a prefix, and a gap follows it. -/
structure Leads (leading : List (List Char × List Char)) : Prop where
  peels : ∀ word ∈ leading, isPrefixWord word.1 = true
  gap : ∀ word ∈ leading, IsGap word.2

theorem Leads.tail {word : List Char × List Char} {leading : List (List Char × List Char)}
    (h : Leads (word :: leading)) : Leads leading where
  peels := fun other hother => h.peels other (List.mem_cons_of_mem _ hother)
  gap := fun other hother => h.gap other (List.mem_cons_of_mem _ hother)

theorem mem_prefixWords_of_isPrefixWord {word : List Char} (h : isPrefixWord word = true) :
    word ∈ prefixWords.map String.toList := by
  rw [isPrefixWord, List.contains_iff_mem] at h
  exact List.mem_map.mpr ⟨_, h, String.toList_ofList⟩

theorem isWord_of_isPrefixWord {word : List Char} (h : isPrefixWord word = true) : IsWord word := by
  have hwords : ∀ word ∈ prefixWords.map String.toList, IsWord word := by decide +kernel
  exact hwords word (mem_prefixWords_of_isPrefixWord h)

/-- Prefixes and gaps start no comment: they hold no `#`. -/
theorem Leads.hash_not_mem {leading : List (List Char × List Char)} (h : Leads leading) {body : List Char}
    (hbody : '#' ∉ body) : '#' ∉ led leading body := by
  induction leading with
  | nil => exact hbody
  | cons word leading ih =>
      have hwords : ∀ word ∈ prefixWords.map String.toList, '#' ∉ word := by decide +kernel
      have hword : '#' ∉ word.1 := hwords _ (mem_prefixWords_of_isPrefixWord (h.peels word (by simp)))
      have hgap : '#' ∉ word.2 := fun hmem =>
        absurd ((h.gap word (by simp)).blank _ hmem) (by decide)
      simp only [led, List.foldr_cons, List.mem_append, not_or]
      exact ⟨⟨hword, hgap⟩, ih h.tail⟩

theorem Leads.trim_ne_nil {leading : List (List Char × List Char)} (h : Leads leading) {body : List Char}
    (hbody : trim body ≠ []) : trim (led leading body) ≠ [] := by
  cases leading with
  | nil => exact hbody
  | cons word leading =>
      have hword := isWord_of_isPrefixWord (h.peels word (by simp))
      simpa [led] using hword.trim_append_ne_nil (word.2 ++ led leading body)

/-- Prefixes in front of a text are peeled off from left to right, and `carry` keeps one of them. -/
theorem Leads.peel {leading : List (List Char × List Char)} (h : Leads leading) {body : List Char}
    (hbody : trim body ≠ []) (before : Option String) :
    Decode.peel before (splitWord (led leading body)).1 (splitWord (led leading body)).2 =
      Decode.peel ((leading.map Prod.fst).foldl carry before) (splitWord body).1 (splitWord body).2 := by
  induction leading generalizing before with
  | nil => rfl
  | cons word leading ih =>
      have hpeels := h.peels word (by simp)
      have hsplit : splitWord (led (word :: leading) body) = (word.1, trim (led leading body)) :=
        (isWord_of_isPrefixWord hpeels).splitWord_append (h.gap word (by simp)) _
      rw [hsplit, Decode.peel, dif_pos ⟨hpeels, h.tail.trim_ne_nil hbody⟩, splitWord_trim, ih h.tail]
      rfl

/-- A text whose first word is no prefix is taken apart by `anatomy` behind prefixes as it is without them. -/
theorem Leads.anatomy_led {leading : List (List Char × List Char)} (h : Leads leading) {body : List Char}
    (hbody : trim body ≠ []) (hword : isPrefixWord (splitWord body).1 = false) :
    anatomy (led leading body) = { anatomy body with leading := (leading.map Prod.fst).foldl carry none } := by
  have hstop : ∀ before, Decode.peel before (splitWord body).1 (splitWord body).2 =
      ⟨before, (splitWord body).1, (splitWord body).2⟩ := fun before => by
    rw [Decode.peel, dif_neg (by simp [hword])]
  rw [anatomy, anatomy, h.peel hbody, hstop, hstop]

end Decode

end TraceSlice
