import TraceSlice.Proofs.Layout

/-!
# Instructions behind prefixes

Prefixes do not change what an instruction is (specification, §E9). Behind any number of them it has the mnemonic and
the operands that it has alone, and only a string operation behind a prefix that repeats touches one operand more, its
counter (`decode_led`). One of the prefixes is `recorded`, the last one that repeats or else the first, so the
instruction repeats exactly if some prefix does.
-/

namespace TraceSlice.Decode

open Text

/-- The prefixes that make an instruction repeat. -/
def repeatWords : List String := ["rep", "repe", "repz", "repne", "repnz"]

/-- The prefix that `peel` records: the last one that repeats, or else the first. -/
def recorded (names : List String) : Option String := (names.filter repeatWords.contains).getLast?.or names.head?

/-- Does the mnemonic stand for a string operation? -/
def isStringMnemonic (mnemonic : String) : Bool :=
  match effect? mnemonic with
  | some (.string _ _) => true
  | _ => false

/-! ### The recorded prefix -/

/-- Among `prefixWords`, those that start like one that repeats are the ones that repeat. -/
theorem isRepeatWord_eq {word : List Char} (h : isPrefixWord word = true) :
    isRepeatWord word = repeatWords.contains (String.ofList word) := by
  have htable : ∀ word ∈ prefixWords.map String.toList,
      isRepeatWord word = repeatWords.contains (String.ofList word) := by
    decide +kernel
  exact htable word (mem_prefixWords_of_isPrefixWord h)

/-- Going through prefixes from left to right by `carry`, a later one counts only if it repeats. -/
theorem foldl_carry_eq {words : List (List Char)} (h : ∀ word ∈ words, isPrefixWord word = true)
    (before : Option String) :
    words.foldl carry before =
      ((words.map String.ofList).filter repeatWords.contains).getLast?.or
        (before.or (words.map String.ofList).head?) := by
  induction words generalizing before with
  | nil => simp
  | cons word words ih =>
      obtain ⟨hword, hwords⟩ := List.forall_mem_cons.mp h
      rw [List.foldl_cons, ih hwords, carry, isRepeatWord_eq hword, List.map_cons, List.filter_cons]
      cases repeatWords.contains (String.ofList word) with
      | true =>
          cases hlast : ((words.map String.ofList).filter repeatWords.contains).getLast? <;>
            simp [List.getLast?_cons, hlast]
      | false => cases before <;> simp

theorem any_isRepeatWord_iff {words : List (List Char)} (h : ∀ word ∈ words, isPrefixWord word = true) :
    words.any isRepeatWord = true ↔ ∃ name ∈ words.map String.ofList, name ∈ repeatWords := by
  simp only [List.any_eq_true, List.mem_map, exists_exists_and_eq_and]
  refine exists_congr fun word => and_congr_right fun hmem => ?_
  rw [isRepeatWord_eq (h word hmem), List.contains_iff_mem]

/-! ### The counter -/

/-- Behind prefixes, the `footprint` is what it is without them. A string operation also counts, if one of the
prefixes repeats. -/
theorem Anatomy.footprint_led (leading : Option String) {mnemonic : List Char} (arguments : List Char) (ctx : Context)
    (lastReturn : Word) (hword : isPrefixWord mnemonic = false) :
    let alone := (Anatomy.mk none mnemonic arguments).footprint ctx lastReturn
    (Anatomy.mk leading mnemonic arguments).footprint ctx lastReturn =
      { alone with
        uses := alone.uses ++
          if leading.any Instruction.isRepeatPrefix && isStringMnemonic (String.ofList mnemonic) then
            ctx.register ctx.arch.counter .both
          else [] } := by
  unfold Anatomy.footprint isStringMnemonic
  dsimp only
  rw [hword]
  cases effect? (String.ofList mnemonic) with
  | none => simp
  | some effect =>
      cases effect with
      | string op width => cases leading.any Instruction.isRepeatPrefix <;> simp
      | _ => simp

/-- Both architectures have their counter. -/
theorem exists_counter (arch : Arch) :
    ∃ counter, arch.description.register? arch.description.counter = some counter := by
  cases arch <;> exact Option.isSome_iff_exists.mp (by decide +kernel)

/-! ### Decoding -/

/-- What `decode` makes of an instruction behind prefixes differs from what it makes of it without them in the text,
the recorded prefix and the counter. -/
theorem Leads.decode_eq {leading : List (List Char × List Char)} (hleading : Leads leading) (arch : Description)
    (view : View) (lastReturn pc : Word) {body word : List Char} {others : List (List Char)} (hhash : '#' ∉ body)
    (hwords : words body = word :: others) (hword : isPrefixWord word = false) (comment : Option (List Char)) :
    let bare := decode arch view lastReturn pc (String.ofList (commented body comment))
    let counted : List Use :=
      if (leading.map Prod.fst).any isRepeatWord && isStringMnemonic bare.mnemonic then
        ({ arch, view } : Context).register arch.counter .both
      else []
    bare.mnemonic = String.ofList word ∧
      decode arch view lastReturn pc (String.ofList (commented (led leading body) comment)) =
        { bare with
          text := String.ofList (trim (led leading body))
          leading := (leading.map Prod.fst).foldl carry none
          sources := bare.sources ++ Use.sources counted
          destinations := bare.destinations ++ Use.destinations counted } := by
  have hne : words body ≠ [] := by simp [hwords]
  have hbody : trim body ≠ [] := by
    intro hnil
    rw [← words_trim, hnil] at hne
    exact hne rfl
  have halone := (anatomy_of_words hwords hword).1
  have hpeels : isPrefixWord (splitWord body).1 = false := by
    have hsplit := words_eq_splitWord hne
    rw [hwords, List.cons.injEq] at hsplit
    rw [← hsplit.1, hword]
  -- both texts have the same anatomy but for the words in front
  have hled := hleading.anatomy_led hbody hpeels
  rw [halone] at hled
  dsimp only
  rw [decode_commented arch view lastReturn pc hhash, decode_commented arch view lastReturn pc
    (hleading.hash_not_mem hhash), halone, hled]
  refine ⟨rfl, ?_⟩
  dsimp only
  have hfootprint := Anatomy.footprint_led ((leading.map Prod.fst).foldl carry none) (splitWord body).2
    { arch, view, target := comment.bind commentTarget? } lastReturn hword
  rw [any_foldl_carry, Option.any_none, Bool.false_or] at hfootprint
  rw [hfootprint]
  simp only [Use.sources_append, Use.destinations_append]
  rfl

/-- **Prefixes are peeled off.** Let prefixes, each with blanks of any kind behind it (`Leads`), stand before an
instruction whose first word is none of them. What is decoded has the mnemonic of the instruction without them, the
same sources and the same destinations in the same order, and behind these the counter in both lists exactly if some
prefix repeats and the mnemonic stands for a string operation. It repeats exactly if some prefix does. The prefix
recorded is the last one that repeats, or the first one if none does. All this holds with any comment, or none. -/
theorem decode_led (arch : Arch) (view : View) (lastReturn pc : Word) {leading : List (List Char × List Char)}
    (hleading : Leads leading) {body word : List Char} {others : List (List Char)} (hhash : '#' ∉ body)
    (hwords : words body = word :: others) (hword : isPrefixWord word = false) (comment : Option (List Char)) :
    let bare := decode arch.description view lastReturn pc (String.ofList (commented body comment))
    let insn := decode arch.description view lastReturn pc (String.ofList (commented (led leading body) comment))
    let names := (leading.map Prod.fst).map String.ofList
    ∃ counter, arch.description.register? arch.description.counter = some counter ∧
      (let counted := if names.any repeatWords.contains && isStringMnemonic bare.mnemonic then
          [Operand.ofRegister counter (view.evaluate (registerExpression arch.description.counter))]
        else []
      insn.mnemonic = bare.mnemonic ∧ bare.mnemonic = String.ofList word ∧
        insn.sources = bare.sources ++ counted ∧ insn.destinations = bare.destinations ++ counted ∧
        insn.comment = bare.comment) ∧
      (insn.isRepeating = true ↔ ∃ name ∈ names, name ∈ repeatWords) ∧
      insn.leading = recorded names := by
  have hprefixes : ∀ word ∈ leading.map Prod.fst, isPrefixWord word = true := by
    intro word hmem
    obtain ⟨entry, hentry, rfl⟩ := List.mem_map.mp hmem
    exact hleading.peels entry hentry
  obtain ⟨counter, hcounter⟩ := exists_counter arch
  have hname : counter.name = arch.description.counter := (Description.register?_mem hcounter).2
  have huses : ({ arch := arch.description, view } : Context).register arch.description.counter .both =
      [⟨.both, .ofRegister counter (view.evaluate (registerExpression arch.description.counter))⟩] := by
    simp [Context.register, Context.registerOperand?, hcounter, hname]
  -- the repeat words are counted as characters by the decoder and as names by the statement
  have hany : (leading.map Prod.fst).any isRepeatWord =
      ((leading.map Prod.fst).map String.ofList).any repeatWords.contains := by
    rw [Bool.eq_iff_iff, any_isRepeatWord_iff hprefixes, List.any_eq_true]
    simp only [List.contains_iff_mem]
  obtain ⟨hmnemonic, hdecode⟩ := hleading.decode_eq arch.description view lastReturn pc hhash hwords hword comment
  refine ⟨counter, hcounter, ?_, ?_, ?_⟩
  · rw [hdecode, huses, hany]
    refine ⟨rfl, hmnemonic, ?_, ?_, rfl⟩
    · split <;> rfl
    · split <;> rfl
  · rw [isRepeating_eq_any, hdecode, any_foldl_carry, Option.any_none, Bool.false_or, any_isRepeatWord_iff hprefixes]
  · rw [hdecode, foldl_carry_eq hprefixes, Option.none_or]
    rfl

/-- A machine whose counter holds `8`. -/
def counting : View where
  evaluate expression := if expression = "$ecx" then 8 else 0
  evaluateAddress _ := 0x2000
  byte _ := 0

/-- Of two prefixes that repeat among four, the second is recorded, and the counter stands behind the operands. -/
theorem decode_led_repeated_fill :
    ∃ bare insn,
      bare = decode Arch.x86.description counting 0 0x1000 "stos BYTE PTR es:[edi],al # 0x10" ∧
      insn = decode Arch.x86.description counting 0 0x1000
        "lock repne\t bnd  repz stos BYTE PTR es:[edi],al # 0x10" ∧
      insn.mnemonic = "stos" ∧ insn.isRepeating = true ∧ insn.leading = some "repz" ∧
      insn.sources = bare.sources ++ [.ofRegister ⟨"ecx", ⟨"ecx", ["cx", "ch", "cl"]⟩⟩ 8] ∧
      insn.destinations = bare.destinations ++ [.ofRegister ⟨"ecx", ⟨"ecx", ["cx", "ch", "cl"]⟩⟩ 8] := by
  let leading := [("lock".toList, [' ']), ("repne".toList, ['\t', ' ']), ("bnd".toList, [' ', ' ']),
    ("repz".toList, [' '])]
  have hleading : Leads leading := ⟨by decide +kernel, by decide +kernel⟩
  have hbare : String.ofList (commented "stos BYTE PTR es:[edi],al ".toList (some " 0x10".toList)) =
      "stos BYTE PTR es:[edi],al # 0x10" := by
    decide +kernel
  have hinsn : String.ofList (commented (led leading "stos BYTE PTR es:[edi],al ".toList) (some " 0x10".toList)) =
      "lock repne\t bnd  repz stos BYTE PTR es:[edi],al # 0x10" := by
    decide +kernel
  have hpeeled := decode_led .x86 counting 0 0x1000 hleading
    (by decide +kernel : '#' ∉ "stos BYTE PTR es:[edi],al ".toList)
    (by decide +kernel : words "stos BYTE PTR es:[edi],al ".toList =
      ["stos".toList, "BYTE".toList, "PTR".toList, "es:[edi],al".toList])
    (by decide +kernel) (some " 0x10".toList)
  rw [hbare, hinsn] at hpeeled
  obtain ⟨counter, hcounter, ⟨hmnemonic, hword, hsources, hdestinations, -⟩, hrepeats, hrecorded⟩ := hpeeled
  have hecx : Arch.x86.description.register? Arch.x86.description.counter =
      some ⟨"ecx", ⟨"ecx", ["cx", "ch", "cl"]⟩⟩ := by
    decide +kernel
  obtain rfl := Option.some.inj (hecx.symm.trans hcounter)
  have hcounts : ((leading.map Prod.fst).map String.ofList).any repeatWords.contains = true := by decide +kernel
  have hstring : isStringMnemonic (String.ofList "stos".toList) = true := by decide +kernel
  rw [hword, hcounts, hstring] at hsources hdestinations
  refine ⟨_, _, rfl, rfl, hmnemonic.trans hword, hrepeats.mpr ⟨"repz", by decide +kernel, by decide +kernel⟩, ?_,
    hsources, hdestinations⟩
  rw [hrecorded]
  decide +kernel

end TraceSlice.Decode
