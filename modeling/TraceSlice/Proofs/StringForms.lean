import TraceSlice.Proofs.Bytes
import TraceSlice.Proofs.Layout

/-!
# The two spellings of string instructions

A string instruction is spelled with its width as a suffix and no operands, as `movsb`, or without the suffix and with
the operands that the suffix stands for, as `movs BYTE PTR es:[edi],BYTE PTR ds:[esi]`. The first is decoded from what
the mnemonic implies (`stringDefaults`), the second from its text (`stringArguments`). Both touch the same operands,
behind any prefixes (`suffixed_perm_writtenOut`): memory at the index registers, as wide as the suffix says, and
registers.
-/

namespace TraceSlice.Decode

open Text

/-! ### Spelling -/

/-- The mnemonic without a suffix, such as `movs`. -/
def StringOp.stem : StringOp → String
  | .move => "movs"
  | .store => "stos"
  | .load => "lods"
  | .scan => "scas"
  | .compare => "cmps"

/-- How much a string instruction touches at a time. -/
inductive StringWidth where
  | byte
  | word
  | doubleword
  | quadword
deriving DecidableEq, Repr

namespace StringWidth

def bytes : StringWidth → Nat
  | .byte => 1
  | .word => 2
  | .doubleword => 4
  | .quadword => 8

def suffix : StringWidth → String
  | .byte => "b"
  | .word => "w"
  | .doubleword => "d"
  | .quadword => "q"

def keyword : StringWidth → String
  | .byte => "BYTE"
  | .word => "WORD"
  | .doubleword => "DWORD"
  | .quadword => "QWORD"

def accumulator : StringWidth → String
  | .byte => "al"
  | .word => "ax"
  | .doubleword => "eax"
  | .quadword => "rax"

def all : List StringWidth := [.byte, .word, .doubleword, .quadword]

theorem mem_all (width : StringWidth) : width ∈ all := by cases width <;> decide

/-- Memory in a segment at the address that an index register holds. -/
def indexed (width : StringWidth) (segment : Char) (register : String) : List Char :=
  (width.keyword ++ " PTR ").toList ++ segment :: 's' :: ':' :: ("[" ++ register ++ "]").toList

end StringWidth

namespace StringOp

def all : List StringOp := [.move, .store, .load, .scan, .compare]

theorem mem_all (op : StringOp) : op ∈ all := by cases op <;> decide

variable (arch : Description) (width : StringWidth)

/-- The operands in the order in which they are written. -/
def operands : StringOp → Arguments
  | .move => [width.indexed 'e' arch.destinationIndex, width.indexed 'd' arch.sourceIndex]
  | .store => [width.indexed 'e' arch.destinationIndex, width.accumulator.toList]
  | .load => [width.accumulator.toList, width.indexed 'd' arch.sourceIndex]
  | .scan => [width.accumulator.toList, width.indexed 'e' arch.destinationIndex]
  | .compare => [width.indexed 'd' arch.sourceIndex, width.indexed 'e' arch.destinationIndex]

/-- The index registers at which the operation touches memory, and how it uses that memory. -/
def indexes : StringOp → List (String × Direction)
  | .move => [(arch.sourceIndex, .source), (arch.destinationIndex, .destination)]
  | .store => [(arch.destinationIndex, .destination)]
  | .load => [(arch.sourceIndex, .source)]
  | .scan => [(arch.destinationIndex, .source)]
  | .compare => [(arch.sourceIndex, .source), (arch.destinationIndex, .source)]

/-- The spelling with a suffix, such as `movsb`. -/
def suffixed (op : StringOp) : List Char := (op.stem ++ width.suffix).toList

/-- The spelling with operands, which a gap separates from the mnemonic. -/
def writtenOut (gap : List Char) (op : StringOp) : List Char :=
  op.stem.toList ++ gap ++ Text.join [','] (op.operands arch width)

end StringOp

/-! ### Reading the operands -/

theorem addressBody_cons {c : Char} {cs : List Char} (hc : isBlank c = false) (hne : c ≠ ']')
    (hcs : trimStart cs = cs) : addressBody (c :: cs) = c :: addressBody cs := by
  have hstart : trimStart (c :: cs) = c :: cs := List.dropWhile_cons_of_neg (by simp [hc])
  rw [addressBody, addressBody, trim, trim, hstart, hcs, trimEnd_cons, if_neg (by simp [hc])]
  simp [hne]

section

variable {arch : Arch} {ctx : Context} {direction : Direction}

/-- The usual segments contribute nothing to an address: `memory` there is `indirect`. -/
theorem Context.memory_segment (ctx : Context) {segment : Char} (h : segment = 'd' ∨ segment = 'e')
    (register : String) (width : Nat) :
    ctx.memory (segment :: 's' :: ':' :: ("[" ++ register ++ "]").toList) width direction =
      ctx.indirect register width direction := by
  have hbracket : ("[" ++ register ++ "]").toList = '[' :: (register.toList ++ [']']) := by
    simp [String.toList_append]
  have hbody : addressBody (segment :: 's' :: ':' :: ("[" ++ register ++ "]").toList) =
      segment :: 's' :: ':' :: addressBody ("[" ++ register ++ "]").toList := by
    rw [hbracket, addressBody_cons, addressBody_cons, addressBody_cons] <;>
      first
        | rfl
        | decide
        | (obtain rfl | rfl := h <;> decide)
  have hpieces : ∀ cs, pieces ctx.arch (segment :: 's' :: ':' :: cs) = pieces ctx.arch cs := by
    intro cs
    rw [pieces]
    obtain rfl | rfl := h <;> rfl
  simp only [Context.memory, Context.indirect, memoryUses, hbody, hpieces]

/-- The operands that a disassembler writes for memory (`indexed`) are read as such. -/
theorem Context.argument_indexed (ctx : Context) (arch : Arch) (width : StringWidth) {segment : Char}
    (hsegment : segment = 'd' ∨ segment = 'e') {register : String}
    (hregister : register = arch.description.sourceIndex ∨ register = arch.description.destinationIndex) :
    ctx.argument (width.indexed segment register) direction = ctx.indirect register width.bytes direction := by
  have hread : ∀ register ∈ [arch.description.sourceIndex, arch.description.destinationIndex],
      let text := width.indexed segment register
      (trim text = text ∧ text.isEmpty = false) ∧
        (contains "fs:".toList text || contains "gs:".toList text) = false ∧
        Context.isBareAddress text = false ∧ contains "PTR".toList text = true ∧
        Context.sizedAddress text =
          (width.bytes, segment :: 's' :: ':' :: ("[" ++ register ++ "]").toList) := by
    obtain rfl | rfl := hsegment <;> cases arch <;> cases width <;> decide +kernel
  obtain ⟨⟨htrim, hempty⟩, hlocal, hbare, hptr, hsized⟩ := hread register (by simpa using hregister)
  simp only [Context.argument, htrim, hempty, hlocal, hbare, hptr, hsized, Bool.false_eq_true, if_false, if_true]
  exact ctx.memory_segment hsegment register width.bytes

/-- The accumulator is read as a register by `argument`. -/
theorem Context.argument_accumulator (hctx : ctx.arch = arch.description) (width : StringWidth) :
    ctx.argument width.accumulator.toList direction = ctx.register width.accumulator direction := by
  have hread : let text := width.accumulator.toList
      (trim text = text ∧ text.isEmpty = false) ∧
        (contains "fs:".toList text || contains "gs:".toList text) = false ∧
        Context.isBareAddress text = false ∧ contains "PTR".toList text = false ∧
        text.head?.any Char.isDigit = false ∧ arch.description.isZeroRegister width.accumulator = false := by
    cases arch <;> cases width <;> decide +kernel
  obtain ⟨⟨htrim, hempty⟩, hlocal, hbare, hptr, hdigit, hzero⟩ := hread
  simp only [Context.argument, Context.scalar, htrim, hempty, hlocal, hbare, hptr, hdigit, hctx,
    String.ofList_toList, hzero, Bool.false_eq_true, if_false]

theorem Context.sizedAccumulator_bytes (hctx : ctx.arch = arch.description) {width : StringWidth}
    (hwidth : width.bytes ≤ arch.description.pointerWidth) : ctx.sizedAccumulator width.bytes = width.accumulator := by
  unfold Context.sizedAccumulator
  rw [hctx]
  cases width with
  | byte => rfl
  | word => rfl
  | doubleword => rfl
  | quadword =>
      -- only the wider architecture has the quadword, and its accumulator is that wide
      cases arch with
      | x86 => exact absurd hwidth (by decide)
      | x64 => rfl

/-! ### The same operands -/

/-- What the suffix implies (`stringDefaults`) is what the operands say (`stringArguments`), up to their order. -/
theorem Context.stringDefaults_perm (hctx : ctx.arch = arch.description) {width : StringWidth}
    (hwidth : width.bytes ≤ arch.description.pointerWidth) (op : StringOp) :
    (ctx.stringDefaults width.bytes op).Perm (ctx.stringArguments (op.operands arch.description width) op) := by
  have hsource : ∀ direction, ctx.argument (width.indexed 'd' arch.description.sourceIndex) direction =
      ctx.indirect arch.description.sourceIndex width.bytes direction := fun _ =>
    ctx.argument_indexed arch width (.inl rfl) (.inl rfl)
  have hdestination : ∀ direction, ctx.argument (width.indexed 'e' arch.description.destinationIndex) direction =
      ctx.indirect arch.description.destinationIndex width.bytes direction := fun _ =>
    ctx.argument_indexed arch width (.inr rfl) (.inr rfl)
  have haccumulator : ∀ direction, ctx.argument width.accumulator.toList direction =
      ctx.register width.accumulator direction := fun _ => Context.argument_accumulator hctx width
  have hsized := Context.sizedAccumulator_bytes hctx hwidth
  cases op <;>
    simp only [Context.stringDefaults, Context.stringArguments, Context.shape, StringOp.operands,
      List.zipWith_cons_cons, List.zipWith_nil_left, List.flatten_cons, List.flatten_nil, List.append_nil, hctx, hsized,
      hsource, hdestination, haccumulator]
  case move => exact List.perm_append_comm
  case load => exact List.perm_append_comm
  all_goals exact List.Perm.refl _

theorem Context.string_perm (hctx : ctx.arch = arch.description) {width : StringWidth}
    (hwidth : width.bytes ≤ arch.description.pointerWidth) (op : StringOp) :
    (ctx.string [] op (some width.bytes)).Perm (ctx.string (op.operands arch.description width) op none) := by
  have hvector : (op.operands arch.description width).any Context.isVector = false := by
    cases arch <;> cases width <;> cases op <;> decide +kernel
  have hempty : (op.operands arch.description width).isEmpty = false := by cases op <;> rfl
  simp only [Context.string, hvector, hempty, List.any_nil, List.isEmpty_nil, Bool.false_eq_true, if_false, if_true,
    Option.getD_some]
  exact ((Context.stringDefaults_perm hctx hwidth op).append_right _).append_right _

end

/-- The registers that instructions go through to memory without naming them, apart from the pointers into the
stack. -/
def addressing (arch : Description) : List String := [arch.sourceIndex, arch.destinationIndex, arch.readBuffer]

theorem pieces_through (arch : Arch) {name : String} (hname : name ∈ addressing arch.description) :
    ∃ r, pieces arch.description (addressBody ("[" ++ name ++ "]").toList) = ⟨[.register r], true⟩ ∧
      r.name = name ∧ arch.description.isPointerGroup r.group = false := by
  have htable : ∀ name ∈ addressing arch.description, ∃ r ∈ arch.description.register? name,
      pieces arch.description (addressBody ("[" ++ name ++ "]").toList) = ⟨[.register r], true⟩ ∧
        r.name = name ∧ arch.description.isPointerGroup r.group = false := by
    cases arch <;> decide +kernel
  obtain ⟨r, -, h⟩ := htable name hname
  exact ⟨r, h⟩

/-- Memory at such a register (`addressing`) starts at the address that the machine gives for the register, whatever
the target is. -/
theorem baseAddress_through (arch : Arch) {name : String} (hname : name ∈ addressing arch.description) (view : View)
    (target : Option Word) :
    baseAddress arch.description view target (pieces arch.description (addressBody ("[" ++ name ++ "]").toList)) =
      view.evaluateAddress (registerExpression name) := by
  obtain ⟨r, hscan, rfl, hpointer⟩ := pieces_through arch hname
  have hresolve : Pieces.resolve arch.description view ⟨[.register r], true⟩ = registerExpression r.name := by
    simp [Pieces.resolve, Piece.resolve, hpointer, String.join]
  have hrelative : r.group.contains arch.description.instructionPointer = false := by
    simp only [Description.isPointerGroup, Bool.or_eq_false_iff] at hpointer
    exact hpointer.2
  unfold baseAddress
  rw [hscan, hresolve]
  cases target <;> simp [Pieces.isRelative, Pieces.registers, Piece.register?, hrelative]

theorem Context.touches_through_index (arch : Arch) (view : View) {index : String}
    (hindex : index ∈ addressing arch.description) {width : Nat} {direction : Direction} {a : Word} :
    ({ arch := arch.description, view } : Context).Touches (Reference.through index width direction) a ↔
      a ∈ bytesFrom (view.evaluateAddress (registerExpression index)) width := by
  have hbase : ({ arch := arch.description, view } : Context).base (Reference.through index width direction) =
      view.evaluateAddress (registerExpression index) := baseAddress_through arch hindex view none
  have hunderstood : (Reference.through index width direction).isAddress arch.description = true := by
    obtain ⟨r, hscan, -⟩ := pieces_through arch hindex
    unfold Reference.isAddress Reference.through
    dsimp only
    rw [hscan]
    rfl
  rw [Context.Touches, hbase, and_iff_right hunderstood]
  simp [bytesFrom, Reference.through, eq_comm]

/-! ### Decoding the two spellings -/

/-- A string instruction, behind prefixes, uses the operands of the operation, and the counter if a prefix repeats. -/
theorem uses_string (arch : Description) (view : View) (lastReturn : Word) {leading : List (List Char × List Char)}
    (hleading : Leads leading) {body mnemonic arguments : List Char} (hhash : '#' ∉ body) (hbody : trim body ≠ [])
    (hsplit : splitWord body = (mnemonic, arguments)) (hword : isPrefixWord mnemonic = false) {op : StringOp}
    {width : Option Nat} (heffect : effect? (String.ofList mnemonic) = some (.string op width)) :
    let text := String.ofList (led leading body)
    let ctx : Context := { arch, view }
    ((anatomy (trim (splitComment text.toList).1)).footprint (contextOf arch view text) lastReturn).uses =
      ctx.string (splitArguments arguments) op width ++
        if (leading.map Prod.fst).any isRepeatWord then ctx.register arch.counter .both else [] := by
  intro text ctx
  have hcomment : splitComment text.toList = (led leading body, []) := by
    rw [String.toList_ofList, splitComment_of_not_mem (hleading.hash_not_mem hhash)]
  have hctx : contextOf arch view text = ctx := by rw [contextOf, hcomment]; rfl
  have halone : anatomy body = ⟨none, mnemonic, arguments⟩ := by
    rw [anatomy, hsplit, peel, dif_neg (by simp [hword])]
  have hparts : anatomy (led leading body) =
      ⟨(leading.map Prod.fst).foldl carry none, mnemonic, arguments⟩ := by
    rw [hleading.anatomy_led hbody (by rw [hsplit]; exact hword), halone]
  rw [hctx, hcomment, anatomy_trim, hparts, Anatomy.footprint, heffect]
  simp only [hword, any_foldl_carry, Option.any_none, Bool.false_or, Bool.false_eq_true, if_false]
  split
  · rfl
  · simp [Context.footprint, Context.uses]

namespace StringOp

/-- `effect?` knows the mnemonics of both spellings. -/
theorem effect?_stem_suffix (op : StringOp) (width : StringWidth) :
    effect? op.stem = some (.string op none) ∧
      effect? (op.stem ++ width.suffix) = some (.string op (some width.bytes)) := by
  -- one computation for all of them, since the table is read through for each
  have htable : ∀ op ∈ StringOp.all, effect? op.stem = some (.string op none) ∧
      ∀ width ∈ StringWidth.all, effect? (op.stem ++ width.suffix) = some (.string op (some width.bytes)) := by
    decide +kernel
  obtain ⟨hstem, hsuffix⟩ := htable op op.mem_all
  exact ⟨hstem, hsuffix width width.mem_all⟩

theorem uses_suffixed (arch : Description) (view : View) (lastReturn : Word) {leading : List (List Char × List Char)}
    (hleading : Leads leading) (op : StringOp) (width : StringWidth) :
    let text := String.ofList (led leading (op.suffixed width))
    let ctx : Context := { arch, view }
    ((anatomy (trim (splitComment text.toList).1)).footprint (contextOf arch view text) lastReturn).uses =
      ctx.string [] op (some width.bytes) ++
        if (leading.map Prod.fst).any isRepeatWord then ctx.register arch.counter .both else [] := by
  have hmnemonic : IsWord (op.suffixed width) ∧ '#' ∉ op.suffixed width ∧ isPrefixWord (op.suffixed width) = false := by
    cases op <;> cases width <;> decide +kernel
  obtain ⟨hword, hhash, hpeels⟩ := hmnemonic
  have hbody : trim (op.suffixed width) ≠ [] := by simpa using hword.trim_append_ne_nil []
  refine uses_string arch view lastReturn hleading hhash hbody hword.splitWord hpeels ?_
  rw [suffixed, String.ofList_toList]
  exact (effect?_stem_suffix op width).2

theorem uses_writtenOut (arch : Arch) (view : View) (lastReturn : Word) {leading : List (List Char × List Char)}
    (hleading : Leads leading) {gap : List Char} (hgap : IsGap gap) (op : StringOp) (width : StringWidth) :
    let text := String.ofList (led leading (op.writtenOut arch.description width gap))
    let ctx : Context := { arch := arch.description, view }
    ((anatomy (trim (splitComment text.toList).1)).footprint (contextOf arch.description view text) lastReturn).uses =
      ctx.string (op.operands arch.description width) op none ++
        if (leading.map Prod.fst).any isRepeatWord then ctx.register arch.description.counter .both else [] := by
  have hmnemonic : IsWord op.stem.toList ∧ '#' ∉ op.stem.toList ∧ isPrefixWord op.stem.toList = false := by
    cases op <;> decide +kernel
  obtain ⟨hword, hhash, hpeels⟩ := hmnemonic
  have heffect : effect? (String.ofList op.stem.toList) = some (.string op none) := by
    rw [String.ofList_toList]
    exact (effect?_stem_suffix op width).1
  have hoperands : ∀ op ∈ StringOp.all, ∀ width ∈ StringWidth.all,
      let operands := op.operands arch.description width
      '#' ∉ Text.join [','] operands ∧ splitArguments (trim (Text.join [','] operands)) = operands := by
    cases arch <;> decide +kernel
  obtain ⟨hclean, hsplit⟩ := hoperands op op.mem_all width width.mem_all
  have hblank : '#' ∉ gap := fun hmem => absurd (hgap.blank _ hmem) (by decide)
  have hbody : trim (op.writtenOut arch.description width gap) ≠ [] := by
    simpa [writtenOut] using hword.trim_append_ne_nil (gap ++ Text.join [','] (op.operands arch.description width))
  have huses := uses_string arch.description view lastReturn hleading (by simp [writtenOut, hhash, hblank, hclean])
    hbody (hword.splitWord_append hgap _) hpeels heffect
  rwa [hsplit] at huses

theorem ofStringOp_eq_map (arch : Description) (width : Nat) (op : StringOp) : Reference.ofStringOp arch width op =
    (op.indexes arch).map fun entry => Reference.through entry.1 width entry.2 := by
  cases op <;> rfl

theorem mem_addressing_of_mem_indexes {arch : Description} {op : StringOp} {entry : String × Direction}
    (h : entry ∈ op.indexes arch) : entry.1 ∈ addressing arch := by
  have hall : ∀ entry ∈ op.indexes arch, entry.1 ∈ addressing arch := by
    cases op <;> simp [indexes, addressing]
  exact hall entry h

/-- The memory that the spelling with a suffix uses in some directions lies at the index registers. -/
theorem mem_bytes_suffixed (arch : Arch) (view : View) {lastReturn : Word} {leading : List (List Char × List Char)}
    (hleading : Leads leading) (op : StringOp) (width : StringWidth) (passes : Direction → Bool) {a : Word} :
    let text := String.ofList (led leading (op.suffixed width))
    let uses := ((anatomy (trim (splitComment text.toList).1)).footprint (contextOf arch.description view text)
      lastReturn).uses
    a ∈ ((uses.filter fun use => passes use.direction).map (·.operand)).filterMap Operand.address? ↔
      ∃ entry ∈ op.indexes arch.description, passes entry.2 = true ∧
        a ∈ bytesFrom (view.evaluateAddress (registerExpression entry.1)) width.bytes := by
  intro text uses
  let ctx : Context := { arch := arch.description, view }
  have hoperands : ctx.Composed (fun target => (ctx.aimed target).string [] op (some width.bytes))
      (Reference.ofStringOp arch.description width.bytes op) := by
    simpa [Reference.ofArguments, Reference.implied] using ctx.composed_string [] op (some width.bytes)
  have hcounter : ctx.Composed
      (fun target => if (leading.map Prod.fst).any isRepeatWord then
        (ctx.aimed target).register arch.description.counter .both else []) [] := by
    split
    · exact ctx.composed_register _ _
    · exact ctx.composed_nil
  have hrefers : ctx.Refers
      (ctx.string [] op (some width.bytes) ++
        if (leading.map Prod.fst).any isRepeatWord then ctx.register arch.description.counter .both else [])
      (Reference.ofStringOp arch.description width.bytes op) :=
    (hoperands.append_none hcounter).refers none
  have huses : uses = _ := uses_suffixed arch.description view lastReturn hleading op width
  rw [huses, hrefers.mem_bytes, ofStringOp_eq_map]
  simp only [List.mem_map, exists_exists_and_eq_and]
  refine exists_congr fun entry => and_congr_right fun hentry => and_congr_right fun _ => ?_
  exact Context.touches_through_index arch view (mem_addressing_of_mem_indexes hentry)

/-- **The two spellings of a string instruction agree.** On any machine and behind any prefixes (`Leads`), they read
the same operands and they write the same operands, each as often as the other. The memory among these are as many
bytes as the width says, from where the index registers of the operation point. -/
theorem suffixed_perm_writtenOut (arch : Arch) (view : View) (lastReturn pc : Word)
    {leading : List (List Char × List Char)} (hleading : Leads leading) {gap : List Char} (hgap : IsGap gap)
    (op : StringOp) (width : StringWidth) (hwidth : width.bytes ≤ arch.description.pointerWidth) :
    let short := decode arch.description view lastReturn pc (String.ofList (led leading (op.suffixed width)))
    let long := decode arch.description view lastReturn pc
      (String.ofList (led leading (op.writtenOut arch.description width gap)))
    short.sources.Perm long.sources ∧ short.destinations.Perm long.destinations ∧
      (∀ a, a ∈ short.readBytes ↔ ∃ entry ∈ op.indexes arch.description, entry.2.reads = true ∧
        a ∈ bytesFrom (view.evaluateAddress (registerExpression entry.1)) width.bytes) ∧
      ∀ a, a ∈ short.writtenBytes ↔ ∃ entry ∈ op.indexes arch.description, entry.2.writes = true ∧
        a ∈ bytesFrom (view.evaluateAddress (registerExpression entry.1)) width.bytes := by
  have hperm := @Context.string_perm arch { arch := arch.description, view } rfl width hwidth op
  dsimp only
  refine ⟨?_, ?_, fun a => ?_, fun a => ?_⟩
  · rw [sources_decode, sources_decode, uses_suffixed arch.description view lastReturn hleading,
      uses_writtenOut arch view lastReturn hleading hgap]
    exact ((hperm.append_right _).filter _).map _
  · rw [destinations_decode, destinations_decode, uses_suffixed arch.description view lastReturn hleading,
      uses_writtenOut arch view lastReturn hleading hgap]
    exact ((hperm.append_right _).filter _).map _
  · rw [Instruction.readBytes, sources_decode]
    exact mem_bytes_suffixed arch view hleading op width Direction.reads
  · rw [Instruction.writtenBytes, destinations_decode]
    exact mem_bytes_suffixed arch view hleading op width Direction.writes

/-- A machine with the bytes `1` and `2` at the source index and `3` and `4` at the destination index. -/
def copying : View where
  evaluate expression :=
    if expression = "$esi" then 0x1000 else if expression = "$edi" then 0x2000 else if expression = "$ecx" then 8 else 0
  evaluateAddress expression := if expression = "$esi" then 0x1000 else if expression = "$edi" then 0x2000 else 0
  byte address :=
    if address = 0x1000 then 1 else if address = 0x1001 then 2 else if address = 0x2000 then 3
    else if address = 0x2001 then 4 else 0

/-- Both spellings of a repeated copy read two bytes, write two bytes and count down, in different orders. -/
theorem suffixed_perm_writtenOut_repeated_copy :
    ∃ short long,
      short = decode Arch.x86.description copying 0 0x1000 "rep movsw" ∧
      long = decode Arch.x86.description copying 0 0x1000 "rep movs\tWORD PTR es:[edi],WORD PTR ds:[esi]" ∧
      [.ofMemory 0x1000 1, .ofMemory 0x1001 2].Sublist short.sources ∧
      [.ofMemory 0x2000 3, .ofMemory 0x2001 4].Sublist short.destinations ∧
      .ofRegister ⟨"ecx", ⟨"ecx", ["cx", "ch", "cl"]⟩⟩ 8 ∈ short.destinations ∧
      short.sources ≠ long.sources ∧
      short.sources.Perm long.sources ∧ short.destinations.Perm long.destinations := by
  have hgap : IsGap ['\t'] := by decide
  have hleading : Leads [("rep".toList, [' '])] := ⟨by decide +kernel, by decide +kernel⟩
  have hshort : String.ofList (led [("rep".toList, [' '])] (StringOp.move.suffixed .word)) = "rep movsw" := by
    decide +kernel
  have hlong : String.ofList (led [("rep".toList, [' '])]
      (StringOp.move.writtenOut Arch.x86.description .word ['\t'])) =
        "rep movs\tWORD PTR es:[edi],WORD PTR ds:[esi]" := by
    decide +kernel
  have htouched :
      let short := decode Arch.x86.description copying 0 0x1000 "rep movsw"
      [.ofMemory 0x1000 1, .ofMemory 0x1001 2].Sublist short.sources ∧
      [.ofMemory 0x2000 3, .ofMemory 0x2001 4].Sublist short.destinations ∧
      .ofRegister ⟨"ecx", ⟨"ecx", ["cx", "ch", "cl"]⟩⟩ 8 ∈ short.destinations ∧
      short.sources ≠ (decode Arch.x86.description copying 0 0x1000
        "rep movs\tWORD PTR es:[edi],WORD PTR ds:[esi]").sources := by
    decide +kernel
  obtain ⟨hread, hwritten, hcounter, horder⟩ := htouched
  have hagree := suffixed_perm_writtenOut .x86 copying 0 0x1000 hleading hgap .move .word (by decide)
  rw [hshort, hlong] at hagree
  obtain ⟨hsources, hdestinations, -⟩ := hagree
  exact ⟨_, _, rfl, rfl, hread, hwritten, hcounter, horder, hsources, hdestinations⟩

end StringOp

end TraceSlice.Decode
