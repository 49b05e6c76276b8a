import TraceSlice.Proofs.Faults

/-!
# The bytes that an instruction touches

The memory among the operands of an instruction, as a set of addresses. What an instruction reads and what it writes
are the bytes of its references in that direction (`mem_readBytes_decode`, `mem_writtenBytes_decode`). If the arguments
are used in the other direction only, these are the references that the effect implies, whatever the arguments are
(`mem_readBytes_of_means`, `mem_writtenBytes_of_means`).
-/

namespace TraceSlice

open TraceSlice.Expr (Tree)

namespace Instruction

/-- The addresses of the bytes that an instruction reads. -/
def readBytes (insn : Instruction) : List Word := insn.sources.filterMap Operand.address?

/-- The addresses of the bytes that an instruction writes. -/
def writtenBytes (insn : Instruction) : List Word := insn.destinations.filterMap Operand.address?

/-- The registers that an instruction reads, those that form addresses (`isMemoryAccess`) among them. -/
def readRegisters (insn : Instruction) : List Register := insn.sources.filterMap Operand.register?

/-- The registers that an instruction writes. -/
def writtenRegisters (insn : Instruction) : List Register := insn.destinations.filterMap Operand.register?

end Instruction

/-- The addresses of `size` bytes from `base` on. Addresses wrap. -/
def bytesFrom (base : Word) (size : Nat) : List Word := (List.range size).map fun k => base + UInt64.ofNat k

theorem mem_bytesFrom_ofInt {a : Word} {v : Int} {size : Nat} :
    a ∈ bytesFrom (UInt64.ofInt v) size ↔ ∃ k < size, a = UInt64.ofInt (v + k) := by
  simp [bytesFrom, UInt64.ofInt_add, ofInt_natCast, eq_comm]

namespace Decode

/-! ### Bytes of references -/

theorem Reference.direction_of_mem_ofArgument {arch : Description} {text : List Char} {direction : Direction}
    {ref : Reference} (h : ref ∈ ofArgument arch text direction) : ref.direction = direction := by
  unfold ofArgument at h
  dsimp only at h
  split_ifs at h <;> simp_all

theorem Reference.direction_mem_of_mem_ofArguments {arch : Description} {args : Arguments}
    {directions : List Direction} {ref : Reference} (h : ref ∈ ofArguments arch args directions) :
    ref.direction ∈ directions := by
  induction args generalizing directions with
  | nil => simp [ofArguments] at h
  | cons text rest ih =>
      cases directions with
      | nil => simp [ofArguments] at h
      | cons direction directions =>
          rw [ofArguments, List.zipWith_cons_cons, List.flatten_cons, List.mem_append] at h
          obtain hfirst | hrest := h
          · simp [direction_of_mem_ofArgument hfirst]
          · exact List.mem_cons_of_mem _ (ih hrest)

namespace Context

/-- The byte at `a` belongs to a reference that is an address. -/
def Touches (ctx : Context) (ref : Reference) (a : Word) : Prop :=
  ref.isAddress ctx.arch = true ∧ ∃ k < ref.width, a = ctx.base ref + UInt64.ofNat k

variable {ctx : Context} {passes : Direction → Bool} {a : Word}

theorem exists_use_iff_touches {ref : Reference} :
    (∃ use ∈ ctx.refer ref, passes use.direction = true ∧ use.operand.address? = some a) ↔
      passes ref.direction = true ∧ ctx.Touches ref a := by
  constructor
  · intro h
    obtain ⟨use, huse, hpasses, haddress⟩ := h
    obtain ⟨r, -, rfl⟩ | ⟨hunderstood, k, hk, rfl⟩ := mem_refer.mp huse
    · cases haddress
    · exact ⟨hpasses, hunderstood, k, hk, (Option.some.inj haddress).symm⟩
  · intro h
    obtain ⟨hpasses, hunderstood, k, hk, rfl⟩ := h
    exact ⟨_, mem_refer.mpr (.inr ⟨hunderstood, k, hk, rfl⟩), hpasses, rfl⟩

/-- The bytes that uses touch in the directions that `passes` admits are those of the references. -/
theorem Refers.mem_bytes {uses : List Use} {refs : List Reference} (h : ctx.Refers uses refs) :
    a ∈ ((uses.filter fun use => passes use.direction).map (·.operand)).filterMap Operand.address? ↔
      ∃ ref ∈ refs, passes ref.direction = true ∧ ctx.Touches ref a := by
  have hreferring : ∀ operand : Operand, operand.address? = some a → operand.isReferring = true := by
    intro operand haddress
    simp [Operand.isReferring, Operand.isMemory, haddress]
  simp only [← exists_use_iff_touches, List.mem_filterMap]
  constructor
  · intro hbyte
    obtain ⟨operand, hoperand, haddress⟩ := hbyte
    obtain ⟨ref, href, use, huse, hpasses, rfl⟩ := (h.mem_filter (hreferring _ haddress) passes).mp hoperand
    exact ⟨ref, href, use, huse, hpasses, haddress⟩
  · intro hbyte
    obtain ⟨ref, href, use, huse, hpasses, haddress⟩ := hbyte
    have hoperand := (h.mem_filter (hreferring _ haddress) passes).mpr ⟨ref, href, use, huse, hpasses, rfl⟩
    exact ⟨use.operand, hoperand, haddress⟩

/-- Bytes used in directions in which no argument is used belong to `Reference.implied`. -/
theorem exists_reference_iff_implied {args : Arguments} {lastReturn : Word} {effect : Effect}
    (hdirections : ∀ direction ∈ Reference.directions args effect, passes direction = false)
    (hcalls : Reference.callsSystem ctx.arch args effect = false) :
    (∃ ref ∈ ctx.references args lastReturn effect, passes ref.direction = true ∧ ctx.Touches ref a) ↔
      ∃ ref ∈ Reference.implied ctx.arch args effect, passes ref.direction = true ∧ ctx.Touches ref a := by
  constructor
  · intro h
    obtain ⟨ref, href, hpasses, htouches⟩ := h
    simp only [references, hcalls, Bool.false_eq_true, if_false, List.append_nil, List.mem_append] at href
    obtain hargument | himplied := href
    · have hnot := hdirections _ (Reference.direction_mem_of_mem_ofArguments hargument)
      rw [hnot] at hpasses
      cases hpasses
    · exact ⟨ref, himplied, hpasses, htouches⟩
  · intro h
    obtain ⟨ref, himplied, htouches⟩ := h
    exact ⟨ref, List.mem_append_left _ (List.mem_append_right _ himplied), htouches⟩

end Context

section

variable {arch : Description} {view : View} {lastReturn pc : Word} {text : String} {a : Word}

theorem mem_readBytes_decode : a ∈ (decode arch view lastReturn pc text).readBytes ↔
    ∃ ref ∈ references arch view lastReturn text,
      ref.direction.reads = true ∧ (contextOf arch view text).Touches ref a := by
  rw [Instruction.readBytes, sources_decode]
  exact refers_decode.mem_bytes

theorem mem_writtenBytes_decode : a ∈ (decode arch view lastReturn pc text).writtenBytes ↔
    ∃ ref ∈ references arch view lastReturn text,
      ref.direction.writes = true ∧ (contextOf arch view text).Touches ref a := by
  rw [Instruction.writtenBytes, destinations_decode]
  exact refers_decode.mem_bytes

/-! ### Instructions with a known effect -/

/-- The mnemonic stands for the effect: it is none of `prefixWords`, and the table has it (`effect?`). -/
def Means (mnemonic : String) (effect : Effect) : Prop :=
  prefixWords.contains mnemonic = false ∧ effect? mnemonic = some effect

instance (mnemonic : String) (effect : Effect) : Decidable (Means mnemonic effect) :=
  inferInstanceAs (Decidable (_ ∧ _))

theorem Anatomy.footprint_of_means {parts : Anatomy} {effect : Effect}
    (hmeans : Means (String.ofList parts.mnemonic) effect) (hstring : ∀ op width, effect ≠ .string op width)
    (ctx : Context) (lastReturn : Word) :
    parts.footprint ctx lastReturn = ctx.footprint (splitArguments parts.arguments) lastReturn effect := by
  unfold Anatomy.footprint isPrefixWord
  rw [hmeans.1, hmeans.2]
  cases effect with
  | string op width => exact absurd rfl (hstring op width)
  | _ => rfl

/-- The arguments of the instruction with a text, as `decode` takes them apart. -/
def argumentsOf (text : String) : Arguments :=
  splitArguments (anatomy (Text.trim (splitComment text.toList).1)).arguments

variable {effect : Effect} (hmeans : Means (decode arch view lastReturn pc text).mnemonic effect)

include hmeans

theorem references_of_means : references arch view lastReturn text =
    (contextOf arch view text).references (argumentsOf text) lastReturn effect := by
  obtain ⟨hword, heffect⟩ := hmeans
  rw [mnemonic_decode] at hword heffect
  unfold references Anatomy.references isPrefixWord
  rw [hword, heffect]
  rfl

theorem mem_references_of_implied {ref : Reference} (h : ref ∈ Reference.implied arch (argumentsOf text) effect) :
    ref ∈ references arch view lastReturn text := by
  rw [references_of_means hmeans]
  exact List.mem_append_left _ (List.mem_append_right _ h)

theorem uses_of_means (hstring : ∀ op width, effect ≠ .string op width) :
    ((anatomy (Text.trim (splitComment text.toList).1)).footprint (contextOf arch view text) lastReturn).uses =
      ((contextOf arch view text).footprint (argumentsOf text) lastReturn effect).uses := by
  rw [mnemonic_decode] at hmeans
  rw [Anatomy.footprint_of_means hmeans hstring]
  rfl

/-- The `readBytes` of an instruction belong to what its effect implies, if it reads none of its arguments. -/
theorem mem_readBytes_of_means
    (hdirections : ∀ direction ∈ Reference.directions (argumentsOf text) effect, direction.reads = false)
    (hcalls : Reference.callsSystem arch (argumentsOf text) effect = false) :
    a ∈ (decode arch view lastReturn pc text).readBytes ↔
      ∃ ref ∈ Reference.implied arch (argumentsOf text) effect,
        ref.direction.reads = true ∧ (contextOf arch view text).Touches ref a := by
  rw [mem_readBytes_decode, references_of_means hmeans]
  exact Context.exists_reference_iff_implied hdirections hcalls

/-- The `writtenBytes` of an instruction belong to what its effect implies, if it writes none of its arguments. -/
theorem mem_writtenBytes_of_means
    (hdirections : ∀ direction ∈ Reference.directions (argumentsOf text) effect, direction.writes = false)
    (hcalls : Reference.callsSystem arch (argumentsOf text) effect = false) :
    a ∈ (decode arch view lastReturn pc text).writtenBytes ↔
      ∃ ref ∈ Reference.implied arch (argumentsOf text) effect,
        ref.direction.writes = true ∧ (contextOf arch view text).Touches ref a := by
  rw [mem_writtenBytes_decode, references_of_means hmeans]
  exact Context.exists_reference_iff_implied hdirections hcalls

end

end Decode

/-! ### Bytes at a displacement from a register -/

namespace Replay

variable {replay : Replay} {text : String} {ref : Decode.Reference} {r : Register} {name : String} {value a : Word}

theorem effectiveAddress_displaced (hr : replay.arch.description.register? name = some r)
    (hrelative : r.group.contains replay.arch.description.instructionPointer = false)
    (hregister : replay.registerValue? name = some value) (target : Option Word) (offset : Int) :
    replay.effectiveAddress target (Tree.displaced name offset) = value.toNat + offset := by
  have hvalue : (Tree.displaced name offset).value (Expr.integers replay.registerValue?) = value.toNat + offset := by
    unfold Tree.displaced
    dsimp only
    split_ifs with hzero hneg
    · simp [Tree.value, Expr.integers, hregister, hzero]
    · simp only [Tree.value, Expr.integers, hregister, Option.getD_some]
      omega
    · simp only [Tree.value, Expr.integers, hregister, Option.getD_some]
      omega
  have hnot : (Tree.displaced name offset).isRelative replay.arch.description = false := by
    rw [Tree.isRelative, Tree.registers_displaced hr]
    simp [hrelative]
  unfold effectiveAddress
  cases target with
  | none => exact hvalue
  | some address => rw [hnot]; exact hvalue

/-- The bytes of a reference through a pointer and a displacement (`Tree.displaced`). -/
theorem touches_displaced {offset : Int}
    (hwritten : Decode.Written replay.arch.description ref.text (Tree.displaced name offset))
    (hr : replay.arch.description.register? name = some r)
    (hrelative : r.group.contains replay.arch.description.instructionPointer = false)
    (hregister : replay.registerValue? name = some value) :
    (Decode.contextOf replay.arch.description (Backend.view replay) text).Touches ref a ↔
      ∃ k < ref.width, a = UInt64.ofInt (value.toNat + offset + k) := by
  have hunderstood := isAddress_of_written hwritten
  simp only [Decode.Context.Touches, base_add_eq hwritten, effectiveAddress_displaced hr hrelative hregister]
  exact and_iff_right hunderstood

end Replay

end TraceSlice
