import TraceSlice.Proofs.References
import TraceSlice.Proofs.Resolution

/-!
# The address space

Addresses are sums of 64-bit words on either architecture, and nothing narrows them to the width of a pointer. So the
bytes that an instruction refers to are told apart modulo 2^64: where a 32-bit machine wraps, at a negative index or
below the bottom of its address space, the address of an operand is not the one that the machine forms
(`decode_address_above`). It is that address exactly if the sum, wrapped at 2^64, stays below 2^32
(`decode_bytes_iff`).
-/

namespace TraceSlice

open TraceSlice.Expr (Terminal Tree)

/-- The target that the comment of an instruction gives (`commentTarget?`). -/
def Decode.targetOf (text : String) : Option Word := Decode.commentTarget? (Decode.splitComment text.toList).2

/-! ### Implied references are addresses -/

/-- A register and a displacement: the tree of `[name+offset]`. -/
def Expr.Tree.displaced (name : String) (offset : Int) : Tree .sum :=
  let register : Tree .sum := .product (.unary (.atom (.register name)))
  let distance : Tree .product := .unary (.atom (.number offset.natAbs))
  if offset = 0 then register else if offset < 0 then .sub register distance else .add register distance

theorem Expr.Tree.registers_displaced {arch : Description} {name : String} {r : Register}
    (hr : arch.register? name = some r) (offset : Int) : (Tree.displaced name offset).registers arch = [r] := by
  unfold displaced
  dsimp only
  split
  · simp [registers, yield, Terminal.register?, hr]
  · split <;> simp [registers, yield, Terminal.register?, hr]

namespace Decode.Reference

variable {arch : Description} {name : String} {r : Register}

theorem written_through (hr : arch.register? name = some r) (width : Nat) (direction : Direction) :
    Written arch (through name width direction).text (Tree.displaced name 0) := by
  obtain ⟨hmem, rfl⟩ := Description.register?_mem hr
  have hbody : Spaced arch (r.name.toList ++ []) (Tree.displaced r.name 0).yield := .terminal (.register hmem) .nil
  have hwritten := Written.closed (.bracket (.terminals hbody)) []
  simpa [through] using hwritten

/-- The slots of a stack are addresses: the text of each is `Written`. -/
theorem written_slot (hr : arch.register? arch.stackPointer = some r) {offset : Int}
    (hoffset : offset.natAbs < UInt64.size) (width : Nat) (direction : Direction) :
    Written arch (slot arch offset width direction).text (Tree.displaced arch.stackPointer offset) := by
  by_cases hzero : offset = 0
  · subst hzero
    exact written_through hr width direction
  · obtain ⟨hmem, hname⟩ := Description.register?_mem hr
    have hregister := Names.register hmem
    have hdistance : Names arch (Text.hexNat offset.natAbs).toList (.number offset.natAbs) :=
      .number (Text.literal_hexNat _) hoffset
    rw [hname] at hregister
    -- the two signs differ in the operator only
    have hsigned : ∀ {sign : Char} {l : Terminal}, Names arch [sign] l →
        (Tree.displaced arch.stackPointer offset).yield =
          [.register arch.stackPointer, l, .number offset.natAbs] →
        Written arch ('[' :: (arch.stackPointer.toList ++ ([sign] ++ ((Text.hexNat offset.natAbs).toList ++ []))) ++
          ']' :: []) (Tree.displaced arch.stackPointer offset) := by
      intro sign l hsign hyield
      refine .closed (.bracket (.terminals ?_)) []
      rw [hyield]
      exact .terminal hregister (.terminal hsign (.terminal hdistance .nil))
    by_cases hneg : offset < 0
    · have hwritten := hsigned .minus (by simp [Tree.displaced, hzero, hneg, Tree.yield])
      simpa [slot, hzero, hneg] using hwritten
    · have hwritten := hsigned .plus (by simp [Tree.displaced, hzero, hneg, Tree.yield])
      simpa [slot, hzero, hneg] using hwritten

end Decode.Reference

/-! ### Bytes -/

namespace Replay

/-- The operand of the byte at an integer address. -/
def byteOperand (replay : Replay) (v : Int) : Operand :=
  .ofMemory (UInt64.ofInt v) ((Backend.view replay).byte (UInt64.ofInt v))

/-- The instruction that `Decode.decode` makes of a text at the current step. -/
def decoded (replay : Replay) (lastReturn pc : Word) (text : String) : Instruction :=
  Decode.decode replay.arch.description (Backend.view replay) lastReturn pc text

/-- The references (`Decode.references`) of the instruction with a text at the current step. -/
def references (replay : Replay) (lastReturn : Word) (text : String) : List Decode.Reference :=
  Decode.references replay.arch.description (Backend.view replay) lastReturn text

section

variable {replay : Replay} {lastReturn pc : Word} {text : String} {ref : Decode.Reference} {tree : Tree .sum}

theorem ofInt_eq_ofInt_iff {v w : Int} : UInt64.ofInt v = UInt64.ofInt w ↔ v % UInt64.size = w % UInt64.size := by
  rw [Word.eq_ofInt_iff, Word.eq_ofInt_iff.mp rfl]

/-- Two `byteOperand`s are the same exactly if their addresses agree modulo 2^64. -/
theorem byteOperand_same_iff (replay : Replay) (v w : Int) :
    (replay.byteOperand v).same (replay.byteOperand w) = true ↔ v % UInt64.size = w % UInt64.size := by
  rw [← ofInt_eq_ofInt_iff]
  simp [Operand.same, byteOperand]

/-- The operand is at the address of a 32-bit machine exactly if the sum stays within 32 bits once it is wrapped. -/
theorem address_narrow_iff (v : Int) :
    ((UInt64.ofInt v).toNat : Int) = v % UInt32.size ↔ v % UInt64.size < UInt32.size := by
  have hword : ((UInt64.ofInt v).toNat : Int) = v % UInt64.size := Word.eq_ofInt_iff.mp rfl
  have hpos : (0 : Int) < UInt64.size := by decide
  have hnonneg := Int.emod_nonneg v (Int.ne_of_gt hpos)
  have hdvd : v % UInt64.size % UInt32.size = v % UInt32.size := Int.emod_emod_of_dvd v (by decide)
  rw [hword]
  constructor
  · intro h
    rw [h]
    exact Int.emod_lt_of_pos v (by decide)
  · intro h
    rw [← hdvd, Int.emod_eq_of_lt hnonneg h]

/-- A byte of a reference lies at its offset from the `effectiveAddress`. -/
theorem base_add_eq (h : Decode.Written replay.arch.description ref.text tree) (k : Nat) :
    (Decode.contextOf replay.arch.description (Backend.view replay) text).base ref + UInt64.ofNat k =
      UInt64.ofInt (replay.effectiveAddress (Decode.targetOf text) tree + k) := by
  have hbase := baseAddress_eq (h.scan replay.arch.legible) (Decode.targetOf text)
  rw [UInt64.ofInt_add, ofInt_natCast, ← hbase]
  rfl

theorem isAddress_of_written (h : Decode.Written replay.arch.description ref.text tree) :
    ref.isAddress replay.arch.description = true :=
  understood_of_scans (h.scan replay.arch.legible)

/-- A memory operand among the uses of a reference is a `byteOperand` of it. -/
theorem eq_byteOperand_of_mem_refer {use : Use}
    (huse : use ∈ (Decode.contextOf replay.arch.description (Backend.view replay) text).refer ref)
    (hmemory : use.operand.isMemory = true) :
    ∃ k < ref.width, ∀ tree, Decode.Written replay.arch.description ref.text tree →
      use.operand = replay.byteOperand (replay.effectiveAddress (Decode.targetOf text) tree + k) := by
  obtain ⟨r, -, rfl⟩ | ⟨-, k, hk, rfl⟩ := Decode.Context.mem_refer.mp huse
  · cases hmemory
  · refine ⟨k, hk, fun tree htree => ?_⟩
    rw [base_add_eq htree]
    rfl

theorem byteOperand_mem_refer (text : String) (h : Decode.Written replay.arch.description ref.text tree) {k : Nat}
    (hk : k < ref.width) :
    ⟨ref.direction, replay.byteOperand (replay.effectiveAddress (Decode.targetOf text) tree + k)⟩ ∈
      (Decode.contextOf replay.arch.description (Backend.view replay) text).refer ref := by
  refine Decode.Context.mem_refer.mpr (.inr ⟨isAddress_of_written h, k, hk, ?_⟩)
  rw [base_add_eq h]
  rfl

end

/-- **Decoded addresses wrap at 64 bits.** Every byte of memory that an instruction reads or writes is a byte of one of
its references, and lies at its offset from the effective address, provided that the reference is an address; and every
byte of such a reference is read or written, as the reference says. The bytes at two integer addresses are one operand
exactly if the addresses agree modulo 2^64, and the byte at an integer address lies where a 32-bit machine has it
exactly if the address stays below 2^32 once it is wrapped at 2^64. -/
theorem decode_bytes_iff (replay : Replay) (lastReturn pc : Word) (text : String) :
    (∀ operand ∈ (replay.decoded lastReturn pc text).sources ++ (replay.decoded lastReturn pc text).destinations,
      operand.isMemory = true → ∃ ref ∈ replay.references lastReturn text, ∃ k < ref.width,
        ∀ tree, Decode.Written replay.arch.description ref.text tree →
          operand = replay.byteOperand (replay.effectiveAddress (Decode.targetOf text) tree + k)) ∧
      (∀ ref ∈ replay.references lastReturn text, ∀ tree, Decode.Written replay.arch.description ref.text tree →
        ∀ k < ref.width,
          let byte := replay.byteOperand (replay.effectiveAddress (Decode.targetOf text) tree + (k : Int))
          (ref.direction.reads = true → byte ∈ (replay.decoded lastReturn pc text).sources) ∧
            (ref.direction.writes = true → byte ∈ (replay.decoded lastReturn pc text).destinations)) ∧
      (∀ v w, (replay.byteOperand v).same (replay.byteOperand w) = true ↔ v % UInt64.size = w % UInt64.size) ∧
      ∀ v, ∃ address, (replay.byteOperand v).address? = some address ∧
        ((address.toNat : Int) = v % UInt32.size ↔ v % UInt64.size < UInt32.size) := by
  refine ⟨?_, ?_, replay.byteOperand_same_iff, fun v => ⟨_, rfl, address_narrow_iff v⟩⟩
  · intro operand hoperand hmemory
    have hreferring : operand.isReferring = true := by simp [Operand.isReferring, hmemory]
    have hsome : ∃ ref ∈ replay.references lastReturn text,
        ∃ use ∈ (Decode.contextOf replay.arch.description (Backend.view replay) text).refer ref,
          use.operand = operand := by
      obtain hsource | hdestination := List.mem_append.mp hoperand
      · obtain ⟨ref, href, use, huse, -, heq⟩ := (Decode.mem_sources_decode hreferring).mp hsource
        exact ⟨ref, href, use, huse, heq⟩
      · obtain ⟨ref, href, use, huse, -, heq⟩ := (Decode.mem_destinations_decode hreferring).mp hdestination
        exact ⟨ref, href, use, huse, heq⟩
    obtain ⟨ref, href, use, huse, rfl⟩ := hsome
    obtain ⟨k, hk, hbyte⟩ := eq_byteOperand_of_mem_refer huse hmemory
    exact ⟨ref, href, k, hk, hbyte⟩
  · intro ref href tree htree k hk
    have huse := byteOperand_mem_refer text htree hk
    exact ⟨fun hreads => (Decode.mem_sources_decode rfl).mpr ⟨ref, href, _, huse, hreads, rfl⟩,
      fun hwrites => (Decode.mem_destinations_decode rfl).mpr ⟨ref, href, _, huse, hwrites, rfl⟩⟩

/-- A replay of a 32-bit program whose index is minus one and whose stack is at its end. -/
def narrow : Replay where
  process := { archName := "i386" }
  arch := .x86
  past := []
  current := { registers := .ofList [("ebx", 0x1000), ("ecx", 0xffffffff), ("esp", 2)] }
  future := []

/-- `decode_bytes_iff` at the slot of a push below the bottom of the address space. -/
theorem decode_bytes_iff_at_narrow :
    ∃ ref ∈ narrow.references 0 "push eax", ref.direction = .destination ∧
      Decode.Written narrow.arch.description ref.text (Tree.displaced "esp" (-4)) ∧
      narrow.byteOperand (narrow.effectiveAddress none (Tree.displaced "esp" (-4)) + 1) ∈
        (narrow.decoded 0 0x1000 "push eax").destinations ∧
      narrow.effectiveAddress none (Tree.displaced "esp" (-4)) + 1 = -1 := by
  have hesp : narrow.arch.description.register? narrow.arch.description.stackPointer =
      some ⟨"esp", ⟨"esp", ["sp"]⟩⟩ := by decide
  have hmem : Decode.Reference.pushed narrow.arch.description ∈ narrow.references 0 "push eax" := by decide +kernel
  have hwritten := Decode.Reference.written_slot hesp (by decide : (-4 : Int).natAbs < UInt64.size) 4 .destination
  refine ⟨_, hmem, rfl, hwritten, ?_, by decide +kernel⟩
  exact ((decode_bytes_iff narrow 0 0x1000 "push eax").2.1 _ hmem _ hwritten 1 (by decide)).2 rfl

/-- On a 32-bit machine whose registers all hold 32-bit values, a negative index and a negative displacement that name
the same bytes are decoded to different ones, and those of the index lie above the address space. -/
theorem decode_address_above :
    narrow.arch = .x86 ∧
      (narrow.arch.description.allRegisters.all fun r => decide ((narrow.valueOf r).toNat < UInt32.size)) = true ∧
      (narrow.decoded 0 0x1000 "mov eax,DWORD PTR [ebx+ecx*4]").sources.filterMap Operand.address? =
        [0x400000ffc, 0x400000ffd, 0x400000ffe, 0x400000fff] ∧
      (narrow.decoded 0 0x1000 "mov eax,DWORD PTR [ebx-0x4]").sources.filterMap Operand.address? =
        [0xffc, 0xffd, 0xffe, 0xfff] ∧
      0x400000ffc % UInt32.size = 0xffc := by
  decide +kernel

end Replay

end TraceSlice
