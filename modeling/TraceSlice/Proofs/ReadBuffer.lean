import TraceSlice.Proofs.Opening
import TraceSlice.Proofs.StringForms

/-!
# What a system call reads

The system call that reads into a buffer should be decoded to write as many bytes as it returned (specification,
§4.1). What it returned is a signed integer as wide as a pointer (`returned`). The decoder takes this for the sign,
but the whole word for the number of bytes (`memory_destinations_decode`). So it writes the bytes that were read
exactly if nothing was read or the word fits a pointer (`memory_destinations_of_read_iff`), which on a 32-bit machine
it need not.
-/

namespace TraceSlice

namespace Decode

open Text

/-! ### What a call returned -/

/-- What a system call returned, as a signed integer as wide as a pointer (`pointerWidth`). -/
def returned (arch : Arch) (lastReturn : Word) : Int :=
  (BitVec.ofNat (8 * arch.description.pointerWidth) lastReturn.toNat).toInt

theorem signed_eq_returned (arch : Arch) (lastReturn : Word) :
    arch.description.signed lastReturn = returned arch lastReturn := by
  have hlt := lastReturn.toNat_lt
  cases arch with
  | x86 =>
      have hwidth : Arch.x86.description.pointerWidth = 4 := rfl
      rw [returned, Description.signed, if_pos hwidth, hwidth, BitVec.toInt_eq_toNat_cond, BitVec.toNat_ofNat]
      simp only [UInt32.size]
      split <;> split <;> omega
  | x64 =>
      have hwidth : Arch.x64.description.pointerWidth = 8 := rfl
      rw [returned, Description.signed, if_neg (by simp [hwidth]), hwidth, BitVec.toInt_eq_toNat_cond,
        BitVec.toNat_ofNat, Word.toSigned]
      simp only [UInt64.size]
      split <;> split <;> omega

/-- A positive result is the whole word exactly if the word fits a pointer. -/
theorem returned_eq_toNat_iff {arch : Arch} {lastReturn : Word} (hpos : 0 < returned arch lastReturn) :
    (returned arch lastReturn).toNat = lastReturn.toNat ↔ (arch = .x86 → lastReturn.toNat < UInt32.size) := by
  have hlt := lastReturn.toNat_lt
  rw [← signed_eq_returned] at hpos ⊢
  -- a positive result of four bytes keeps only the low half of the word, one of eight keeps it all
  cases arch with
  | x86 =>
      have hwidth : Arch.x86.description.pointerWidth = 4 := rfl
      rw [Description.signed, if_pos hwidth] at hpos ⊢
      simp only [UInt32.size, true_imp_iff] at hpos ⊢
      split at hpos
      · next hsmall =>
          rw [if_pos hsmall, Int.toNat_natCast]
          omega
      · omega
  | x64 =>
      have hwidth : ¬ Arch.x64.description.pointerWidth = 4 := by decide
      rw [Description.signed, if_neg hwidth, Word.toSigned] at hpos ⊢
      split at hpos
      · next hsmall =>
          rw [if_pos hsmall, Int.toNat_natCast]
          simp
      · simp only [UInt64.size] at hpos
        omega

/-! ### The buffer -/

/-- The bytes from `start` on, with what they hold. -/
def memoryFrom (view : View) (start : Word) (size : Nat) : List Operand :=
  (bytesFrom start size).map fun a => .ofMemory a (view.byte a)

theorem length_memoryFrom (view : View) (start : Word) (size : Nat) : (memoryFrom view start size).length = size := by
  simp [memoryFrom, bytesFrom]

/-- `memoryFrom` gives the same bytes only if they are as many and, unless there are none, start at the same address.
-/
theorem memoryFrom_eq_iff {view : View} {start other : Word} {size count : Nat} :
    memoryFrom view start size = memoryFrom view other count ↔ size = count ∧ (0 < size → start = other) := by
  constructor
  · intro h
    have hlength : size = count := by simpa only [length_memoryFrom] using congrArg List.length h
    subst hlength
    refine ⟨rfl, fun hpos => ?_⟩
    obtain ⟨size, rfl⟩ := Nat.exists_eq_succ_of_ne_zero (Nat.ne_zero_of_lt hpos)
    simp only [memoryFrom, bytesFrom, List.range_succ_eq_map, List.map_cons, List.cons.injEq] at h
    obtain ⟨hfirst, -⟩ := h
    simpa [Operand.ofMemory] using congrArg Operand.location hfirst
  · rintro ⟨rfl, hstart⟩
    obtain rfl | hpos := Nat.eq_zero_or_pos size
    · rfl
    · rw [hstart hpos]

section

variable {arch : Arch} {ctx : Context}

/-- Memory at a register (`indirect`) is read through the register, and starts where the machine says that it points.
-/
theorem Context.indirect_eq (hctx : ctx.arch = arch.description) {name : String}
    (hname : name ∈ addressing arch.description) (width : Nat) (direction : Direction) :
    ∃ r, ctx.indirect name width direction =
      ⟨.source, .addressRegister r (addressValue ctx.arch ctx.view r)⟩ ::
        byteUses ctx.view (ctx.view.evaluateAddress (registerExpression name)) width direction := by
  have hbase := baseAddress_through arch hname ctx.view ctx.target
  obtain ⟨r, hscan, -⟩ := pieces_through arch hname
  refine ⟨r, ?_⟩
  unfold Context.indirect Context.memory memoryUses
  dsimp only
  rw [hctx, hbase, hscan]
  rfl

theorem Context.isMemory_of_mem_register {name : String} {direction : Direction} {use : Use}
    (h : use ∈ ctx.register name direction) : use.operand.isMemory = false := by
  unfold Context.register Context.registerOperand? at h
  cases hr : ctx.arch.register? name with
  | none => simp [hr] at h
  | some r =>
      simp only [hr, Option.map_some, List.mem_singleton] at h
      subst h
      rfl

theorem memory_destinations_eq_nil {uses : List Use} (h : ∀ use ∈ uses, use.operand.isMemory = false) :
    (Use.destinations uses).filter Operand.isMemory = [] := by
  rw [List.filter_eq_nil_iff]
  intro operand hoperand
  obtain ⟨use, huse, rfl⟩ := List.mem_map.mp hoperand
  simp [h use (List.mem_of_mem_filter huse)]

theorem memory_destinations_byteUses (view : View) (start : Word) (width : Nat) :
    (Use.destinations (byteUses view start width .destination)).filter Operand.isMemory =
      memoryFrom view start width := by
  have hall : Use.destinations (byteUses view start width .destination) = memoryFrom view start width := by
    simp [Use.destinations, byteUses, memoryFrom, bytesFrom, List.filter_map, Direction.writes, Function.comp_def]
  rw [hall, List.filter_eq_self]
  intro operand hoperand
  obtain ⟨a, -, rfl⟩ := List.mem_map.mp hoperand
  rfl

/-- The memory that `Context.syscall` writes when the system call is the one that reads. -/
theorem Context.memory_syscall (hctx : ctx.arch = arch.description) (lastReturn : Word)
    (hnumber : ctx.view.evaluate (registerExpression arch.description.syscallNumber) = arch.description.readSyscall) :
    (Use.destinations (ctx.syscall lastReturn).uses).filter Operand.isMemory =
      memoryFrom ctx.view (ctx.view.evaluateAddress (registerExpression arch.description.readBuffer))
        (if 0 < arch.description.signed lastReturn then lastReturn.toNat else 0) := by
  have hbuffer :
      (Use.destinations (if 0 < arch.description.signed lastReturn then
        ctx.indirect arch.description.readBuffer lastReturn.toNat .destination else [])).filter Operand.isMemory =
        memoryFrom ctx.view (ctx.view.evaluateAddress (registerExpression arch.description.readBuffer))
          (if 0 < arch.description.signed lastReturn then lastReturn.toNat else 0) := by
    split
    · obtain ⟨r, hindirect⟩ := Context.indirect_eq hctx (by simp [addressing] :
        arch.description.readBuffer ∈ addressing arch.description) lastReturn.toNat .destination
      rw [hindirect]
      exact memory_destinations_byteUses _ _ _
    · rfl
  unfold Context.syscall
  dsimp only
  rw [hctx, hnumber]
  simp only [true_and]
  cases arch.description.syscall? arch.description.readSyscall with
  | none => exact hbuffer
  | some call =>
      dsimp only
      -- the number and the arguments of the call are registers, so the buffer is all the memory there is
      rw [List.append_assoc, Use.destinations_append, List.filter_append, hbuffer, memory_destinations_eq_nil,
        List.append_nil]
      intro use huse
      obtain hnumber | harguments := List.mem_append.mp huse
      · exact Context.isMemory_of_mem_register hnumber
      · obtain ⟨name, -, hargument⟩ := List.mem_flatMap.mp harguments
        exact Context.isMemory_of_mem_register hargument

end

/-! ### Decoding -/

/-- The texts that call the system, with any blanks between and around their words. -/
inductive SystemCall : Arch → List Char → Prop
  | syscall {arch : Arch} {body : List Char} (h : words body = ["syscall".toList]) : SystemCall arch body
  | sysenter {arch : Arch} {body : List Char} (h : words body = ["sysenter".toList]) : SystemCall arch body
  | gate {body : List Char} (h : words body = ["int".toList, "0x80".toList]) : SystemCall .x86 body

theorem SystemCall.hash_not_mem {arch : Arch} {body : List Char} (h : SystemCall arch body) : '#' ∉ body := by
  intro hmem
  obtain ⟨word, hword, hin⟩ := exists_mem_words (by decide : isBlank '#' = false) hmem
  rcases h with h | h | h <;> rw [h] at hword <;> revert word <;> decide

theorem SystemCall.footprint_eq {arch : Arch} {body : List Char} (h : SystemCall arch body) {ctx : Context}
    (hctx : ctx.arch = arch.description) (lastReturn : Word) :
    (anatomy body).footprint ctx lastReturn = ctx.syscall lastReturn := by
  cases h with
  | syscall h =>
      have hmeans : Means (String.ofList "syscall".toList) .syscall := by decide +kernel
      rw [(anatomy_of_words h hmeans.1).1, Anatomy.footprint_of_means hmeans (by simp)]
      rfl
  | sysenter h =>
      have hmeans : Means (String.ofList "sysenter".toList) .syscall := by decide +kernel
      rw [(anatomy_of_words h hmeans.1).1, Anatomy.footprint_of_means hmeans (by simp)]
      rfl
  | gate h =>
      have hmeans : Means (String.ofList "int".toList) .interrupt := by decide +kernel
      obtain ⟨hanatomy, hrest⟩ := anatomy_of_words h hmeans.1
      have harguments : (splitWord body).2 = "0x80".toList := by
        rw [← trim_eq_of_words_eq hrest, splitWord_eq, trim_trim]
      have hgate : (splitArguments "0x80".toList).head? = some "0x80".toList := by decide +kernel
      rw [hanatomy, harguments, Anatomy.footprint_of_means hmeans (by simp), Context.footprint, hctx,
        if_pos ⟨hgate, rfl⟩]

/-- What a read is decoded to write, in terms of the word that it returned. -/
theorem memory_destinations_decode (arch : Arch) (view : View) (lastReturn pc : Word) {body : List Char}
    (hcall : SystemCall arch body) (comment : Option (List Char))
    (hnumber : view.evaluate (registerExpression arch.description.syscallNumber) = arch.description.readSyscall) :
    (decode arch.description view lastReturn pc (String.ofList (commented body comment))).destinations.filter
        Operand.isMemory =
      memoryFrom view (view.evaluateAddress (registerExpression arch.description.readBuffer))
        (if 0 < returned arch lastReturn then lastReturn.toNat else 0) := by
  rw [decode_commented _ _ _ _ hcall.hash_not_mem]
  dsimp only
  rw [hcall.footprint_eq rfl, ← signed_eq_returned]
  exact Context.memory_syscall rfl lastReturn hnumber

/-- The memory that a read should be decoded to write: as many bytes as the call `returned`, if that is positive, and
none otherwise. -/
def bytesRead (arch : Arch) (view : View) (start lastReturn : Word) : List Operand :=
  memoryFrom view start (returned arch lastReturn).toNat

theorem memoryFrom_eq_bytesRead_iff {arch : Arch} {view : View} {start other lastReturn : Word} :
    memoryFrom view start (if 0 < returned arch lastReturn then lastReturn.toNat else 0) =
        bytesRead arch view other lastReturn ↔
      (0 < returned arch lastReturn → start = other ∧ (arch = .x86 → lastReturn.toNat < UInt32.size)) := by
  rw [bytesRead, memoryFrom_eq_iff]
  by_cases hpos : 0 < returned arch lastReturn
  · rw [if_pos hpos, ← returned_eq_toNat_iff hpos, eq_comm]
    constructor
    · rintro ⟨hcount, hstart⟩ -
      exact ⟨hstart (hcount ▸ Int.pos_iff_toNat_pos.mp hpos), hcount⟩
    · intro h
      exact ⟨(h hpos).2, fun _ => (h hpos).1⟩
  · rw [if_neg hpos, Int.toNat_of_nonpos (Int.not_lt.mp hpos)]
    simp [hpos]

/-- **When a read writes the bytes that it returned.** On a machine that is about to make the system call that reads,
every text for a system call is decoded to write memory from where the machine says that the buffer register points.
If the call returned a positive number, the bytes are as many as the whole word says that holds the result, and
otherwise there are none. They are those that were read, from the value of the buffer register on, exactly if nothing
was read, or the value is also the address and, on a machine with pointers of 32 bits, the word fits these. In a
recording, values are addresses, so that only the word matters. -/
theorem memory_destinations_of_read_iff (arch : Arch) (view : View) (lastReturn pc : Word) {body : List Char}
    (hcall : SystemCall arch body) (comment : Option (List Char))
    (hnumber : view.evaluate (registerExpression arch.description.syscallNumber) = arch.description.readSyscall) :
    let written := (decode arch.description view lastReturn pc
      (String.ofList (commented body comment))).destinations.filter Operand.isMemory
    let buffer := registerExpression arch.description.readBuffer
    written = memoryFrom view (view.evaluateAddress buffer)
        (if 0 < returned arch lastReturn then lastReturn.toNat else 0) ∧
      (written = bytesRead arch view (view.evaluate buffer) lastReturn ↔
        (0 < returned arch lastReturn →
          view.evaluateAddress buffer = view.evaluate buffer ∧ (arch = .x86 → lastReturn.toNat < UInt32.size))) ∧
      ∀ (replay : Replay) (r : Register), replay.arch = arch → view = Backend.view replay →
        arch.description.register? arch.description.readBuffer = some r →
        (written = bytesRead arch view (replay.valueOf r) lastReturn ↔
          (0 < returned arch lastReturn → arch = .x86 → lastReturn.toNat < UInt32.size)) := by
  intro written buffer
  have hwritten : written = _ := memory_destinations_decode arch view lastReturn pc hcall comment hnumber
  refine ⟨hwritten, ?_, ?_⟩
  · rw [hwritten, memoryFrom_eq_bytesRead_iff]
  · rintro replay r rfl rfl hr
    obtain ⟨hmem, hname⟩ := Description.register?_mem hr
    have hvalue : (Backend.view replay).evaluateAddress buffer = replay.valueOf r := by
      rw [← Replay.view_evaluate hmem, hname]
      rfl
    rw [hwritten, hvalue, memoryFrom_eq_bytesRead_iff]
    simp

/-- A machine about to read into a buffer at `0x9000`, and the result of the call. -/
def reading (result : Word) : Recording where
  archName := "i386"
  memory := [(0x9000, 1), (0x9001, 2), (0x9010, 3)]
  steps :=
    [{ pc := 0x1000, asm := "int 0x80", registers := .ofList [("eax", 3), ("ecx", 0x9000)] },
      { pc := 0x1002, asm := "nop", registers := .ofList [("eax", result)] }]

/-- `memory_destinations_of_read_iff` where it holds: two bytes at the buffer are written, with what the memory holds.
-/
theorem memory_destinations_of_read_iff_at_reading :
    ∃ replay, Replay.ofRecording (reading 2) = .ok replay ∧
      (let view := Backend.view replay.back
      view.evaluate "$eax" = 3 ∧ returned .x86 2 = 2 ∧
        (decode Arch.x86.description view 2 0x1000 "int 0x80").destinations.filter Operand.isMemory =
          [.ofMemory 0x9000 1, .ofMemory 0x9001 2]) := by
  have hready : ∃ replay ∈ (Replay.ofRecording (reading 2)).toOption, replay.back.arch = .x86 ∧
      (Backend.view replay.back).evaluate "$eax" = 3 ∧
        ∃ r ∈ Arch.x86.description.register? "ecx",
          memoryFrom (Backend.view replay.back) (replay.back.valueOf r) 2 =
            [.ofMemory 0x9000 1, .ofMemory 0x9001 2] := by
    decide +kernel
  obtain ⟨replay, hreplay, harch, hnumber, r, hr, hmemory⟩ := hready
  have hcall : SystemCall .x86 "int 0x80".toList := .gate (by decide +kernel)
  obtain ⟨-, -, hrecorded⟩ :=
    memory_destinations_of_read_iff .x86 (Backend.view replay.back) 2 0x1000 hcall none hnumber
  have hread := (hrecorded replay.back r harch rfl hr).mpr fun _ _ => by decide
  exact ⟨replay, Except.eq_ok_of_mem_toOption hreplay, hnumber, by decide, hread.trans hmemory⟩

/-- A recording may say that a call on a 32-bit machine returned a word that does not fit 32 bits. Of `0x100000003`, the
machine would see that three bytes were read, but as many as the whole word says are written. -/
theorem memory_destinations_of_read_beyond_pointer :
    ∃ s ∈ Session.ofRecording? (reading 0x100000003) {},
      let before := s.reverseStep.1
      let view := Backend.view before.backend
      view.evaluate "$eax" = 3 ∧ view.evaluate "$ecx" = 0x9000 ∧ before.lastReturn = 0x100000003 ∧
        returned .x86 before.lastReturn = 3 ∧
        ((before.instructionAt before.slice.pc).destinations.filter Operand.isMemory).length = 0x100000003 ∧
        (before.instructionAt before.slice.pc).destinations.filter Operand.isMemory ≠
          bytesRead .x86 view 0x9000 before.lastReturn := by
  have hready : ∃ s ∈ Session.ofRecording? (reading 0x100000003) {},
      (Backend.view s.reverseStep.1.backend).evaluate "$eax" = 3 ∧
        (Backend.view s.reverseStep.1.backend).evaluate "$ecx" = 0x9000 ∧
        s.reverseStep.1.lastReturn = 0x100000003 ∧ s.reverseStep.1.arch = .x86 ∧
        Backend.disassemble s.reverseStep.1.backend s.reverseStep.1.slice.pc = .ok "int 0x80" := by
    decide +kernel
  obtain ⟨s, hs, hnumber, hbuffer, hreturn, harch, htext⟩ := hready
  refine ⟨s, hs, ?_⟩
  generalize s.reverseStep.1 = before at *
  have hcall : SystemCall .x86 "int 0x80".toList := .gate (by decide +kernel)
  -- the operands are too many to evaluate, so their number comes from the general statement
  have hlength : ((before.instructionAt before.slice.pc).destinations.filter Operand.isMemory).length =
      0x100000003 := by
    have hread := memory_destinations_decode .x86 (Backend.view before.backend) before.lastReturn before.slice.pc hcall
      none hnumber
    rw [hreturn, if_pos (by decide)] at hread
    rw [Session.instructionAt, harch, htext, hreturn]
    exact (congrArg List.length hread).trans (length_memoryFrom ..)
  have hthree : returned .x86 before.lastReturn = 3 := by
    rw [hreturn]
    decide
  refine ⟨hnumber, hbuffer, hreturn, hthree, hlength, fun hsame => ?_⟩
  rw [hsame, bytesRead, length_memoryFrom, hthree] at hlength
  exact absurd hlength (by decide)

end Decode

end TraceSlice
