import TraceSlice.Proofs.AddressSpace
import TraceSlice.Proofs.Insertion
import TraceSlice.Proofs.Opening

/-!
# Seeding after a bad access

After a bad access a session tracks what may have made the address bad. That is read off the faulting instruction:
the registers of its references, or all that it reads if the stack itself was at fault. A stack fault is a fault of one
of four mnemonics, each of which implies a reference through a pointer, whatever its arguments say
(`exists_pointer_of_stackFault`). So the stack is then always monitored. What is tracked is known by its place, and the
places of pointers are known by their names, so it does not matter which of two suspects with one place was kept
(`any_isPointer_iff`).
-/

namespace TraceSlice

/-! ### Pointers in implied references -/

namespace Decode.Reference

theorem registers_of_written {arch : Description} (harch : arch.Legible) {ref : Reference} {tree : Expr.Tree .sum}
    (h : Written arch ref.text tree) : ref.registers arch = tree.registers arch :=
  registers_of_denotes harch (h.scan harch).2

end Decode.Reference

/-- The stack and frame pointers of an architecture are registers of pointer groups (`isPointerGroup`), which do not
hold the instruction pointer. -/
theorem Arch.pointer_of_role (arch : Arch) {name : String}
    (h : name ∈ [arch.description.stackPointer, arch.description.framePointer]) :
    ∃ r, arch.description.register? name = some r ∧ arch.description.isPointerGroup r.group = true ∧
      r.group.contains arch.description.instructionPointer = false := by
  have htable : ∀ name ∈ [arch.description.stackPointer, arch.description.framePointer],
      (arch.description.register? name).any (fun r => arch.description.isPointerGroup r.group &&
        !r.group.contains arch.description.instructionPointer) = true := by
    cases arch <;> decide
  simpa using (Option.any_eq_true _ _).mp (htable name h)

open Decode in
/-- A reference through a stack slot (`Reference.slot`) is formed from a pointer. -/
theorem Arch.pointer_of_slot (arch : Arch) {offset : Int} (hoffset : offset.natAbs < UInt64.size) (width : Nat)
    (direction : Direction) :
    ∃ r ∈ (Reference.slot arch.description offset width direction).registers arch.description,
      arch.description.isPointerGroup r.group = true := by
  obtain ⟨r, hr, hpointer, -⟩ := arch.pointer_of_role List.mem_cons_self
  have hwritten := Reference.written_slot hr hoffset width direction
  rw [Reference.registers_of_written arch.legible hwritten, Expr.Tree.registers_displaced hr]
  exact ⟨r, List.mem_singleton_self r, hpointer⟩

open Decode in
theorem Arch.pointer_of_frame (arch : Arch) (width : Nat) (direction : Direction) :
    ∃ r ∈ (Reference.through arch.description.framePointer width direction).registers arch.description,
      arch.description.isPointerGroup r.group = true := by
  obtain ⟨r, hr, hpointer, -⟩ := arch.pointer_of_role (List.mem_cons_of_mem _ List.mem_cons_self)
  have hwritten := Reference.written_through hr width direction
  rw [Reference.registers_of_written arch.legible hwritten, Expr.Tree.registers_displaced hr]
  exact ⟨r, List.mem_singleton_self r, hpointer⟩

namespace Decode

/-- The effects of the mnemonics that `isStackFault` names. -/
theorem effect?_of_stackFault {mnemonic : String} (h : Session.isStackFault mnemonic = true) :
    prefixWords.contains mnemonic = false ∧
      ∃ effect ∈ [Effect.push, .pop, .nearReturn, .leave], effect? mnemonic = some effect := by
  have htable : ∀ mnemonic ∈ ["ret", "leave", "pop", "push"], prefixWords.contains mnemonic = false ∧
      ∃ effect ∈ [Effect.push, .pop, .nearReturn, .leave], effect? mnemonic = some effect := by
    decide +kernel
  exact htable mnemonic (List.contains_iff_mem.mp h)

/-- Each of these effects implies a reference through a pointer (`Reference.implied`). -/
theorem exists_pointer_of_implied (arch : Arch) (args : Arguments) {effect : Effect}
    (h : effect ∈ [Effect.push, .pop, .nearReturn, .leave]) :
    ∃ ref ∈ Reference.implied arch.description args effect, ∃ r ∈ ref.registers arch.description,
      arch.description.isPointerGroup r.group = true := by
  have hwidth : arch.description.pointerWidth < UInt64.size := by cases arch <;> decide
  have hpopped : ∃ ref ∈ Reference.popped arch.description 1 arch.description.pointerWidth,
      ∃ r ∈ ref.registers arch.description, arch.description.isPointerGroup r.group = true := by
    refine ⟨_, List.mem_cons_self, arch.pointer_of_slot ?_ _ _⟩
    rw [Nat.zero_mul]
    decide
  simp only [List.mem_cons, List.not_mem_nil, or_false] at h
  rcases h with rfl | rfl | rfl | rfl
  · refine ⟨_, List.mem_cons_self, arch.pointer_of_slot ?_ _ _⟩
    rwa [Int.natAbs_neg, Int.natAbs_natCast]
  · exact hpopped
  · exact hpopped
  · exact ⟨_, List.mem_cons_self, arch.pointer_of_frame _ _⟩

theorem mnemonic_decode (arch : Description) (view : View) (lastReturn pc : Word) (text : String) :
    (decode arch view lastReturn pc text).mnemonic =
      String.ofList (anatomy (Text.trim (splitComment text.toList).1)).mnemonic := by
  unfold decode
  dsimp only
  split <;> rfl

end Decode

namespace Replay

variable {replay : Replay} {lastReturn pc : Word} {text : String}

/-- An instruction that faults on the stack (`isStackFault`) forms an address from a pointer, whatever its arguments
are. -/
theorem exists_pointer_of_stackFault
    (h : Session.isStackFault (replay.decoded lastReturn pc text).mnemonic = true) :
    ∃ ref ∈ replay.references lastReturn text, ∃ r ∈ ref.registers replay.arch.description,
      replay.arch.description.isPointerGroup r.group = true := by
  rw [decoded, Decode.mnemonic_decode] at h
  obtain ⟨hword, effect, heffect, hfound⟩ := Decode.effect?_of_stackFault h
  obtain ⟨ref, href, hpointer⟩ := Decode.exists_pointer_of_implied replay.arch
    (Decode.splitArguments (Decode.anatomy (Text.trim (Decode.splitComment text.toList).1)).arguments) heffect
  refine ⟨ref, ?_, hpointer⟩
  unfold references Decode.references Decode.Anatomy.references Decode.isPrefixWord
  rw [hword, hfound]
  exact List.mem_append_left _ (List.mem_append_right _ href)

/-- The text of the current instruction, or an empty one if it is unknown. -/
def currentText (replay : Replay) : String := (Backend.disassemble replay replay.current.pc).toOption.getD ""

/-- The registers that form the addresses of the current instruction, from its `references`. -/
def addressRegisters (replay : Replay) : List Register :=
  (replay.references 0 replay.currentText).flatMap (Decode.Reference.registers replay.arch.description)

/-- The `addressRegisters` as operands, with their current values. -/
def addressOperands (replay : Replay) : List Operand :=
  replay.addressRegisters.map fun r => .addressRegister r (replay.valueOf r)

theorem mem_addressOperands {o : Operand} :
    o ∈ replay.addressOperands ↔ ∃ ref ∈ replay.references 0 replay.currentText,
      ∃ r ∈ ref.registers replay.arch.description, o = .addressRegister r (replay.valueOf r) := by
  simp only [addressOperands, addressRegisters, List.mem_map, List.mem_flatMap]
  constructor
  · intro h
    obtain ⟨r, ⟨ref, href, hr⟩, rfl⟩ := h
    exact ⟨ref, href, r, hr, rfl⟩
  · intro h
    obtain ⟨ref, href, r, hr, rfl⟩ := h
    exact ⟨r, ⟨ref, href, hr⟩, rfl⟩

/-- A register among the uses of a reference (`refer`) is one of those that form its address, with its current value.
-/
theorem mem_refer_register (text : String) {ref : Decode.Reference} {use : Use} (h : use.operand.isRegister = true) :
    use ∈ (Decode.contextOf replay.arch.description (Backend.view replay) text).refer ref ↔
      ∃ r ∈ ref.registers replay.arch.description, use = ⟨.source, .addressRegister r (replay.valueOf r)⟩ := by
  have hvalue : ∀ r ∈ ref.registers replay.arch.description,
      Decode.addressValue replay.arch.description (Backend.view replay) r = replay.valueOf r :=
    fun r hr => addressValue_view (Decode.pieces_registers_mem _ _ r hr)
  rw [Decode.Context.mem_refer]
  constructor
  · intro huse
    obtain ⟨r, hr, rfl⟩ | ⟨-, k, -, rfl⟩ := huse
    · exact ⟨r, hr, by rw [← hvalue r hr]; rfl⟩
    · cases h
  · intro hregister
    obtain ⟨r, hr, rfl⟩ := hregister
    exact .inl ⟨r, hr, by rw [← hvalue r hr]; rfl⟩

/-- The registers among the sources that form an address (`isMemoryAccess`) are those of the references. -/
theorem mem_addressOperands_iff_source {o : Operand} :
    o ∈ replay.addressOperands ↔
      o ∈ (replay.decoded 0 pc replay.currentText).sources ∧ o.isRegister = true ∧ o.isMemoryAccess = true := by
  rw [mem_addressOperands]
  constructor
  · intro h
    obtain ⟨ref, href, r, hr, rfl⟩ := h
    have huse := (mem_refer_register replay.currentText rfl).mpr ⟨r, hr, rfl⟩
    exact ⟨(Decode.mem_sources_decode rfl).mpr ⟨ref, href, _, huse, rfl, rfl⟩, rfl, rfl⟩
  · intro h
    obtain ⟨hsource, hregister, haccess⟩ := h
    have hreferring : o.isReferring = true := by simp [Operand.isReferring, haccess]
    obtain ⟨ref, href, use, huse, -, rfl⟩ := (Decode.mem_sources_decode hreferring).mp hsource
    obtain ⟨r, hr, rfl⟩ := (mem_refer_register _ hregister).mp huse
    exact ⟨ref, href, r, hr, rfl⟩

end Replay

/-! ### One operand for each place -/

/-- The tracked operands stand for given ones: each is one of them, and there is just one for each place. -/
structure Tracked.StandsFor (tracked : Tracked) (operands : List Operand) : Prop where
  mem : ∀ o ∈ tracked.toList, o ∈ operands ∧ o.isImmediate = false
  places : ∀ x, x ∈ tracked.places ↔ x ∈ placesOf operands
  distinct : tracked.toList.Pairwise fun a b => a.same b = false

theorem Tracked.standsFor_extend (operands : List Operand) : (({} : Tracked).extend operands).StandsFor operands where
  mem o ho := by simpa using mem_toList_extend ho
  places x := by
    rw [mem_places_extend]
    simp [Tracked.places]
  distinct := Tracked.distinct _

theorem Tracked.StandsFor.congr {tracked : Tracked} {operands others : List Operand} (h : tracked.StandsFor operands)
    (heq : ∀ o, o ∈ others ↔ o ∈ operands) : tracked.StandsFor others where
  mem o ho := ⟨(heq o).mpr (h.mem o ho).1, (h.mem o ho).2⟩
  places x := by simp only [h.places, mem_placesOf, heq]
  distinct := h.distinct

namespace Session

variable {replay : Replay} {config : Config} {signal : Option Signal}

/-- A session that has not been seeded. -/
def opened (replay : Replay) (config : Config) (signal : Option Signal) : Session Replay where
  backend := replay
  arch := replay.arch
  config := config
  monitorStack := config.monitorStack
  slice := { pc := replay.current.pc, signal }

theorem entry_opened : (opened replay config signal).entry =
    (opened replay config signal).locate (replay.decoded 0 replay.current.pc replay.currentText) := rfl

theorem mnemonic_entry_opened : (opened replay config signal).entry.mnemonic =
    (replay.decoded 0 replay.current.pc replay.currentText).mnemonic := by
  rw [entry_opened]
  rfl

theorem withSymbol_of_isRegister (s : Session Replay) {o : Operand} (h : o.isRegister = true) : s.withSymbol o = o := by
  have haddress : o.address? = none := by
    unfold Operand.isRegister Operand.register? at h
    unfold Operand.address?
    split at h
    · next hl => rw [hl]
    · cases h
  simp [withSymbol, haddress]

theorem isRegister_withSymbol (s : Session Replay) (o : Operand) : (s.withSymbol o).isRegister = o.isRegister := by
  unfold withSymbol
  split
  · split <;> rfl
  · rfl

/-- The `suspects` of a fault that is not the stack's are the `addressOperands`. -/
theorem mem_suspects_entry {o : Operand} :
    o ∈ replay.addressOperands ↔ o ∈ suspects false (opened replay config signal).entry := by
  rw [Replay.mem_addressOperands_iff_source, suspects, List.mem_filter, entry_opened, Bool.false_or, Bool.and_eq_true]
  refine and_congr_left fun h => ?_
  rw [locate, List.mem_map]
  constructor
  · intro hsource
    exact ⟨o, hsource, withSymbol_of_isRegister _ h.1⟩
  · intro hlocated
    obtain ⟨o', hsource, rfl⟩ := hlocated
    rw [isRegister_withSymbol] at h
    rwa [withSymbol_of_isRegister _ h.1]

/-- Whether one of the operands is a pointer (`isPointer`) can be told from those that stand for them. -/
theorem any_isPointer_iff {s : Session Replay} {tracked : Tracked} {operands : List Operand}
    (h : tracked.StandsFor operands)
    (hregister : ∀ o ∈ operands, ∀ r, o.register? = some r → r ∈ s.arch.description.allRegisters) :
    operands.any s.isPointer = true ↔ ∃ o ∈ tracked.toList, s.isPointer o = true := by
  rw [List.any_eq_true]
  constructor
  · intro hany
    obtain ⟨o, ho, hpointer⟩ := hany
    obtain ⟨r, hr, hgroup⟩ := (Option.any_eq_true _ _).mp hpointer
    -- the operand that was kept for the place has another register, perhaps, but one of the same group
    have hplace := (h.places _).mpr (mem_placesOf.mpr ⟨o, ho, Operand.place?_of_register? hr⟩)
    obtain ⟨kept, hkept, hsame⟩ := mem_placesOf.mp hplace
    obtain ⟨r', hr', hname⟩ := Operand.register?_of_place_group hsame
    have hcanonical := s.arch.canonical_mem_pointerNames (Description.group_mem_of_mem (hregister o ho r hr)) hgroup
    rw [← hname] at hcanonical
    exact ⟨kept, hkept, (Option.any_eq_true _ _).mpr ⟨r', hr', Description.isPointerGroup_of_canonical hcanonical⟩⟩
  · intro hany
    obtain ⟨o, ho, hpointer⟩ := hany
    exact ⟨o, (h.mem o ho).1, hpointer⟩

theorem register_mem_of_entry {o : Operand} {r : Register} (h : o ∈ (opened replay config signal).entry.sources)
    (hr : o.register? = some r) : r ∈ replay.arch.description.allRegisters := by
  rw [entry_opened, locate, List.mem_map] at h
  obtain ⟨o, hsource, rfl⟩ := h
  have hregister : o.isRegister = true := by
    rw [← isRegister_withSymbol (opened replay config signal), Operand.isRegister, hr]
    rfl
  rw [withSymbol_of_isRegister _ hregister] at hr
  obtain ⟨direction, hfaithful⟩ := Decode.faithful_of_mem_sources hsource
  exact (hfaithful.register r hr).1

/-- If `isStackFault`, a pointer is among what the instruction reads. -/
theorem any_isPointer_of_stackFault (h : isStackFault (opened replay config signal).entry.mnemonic = true) :
    (opened replay config signal).entry.sources.any (opened replay config signal).isPointer = true := by
  rw [mnemonic_entry_opened] at h
  obtain ⟨ref, href, r, hr, hpointer⟩ := Replay.exists_pointer_of_stackFault h
  have hsuspect : .addressRegister r (replay.valueOf r) ∈ suspects false (opened replay config signal).entry :=
    mem_suspects_entry.mp (Replay.mem_addressOperands.mpr ⟨ref, href, r, hr, rfl⟩)
  exact List.any_eq_true.mpr ⟨_, (List.mem_filter.mp hsuspect).1, (Option.any_eq_true _ _).mpr ⟨r, rfl, hpointer⟩⟩

theorem start_of_ofRecording {recording : Recording} (h : Replay.ofRecording recording = .ok replay) :
    Session.start replay config = .ok (opened replay config none) := by
  obtain ⟨arch, newest, older, harch, -, rfl⟩ := Replay.ofRecording_inv h
  unfold Session.start
  simp only [Backend.architectureName, Backend.programCounter, harch]
  rfl

/-- What `seed` does on a session just opened, by the signal. -/
theorem seed_opened_eq (config : Config) {number : Int32} (hsignal : replay.process.signal = some number) :
    (opened replay config none).seed =
      if Signal.ofNumber number = .abort then .ok (.abort, opened replay config (some (Signal.ofNumber number)))
      else if !replay.isExecutable replay.current.pc then
        (opened replay config (some (Signal.ofNumber number))).seedInvalidPc replay.current.pc
      else if Signal.ofNumber number = .bus ∨ Signal.ofNumber number = .segmentationFault ∨
          Signal.ofNumber number = .floatingPoint then
        .ok ((opened replay config (some (Signal.ofNumber number))).seedFault (Signal.ofNumber number)
          replay.current.pc)
      else .ok (.unhandled (Signal.ofNumber number), opened replay config (some (Signal.ofNumber number))) := by
  have hnumber : Backend.terminationSignal (opened replay config none).backend = .ok number := by
    simp [Backend.terminationSignal, opened, hsignal]
  unfold seed
  rw [hnumber]
  rfl

/-- After a bad access in the code, `seed` blames the instruction at hand (`seedFault`). -/
theorem seed_of_fault {number : Int32} {fault : Signal} (hsignal : replay.process.signal = some number)
    (hnumber : Signal.ofNumber number = fault) (hfault : fault = .bus ∨ fault = .segmentationFault)
    (hexec : replay.isExecutable replay.current.pc = true) :
    (opened replay config none).seed =
      .ok ((opened replay config (some fault)).seedFault fault replay.current.pc) := by
  have habort : fault ≠ .abort := by rcases hfault with rfl | rfl <;> decide
  have hknown : fault = .bus ∨ fault = .segmentationFault ∨ fault = .floatingPoint := by
    rcases hfault with rfl | rfl <;> decide
  rw [seed_opened_eq config hsignal, hnumber, if_neg habort, hexec, if_neg (by simp), if_pos hknown]

/-- What a bad access is blamed on: the `suspects` of the instruction at hand. -/
def blamed (replay : Replay) (config : Config) : List Operand :=
  let insn := (opened replay config none).entry
  suspects (isStackFault insn.mnemonic) insn

/-- The session that tracks what a bad access is blamed on. -/
def blaming (replay : Replay) (config : Config) (fault : Signal) : Session Replay :=
  let insn := (opened replay config none).entry
  { (opened replay config (some fault)).remember insn with
    slice :=
      { pc := replay.current.pc, signal := some fault, tracked := ({} : Tracked).extend (blamed replay config),
        instructions := [insn] }
    monitorStack := config.monitorStack || (blamed replay config).any (opened replay config none).isPointer }

theorem seedFault_of_access {fault : Signal} (h : fault ≠ .floatingPoint) :
    (opened replay config (some fault)).seedFault fault replay.current.pc =
      (.invalidAccess fault (({} : Tracked).extend (blamed replay config)).size
        ((blamed replay config).any (opened replay config none).isPointer), blaming replay config fault) := by
  have hbeq : (fault == .floatingPoint) = false := beq_false_of_ne h
  -- what the instruction is does not depend on the signal
  have hentry : (opened replay config (some fault)).locate
      ((opened replay config (some fault)).instructionAt replay.current.pc) = (opened replay config none).entry := rfl
  have hpointer : (opened replay config (some fault)).isPointer = (opened replay config none).isPointer := rfl
  have htracked : (opened replay config (some fault)).slice.tracked = {} := rfl
  have hblamed : suspects (isStackFault (opened replay config none).entry.mnemonic) (opened replay config none).entry =
      blamed replay config := rfl
  have hcount : (({} : Tracked).insertAll (blamed replay config)).2 =
      (({} : Tracked).extend (blamed replay config)).size := by
    rw [Tracked.size_extend]
    exact (Nat.zero_add _).symm
  unfold seedFault blaming
  simp only [hbeq, hentry, hpointer, htracked, hblamed, hcount, Tracked.insertAll_fst, remember, Bool.not_false,
    Bool.true_and, Bool.false_eq_true, if_false]
  generalize blamed replay config = operands
  rfl

/-- What the session of `blaming` holds one step before the bad access. -/
theorem backed_blaming (replay : Replay) (config : Config) (fault : Signal) :
    (blaming replay config fault).backed.slice.tracked = ({} : Tracked).extend (blamed replay config) ∧
      (blaming replay config fault).backed.slice.instructions = [(opened replay config none).entry] ∧
      (blaming replay config fault).backed.monitorStack =
        (config.monitorStack || (blamed replay config).any (opened replay config none).isPointer) ∧
      (blaming replay config fault).backed.backend = replay.back := by
  unfold blaming
  generalize blamed replay config = operands
  exact ⟨rfl, rfl, rfl, rfl⟩

/-- The session that `Slicer.crashed` begins at a bad access in the code. -/
theorem crashed_of_fault {recording : Recording} {number : Int32} {fault : Signal}
    (hopen : Replay.ofRecording recording = .ok replay) (hsignal : recording.signal = some number)
    (hnumber : Signal.ofNumber number = fault) (hfault : fault = .bus ∨ fault = .segmentationFault)
    (hexec : replay.isExecutable replay.current.pc = true) :
    Slicer.crashed replay {} config =
      .ok (⟨(blaming replay config fault).backed, {}⟩,
        .invalidAccess fault (({} : Tracked).extend (blamed replay config)).size
          ((blamed replay config).any (opened replay config none).isPointer)) := by
  have hprocess := (Replay.signal_of_ofRecording hopen).trans hsignal
  have harithmetic : fault ≠ .floatingPoint := by rcases hfault with rfl | rfl <;> decide
  have hseed : (opened replay config none).seed = _ := seed_of_fault hprocess hnumber hfault hexec
  rw [seedFault_of_access harithmetic] at hseed
  exact crashed_of_seed {} (start_of_ofRecording hopen) hseed

/-- **Seeding after a bad access.** Unless the stack is at fault (`isStackFault`), a session tracks one operand for
each of the registers that form an address of the faulting instruction (`addressOperands`), and nothing else. If the
stack is at fault, it tracks one operand for each place that the instruction reads, and monitors the stack, whatever
the text of the instruction is. The report counts the tracked operands, and tells truly whether a pointer is among
them; the stack is then monitored even if the configuration does not ask for it. The slice is the faulting
instruction, and the session stands one step before it, if there is one. Of a reference that is an address, the
registers are those in it. -/
theorem crashed_standsFor (recording : Recording) (replay : Replay) (config : Config) (number : Int32)
    (hopen : Replay.ofRecording recording = .ok replay) (hsignal : recording.signal = some number)
    (hfault : Signal.ofNumber number = .bus ∨ Signal.ofNumber number = .segmentationFault)
    (hexec : replay.isExecutable replay.current.pc = true) :
    let insn := (opened replay config none).entry
    ∃ s seeded monitor,
      Slicer.crashed replay {} config = .ok (⟨s, {}⟩, .invalidAccess (Signal.ofNumber number) seeded monitor) ∧
      (isStackFault insn.mnemonic = false → s.slice.tracked.StandsFor replay.addressOperands) ∧
      (isStackFault insn.mnemonic = true → s.slice.tracked.StandsFor insn.sources ∧ monitor = true) ∧
      seeded = s.slice.tracked.size ∧
      (monitor = true ↔ ∃ o ∈ s.slice.tracked.toList, ∃ r, o.register? = some r ∧
        replay.arch.description.isPointerGroup r.group = true) ∧
      s.monitorStack = (config.monitorStack || monitor) ∧
      s.slice.instructions = [insn] ∧
      s.backend = replay.back ∧ s.backend.position = replay.position - 1 ∧
      ∀ ref ∈ replay.references 0 replay.currentText, ∀ tree, Decode.Written replay.arch.description ref.text tree →
        ref.registers replay.arch.description = tree.registers replay.arch.description := by
  intro insn
  have hstands : (({} : Tracked).extend (blamed replay config)).StandsFor (blamed replay config) :=
    Tracked.standsFor_extend _
  have hregister : ∀ o ∈ blamed replay config, ∀ r, o.register? = some r → r ∈ replay.arch.description.allRegisters :=
    fun o ho r hr => register_mem_of_entry (List.mem_filter.mp ho).1 hr
  obtain ⟨htracked, hinsns, hflag, hbackend⟩ := backed_blaming replay config (Signal.ofNumber number)
  have hposition : (blaming replay config (Signal.ofNumber number)).backed.backend.position = replay.position - 1 := by
    rw [hbackend, replay.position_back]
  refine ⟨_, _, _, crashed_of_fault hopen hsignal rfl hfault hexec, ?_, ?_, by rw [htracked], ?_, hflag, hinsns,
    hbackend, hposition, ?_⟩
  · intro hsound
    rw [htracked]
    refine hstands.congr fun o => ?_
    rw [mem_suspects_entry, blamed, hsound]
  · -- a stack fault blames every source, the stack pointer among them
    intro hstack
    have hall : blamed replay config = insn.sources := by
      rw [blamed, hstack, suspects]
      simp [insn]
    rw [htracked, hall]
    rw [hall] at hstands
    exact ⟨hstands, any_isPointer_of_stackFault hstack⟩
  · rw [any_isPointer_iff hstands hregister, htracked]
    simp only [isPointer, Option.any_eq_true]
    rfl
  · intro ref _ tree htree
    exact Decode.Reference.registers_of_written replay.arch.legible htree

/-- A bad access through two registers, one of them a pointer, that moves a third. -/
def indexedFault : Recording where
  archName := "i386"
  signal := some 11
  steps := [{ pc := 0x1000, asm := "mov ebx,ecx" },
    { pc := 0x1002, asm := "mov DWORD PTR [ebp+ebx*4],eax", registers := .ofList [("ebp", 0x2000), ("ebx", 0x7fff)] }]

theorem crashed_standsFor_at_indexedFault :
    ∃ replay s seeded, Replay.ofRecording indexedFault = .ok replay ∧
      Slicer.crashed replay {} {} = .ok (⟨s, {}⟩, .invalidAccess .segmentationFault seeded true) ∧
      s.slice.tracked.StandsFor replay.addressOperands ∧
      placesOf replay.addressOperands = [.group "ebp", .group "ebx"] := by
  have hopen : ∃ replay ∈ (Replay.ofRecording indexedFault).toOption, replay.isExecutable replay.current.pc = true ∧
      isStackFault (opened replay {} none).entry.mnemonic = false ∧
      replay.arch.description.pointerNames.contains "ebp" = true ∧
      placesOf replay.addressOperands = [.group "ebp", .group "ebx"] := by
    decide +kernel
  obtain ⟨replay, hopen, hexec, hsound, hpointer, hplaces⟩ := hopen
  have hopen := Except.eq_ok_of_mem_toOption hopen
  obtain ⟨s, seeded, monitor, hcrashed, htracked, -, -, hmonitor, -⟩ :=
    crashed_standsFor indexedFault replay {} 11 hopen rfl (.inr (by decide)) hexec
  have hstands := htracked hsound
  have hmonitored : monitor = true := by
    have hplace : Place.group "ebp" ∈ s.slice.tracked.places := by
      rw [hstands.places, hplaces]
      exact List.mem_cons_self
    obtain ⟨o, ho, hebp⟩ := mem_placesOf.mp hplace
    obtain ⟨r, hr, hname⟩ := Operand.register?_of_place_group hebp
    rw [← hname, List.contains_iff_mem] at hpointer
    exact hmonitor.mpr ⟨o, ho, r, hr, Description.isPointerGroup_of_canonical hpointer⟩
  rw [hmonitored] at hcrashed
  exact ⟨replay, s, seeded, hopen, hcrashed, hstands, hplaces⟩

/-- A bad access by a single instruction. -/
def faultAt (asm : String) : Recording where
  archName := "i386"
  signal := some 11
  steps := [{ pc := 0x1000, asm, registers := .ofList [("ebx", 0x7fff)] }]

/-- What a bad access by a single instruction is seeded with. -/
def seedsAt? (asm : String) : Option (List Operand × SeedReport) := do
  let replay ← (Replay.ofRecording (faultAt asm)).toOption
  let (slicer, report) ← (Slicer.crashed replay {} {}).toOption
  return (slicer.session.slice.tracked.toList, report)

/-- The addresses of thread-local storage are not known, and instructions without effects refer to nothing, so the
registers that form these addresses are not tracked. -/
theorem crashed_tracks_none :
    seedsAt? "mov eax,DWORD PTR fs:[ebx]" = some ([], .invalidAccess .segmentationFault 0 false) ∧
      seedsAt? "bound eax,QWORD PTR [ebx]" = some ([], .invalidAccess .segmentationFault 0 false) := by
  decide +kernel

end Session

end TraceSlice
