import TraceSlice.Proofs.Forward
import TraceSlice.Proofs.Resolution

/-!
# Decoded operands tell the truth

Whatever text is decoded, and for whichever architecture, each operand that comes of it is what it says (`Truthful`):
a register has the group of its name and the value that the replay gives it, a byte of memory the value that a machine
holds which has run all steps before the current one, and what is marked as part of an address is a register that is
read (`decode_tells_truth`). All effects have been shown to put such operands together (`decode_faithful`); here a
view is read as the replay behind it.
-/

namespace TraceSlice

namespace Replay

/-- The recording in which a replay stands. -/
def recording (replay : Replay) : Recording := { replay.process with steps := replay.steps }

/-- The machine before the current step runs (`Machine.before`). -/
def machine (replay : Replay) : Machine := Machine.before replay.recording replay.position

theorem view_byte (replay : Replay) (address : Word) :
    (Backend.view replay).byte address = (replay.machine.memory address).getD 0 := by
  have hbyte : replay.byte? address = replay.machine.memory address := byte?_eq_before rfl rfl address
  show (Backend.readByte replay address).toOption.getD 0 = _
  rw [← hbyte]
  simp only [Backend.readByte]
  cases replay.byte? address <;> rfl

/-- An operand that is what it says at the current step. -/
structure Truthful (replay : Replay) (arch : Arch) (operand : Operand) : Prop where
  /-- A register goes by a name of the architecture and has the group of that name. -/
  name : ∀ r, operand.register? = some r → arch.description.register? r.name = some r
  /-- It has its value at the current step, which is zero if there is none. -/
  value : ∀ r, operand.register? = some r → operand.value = (replay.registerValue? r.name).getD 0
  /-- A byte of memory has its value before the step runs, which is zero if it is not known. -/
  byte : ∀ a, operand.address? = some a → operand.value = Word.ofByte ((replay.machine.memory a).getD 0)
  /-- Only registers form addresses. -/
  access : operand.isMemoryAccess = true → operand.isRegister = true

theorem truthful_of_faithful {replay : Replay} {arch : Arch} {use : Use}
    (h : use.Faithful arch.description (Backend.view replay)) : replay.Truthful arch use.operand where
  name := fun r hr => arch.legible.unique r (h.register r hr).1
  value := fun r hr => by
    obtain ⟨hmem, hvalue⟩ := h.register r hr
    have hname := (arch.legible.register r hmem).2
    rw [hvalue, addressValue_name hname, view_evaluate_name hname, valueOf, ite_self]
  byte := fun a ha => by rw [h.memory a ha, view_byte]
  access := fun haccess => (h.access haccess).1

/-- **Decoded operands tell the truth.** For every architecture, replay, position and text, each operand of the decoded
instruction is what it says: a register of the architecture, of the group of its name and with its value at the current
step, or a byte of memory with the value that it holds before the step runs, zero if it is not known. On the replay's
own architecture every register has a value. Operands that form an address are registers and never written. -/
theorem decode_tells_truth (replay : Replay) (arch : Arch) (lastReturn pc : Word) (text : String) :
    let insn := Decode.decode arch.description (Backend.view replay) lastReturn pc text
    (∀ operand ∈ insn.sources ++ insn.destinations, replay.Truthful arch operand ∧
      (arch = replay.arch → ∀ r, operand.register? = some r → replay.registerValue? r.name = some operand.value)) ∧
    ∀ operand ∈ insn.destinations, operand.isMemoryAccess = false := by
  obtain ⟨uses, hfaithful, hsources, hdestinations⟩ :=
    Decode.decode_faithful arch.description (Backend.view replay) lastReturn pc text
  dsimp only
  rw [hsources, hdestinations]
  constructor
  · intro operand hoperand
    have huse : ∃ use ∈ uses, use.operand = operand := by
      obtain hread | hwritten := List.mem_append.mp hoperand
      · obtain ⟨use, huse, heq⟩ := List.mem_map.mp hread
        exact ⟨use, (List.mem_filter.mp huse).1, heq⟩
      · obtain ⟨use, huse, heq⟩ := List.mem_map.mp hwritten
        exact ⟨use, (List.mem_filter.mp huse).1, heq⟩
    obtain ⟨use, huse, rfl⟩ := huse
    have htruthful := truthful_of_faithful (hfaithful use huse)
    refine ⟨htruthful, fun harch r hr => ?_⟩
    subst harch
    obtain ⟨value, hvalue⟩ := Option.isSome_iff_exists.mp
      (isSome_registerValue? ((hfaithful use huse).register r hr).1)
    rw [htruthful.value r hr, hvalue, Option.getD_some]
  · -- an address being computed is only ever read
    intro operand hoperand
    obtain ⟨use, huse, rfl⟩ := List.mem_map.mp hoperand
    obtain ⟨huse, hwrites⟩ := List.mem_filter.mp huse
    rw [← Bool.not_eq_true]
    intro haccess
    rw [((hfaithful use huse).access haccess).2] at hwrites
    cases hwrites

/-- On the middle step, the byte is the later of the two that the first step wrote, and the low byte of the counter is
read though only the whole counter is recorded. -/
theorem decode_tells_truth_at_rewrites :
    ∃ replay ∈ (ofRecording rewrites).toOption, ∃ insn,
      insn = Decode.decode replay.arch.description (Backend.view replay.back) 0 0x1001 "mov BYTE PTR [edi],cl" ∧
      .ofMemory 0x2000 4 ∈ insn.destinations ∧
      Word.ofByte ((replay.back.machine.memory 0x2000).getD 0) = 4 ∧
      .ofRegister ⟨"cl", ⟨"ecx", ["cx", "ch", "cl"]⟩⟩ 5 ∈ insn.sources ∧
      replay.back.registerValue? "cl" = some 5 ∧
      ∀ operand ∈ insn.destinations, operand.isMemoryAccess = false := by
  have hready : ∃ replay ∈ (ofRecording rewrites).toOption,
      let insn := Decode.decode replay.arch.description (Backend.view replay.back) 0 0x1001 "mov BYTE PTR [edi],cl"
      .ofMemory 0x2000 4 ∈ insn.destinations ∧
        .ofRegister ⟨"cl", ⟨"ecx", ["cx", "ch", "cl"]⟩⟩ 5 ∈ insn.sources := by
    decide +kernel
  obtain ⟨replay, hreplay, hbyte, hlow⟩ := hready
  obtain ⟨htruthful, haccess⟩ := decode_tells_truth replay.back replay.arch 0 0x1001 "mov BYTE PTR [edi],cl"
  refine ⟨replay, hreplay, _, rfl, hbyte, ?_, hlow, ?_, haccess⟩
  · exact ((htruthful _ (List.mem_append_right _ hbyte)).1.byte _ rfl).symm
  · exact (htruthful _ (List.mem_append_left _ hlow)).2 (arch_back replay).symm _ rfl

end Replay

end TraceSlice
